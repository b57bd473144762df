import Mathlib.Data.List.MinMax
import ServerWall.Proxy.Admission

/-!
# Connections to the backends of a pool

`Backend` and `ConnectionGuard` (`serverwall-core/src/types.rs`), the balancers
(`serverwall-core/src/balancer`), and `find_backend_by_tag` (`serverwall-proxy/src/pipeline.rs`). A
request chooses a backend and then makes a guard, which counts it until it ends. A balancer does not see
the guards to come, and by a cookie the limit is not looked at (`limits_respected`, `limit_exceeded`). A
choice is one step, and the hash of `ipHash` is a parameter.
-/

namespace ServerWall.Http

open Schema Core Relation List Option

/-! ## Backends -/

structure LiveBackend where
  backend : Backend
  enabled : Bool
  healthy : Bool := true
  (activeConnections totalConnections : Nat := 0)

namespace LiveBackend

def isAvailable (b : LiveBackend) : Bool := b.enabled && b.healthy &&
    (b.backend.maxConnections.map fun max => decide (b.activeConnections < max)).getD true

def addGuard (b : LiveBackend) : LiveBackend := { b with
    activeConnections := b.activeConnections + 1
    totalConnections := b.totalConnections + 1 }

/-- A guard is dropped. A live one is counted, so there is something to subtract from. -/
def dropGuard (b : LiveBackend) : LiveBackend := { b with activeConnections := b.activeConnections - 1 }

def setHealthy (healthy : Bool) (b : LiveBackend) : LiveBackend := { b with healthy }

variable (b : LiveBackend)
include b

@[simp] theorem addGuard_backend : b.addGuard.backend = b.backend := rfl
@[simp] theorem dropGuard_backend : b.dropGuard.backend = b.backend := rfl
@[simp] theorem addGuard_active : b.addGuard.activeConnections = b.activeConnections + 1 := rfl
@[simp] theorem dropGuard_active : b.dropGuard.activeConnections = b.activeConnections - 1 := rfl
omit b

@[simp] theorem setHealthy_backend (healthy : Bool) (b : LiveBackend) :
    (b.setHealthy healthy).backend = b.backend := rfl
@[simp] theorem setHealthy_active (healthy : Bool) (b : LiveBackend) :
    (b.setHealthy healthy).activeConnections = b.activeConnections := rfl

end LiveBackend

open LiveBackend (addGuard addGuard_active dropGuard)

def livePool (outside : Outside) (pool : BackendPoolConfig) : List LiveBackend := pool.backend.filterMap fun config =>
    (buildBackend outside config).map fun backend => { backend, enabled := config.enabled }

/-! ## Balancers -/

section

variable (pool : List LiveBackend)

def available : List (LiveBackend × Nat) := pool.zipIdx.filter (·.1.isAvailable)

def RoundRobin.select (counter : Nat) : Option Nat × Nat :=
  let indices := (available pool).map (·.2)
  if indices.isEmpty then (none, counter)
  else (indices[counter % indices.length]?, (counter + 1) % 2 ^ 64)

/-- Of backends with equally few connections the first. -/
def LeastConnections.select : Option Nat := ((available pool).argmin fun entry => entry.1.activeConnections).map (·.2)

def IpHash.select (hash : IpAddr → Nat) (ip : IpAddr) : Option Nat :=
  let indices := (available pool).map (·.2)
  indices[hash ip % indices.length]?

def select (hash : IpAddr → Nat) (method : BalanceMethod) (counter : Nat) (ip : IpAddr) : Option Nat × Nat :=
  match method with
  | .roundRobin => RoundRobin.select pool counter
  | .leastConnections => (LeastConnections.select pool, counter)
  | .ipHash => (IpHash.select pool hash ip, counter)
  -- the first request of a session has no cookie
  | .stickySession => RoundRobin.select pool counter

def findBackendByTag (tag : Text) : Option Nat := pool.findIdx? fun b => b.backend.tag == tag && b.enabled && b.healthy

variable {pool}

end

/-! ## Requests at the same time -/

structure Connections where
  pool : List LiveBackend
  counters : Nat → Nat
  /-- The backends chosen for requests whose guard is not made yet. -/
  chosen : List Nat
  guards : List Nat

inductive Event where
  | arrive (frontend : Nat) (method : BalanceMethod) (cookie : Option Text) (ip : IpAddr)
  | guard (i : Nat)
  | finish (i : Nat)
  | checked (i : Nat) (healthy : Bool)

namespace Connections

def start (pool : List LiveBackend) : Connections where
  pool
  counters := fun _ => 0
  chosen := []
  guards := []

variable (hash : IpAddr → Nat)

/-- The choice of a request; the cookie matters for sticky sessions only. -/
def choose (s : Connections) (frontend : Nat) (method : BalanceMethod) (cookie : Option Text)
    (ip : IpAddr) : Option Nat × Nat :=
  let tag := if method = .stickySession then cookie else none
  match tag.bind (findBackendByTag s.pool) with
  | some i => (some i, s.counters frontend)
  | none => select s.pool hash method (s.counters frontend) ip

/-- One event; `none` if it cannot happen. A request for which there is no backend is answered
with an error and leaves nothing behind. -/
def step (s : Connections) : Event → Option Connections
  | .arrive frontend method cookie ip =>
    let (choice, counter) := s.choose hash frontend method cookie ip
    some { s with
      counters := Function.update s.counters frontend counter
      chosen := choice.toList ++ s.chosen }
  | .guard i =>
    if i ∈ s.chosen then
      some { s with
        pool := s.pool.modify i LiveBackend.addGuard
        chosen := s.chosen.erase i
        guards := i :: s.guards }
    else none
  | .finish i =>
    if i ∈ s.guards then
      some { s with
        pool := s.pool.modify i LiveBackend.dropGuard
        guards := s.guards.erase i }
    else none
  | .checked i healthy => some { s with pool := s.pool.modify i (.setHealthy healthy) }

def choice (s : Connections) : Event → Option Nat
  | .arrive frontend method cookie ip => (s.choose hash frontend method cookie ip).1
  | _ => none

/-- The backend chosen has room for the request besides those it was chosen for before. -/
def Roomy (s : Connections) (event : Event) : Prop :=
  ∀ i ∈ s.choice hash event, ∀ b ∈ s.pool[i]?, ∀ max ∈ b.backend.maxConnections,
    b.activeConnections + s.chosen.count i < max

def Next (s s' : Connections) : Prop := ∃ event, s.step hash event = some s'

def NextRoomy (s s' : Connections) : Prop := ∃ event, s.Roomy hash event ∧ s.step hash event = some s'

def Counts (s : Connections) : Prop := ∀ i, ∀ b ∈ s.pool[i]?, b.activeConnections = s.guards.count i

def Within (s : Connections) : Prop :=
  ∀ i : Nat, ∀ b ∈ s.pool[i]?, ∀ max ∈ b.backend.maxConnections, b.activeConnections ≤ max

/-- The limits hold, even after all guards to come. -/
def Bounded (s : Connections) : Prop := ∀ i, ∀ b ∈ s.pool[i]?, ∀ max ∈ b.backend.maxConnections,
    b.activeConnections + s.chosen.count i ≤ max

variable {hash} {s s' : Connections}

theorem step_cases (hs : s.step hash event = some s') :
    (s'.pool = s.pool ∧ s'.guards = s.guards ∧ s'.chosen = (s.choice hash event).toList ++ s.chosen) ∨
    (∃ i ∈ s.chosen, s.choice hash event = none ∧ s'.pool = s.pool.modify i addGuard ∧
      s'.guards = i :: s.guards ∧ s'.chosen = s.chosen.erase i) ∨
    (∃ i ∈ s.guards, s.choice hash event = none ∧ s'.pool = s.pool.modify i dropGuard ∧
      s'.guards = s.guards.erase i ∧ s'.chosen = s.chosen) ∨
    ∃ i healthy, s.choice hash event = none ∧ s'.pool = s.pool.modify i (.setHealthy healthy) ∧
      s'.guards = s.guards ∧ s'.chosen = s.chosen := by
  cases event with
  | arrive frontend method cookie ip =>
    cases hs
    exact .inl ⟨rfl, rfl, rfl⟩
  | guard i =>
    obtain ⟨hmem, hs'⟩ := ite_none_right_eq_some.mp hs
    cases hs'
    exact .inr (.inl ⟨i, hmem, rfl, rfl, rfl, rfl⟩)
  | finish i =>
    obtain ⟨hmem, hs'⟩ := ite_none_right_eq_some.mp hs
    cases hs'
    exact .inr (.inr (.inl ⟨i, hmem, rfl, rfl, rfl, rfl⟩))
  | checked i healthy =>
    cases hs
    exact .inr (.inr (.inr ⟨i, healthy, rfl, rfl, rfl, rfl⟩))

theorem mem_modify {pool : List LiveBackend} {b : LiveBackend} (hb : b ∈ (pool.modify i f)[j]?) :
    ∃ old ∈ pool[j]?, b = if i = j then f old else old := by
  rw [getElem?_modify] at hb
  obtain ⟨old, hold, rfl⟩ := map_eq_some_iff.mp hb
  exact ⟨old, hold, rfl⟩

theorem Counts.step (hco : s.Counts) (hs : s.step hash event = some s') : s'.Counts := by
  intro j b hb
  obtain ⟨hp, hg, -⟩ | ⟨i, -, -, hp, hg, -⟩ | ⟨i, hmem, -, hp, hg, -⟩ |
    ⟨i, healthy, -, hp, hg, -⟩ := step_cases hs <;> rw [hp] at hb <;> rw [hg]
  · exact hco j b hb
  · obtain ⟨old, hold, rfl⟩ := mem_modify hb
    have hc := hco j old hold
    rw [count_cons]
    by_cases hij : i = j <;> simp [hij, hc]
  · obtain ⟨old, hold, rfl⟩ := mem_modify hb
    have hc := hco j old hold
    rw [count_erase]
    by_cases hij : i = j <;> simp [hij, hc]
  · obtain ⟨old, hold, rfl⟩ := mem_modify hb
    have hc := hco j old hold
    by_cases hij : i = j <;> simp [hij, hc]

theorem Bounded.step (hbou : s.Bounded) (hr : s.Roomy hash event) (hs : s.step hash event = some s') : s'.Bounded := by
  intro j b hb max hmax
  obtain ⟨hp, -, hc⟩ | ⟨i, hmem, -, hp, -, hc⟩ | ⟨i, -, -, hp, -, hc⟩ |
    ⟨i, healthy, -, hp, -, hc⟩ := step_cases hs <;> rw [hp] at hb <;> rw [hc]
  · have hbo := hbou j b hb max hmax
    cases hch : s.choice hash event with
    | none => simpa using hbo
    | some i =>
      -- the only place where a choice adds to what is counted
      by_cases hij : i = j
      · subst hij
        have hro := hr i hch b hb max hmax
        simp only [toList_some, singleton_append, count_cons_self]
        omega
      · simpa [count_cons, hij] using hbo
  · obtain ⟨old, hold, rfl⟩ := mem_modify hb
    by_cases hij : i = j
    · subst hij
      have hbo := hbou i old hold max (by simpa using hmax)
      have hpos : 0 < s.chosen.count i := count_pos_iff.mpr hmem
      simp only [↓reduceIte, addGuard_active, count_erase_self]
      omega
    · have hbo := hbou j old hold max (by simpa [hij] using hmax)
      simpa [hij, count_erase_of_ne (Ne.symm hij)] using hbo
  · obtain ⟨old, hold, rfl⟩ := mem_modify hb
    have hbo := hbou j old hold max (by split at hmax <;> exact hmax)
    split
    · simp only [LiveBackend.dropGuard_active]
      omega
    · exact hbo
  · obtain ⟨old, hold, rfl⟩ := mem_modify hb
    have hbo := hbou j old hold max (by split at hmax <;> exact hmax)
    split <;> exact hbo

variable {pool : List LiveBackend}

variable (hi : ∀ b ∈ pool, b.activeConnections = 0)
include hi

theorem counts_of_run (hrun : ReflTransGen (Next hash) (start pool) s) : s.Counts := by
  induction hrun with
  | refl => exact fun i b hb => hi b (mem_of_getElem? hb)
  | tail _ hn ih =>
    obtain ⟨event, hs⟩ := hn
    exact ih.step hs

theorem bounded_of_run (hrun : ReflTransGen (NextRoomy hash) (start pool) s) : s.Bounded := by
  induction hrun with
  | refl =>
    intro i b hb max _
    simp [start, hi b (mem_of_getElem? hb)]
  | tail _ hn ih =>
    obtain ⟨event, hr, hs⟩ := hn
    exact ih.step hr hs

omit hi

theorem exists_guarded (hb : s.pool[i]? = some b) :
    ∃ s' b', ReflTransGen (Next hash) s s' ∧ s'.pool[i]? = some b' ∧ b'.backend = b.backend ∧
      b'.activeConnections = b.activeConnections + s.chosen.count i := by
  -- one guard of the backend after the other
  induction hc : s.chosen.count i generalizing s b with
  | zero => exact ⟨s, b, .refl, hb, rfl, rfl⟩
  | succ n ih =>
    have hmem : i ∈ s.chosen := count_pos_iff.mp (by omega)
    let next : Connections :=
      { s with
        pool := s.pool.modify i addGuard
        chosen := s.chosen.erase i
        guards := i :: s.guards }
    have hn : s.step hash (.guard i) = some next := if_pos hmem
    have hf : next.pool[i]? = some b.addGuard := by simp [next, hb]
    have hl : next.chosen.count i = n := by simp [next, count_erase_self, hc]
    obtain ⟨s', b', hrun, hb', hba, ha⟩ := ih hf hl
    refine ⟨s', b', .head ⟨.guard i, hn⟩ hrun, hb', hba, ?_⟩
    rw [ha, addGuard_active]
    omega

theorem exceeds_of_crowded (hc : ¬ s.Roomy hash event) : ∃ s', ReflTransGen (Next hash) s s' ∧ ¬ s'.Within := by
  simp only [Roomy, not_forall] at hc
  obtain ⟨i, hch, b, hb, max, hmax, hfu⟩ := hc
  cases event with
  | arrive frontend method cookie ip =>
    let next : Connections :=
      { s with
        counters := Function.update s.counters frontend (s.choose hash frontend method cookie ip).2
        chosen := (s.choose hash frontend method cookie ip).1.toList ++ s.chosen }
    have hn : s.step hash (.arrive frontend method cookie ip) = some next := rfl
    have hco : next.chosen.count i = s.chosen.count i + 1 := by
      have hp : (s.choose hash frontend method cookie ip).1 = some i := hch
      simp [next, hp]
    have hf : next.pool[i]? = some b := hb
    obtain ⟨s', b', hrun, hb', hba, ha⟩ := exists_guarded hf
    refine ⟨s', .head ⟨_, hn⟩ hrun, fun hw => ?_⟩
    have hl := hw i b' hb' max (hba ▸ hmax)
    omega
  | guard | finish | checked => cases hch

theorem idle_livePool (outside) (config) :
    ∀ b ∈ livePool outside config, b.activeConnections = 0 := by
  intro b hb
  obtain ⟨entry, -, hbu⟩ := mem_filterMap.mp hb
  obtain ⟨backend, -, rfl⟩ := map_eq_some_iff.mp hbu
  rfl

variable (hash)

/-- **Connections and limits.** -/
theorem limits_respected (outside : Outside) (config : BackendPoolConfig) :
    (∀ s, ReflTransGen (Next hash) (start (livePool outside config)) s → s.Counts) ∧
    (∀ s, ReflTransGen (NextRoomy hash) (start (livePool outside config)) s → s.Within) ∧
    ∀ s event, ReflTransGen (Next hash) (start (livePool outside config)) s → ¬ s.Roomy hash event →
      ∃ s', ReflTransGen (Next hash) (start (livePool outside config)) s' ∧ ¬ s'.Within := by
  have hidle := idle_livePool outside config
  refine ⟨fun s hrun => counts_of_run hidle hrun, fun s hrun i b hb max hmax => ?_, fun s event hrun hcrowded => ?_⟩
  · have hbound := bounded_of_run hidle hrun i b hb max hmax
    omega
  · obtain ⟨s', hon, hexceeds⟩ := exceeds_of_crowded hcrowded
    exact ⟨s', hrun.trans hon, hexceeds⟩

def singlePool : BackendPoolConfig where
  name := "app"
  backend := [{ name := "app-1", address := "10.0.0.1:8080", maxConnections := some 1 }]

def singleGuarded : Connections where
  pool := (livePool .simple singlePool).map LiveBackend.addGuard
  counters := Function.update (fun _ => 0) 0 1
  chosen := []
  guards := [0]

theorem single_within : singleGuarded.Counts ∧ singleGuarded.Within := by
  have hchosen : NextRoomy (fun _ => 0) (start (livePool .simple singlePool)) { start (livePool .simple singlePool) with
        counters := singleGuarded.counters, chosen := [0] } := by
    refine ⟨.arrive 0 .roundRobin none (.v4 192 0 2 1), ?_, rfl⟩
    intro i hi b hb max hmax
    cases hi; cases hb; cases hmax
    decide
  have hguarded : NextRoomy (fun _ => 0) { start (livePool .simple singlePool) with
        counters := singleGuarded.counters, chosen := [0] } singleGuarded :=
    ⟨.guard 0, fun _ hi => (not_mem_none _ hi).elim, rfl⟩
  have hrun := (ReflTransGen.single hchosen).tail hguarded
  obtain ⟨hcounts, hwithin, -⟩ := limits_respected (fun _ => 0) .simple singlePool
  refine ⟨hcounts _ (ReflTransGen.mono ?_ _ _ hrun), hwithin _ hrun⟩
  rintro s s' ⟨event, -, hstep⟩
  exact ⟨event, hstep⟩

def run (s : Connections) (events : List Event) : Option Connections := events.foldlM (step hash) s

/-- Two requests choose the backend before either makes its guard; or the second one, while
the first is being served, chooses it by its cookie. Either way it has two connections. -/
theorem limit_exceeded : (livePool .simple singlePool).map (·.backend.maxConnections) = [some 1] ∧
    ((start (livePool .simple singlePool)).run (fun _ => 0)
        [.arrive 0 .roundRobin none (.v4 192 0 2 1), .arrive 0 .roundRobin none (.v4 192 0 2 2),
          .guard 0, .guard 0]).map (·.pool.map (·.activeConnections)) = some [2] ∧
    ((start (livePool .simple singlePool)).run (fun _ => 0) [.arrive 0 .stickySession none (.v4 192 0 2 1), .guard 0,
          .arrive 0 .stickySession (some "app-1@") (.v4 192 0 2 1),
          .guard 0]).map (·.pool.map (·.activeConnections)) = some [2] :=
  ⟨rfl, rfl, rfl⟩

end Connections

end ServerWall.Http
