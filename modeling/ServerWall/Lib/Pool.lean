import ServerWall.Lib.Prog

/-!
# Interleaved processes, and the protocol machine they refine

A `Machine` runs any number of processes, each one a `Prog`, over one world; a list of labels is one
interleaving. `View` keeps the world, and the role and the protocol record of each process. `Moves` is
what one step can do to it, and the machine refines it if the code of every role follows the protocol
(`step_moves`); `reach_invariant` is the induction. Every step leaves an event in the log.
-/

namespace ServerWall

open List System Function Prog
open Option (some)

/-- What the processes run on: what an operation does to the world by the environment's choice `Out`, which
one starts a child, the code of every role, who may be started from outside, and what a fault does. -/
structure Machine (Op : Type) (Res : Op → Type) (Role Out Fault World Resp : Type) where
  exec : (op : Op) → Out → World → Option (Res op × World)
  spawned : Op → Option Role
  code : Role → Prog Op Res Resp
  /-- Whether the role may be started while processes of these roles run. -/
  admits : Role → List Role → Bool
  /-- The processes a fault takes with it. -/
  lost : Fault → Nat → Role → Bool
  reboot : Fault → World → World

inductive Event (Op : Type) (Res : Op → Type) (Role Resp : Type) where
  | began (pid : Nat) (role : Role)
  | did (pid : Nat) (role : Role) (op : Op) (r : Res op)
  | ended (pid : Nat) (role : Role) (x : Resp)
  /-- The processes for which the test holds are lost. -/
  | crashed (lost : Nat → Role → Bool)

inductive Label (Role Out Fault : Type) where
  | launch (role : Role)
  | act (pid : Nat) (out : Out)
  | finish (pid : Nat)
  | crash (fault : Fault)

structure Proc (Op : Type) (Res : Op → Type) (Role Agent Resp : Type) where
  role : Role
  agent : Agent
  prog : Prog Op Res Resp

/-- The whole machine. Process numbers are never reused. -/
structure System (Op : Type) (Res : Op → Type) (Role Agent World Resp : Type) where
  world : World
  procs : Nat → Option (Proc Op Res Role Agent Resp) := fun _ => none
  next : Nat := 0
  log : List (Event Op Res Role Resp) := []

structure Party (Role Agent : Type) where
  role : Role
  agent : Agent

structure View (Op : Type) (Res : Op → Type) (Role Agent World Resp : Type) where
  world : World
  parties : Nat → Option (Party Role Agent)
  next : Nat
  log : List (Event Op Res Role Resp)

variable {Op : Type} {Res : Op → Type} {Role Agent Out Fault World Resp : Type}

/-! ## The machine -/

namespace System

variable (M : Machine Op Res Role Out Fault World Resp) (P : Protocol Op Res Role Agent Resp)
variable (s : System Op Res Role Agent World Resp)

def roles : List Role := (List.range s.next).filterMap fun pid => (s.procs pid).map Proc.role

def launch (role : Role) : System Op Res Role Agent World Resp := { s with
    procs := update s.procs s.next (some ⟨role, P.start role, M.code role⟩)
    next := s.next + 1
    log := s.log ++ [.began s.next role] }

def advance (pid : Nat) (p : Proc Op Res Role Agent Resp) (e : Event Op Res Role Resp)
    (w : World) : System Op Res Role Agent World Resp :=
  { s with world := w, procs := update s.procs pid (some p), log := s.log ++ [e] }

/-- One step, with its event; `none` where the label is not possible. -/
def step : Label Role Out Fault → Option (Event Op Res Role Resp × System Op Res Role Agent World Resp)
  | .launch role => if M.admits role s.roles then some (.began s.next role, s.launch M P role) else none
  | .act pid out =>
    match s.procs pid with
    | some ⟨role, a, .vis op k⟩ =>
      match M.exec op out s.world with
      | some (r, w) =>
        let s' := s.advance pid ⟨role, P.track role a op r, k r⟩ (.did pid role op r) w
        match M.spawned op with
        | some child => some (.did pid role op r, s'.launch M P child)
        | none => some (.did pid role op r, s')
      | none => none
    | _ => none
  | .finish pid =>
    match s.procs pid with
    | some ⟨role, _, .pure x⟩ =>
      some (.ended pid role x,
        { s with procs := update s.procs pid none, log := s.log ++ [.ended pid role x] })
    | _ => none
  | .crash fault =>
    some (.crashed (M.lost fault), { s with
        world := M.reboot fault s.world
        procs := fun pid => (s.procs pid).filter fun p => !M.lost fault pid p.role
        log := s.log ++ [.crashed (M.lost fault)] })

def view : View Op Res Role Agent World Resp where
  world := s.world
  parties pid := (s.procs pid).map fun p => ⟨p.role, p.agent⟩
  next := s.next
  log := s.log

def run (s : System Op Res Role Agent World Resp) :
    List (Label Role Out Fault) → Option (System Op Res Role Agent World Resp)
  | [] => some s
  | l :: ls => match s.step M P l with
    | some (_, s') => run s' ls
    | none => none

/-- Every step of the run meets the condition `C` on the view before it and on
its event. -/
def along (C : View Op Res Role Agent World Resp → Event Op Res Role Resp → Bool)
    (s : System Op Res Role Agent World Resp) : List (Label Role Out Fault) → Bool
  | [] => true
  | l :: ls => match s.step M P l with
    | some (e, s') => C s.view e && along C s' ls
    | none => false

end System

/-! ## What a step does to a view -/

namespace View

variable (P : Protocol Op Res Role Agent Resp)
variable (v : View Op Res Role Agent World Resp)

def roles : List Role := (List.range v.next).filterMap fun pid => (v.parties pid).map Party.role

/-- Whether a running process satisfies a test. -/
def exists? (test : Nat → Party Role Agent → Bool) : Bool :=
  (List.range v.next).any fun pid => (v.parties pid).any (test pid)

def launch (role : Role) : View Op Res Role Agent World Resp := { v with
    parties := update v.parties v.next (some ⟨role, P.start role⟩)
    next := v.next + 1
    log := v.log ++ [.began v.next role] }

def advance (pid : Nat) (role : Role) (a : Agent) (e : Event Op Res Role Resp) (w : World) :
    View Op Res Role Agent World Resp :=
  { v with
    world := w
    parties := update v.parties pid (some ⟨role, a⟩)
    log := v.log ++ [e] }

abbrev did (pid : Nat) (role : Role) (op : Op) (r : Res op) (a : Agent) (w : World) : View Op Res Role Agent World Resp :=
  v.advance pid role a (.did pid role op r) w

def retire (pid : Nat) (e : Event Op Res Role Resp) : View Op Res Role Agent World Resp :=
  { v with parties := update v.parties pid none, log := v.log ++ [e] }

def restart (lost : Nat → Role → Bool) (w : World) : View Op Res Role Agent World Resp := { v with
    world := w
    parties := fun pid => (v.parties pid).filter fun p => !lost pid p.role
    log := v.log ++ [.crashed lost] }

def Live (pid : Nat) (role : Role) (a : Agent) : Prop := v.parties pid = some ⟨role, a⟩

variable {P v} {pid q : Nat} {role role' : Role} {a b : Agent}
variable {e : Event Op Res Role Resp}

@[simp] theorem live_launch : (v.launch P role).Live q role' b ↔
      if q = v.next then role' = role ∧ b = P.start role else v.Live q role' b := by
  unfold Live launch
  by_cases hq : q = v.next
  · subst hq
    simp only [update_self, some.injEq, Party.mk.injEq, if_pos]
    exact and_congr eq_comm eq_comm
  · simp [hq]

@[simp] theorem live_advance : (v.advance pid role a e w).Live q role' b ↔
      if q = pid then role' = role ∧ b = a else v.Live q role' b := by
  unfold Live advance
  by_cases hq : q = pid
  · subst hq
    simp only [update_self, some.injEq, Party.mk.injEq, if_pos]
    exact and_congr eq_comm eq_comm
  · simp [hq]

@[simp] theorem live_retire : (v.retire pid e).Live q role' b ↔ q ≠ pid ∧ v.Live q role' b := by
  unfold Live retire
  by_cases hq : q = pid <;> simp [hq]

@[simp] theorem live_restart : (v.restart lost w).Live q role' b ↔ v.Live q role' b ∧ lost q role' = false := by
  unfold Live restart
  rw [Option.filter_eq_some_iff, Bool.not_eq_true']

theorem Live.of_retire (h : (v.retire pid e).Live q role' b) : v.Live q role' b := (live_retire.mp h).2

theorem Live.of_restart (h : (v.restart lost w).Live q role' b) : v.Live q role' b := (live_restart.mp h).1

theorem Live.unique (h : v.Live pid role a) (h' : v.Live pid role' b) : role' = role ∧ b = a := by
  unfold Live at h h'
  rw [h] at h'
  simpa [eq_comm] using h'

theorem Live.of_advance (hb : (v.advance pid role a' e w).Live q role' b) :
    (q = pid ∧ role' = role ∧ b = a') ∨ (q ≠ pid ∧ v.Live q role' b) := by
  rw [live_advance] at hb
  split at hb
  · rename_i hq
    exact .inl ⟨hq, hb⟩
  · rename_i hq
    exact .inr ⟨hq, hb⟩

theorem live_back (hl : v.Live pid role a)
    (hb : (v.advance pid role a' e w).Live q role' b) : ∃ b₀, v.Live q role' b₀ := by
  rcases hb.of_advance with ⟨rfl, rfl, rfl⟩ | ⟨-, hb⟩
  · exact ⟨a, hl⟩
  · exact ⟨b, hb⟩

theorem live_self : (v.advance pid role a e w).Live pid role a := by
  rw [live_advance, if_pos rfl]
  exact ⟨rfl, rfl⟩

theorem live_other (hq : q ≠ pid) (hb : v.Live q role' b) : (v.advance pid role a e w).Live q role' b := by
  rwa [live_advance, if_neg hq]

theorem Live.of_launch (hb : (v.launch P role).Live q role' b) :
    v.Live q role' b ∨ (q = v.next ∧ role' = role ∧ b = P.start role) := by
  rw [live_launch] at hb
  split at hb
  · rename_i hq
    exact .inr ⟨hq, hb⟩
  · exact .inl hb

def Bounded (v : View Op Res Role Agent World Resp) : Prop := ∀ pid role a, v.Live pid role a → pid < v.next

theorem Bounded.launch (hb : v.Bounded) : (v.launch P role).Bounded := by
  intro q role' b hl
  rw [live_launch] at hl
  show q < v.next + 1
  split at hl
  · omega
  · have := hb q role' b hl
    omega

theorem Live.launch (hl : v.Live q role' b) (hb : v.Bounded) : (v.launch P role).Live q role' b := by
  have hq := hb q role' b hl
  rwa [live_launch, if_neg (by omega)]

theorem Bounded.advance (hb : v.Bounded) (hl : v.Live pid role' b) : (v.advance pid role a e w).Bounded := by
  intro q role'' b' hl'
  rw [live_advance] at hl'
  split at hl'
  · rename_i hq
    exact hq ▸ hb pid role' b hl
  · exact hb q role'' b' hl'

theorem Bounded.fewer {v' : View Op Res Role Agent World Resp} (hb : v.Bounded)
    (hn : v'.next = v.next) (hba : ∀ {q role b}, v'.Live q role b → v.Live q role b) : v'.Bounded := by
  intro q role' b hl
  rw [hn]
  exact hb q role' b (hba hl)

theorem exists?_eq_false (hb : v.Bounded) :
    v.exists? test = false ↔ ∀ pid role a, v.Live pid role a → test pid ⟨role, a⟩ = false := by
  simp only [exists?, any_eq_false, mem_range, Bool.not_eq_true]
  constructor
  · intro h pid role a hl
    have hpid := h pid (hb pid role a hl)
    rw [hl] at hpid
    simpa using hpid
  · intro h pid _
    cases hp : v.parties pid with
    | none => rfl
    | some p =>
      have hl : v.Live pid p.role p.agent := hp
      simpa using h pid p.role p.agent hl

end View

inductive Moves (M : Machine Op Res Role Out Fault World Resp) (P : Protocol Op Res Role Agent Resp)
    (v : View Op Res Role Agent World Resp) :
    Event Op Res Role Resp → View Op Res Role Agent World Resp → Prop
  | launch (role : Role) (hadmits : M.admits role v.roles = true) : Moves M P v (.began v.next role) (v.launch P role)
  | act (pid : Nat) (role : Role) (a : Agent) (op : Op) (out : Out) (r : Res op) (w : World)
      (hlive : v.Live pid role a) (hallowed : P.allowed role a op)
      (hexec : M.exec op out v.world = some (r, w)) (hspawn : M.spawned op = none) :
      Moves M P v (.did pid role op r) (v.advance pid role (P.track role a op r) (.did pid role op r) w)
  | spawn (pid : Nat) (role : Role) (a : Agent) (op : Op) (out : Out) (r : Res op) (w : World) (child : Role)
      (hlive : v.Live pid role a) (hallowed : P.allowed role a op)
      (hexec : M.exec op out v.world = some (r, w)) (hspawn : M.spawned op = some child) :
      Moves M P v (.did pid role op r)
        ((v.advance pid role (P.track role a op r) (.did pid role op r) w).launch P child)
  | finish (pid : Nat) (role : Role) (a : Agent) (x : Resp) (hlive : v.Live pid role a) (hends : P.ends role a x) :
      Moves M P v (.ended pid role x) (v.retire pid (.ended pid role x))
  | crash (fault : Fault) : Moves M P v (.crashed (M.lost fault)) (v.restart (M.lost fault) (M.reboot fault v.world))

inductive Reach (M : Machine Op Res Role Out Fault World Resp) (P : Protocol Op Res Role Agent Resp)
    (C : View Op Res Role Agent World Resp → Event Op Res Role Resp → Bool)
    (v₀ : View Op Res Role Agent World Resp) : View Op Res Role Agent World Resp → Prop
  | init : Reach M P C v₀ v₀
  | step {v v' : View Op Res Role Agent World Resp} {e : Event Op Res Role Resp}
      (hreach : Reach M P C v₀ v) (hcond : C v e = true) (hmove : Moves M P v e v') :
      Reach M P C v₀ v'

/-- **Invariants**: what holds at the start and survives every step that meets
the condition holds in every view reached. -/
theorem reach_invariant (I : View Op Res Role Agent World Resp → Prop) (hi : I v₀)
    (hs : ∀ {v v' e}, I v → C v e → Moves M P v e v' → I v') (hr : Reach M P C v₀ v) : I v := by
  induction hr with
  | init => exact hi
  | step _ hc hm ih => exact hs ih hc hm

/-! ## The machine refines its view -/

section

variable {M : Machine Op Res Role Out Fault World Resp} {P : Protocol Op Res Role Agent Resp}
variable {s s' : System Op Res Role Agent World Resp}

def System.Sound (P : Protocol Op Res Role Agent Resp) (s : System Op Res Role Agent World Resp) : Prop :=
  ∀ pid p, s.procs pid = some p → P.Follows p.role p.prog p.agent (P.ends p.role)

theorem System.view_roles : s.view.roles = s.roles := by
  unfold View.roles roles
  congr 1
  funext pid
  show ((s.procs pid).map _).map _ = _
  cases s.procs pid <;> rfl

theorem System.view_launch (role) : (s.launch M P role).view = s.view.launch P role := by
  simp only [view, launch, View.launch, View.mk.injEq, true_and, and_true]
  funext pid
  by_cases hpid : pid = s.next <;> simp [hpid]

theorem System.view_advance (pid : Nat) (p : Proc Op Res Role Agent Resp) (e : Event Op Res Role Resp) (w : World) :
    (s.advance pid p e w).view = s.view.advance pid p.role p.agent e w := by
  simp only [view, advance, View.advance, View.mk.injEq, true_and, and_true]
  funext q
  by_cases hq : q = pid <;> simp [hq]

theorem System.Sound.advance (hs : s.Sound P)
    (hp : P.Follows p.role p.prog p.agent (P.ends p.role)) : (s.advance pid p e w).Sound P := by
  intro q p' hp'
  by_cases hq : q = pid
  · subst hq
    simp only [System.advance, update_self, some.injEq] at hp'
    exact hp' ▸ hp
  · simp only [System.advance, update_of_ne hq] at hp'
    exact hs q p' hp'

theorem System.run_cons (hrun : s.run M P (l :: ls) = some s') :
    ∃ e s₁, s.step M P l = some (e, s₁) ∧ s₁.run M P ls = some s' := by
  rw [run] at hrun
  cases hst : s.step M P l with
  | none =>
    rw [hst] at hrun
    cases hrun
  | some out =>
    rw [hst] at hrun
    exact ⟨_, _, rfl, hrun⟩

variable (hc : ∀ role, P.Follows role (M.code role) (P.start role) (P.ends role))
include hc

theorem System.Sound.launch (hs : s.Sound P) (role) : (s.launch M P role).Sound P := by
  intro pid p hp
  by_cases hpid : pid = s.next
  · subst hpid
    simp only [System.launch, update_self, some.injEq] at hp
    subst hp
    exact hc role
  · simp only [System.launch, update_of_ne hpid] at hp
    exact hs pid p hp

/-- **Refinement**: if the code of every role follows the protocol, a step of
the machine is a step of the protocol machine. -/
theorem System.step_moves (hs : s.Sound P) (hst : s.step M P l = some (e, s')) :
    Moves M P s.view e s'.view ∧ s'.Sound P := by
  cases l with
  | launch role =>
    simp only [step] at hst
    split at hst
    · rename_i ha
      cases hst
      rw [view_launch]
      exact ⟨.launch role (by rw [view_roles]; exact ha), hs.launch hc role⟩
    · cases hst
  | act pid out =>
    simp only [step] at hst
    split at hst
    · rename_i role a op k hpr
      have hf := hs pid _ hpr
      have hl : s.view.Live pid role a := by
        show (s.procs pid).map _ = _
        rw [hpr]
        rfl
      split at hst
      · rename_i r w he
        have hn : (s.advance pid ⟨role, P.track role a op r, k r⟩ (.did pid role op r) w).Sound P := hs.advance (hf.2 r)
        split at hst
        · rename_i child hsp
          cases hst
          rw [view_launch, view_advance]
          exact ⟨.spawn pid role a op out r w child hl hf.1 he hsp, hn.launch hc child⟩
        · rename_i hsp
          cases hst
          rw [view_advance]
          exact ⟨.act pid role a op out r w hl hf.1 he hsp, hn⟩
      · cases hst
    · cases hst
  | finish pid =>
    simp only [step] at hst
    split at hst
    · rename_i role a x hpr
      cases hst
      have hen : P.ends role a x := hs pid _ hpr
      have hl : s.view.Live pid role a := by
        show (s.procs pid).map _ = _
        rw [hpr]
        rfl
      have hv : view { s with
          procs := update s.procs pid none, log := s.log ++ [.ended pid role x] } =
            s.view.retire pid (.ended pid role x) := by
        simp only [view, View.retire, View.mk.injEq, true_and, and_true]
        funext q
        by_cases hq : q = pid <;> simp [hq]
      rw [hv]
      refine ⟨.finish pid role a x hl hen, ?_⟩
      intro q p hp
      by_cases hq : q = pid
      · simp [hq] at hp
      · simp only [update_of_ne hq] at hp
        exact hs q p hp
    · cases hst
  | crash fault =>
    cases hst
    refine ⟨?_, ?_⟩
    · have hv : view { s with
          world := M.reboot fault s.world
          procs := fun pid => (s.procs pid).filter fun p => !M.lost fault pid p.role
          log := s.log ++ [.crashed (M.lost fault)] } = s.view.restart (M.lost fault) (M.reboot fault s.world) := by
        simp only [view, View.restart, View.mk.injEq, true_and, and_true]
        funext pid
        rw [Option.filter_map]
        rfl
      rw [hv]
      exact .crash fault
    · intro pid p hp
      exact hs pid p (Option.filter_eq_some_iff.mp hp).1

/-- **Runs refine reachability**: a run whose steps all meet the condition ends
in a view the protocol machine reaches by such steps. -/
theorem System.run_reach : ∀ (ls : List (Label Role Out Fault)) (s : System Op Res Role Agent World Resp), s.Sound P →
      Reach M P C v₀ s.view → s.run M P ls = some s' → s.along M P C ls → Reach M P C v₀ s'.view
  | [], s, _, hr, hrun, _ => by
    cases some.inj hrun
    exact hr
  | l :: ls, s, hs, hr, hrun, hC => by
    obtain ⟨e, s₁, hst, hrun⟩ := run_cons hrun
    simp only [along, hst, Bool.and_eq_true] at hC
    obtain ⟨hm, hs₁⟩ := step_moves hc hs hst
    exact run_reach ls s₁ hs₁ (.step hr hC.1 hm) hrun hC.2

theorem System.run_sound (hs : s.Sound P) (hrun : s.run M P ls = some s') : s'.Sound P := by
  induction ls generalizing s with
  | nil =>
    cases some.inj hrun
    exact hs
  | cons l ls ih =>
    obtain ⟨_, _, hst, hrun⟩ := run_cons hrun
    exact ih (step_moves hc hs hst).2 hrun

omit hc

/-! ## Parts of a run -/

theorem System.run_append_eq : s.run M P (ls ++ ls') = (s.run M P ls).bind fun s₁ => s₁.run M P ls' := by
  induction ls generalizing s with
  | nil => rfl
  | cons l ls ih =>
    rw [cons_append, run, run]
    cases s.step M P l with
    | none => rfl
    | some out => exact ih

theorem System.along_append (hrun : s.run M P ls = some s₁) :
    s.along M P C (ls ++ ls') = (s.along M P C ls && s₁.along M P C ls') := by
  induction ls generalizing s with
  | nil =>
    cases some.inj hrun
    rfl
  | cons l ls ih =>
    obtain ⟨_, _, hs, hrun⟩ := run_cons hrun
    simp only [cons_append, along, hs]
    rw [ih hrun, Bool.and_assoc]

theorem System.step_log (hs : s.step M P l = some (e, s')) :
    ∃ rest, s'.log = s.log ++ e :: rest ∧ ∀ x ∈ rest, ∃ pid role, x = .began pid role := by
  have hn : ∀ x ∈ ([] : List (Event Op Res Role Resp)), ∃ pid role, x = .began pid role := nofun
  cases l with
  | launch role | finish pid =>
    simp only [step] at hs
    split at hs
    · cases hs
      exact ⟨[], rfl, hn⟩
    · cases hs
  | act pid out =>
    simp only [step] at hs
    split at hs
    · split at hs
      · split at hs
        · cases hs
          refine ⟨[.began s.next _], append_assoc _ _ _, fun x hx => ?_⟩
          exact ⟨_, _, mem_singleton.mp hx⟩
        · cases hs
          exact ⟨[], rfl, hn⟩
      · cases hs
    · cases hs
  | crash fault =>
    cases hs
    exact ⟨[], rfl, hn⟩

theorem System.run_log (hrun : s.run M P ls = some s') : s.log ⊆ s'.log := by
  induction ls generalizing s with
  | nil =>
    cases some.inj hrun
    exact List.Subset.refl _
  | cons l ls ih =>
    obtain ⟨_, _, hs, hrun⟩ := run_cons hrun
    obtain ⟨rest, hlog, -⟩ := step_log hs
    refine List.Subset.trans ?_ (ih hrun)
    rw [hlog]
    exact subset_append_left _ _

def System.Passes (M : Machine Op Res Role Out Fault World Resp)
    (P : Protocol Op Res Role Agent Resp) (s : System Op Res Role Agent World Resp)
    (labels : List (Label Role Out Fault)) (s₁ : System Op Res Role Agent World Resp)
    (e : Event Op Res Role Resp) (s₂ : System Op Res Role Agent World Resp) : Prop :=
  ∃ before l after, labels = before ++ l :: after ∧ s.run M P before = some s₁ ∧ s₁.step M P l = some (e, s₂)

/-- A step of a run: what came before it meets the condition, so does the step, and
what comes after leads to the end. -/
theorem System.Passes.split (h : s.Passes M P labels s₁ e s₂) (hrun : s.run M P labels = some s')
    (hC : s.along M P C labels) : ∃ before l after, s.run M P before = some s₁ ∧ s.along M P C before ∧
      s₁.step M P l = some (e, s₂) ∧ C s₁.view e ∧ s₂.run M P after = some s' := by
  obtain ⟨before, l, after, rfl, hb, hs⟩ := h
  rw [along_append hb, Bool.and_eq_true, along] at hC
  rw [run_append_eq, hb, Option.bind_some, run] at hrun
  simp only [hs, Bool.and_eq_true] at hC hrun
  exact ⟨before, l, after, hb, hC.1, hs, hC.2.1, hrun⟩

/-- **An operation in the log is a step of the run.** -/
theorem System.passes_of_did (hrun : s.run M P labels = some s')
    (hnew : Event.did pid role op r ∉ s.log) (hmem : Event.did pid role op r ∈ s'.log) :
    ∃ s₁ s₂, s.Passes M P labels s₁ (.did pid role op r) s₂ := by
  induction labels generalizing s with
  | nil =>
    cases some.inj hrun
    exact absurd hmem hnew
  | cons l ls ih =>
    obtain ⟨e, s₀, hs, hrun⟩ := run_cons hrun
    by_cases hh : Event.did pid role op r ∈ s₀.log
    · -- it is the event of the first step: the rest that step adds are starts
      obtain ⟨rest, hlog, hb⟩ := step_log hs
      rw [hlog, mem_append, mem_cons] at hh
      rcases hh with hold | rfl | hr
      · exact absurd hold hnew
      · exact ⟨s, s₀, [], l, ls, rfl, rfl, hs⟩
      · obtain ⟨q, role', hq⟩ := hb _ hr
        cases hq
    · obtain ⟨s₁, s₂, before, l', after, rfl, hbe, hs'⟩ := ih hrun hh
      refine ⟨s₁, s₂, l :: before, l', after, rfl, ?_, hs'⟩
      rwa [run, hs]

end

/-! ## A process by itself

A run in which one process acts and nobody else does is a run of its program
against the world. -/

section

variable {α : Type} {M : Machine Op Res Role Out Fault World Resp}
variable {s s' s'' : System Op Res Role Agent World Resp}

/-- A program run against the world, with the environment's choices: what is left of
it, and the world after. It starts no child. -/
def Prog.play (M : Machine Op Res Role Out Fault World Resp) :
    Prog Op Res α → List Out → World → Option (Prog Op Res α × World)
  | p, [], w => some (p, w)
  | .pure _, _ :: _, _ => none
  | .vis op k, out :: outs, w => match M.spawned op, M.exec op out w with
    | none, some (r, w') => (k r).play M outs w'
    | _, _ => none

inductive Prog.Ends (M : Machine Op Res Role Out Fault World Resp) : Prog Op Res α → World → α → World → Prop
  | pure (x : α) (w : World) : Prog.Ends M (.pure x) w x w
  | vis {op : Op} {k : Res op → Prog Op Res α} {out : Out} {r : Res op} {w w₁ w' : World} {x : α}
      (hspawn : M.spawned op = none) (hexec : M.exec op out w = some (r, w₁))
      (hrest : Prog.Ends M (k r) w₁ x w') : Prog.Ends M (.vis op k) w x w'

theorem Prog.ends_iff_play {p : Prog Op Res α} {x : α} :
    p.Ends M w x w' ↔ ∃ outs, p.play M outs w = some (.pure x, w') := by
  constructor
  · intro h
    induction h with
    | pure x w => exact ⟨[], rfl⟩
    | @vis op k out r w w₁ w' x hs he _ ih =>
      obtain ⟨outs, hp⟩ := ih
      refine ⟨out :: outs, ?_⟩
      simp only [play, hs, he]
      exact hp
  · rintro ⟨outs, hp⟩
    induction outs generalizing p w with
    | nil =>
      cases p with
      | pure y =>
        obtain ⟨hy, rfl⟩ := Prod.mk.inj (some.inj hp)
        cases hy
        exact .pure _ _
      | vis op k => cases (Prod.mk.inj (some.inj hp)).1
    | cons out outs ih =>
      cases p with
      | pure y => cases hp
      | vis op k =>
        simp only [play] at hp
        split at hp
        · rename_i r w₁ hs he
          exact .vis hs he (ih hp)
        · cases hp

@[simp] theorem Prog.ends_pure : (Pure.pure x : Prog Op Res α).Ends M w y w' ↔ y = x ∧ w' = w := by
  constructor
  · rintro ⟨⟩
    exact ⟨rfl, rfl⟩
  · rintro ⟨rfl, rfl⟩
    exact .pure _ _

theorem Prog.ends_perform (hs : M.spawned op = none) :
    (perform op).Ends M w r w' ↔ ∃ out, M.exec op out w = some (r, w') := by
  constructor
  · intro h
    cases h with
    | vis _ he hr =>
      obtain ⟨rfl, rfl⟩ := ends_pure.mp hr
      exact ⟨_, he⟩
  · rintro ⟨out, he⟩
    exact .vis hs he (.pure _ _)

/-- **Sequencing**: the first program ends, and the rest goes on from there. -/
theorem Prog.ends_bind {β : Type} {p : Prog Op Res α} {f : α → Prog Op Res β} {y : β} :
    (p >>= f).Ends M w y w'' ↔ ∃ x w', p.Ends M w x w' ∧ (f x).Ends M w' y w'' := by
  constructor
  · induction p generalizing w with
    | pure x =>
      intro h
      exact ⟨x, w, .pure x w, h⟩
    | vis op k ih =>
      intro h
      cases h with
      | vis hs he hr =>
        obtain ⟨x, w', hp, hf⟩ := ih _ hr
        exact ⟨x, w', .vis hs he hp, hf⟩
  · rintro ⟨x, w', hp, hf⟩
    induction hp with
    | pure x w => exact hf
    | vis hs he _ ih => exact .vis hs he (ih hf)

theorem Prog.ends_exceptT_bind_ok {ε β : Type} {x : ExceptT ε (Prog Op Res) α}
    {f : α → ExceptT ε (Prog Op Res) β} {y : β} {w w'' : World} :
    (x >>= f).run.Ends M w (.ok y) w'' ↔ ∃ v w', x.run.Ends M w (.ok v) w' ∧ (f v).run.Ends M w' (.ok y) w'' := by
  have hrun : (x >>= f).run = x.run >>= fun r => ExceptT.bindCont f r := rfl
  rw [hrun, ends_bind]
  constructor
  · rintro ⟨r, w', hx, hr⟩
    cases r with
    | ok v => exact ⟨v, w', hx, hr⟩
    | error e => cases (ends_pure.mp hr).1
  · rintro ⟨v, w', hx, hf⟩
    exact ⟨.ok v, w', hx, hf⟩

theorem System.run_append (hrun : s.run M P ls = some s')
    (hrun' : s'.run M P ls' = some s'') : s.run M P (ls ++ ls') = some s'' := by
  rwa [run_append_eq, hrun]

theorem System.run_play : ∀ {s : System Op Res Role Agent World Resp} {a : Agent} {p : Prog Op Res Resp},
    s.procs pid = some ⟨role, a, p⟩ → p.play M outs s.world = some (q, w') →
    ∃ s', s.run M P (outs.map (.act pid)) = some s' ∧ s'.world = w' ∧ s'.next = s.next ∧
      ∃ a', s'.procs pid = some ⟨role, a', q⟩ := by
  induction outs with
  | nil =>
    intro s a p hpr hp
    cases p <;> cases hp <;>
      exact ⟨s, rfl, rfl, rfl, a, hpr⟩
  | cons out outs ih =>
    intro s a p hpr hp
    cases p with
    | pure x => cases hp
    | vis op k =>
      simp only [play] at hp
      split at hp
      · rename_i r w hs he
        have hst : s.step M P (.act pid out) = some (.did pid role op r,
            s.advance pid ⟨role, P.track role a op r, k r⟩ (.did pid role op r) w) := by
          simp only [step, hpr, he, hs]
        obtain ⟨s', hrun, hw, hn, hpro⟩ := ih
          (s := s.advance pid ⟨role, P.track role a op r, k r⟩ (.did pid role op r) w)
          (update_self _ _ _) hp
        refine ⟨s', ?_, hw, hn, hpro⟩
        rwa [map_cons, run, hst]
      · cases hp

/-- **A process by itself**: it is started, acts and ends, and the world is what its
program makes of it. -/
theorem System.run_solo (ha : M.admits role s.roles) (hp : (M.code role).play M outs s.world = some (.pure x, w')) :
    ∃ s', s.run M P (.launch role :: (outs.map (.act s.next) ++ [.finish s.next])) = some s' ∧
      s'.world = w' ∧ s'.next = s.next + 1 := by
  have hs : s.step M P (.launch role) = some (.began s.next role, s.launch M P role) := by
    simp only [step, ha, if_pos]
  have hse : (s.launch M P role).procs s.next = some ⟨role, P.start role, M.code role⟩ := update_self _ _ _
  obtain ⟨s₁, hrun, hw, hn, a, hpr⟩ := run_play (P := P) hse hp
  have hend : s₁.run M P [.finish s.next] = some { s₁ with
      procs := update s₁.procs s.next none
      log := s₁.log ++ [.ended s.next role x] } := by
    simp only [run, step, hpr]
  have hac := run_append hrun hend
  rw [run, hs]
  exact ⟨_, hac, hw, hn⟩

end

end ServerWall
