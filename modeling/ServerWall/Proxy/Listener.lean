import Mathlib.Algebra.GroupWithZero.Nat
import Mathlib.Data.List.Basic
import ServerWall.Lib.FairRuns

/-!
# The listener of a frontend

`TcpListenerTask` (`serverwall-proxy/src/listener/tcp_listener.rs`): the counter with
`dispatch_connection`, and `accept_loop_multi` with an accept task for each address, a channel of 64
connections and the dispatch loop. A handler that panics leaves the counter up (`counts_of_run`,
`accounted_iff`), in the end for good (`refuses_for_good`).
-/

namespace ServerWall.Listener

open Relation List Option

variable {C : Type}

/-! ## The counter -/

theorem sum_map_set {α : Type} (f : α → Nat) {xs : List α} {x : α}
    (h : xs[i]? = some x) (y : α) : ((xs.set i y).map f).sum + f x = (xs.map f).sum + f y := by
  induction xs generalizing i with
  | nil => cases h
  | cons z zs ih =>
    cases i with
    | zero =>
      cases h
      simp only [set_cons_zero, map_cons, sum_cons]
      omega
    | succ i =>
      have hr := ih (i := i) h
      simp only [set_cons_succ, map_cons, sum_cons]
      omega

structure Accounting (C : Type) where
  maxConnections : Option Nat
  activeConnections : Nat
  /-- The connections whose handler task has not ended. -/
  running : List C
  panicked : List C

inductive HandlerEvent (C : Type) where
  | dispatch (c : C)
  /-- A handler returns, and its task subtracts from the counter. -/
  | returns (c : C)
  | panics (c : C)

namespace Accounting

def new (maxConnections : Option Nat) : Accounting C where
  maxConnections
  activeConnections := 0
  running := []
  panicked := []

def refuses (a : Accounting C) : Bool :=
  match a.maxConnections with
  | some max => decide (a.activeConnections ≥ max)
  | none => false

def dispatchConnection (a : Accounting C) (c : C) : Accounting C := if a.refuses then a
  else { a with activeConnections := a.activeConnections + 1, running := c :: a.running }

variable [DecidableEq C]

def step (a : Accounting C) : HandlerEvent C → Option (Accounting C)
  | .dispatch c => some (a.dispatchConnection c)
  | .returns c =>
    if c ∈ a.running then
      some { a with
        activeConnections := a.activeConnections - 1
        running := a.running.erase c }
    else none
  | .panics c =>
    if c ∈ a.running then
      some { a with running := a.running.erase c, panicked := c :: a.panicked }
    else none

def Next (a a' : Accounting C) : Prop := ∃ event, a.step event = some a'

/-- The handlers that the counter has not been told of the end of. -/
def unreturned (a : Accounting C) : Nat := a.running.length + a.panicked.length

/-- The counter counts the handlers that have not returned, and keeps to the maximum. -/
structure Counts (a : Accounting C) : Prop where
  active : a.activeConnections = a.unreturned
  within : ∀ max ∈ a.maxConnections, a.activeConnections ≤ max

/-- What the counter is for: it is the number of running handlers and within the maximum, and
a connection is refused only while the maximum of handlers is running. -/
structure Accounted (a : Accounting C) : Prop where
  active : a.activeConnections = a.running.length
  within : ∀ max ∈ a.maxConnections, a.activeConnections ≤ max
  full : a.refuses → a.maxConnections = some a.running.length

variable {a a' : Accounting C}

omit [DecidableEq C] in
theorem refuses_iff : a.refuses ↔ ∃ max ∈ a.maxConnections, max ≤ a.activeConnections := by
  cases hmax : a.maxConnections with
  | none | some max => simp [refuses, hmax]

omit [DecidableEq C] in
theorem lt_of_not_refuses (h : ¬ a.refuses) : ∀ max ∈ a.maxConnections, a.activeConnections < max :=
  fun max hmax => not_le.mp fun hle => h (refuses_iff.mpr ⟨max, hmax, hle⟩)

theorem step_cases (hs : a.step event = some a') : a' = a ∨ (∃ c, ¬ a.refuses ∧
      a' = { a with activeConnections := a.activeConnections + 1, running := c :: a.running }) ∨
    (∃ c ∈ a.running, a' = { a with activeConnections := a.activeConnections - 1, running := a.running.erase c }) ∨
    ∃ c ∈ a.running, a' = { a with running := a.running.erase c, panicked := c :: a.panicked } := by
  cases event with
  | dispatch c =>
    simp only [step, dispatchConnection, some.injEq] at hs
    split at hs
    · exact .inl hs.symm
    · next hr => exact .inr (.inl ⟨c, hr, hs.symm⟩)
  | returns c =>
    obtain ⟨hmem, ha'⟩ := ite_none_right_eq_some.mp hs
    exact .inr (.inr (.inl ⟨c, hmem, (some.inj ha').symm⟩))
  | panics c =>
    obtain ⟨hmem, ha'⟩ := ite_none_right_eq_some.mp hs
    exact .inr (.inr (.inr ⟨c, hmem, (some.inj ha').symm⟩))

omit [DecidableEq C] in
theorem counts_new (maxConnections : Option Nat) : (new maxConnections : Accounting C).Counts :=
  ⟨rfl, fun _ _ => Nat.zero_le _⟩

theorem Counts.step (h : a.Counts) (hn : a.Next a') : a'.Counts := by
  obtain ⟨active, within⟩ := h
  obtain ⟨event, hs⟩ := hn
  unfold unreturned at active
  obtain rfl | ⟨c, hr, rfl⟩ | ⟨c, hmem, rfl⟩ | ⟨c, hmem, rfl⟩ := step_cases hs
  · exact ⟨active, within⟩
  · refine ⟨?_, lt_of_not_refuses hr⟩
    simp only [unreturned, length_cons]
    omega
  · have hone : 0 < a.running.length := length_pos_of_mem hmem
    refine ⟨?_, fun max hmax => (Nat.sub_le _ 1).trans (within max hmax)⟩
    simp only [unreturned, length_erase_of_mem hmem]
    omega
  · have hone : 0 < a.running.length := length_pos_of_mem hmem
    refine ⟨?_, within⟩
    simp only [unreturned, length_erase_of_mem hmem, length_cons]
    omega

theorem Counts.run (h : a.Counts) (hrun : ReflTransGen Next a a') : a'.Counts := by
  induction hrun with
  | refl => exact h
  | tail _ hn ih => exact ih.step hn

/-- **The counter counts the handlers that run and those that have panicked.** -/
theorem counts_of_run {maxConnections : Option Nat} (hrun : ReflTransGen Next (new maxConnections) a) : a.Counts :=
  (counts_new maxConnections).run hrun

theorem panicked_of_run (hrun : ReflTransGen Next a a') :
    a.panicked.length ≤ a'.panicked.length ∧ a'.maxConnections = a.maxConnections := by
  induction hrun with
  | refl => exact ⟨le_refl _, rfl⟩
  | tail _ hn ih =>
    obtain ⟨event, hs⟩ := hn
    obtain rfl | ⟨c, _, rfl⟩ | ⟨c, _, rfl⟩ | ⟨c, _, rfl⟩ := step_cases hs
    · exact ih
    · exact ih
    · exact ih
    · exact ⟨ih.1.trans (Nat.le_succ _), ih.2⟩

theorem refuses_for_good {max : Nat} (hc : a.Counts) (hmax : a.maxConnections = some max)
    (hp : max ≤ a.panicked.length) (hrun : ReflTransGen Next a a') : a'.refuses := by
  obtain ⟨hm, hs⟩ := panicked_of_run hrun
  have ha := (hc.run hrun).active
  unfold unreturned at ha
  exact refuses_iff.mpr ⟨max, hs.trans hmax, by omega⟩

theorem refuses_after_panic : (⟨some 1, 1, [], [1]⟩ : Accounting Nat).refuses :=
  refuses_for_good (a := ⟨some 1, 1, [], [1]⟩) ⟨rfl, by simp⟩ rfl (le_refl 1) (.single ⟨.dispatch 2, rfl⟩)

omit [DecidableEq C] in
theorem Counts.accounted_iff_calm (h : a.Counts) : a.Accounted ↔ a.panicked = [] := by
  have ha := h.active
  unfold unreturned at ha
  constructor
  · intro hac
    have hru := hac.active
    exact length_eq_zero_iff.mp (by omega)
  · intro hn
    rw [hn, length_nil, Nat.add_zero] at ha
    refine ⟨ha, h.within, fun hr => ?_⟩
    obtain ⟨max, hmax, hle⟩ := refuses_iff.mp hr
    have hw := h.within max hmax
    have hf : max = a.running.length := by omega
    exact hf ▸ hmax

/-- **The accounting is right as long as no handler has panicked**, and only so long: whatever
the connections and the ends of their handlers. -/
theorem accounted_iff {maxConnections : Option Nat} (hrun : ReflTransGen Next (new maxConnections) a) :
    a.Accounted ↔ a.panicked = [] :=
  (counts_of_run hrun).accounted_iff_calm

theorem accounted_second : (⟨some 1, 1, [2], []⟩ : Accounting Nat).Accounted := by
  have hrun : ReflTransGen Next (new (some 1)) (⟨some 1, 1, [2], []⟩ : Accounting Nat) :=
    .tail (.tail (.tail .refl ⟨.dispatch 1, rfl⟩) ⟨.returns 1, rfl⟩) ⟨.dispatch 2, rfl⟩
  exact (accounted_iff hrun).mpr rfl

/-- **A handler panicked, none is running, and the next connection is refused.** -/
theorem refused_with_none_running : ∃ a : Accounting Nat, ReflTransGen Next (new (some 1)) a ∧
      a.running = [] ∧ a.activeConnections = 1 ∧ a.refuses = true :=
  ⟨⟨some 1, 1, [], [1]⟩, .tail (.tail .refl ⟨.dispatch 1, rfl⟩) ⟨.panics 1, rfl⟩, rfl, rfl, rfl⟩

end Accounting

/-! ## The accept loop over several addresses -/

inductive AcceptTask (C : Type) where
  | starting
  /-- At its `select!`, about to ask for the signal. -/
  | selecting
  /-- In the same `select!`, after the signal was not there: about to accept. -/
  | polling
  /-- Waiting to put a connection into the channel. -/
  | sending (c : C)
  /-- For 50 ms after a failed `accept`. -/
  | sleeping
  | finished

/-- A bound address: the connections that wait to be accepted there, and its accept task. -/
structure Address (C : Type) where
  backlog : List C
  task : AcceptTask C

inductive DispatchLoop where
  /-- At its `select!`, about to ask for the signal. -/
  | selecting
  /-- In the same `select!`, after the signal was not there: about to receive. -/
  | receiving
  /-- Left; waiting for the accept task of this address to finish. -/
  | joining (i : Nat)
  | returned
  deriving DecidableEq

def capacity : Nat := 64

structure MultiLoop (C : Type) where
  signal : Bool
  addresses : List (Address C)
  queue : List C
  loop : DispatchLoop
  accounting : Accounting C

namespace Address

/-- One step of the accept task, if it has one, with the connection it sends. `fails` is the answer of the
operating system. A `send` never fails: the receiver outlives the accept tasks. -/
def advance (signal full fails : Bool) (address : Address C) : Option (Address C × Option C) :=
  match address.task with
  | .starting => some ({ address with task := if fails then .finished else .selecting }, none)
  | .selecting => some ({ address with task := if signal then .finished else .polling }, none)
  | .polling =>
    if fails then some ({ address with task := .sleeping }, none)
    else
      match address.backlog with
      | [] => some ({ address with task := .selecting }, none)
      | c :: rest => some ({ backlog := rest, task := .sending c }, none)
  | .sending c => if full then none else some ({ address with task := .selecting }, some c)
  | .sleeping => some ({ address with task := .selecting }, none)
  | .finished => none

def isFinished (address : Address C) : Bool :=
  match address.task with
  | .finished => true
  | _ => false

/-- The connections at an address, the accepted one first. -/
def pending (address : Address C) : List C :=
  match address.task with
  | .sending c => c :: address.backlog
  | _ => address.backlog

theorem pending_advance {address : Address C} {next} (h : address.advance signal full fails = some next) :
    next.2.toList ++ next.1.pending = address.pending := by
  obtain ⟨backlog, task⟩ := address
  cases task with
  | starting | selecting =>
    obtain rfl := some.inj h
    cases fails <;> cases signal <;> rfl
  | polling =>
    simp only [advance] at h
    split at h
    · cases h
      rfl
    · cases backlog <;> cases h <;> rfl
  | sending c =>
    obtain ⟨-, h⟩ := ite_none_left_eq_some.mp h
    cases h
    rfl
  | sleeping =>
    cases h
    rfl
  | finished => cases h

end Address

namespace MultiLoop

def start (n : Nat) (maxConnections : Option Nat) : MultiLoop C where
  signal := false
  addresses := List.replicate n { backlog := [], task := .starting }
  queue := []
  loop := .selecting
  accounting := .new maxConnections

def full (s : MultiLoop C) : Bool := decide (capacity ≤ s.queue.length)

def advanceTask (s : MultiLoop C) (i : Nat) (fails : Bool) : Option (MultiLoop C) := s.addresses[i]?.bind fun address =>
    (address.advance s.signal s.full fails).map fun next =>
      { s with addresses := s.addresses.set i next.1, queue := s.queue ++ next.2.toList }

/-- A step of the loop itself. The channel is closed when all accept tasks have finished. -/
def advanceLoop (s : MultiLoop C) : Option (MultiLoop C) :=
  match s.loop with
  | .selecting => some { s with loop := if s.signal then .joining 0 else .receiving }
  | .receiving =>
    match s.queue with
    | [] => some { s with loop := if s.addresses.all (·.isFinished) then .joining 0 else .selecting }
    | c :: rest =>
      some { s with
        queue := rest
        loop := .selecting
        accounting := s.accounting.dispatchConnection c }
  | .joining i =>
    match s.addresses[i]? with
    | none => some { s with loop := .returned }
    | some address => if address.isFinished then some { s with loop := .joining (i + 1) } else none
  | .returned => none

def arrive (s : MultiLoop C) (i : Nat) (c : C) : MultiLoop C :=
  { s with addresses := s.addresses.modify i fun address =>
      { address with backlog := address.backlog ++ [c] } }

inductive Listens (s : MultiLoop C) : MultiLoop C → Prop
  | task {i : Nat} {fails : Bool} {s' : MultiLoop C} (h : s.advanceTask i fails = some s') : Listens s s'
  | loop {s' : MultiLoop C} (h : s.advanceLoop = some s') : Listens s s'

inductive Outside [DecidableEq C] (s : MultiLoop C) : MultiLoop C → Prop
  | arrive (i : Nat) (c : C) : Outside s (s.arrive i c)
  | signal : Outside s { s with signal := true }
  | returns {c : C} {accounting : Accounting C}
      (h : s.accounting.step (.returns c) = some accounting) : Outside s { s with accounting }
  | panics {c : C} {accounting : Accounting C}
      (h : s.accounting.step (.panics c) = some accounting) : Outside s { s with accounting }

/-- Whom the loop takes out of the channel and dispatches in its next step. -/
def taken (s : MultiLoop C) : List C := if s.loop = .receiving then s.queue.take 1 else []

/-- A run, with the connections that arrived, each at its own address, and those that were dispatched. -/
inductive Run (home : C → Nat) : List C → List C → MultiLoop C → Prop
  | start (n maxConnections) : Run home [] [] (start n maxConnections)
  | arrive (c) (h : Run home arrived dispatched s) : Run home (arrived ++ [c]) dispatched (s.arrive (home c) c)
  | task (i fails) (h : Run home arrived dispatched s) (ht : s.advanceTask i fails = some s') :
      Run home arrived dispatched s'
  | loop (h : Run home arrived dispatched s) (hl : s.advanceLoop = some s') : Run home arrived (dispatched ++ s.taken) s'
  | outside (signal accounting) (h : Run home arrived dispatched s) :
      Run home arrived dispatched { s with signal, accounting }

variable {s s' : MultiLoop C}

theorem advanceTask_cases (h : s.advanceTask i fails = some s') :
    ∃ address next, s.addresses[i]? = some address ∧ address.advance s.signal s.full fails = some next ∧
      s' = { s with addresses := s.addresses.set i next.1, queue := s.queue ++ next.2.toList } := by
  obtain ⟨address, hat, hn⟩ := bind_eq_some_iff.mp h
  obtain ⟨next, ha, hs'⟩ := map_eq_some_iff.mp hn
  exact ⟨address, next, hat, ha, hs'.symm⟩

theorem advanceTask_eq {next : Address C × Option C} (hat : s.addresses[i]? = some address)
    (ha : address.advance s.signal s.full fails = some next) : s.advanceTask i fails =
      some { s with addresses := s.addresses.set i next.1, queue := s.queue ++ next.2.toList } := by
  rw [advanceTask, hat, bind_some, ha, map_some]

theorem advanceLoop_empty (hl : s.loop = .receiving) (hq : s.queue = []) : s.advanceLoop = some { s with
      loop := if s.addresses.all (·.isFinished) then .joining 0 else .selecting } := by
  simp only [advanceLoop, hl, hq]

theorem advanceLoop_dispatch (hl : s.loop = .receiving) (hq : s.queue = c :: rest) : s.advanceLoop = some { s with
      queue := rest
      loop := .selecting
      accounting := s.accounting.dispatchConnection c } := by
  simp only [advanceLoop, hl, hq]

/-- What the loop can do: ask for the signal, find the channel empty, dispatch, wait for one
task after the other, and return. -/
theorem advanceLoop_cases (h : s.advanceLoop = some s') :
    (s.loop = .selecting ∧ s' = { s with loop := if s.signal then .joining 0 else .receiving }) ∨
    (s.loop = .receiving ∧ s.queue = [] ∧ s' = { s with
        loop := if s.addresses.all (·.isFinished) then .joining 0 else .selecting }) ∨
    (s.loop = .receiving ∧ ∃ c rest, s.queue = c :: rest ∧ s' = { s with
        queue := rest
        loop := .selecting
        accounting := s.accounting.dispatchConnection c }) ∨
    (∃ i address, s.loop = .joining i ∧ s.addresses[i]? = some address ∧ address.isFinished ∧
      s' = { s with loop := .joining (i + 1) }) ∨
    ∃ i, s.loop = .joining i ∧ s.addresses[i]? = none ∧ s' = { s with loop := .returned } := by
  unfold advanceLoop at h
  cases hl : s.loop with
  | selecting =>
    rw [hl] at h
    exact .inl ⟨rfl, (some.inj h).symm⟩
  | receiving =>
    rw [hl] at h
    cases hq : s.queue with
    | nil =>
      rw [hq] at h
      exact .inr (.inl ⟨rfl, rfl, (some.inj h).symm⟩)
    | cons c rest =>
      rw [hq] at h
      exact .inr (.inr (.inl ⟨rfl, c, rest, rfl, (some.inj h).symm⟩))
  | joining i =>
    rw [hl] at h
    cases hat : s.addresses[i]? with
    | none =>
      simp only [hat] at h
      exact .inr (.inr (.inr (.inr ⟨i, rfl, hat, (some.inj h).symm⟩)))
    | some address =>
      simp only [hat] at h
      obtain ⟨hf, hs'⟩ := ite_none_right_eq_some.mp h
      exact .inr (.inr (.inr (.inl ⟨i, address, rfl, hat, hf, (some.inj hs').symm⟩)))
  | returned =>
    rw [hl] at h
    cases h

/-- **Nobody is lost, dispatched twice or overtaken**, whatever the interleaving: at every address, those who
arrived are those who were dispatched, those in the channel and those who wait there, in this order. -/
theorem run_conserves {home : C → Nat} (h : Run home arrived dispatched s) (hat : s.addresses[i]? = some address) :
    (dispatched ++ s.queue).filter (home · == i) ++ address.pending = arrived.filter (home · == i) := by
  induction h generalizing i address with
  | start n =>
    obtain rfl := eq_of_mem_replicate (mem_of_getElem? hat)
    rfl
  | arrive c h ih =>
    obtain ⟨a, ha, rfl⟩ := map_eq_some_iff.mp ((getElem?_modify ..).symm.trans hat)
    rw [filter_append _ [c], ← ih ha, append_assoc]
    by_cases hc : home c = i
    · cases ht : a.task <;> simp [hc, ht, Address.pending, MultiLoop.arrive]
    · simp [hc, MultiLoop.arrive]
  | task j fails h ht ih =>
    obtain ⟨a, next, ha, hn, rfl⟩ := advanceTask_cases ht
    have hp := Address.pending_advance hn
    -- whom a task sends on has arrived at the address of the task
    have hj : ∀ c ∈ next.2.toList, home c = j := fun c hc => by
      have hm : c ∈ filter (home · == j) _ := ih ha ▸ mem_append_right _ (hp ▸ mem_append_left _ hc)
      simpa using (mem_filter.mp hm).2
    by_cases hij : j = i
    · subst hij
      cases (getElem?_set_self (List.getElem?_eq_some_iff.mp ha).1).symm.trans hat
      have hf : filter (home · == j) next.2.toList = next.2.toList := filter_eq_self.mpr (by simpa using hj)
      simp [← ih ha, ← hp, hf]
    · have hf : filter (home · == i) next.2.toList = [] := by simp_all
      simpa [hf] using ih ((getElem?_set_ne hij).symm.trans hat)
  | loop h hl ih =>
    rcases advanceLoop_cases hl with ⟨hs, rfl⟩ | ⟨hs, hq, rfl⟩ | ⟨hs, c, rest, hq, rfl⟩ | ⟨_, _, hs, _, _, rfl⟩ | ⟨_, hs, _, rfl⟩ <;>
      simpa [taken, hs, *] using ih hat
  | outside signal accounting h ih => exact ih hat

theorem run_conserves_second : ∃ s : MultiLoop Nat, Run (fun _ => 0) [7, 8] [7] s ∧
    ∃ address, s.addresses[0]? = some address ∧ s.queue ++ address.pending = [8] := by
  have h := Run.arrive 8 (.arrive 7 (@Run.start _ (fun _ => 0) 1 none))
  have h := h.task 0 false rfl |>.task 0 false rfl |>.task 0 false rfl |>.task 0 false rfl
  have h := h.loop rfl |>.loop rfl
  exact ⟨_, h, _, rfl, (cons.inj (run_conserves h (i := 0) rfl)).2⟩

variable [DecidableEq C]

theorem accounting_of_step (hs : Either Listens Outside s s') :
    s'.accounting = s.accounting ∨ s.accounting.Next s'.accounting := by
  rcases hs with (⟨h⟩ | ⟨h⟩) | ho
  · obtain ⟨_, _, _, _, rfl⟩ := advanceTask_cases h
    exact .inl rfl
  · obtain ⟨_, rfl⟩ | ⟨_, _, rfl⟩ | ⟨_, c, _, _, rfl⟩ | ⟨_, _, _, _, _, rfl⟩ | ⟨_, _, _, rfl⟩ := advanceLoop_cases h
    · exact .inl rfl
    · exact .inl rfl
    · exact .inr ⟨.dispatch c, rfl⟩
    · exact .inl rfl
    · exact .inl rfl
  · cases ho with
    | arrive i c | signal => exact .inl rfl
    | returns h | panics h => exact .inr ⟨_, h⟩

end MultiLoop

end ServerWall.Listener
