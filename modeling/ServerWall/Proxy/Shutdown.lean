import Mathlib.Algebra.Order.BigOperators.Group.List
import Mathlib.Algebra.Order.Group.Nat
import ServerWall.Proxy.Listener

/-!
# The end of a listener

`accept_loop_multi` after the signal to stop. The dispatch loop waits for the accept tasks, and one with
a connection in its hands waits for a place in the channel, which nobody empties any more: the loop
returns in every fair run only if what is on its way fits (`returns_iff`, `never_returns`).
-/

namespace ServerWall.Listener

open Relation List AcceptTask DispatchLoop Option

variable {C : Type}

/-! ## Weights of the accept tasks -/

namespace AcceptTask

/-- The task has a connection that the channel has no place for yet. -/
def blocked : AcceptTask C → Nat
  | .sending _ => 1
  | _ => 0

def unaware : AcceptTask C → Nat
  | .polling => 1
  | _ => 0

/-- The connections the task can still send after the signal. -/
def holding (task : AcceptTask C) : Nat := task.unaware + task.blocked

def remaining : AcceptTask C → Nat
  | .starting | .sending _ | .sleeping => 2
  | .selecting => 1
  | .polling => 3
  | .finished => 0

end AcceptTask

namespace Address

variable {signal full fails : Bool} {address : Address C} {next : Address C × Option C}

open AcceptTask

theorem isFinished_iff : address.isFinished ↔ address.task = .finished := by
  unfold isFinished
  cases address.task <;> simp

theorem advance_cases (h : address.advance signal full fails = some next) :
    (address.task = .starting ∧ (next.1.task = .finished ∨ next.1.task = .selecting) ∧ next.2 = none) ∨
    (address.task = .selecting ∧ next.1.task = (if signal then .finished else .polling) ∧ next.2 = none) ∨
    (address.task = .polling ∧ (next.1.task = .sleeping ∨ next.1.task = .selecting ∨ ∃ c, next.1.task = .sending c) ∧
      next.2 = none) ∨ (∃ c, address.task = .sending c ∧ full = false ∧ next.1.task = .selecting ∧ next.2 = some c) ∨
    (address.task = .sleeping ∧ next.1.task = .selecting ∧ next.2 = none) := by
  unfold advance at h
  cases ht : address.task with
  | starting =>
    rw [ht] at h
    cases h
    cases fails <;> simp
  | selecting | sleeping =>
    rw [ht] at h
    cases h
    simp
  | polling =>
    simp only [ht] at h
    split at h
    · cases h
      simp
    · split at h
      · cases h
        simp
      · cases h
        simp
  | sending c =>
    simp only [ht] at h
    obtain ⟨hr, hn⟩ := ite_none_left_eq_some.mp h
    cases hn
    simp [hr]
  | finished =>
    rw [ht] at h
    cases h

variable (h : address.advance true full fails = some next)
include h

theorem advance_holding : next.1.task.holding + next.2.toList.length ≤ address.task.holding := by
  obtain ⟨ht, hn | hn, hs⟩ | ⟨ht, hn, hs⟩ | ⟨ht, hn | hn | ⟨c, hn⟩, hs⟩ | ⟨c, ht, _, hn, hs⟩ |
    ⟨ht, hn, hs⟩ := advance_cases h <;>
  simp [ht, hn, hs, holding, unaware, blocked]

theorem advance_remaining : next.1.task.remaining < address.task.remaining := by
  obtain ⟨ht, hn | hn, _⟩ | ⟨ht, hn, _⟩ | ⟨ht, hn | hn | ⟨c, hn⟩, _⟩ | ⟨c, ht, _, hn, _⟩ | ⟨ht, hn, _⟩ :=
    advance_cases h <;>
  simp [ht, hn, remaining]

omit h

theorem advance_blocked (h : address.advance signal full fails = some next) :
    address.task.blocked ≤ next.1.task.blocked + next.2.toList.length := by
  obtain ⟨ht, _, _⟩ | ⟨ht, _, _⟩ | ⟨ht, _, _⟩ | ⟨c, ht, _, hn, hs⟩ | ⟨ht, _, _⟩ := advance_cases h <;>
  simp_all [blocked]

theorem advance_full (h : address.advance signal true fails = some next) : next.2 = none := by
  obtain ⟨_, _, hs⟩ | ⟨_, _, hs⟩ | ⟨_, _, hs⟩ | ⟨c, _, hr, _⟩ | ⟨_, _, hs⟩ := advance_cases h
  all_goals first | exact hs | cases hr

/-- A finished task does nothing, and any other does something, unless it waits for a place in
the channel. -/
theorem exists_advance (signal : Bool) (hl : address.task ≠ .finished) (hr : address.task.blocked = 1 → full = false) :
    ∃ next, address.advance signal full false = some next := by
  unfold advance
  cases ht : address.task with
  | starting | selecting | sleeping => exact ⟨_, rfl⟩
  | polling => cases hb : address.backlog <;> exact ⟨_, rfl⟩
  | sending c => exact ⟨_, if_neg (by simp [hr (by rw [ht]; rfl)])⟩
  | finished => exact absurd ht hl

end Address

namespace MultiLoop

variable {s s' : MultiLoop C}

def tasks (s : MultiLoop C) : List (AcceptTask C) := s.addresses.map (·.task)

def weigh (f : AcceptTask C → Nat) (s : MultiLoop C) : Nat := (s.tasks.map f).sum

/-- The place that the loop makes when it is past the signal and there is something to take. -/
def spare (s : MultiLoop C) : Nat := if s.loop = .receiving ∧ s.queue ≠ [] then 1 else 0

/-- The channel has room for all that is on its way. -/
def Room (s : MultiLoop C) : Prop := s.queue.length + s.weigh holding ≤ capacity + s.spare

theorem advanceTask_tasks (h : s.advanceTask i fails = some s') :
    ∃ (address : Address C) (next : Address C × Option C), s.tasks[i]? = some address.task ∧
      address.advance s.signal s.full fails = some next ∧ s'.tasks = s.tasks.set i next.1.task ∧
      s'.queue = s.queue ++ next.2.toList ∧ s'.loop = s.loop ∧ s'.signal = s.signal ∧
      s'.addresses.length = s.addresses.length := by
  obtain ⟨address, next, hat, ha, rfl⟩ := advanceTask_cases h
  refine ⟨address, next, ?_, ha, ?_, rfl, rfl, rfl, length_set⟩
  · rw [tasks, getElem?_map, hat, map_some]
  · exact map_set

@[simp] theorem tasks_arrive (s : MultiLoop C) (i : Nat) (c : C) : (s.arrive i c).tasks = s.tasks := by
  refine ext_getElem? fun j => ?_
  simp only [tasks, arrive, getElem?_map, getElem?_modify]
  cases s.addresses[j]? with
  | none => rfl
  | some address => by_cases hij : i = j <;> simp [hij]

theorem weigh_set (f : AcceptTask C → Nat) (hat : s.tasks[i]? = some task) (hset : s'.tasks = s.tasks.set i task') :
    s'.weigh f + f task = s.weigh f + f task' := by
  unfold weigh
  rw [hset]
  exact sum_map_set f hat task'

theorem weigh_holding (s : MultiLoop C) : s.weigh holding = s.weigh unaware + s.weigh blocked := by
  unfold weigh
  induction s.tasks with
  | nil => rfl
  | cons task rest ih =>
    simp only [map_cons, sum_cons, holding]
    omega

theorem weigh_eq_zero (h : ∀ i : Nat, ∀ task ∈ s.tasks[i]?, f task = 0) : s.weigh f = 0 := by
  refine sum_eq_zero fun weight hmem => ?_
  obtain ⟨task, ht, rfl⟩ := mem_map.mp hmem
  obtain ⟨i, hi⟩ := mem_iff_getElem?.mp ht
  exact h i task hi

theorem outside_cases [DecidableEq C] (h : s.Outside s') : s'.tasks = s.tasks ∧ s'.queue = s.queue ∧ s'.loop = s.loop ∧
      s'.addresses.length = s.addresses.length ∧ (s.signal → s'.signal) := by
  cases h with
  | arrive i c => exact ⟨tasks_arrive s i c, rfl, rfl, length_modify .., id⟩
  | signal => exact ⟨rfl, rfl, rfl, rfl, fun _ => rfl⟩
  | returns _ | panics _ => exact ⟨rfl, rfl, rfl, rfl, id⟩

/-! ## With room, the loop returns -/

theorem Room.task (hr : s.Room) (hs : s.signal) (h : s.advanceTask i fails = some s') : s'.Room := by
  obtain ⟨address, next, hat, ha, hta, hq, hl, _⟩ := advanceTask_tasks h
  rw [hs] at ha
  have hse := Address.advance_holding ha
  have hw := weigh_set holding hat hta
  have hsp : s.spare ≤ s'.spare := by
    unfold spare
    rw [hl, hq]
    by_cases ht : s.loop = .receiving ∧ s.queue ≠ []
    · simp [ht]
    · simp [ht]
  unfold Room at hr ⊢
  rw [hq, length_append]
  omega

theorem Room.loop (hr : s.Room) (hs : s.signal) (h : s.advanceLoop = some s') : s'.Room := by
  unfold Room spare at hr ⊢
  obtain ⟨hl, rfl⟩ | ⟨hl, he, rfl⟩ | ⟨hl, c, rest, hq, rfl⟩ |
    ⟨i, address, hl, _, _, rfl⟩ | ⟨i, hl, _, rfl⟩ := advanceLoop_cases h
  · simpa [hl, hs, weigh, tasks] using hr
  · simpa [he, weigh, tasks] using hr
  · -- the connection that is taken makes the spare place
    simp only [hl, hq, length_cons] at hr
    simp only [weigh, tasks] at hr ⊢
    simp at hr ⊢
    omega
  · simpa [hl, weigh, tasks] using hr
  · simpa [hl, weigh, tasks] using hr

def loopRank (n : Nat) : DispatchLoop → Nat
  | .receiving => n + 3
  | .selecting => n + 2
  | .joining i => n - i + 1
  | .returned => 0

def rank (s : MultiLoop C) : Nat := s.weigh remaining + loopRank s.addresses.length s.loop

theorem rank_task (hs : s.signal) (h : s.advanceTask i fails = some s') : s'.rank < s.rank := by
  obtain ⟨address, next, hat, ha, ht, _, hlo, _, hl⟩ := advanceTask_tasks h
  rw [hs] at ha
  have hle := Address.advance_remaining ha
  have hw := weigh_set remaining hat ht
  unfold rank
  rw [hlo, hl]
  omega

theorem rank_loop (hs : s.signal) (h : s.advanceLoop = some s') : s'.rank < s.rank := by
  unfold rank
  obtain ⟨hl, rfl⟩ | ⟨hl, _, rfl⟩ | ⟨hl, c, rest, _, rfl⟩ |
    ⟨i, address, hl, hat, _, rfl⟩ | ⟨i, hl, _, rfl⟩ := advanceLoop_cases h
  · simp [hl, hs, loopRank, weigh, tasks]
  · by_cases hall : s.addresses.all (·.isFinished) <;> simp [hl, hall, loopRank, weigh, tasks]
  · simp [hl, loopRank, weigh, tasks]
  · have hlt : i < s.addresses.length := (List.getElem?_eq_some_iff.mp hat).1
    simp only [hl, loopRank, weigh, tasks]
    omega
  · simp [hl, loopRank, weigh, tasks]

theorem exists_listens (hr : s.Room) (hl : s.loop ≠ .returned) : ∃ t, s.Listens t := by
  cases hat : s.loop with
  | selecting => exact ⟨_, .loop (by rw [advanceLoop, hat])⟩
  | receiving =>
    cases hq : s.queue with
    | nil => exact ⟨_, .loop (advanceLoop_empty hat hq)⟩
    | cons c rest => exact ⟨_, .loop (advanceLoop_dispatch hat hq)⟩
  | joining i =>
    cases ha : s.addresses[i]? with
    | none => exact ⟨_, .loop (by simp only [advanceLoop, hat, ha]; rfl)⟩
    | some address =>
      by_cases hf : address.isFinished
      · exact ⟨_, .loop (by simp only [advanceLoop, hat, ha]; exact if_pos hf)⟩
      · have ht : s.tasks[i]? = some address.task := by rw [tasks, getElem?_map, ha, map_some]
        have hn : address.task.blocked = 1 → s.full = false := by
          intro hb
          have hone : 1 ≤ address.task.holding := hb ▸ Nat.le_add_left _ _
          have hh : _ ≤ s.weigh holding := le_sum_of_mem (mem_map_of_mem (mem_of_getElem? ht))
          have hs : s.spare = 0 := if_neg (by simp [hat])
          unfold Room at hr
          simp only [full, decide_eq_false_iff_not]
          omega
        obtain ⟨next, hne⟩ := Address.exists_advance s.signal (fun h => hf (Address.isFinished_iff.mpr h)) hn
        exact ⟨_, .task (advanceTask_eq ha hne)⟩
  | returned => exact absurd hat hl

variable [DecidableEq C]

theorem descent : Descent (σ := MultiLoop C) Listens Outside (fun s => s.signal ∧ s.Room)
    (fun s => s.loop = .returned) rank where
  canMove := fun ⟨_, hr⟩ hl => exists_listens hr hl
  keeps := by
    rintro s t ⟨hs, hr⟩ ((⟨h⟩ | ⟨h⟩) | ho)
    · obtain ⟨_, _, _, _, _, _, _, hsa, _⟩ := advanceTask_tasks h
      exact ⟨hsa ▸ hs, hr.task hs h⟩
    · refine ⟨?_, hr.loop hs h⟩
      obtain ⟨_, rfl⟩ | ⟨_, _, rfl⟩ | ⟨_, _, _, _, rfl⟩ | ⟨_, _, _, _, _, rfl⟩ | ⟨_, _, _, rfl⟩ :=
        advanceLoop_cases h <;> exact hs
    · obtain ⟨ht, hq, hl, _, hst⟩ := outside_cases ho
      refine ⟨hst hs, ?_⟩
      unfold Room spare weigh at hr ⊢
      rwa [ht, hq, hl]
  lowers := by
    rintro s t ⟨hs, _⟩ (⟨h⟩ | ⟨h⟩)
    · exact rank_task hs h
    · exact rank_loop hs h
  spares := by
    rintro s t _ ho
    obtain ⟨ht, _, hl, hle, _⟩ := outside_cases ho
    unfold rank weigh
    rw [ht, hl, hle]

/-! ## Without room, it may never return -/

end MultiLoop

def DispatchLoop.HasJoined : DispatchLoop → Nat → Prop
  | .joining i, j => j < i
  | .returned, _ => True
  | _, _ => False

namespace MultiLoop

variable {s s' : MultiLoop C}

structure Sound (s : MultiLoop C) : Prop where
  bounded : s.queue.length ≤ capacity
  joined : ∀ i, s.loop.HasJoined i → ∀ task ∈ s.tasks[i]?, task = .finished

theorem sound_start (n : Nat) (maxConnections : Option Nat) : (start n maxConnections : MultiLoop C).Sound :=
  ⟨Nat.zero_le _, fun _ h => h.elim⟩

theorem Sound.task (hs : s.Sound) (h : s.advanceTask i fails = some s') : s'.Sound := by
  obtain ⟨address, next, hat, ha, hta, hq, hl, _⟩ := advanceTask_tasks h
  constructor
  · rw [hq]
    by_cases hfu : s.full
    · rw [hfu] at ha
      simpa [Address.advance_full ha] using hs.bounded
    · have hlt : s.queue.length < capacity := by simpa [full] using hfu
      have hone : next.2.toList.length ≤ 1 := by cases next.2 <;> simp
      rw [length_append]
      omega
  · intro j hj task ht
    rw [hl] at hj
    rw [hta, getElem?_set] at ht
    by_cases hij : i = j
    · -- a task that has been joined is finished, and has no step
      subst hij
      have hf := hs.joined i hj _ hat
      obtain ⟨hwas, _⟩ | ⟨hwas, _⟩ | ⟨hwas, _⟩ | ⟨_, hwas, _⟩ | ⟨hwas, _⟩ := Address.advance_cases ha <;>
      cases hwas.symm.trans hf
    · rw [if_neg hij] at ht
      exact hs.joined j hj task ht

theorem Sound.loop (hs : s.Sound) (h : s.advanceLoop = some s') : s'.Sound := by
  obtain ⟨bounded, joined⟩ := hs
  obtain ⟨hl, rfl⟩ | ⟨hl, _, rfl⟩ | ⟨hl, c, rest, hq, rfl⟩ |
    ⟨i, address, hl, hat, hf, rfl⟩ | ⟨i, hl, hn, rfl⟩ := advanceLoop_cases h
  · refine ⟨bounded, fun j hj => ?_⟩
    cases hsi : s.signal <;> simp [hsi, HasJoined] at hj
  · refine ⟨bounded, fun j hj => ?_⟩
    by_cases hall : s.addresses.all (·.isFinished) <;>
      simp [hall, HasJoined] at hj
  · refine ⟨?_, fun j hj => hj.elim⟩
    rw [hq, length_cons] at bounded
    exact (Nat.le_succ _).trans bounded
  · refine ⟨bounded, fun j hj task ht => ?_⟩
    rcases Nat.lt_succ_iff_lt_or_eq.mp hj with hb | rfl
    · exact joined j (by rw [hl]; exact hb) task ht
    · have hh : s.tasks[j]? = some address.task := by rw [tasks, getElem?_map, hat, map_some]
      cases hh.symm.trans ht
      exact Address.isFinished_iff.mp hf
  · refine ⟨bounded, fun j _ task ht => ?_⟩
    rcases Nat.lt_or_ge j i with hb | haf
    · exact joined j (by rw [hl]; exact hb) task ht
    · have hle : s.addresses.length ≤ j := (getElem?_eq_none_iff.mp hn).trans haf
      have ha : s.tasks[j]? = none := getElem?_eq_none_iff.mpr (by rwa [tasks, length_map])
      cases ha.symm.trans ht

/-- The loop has taken its last connection, and more are on their way than there are places. -/
structure Stuck (s : MultiLoop C) : Prop extends s.Sound where
  signal : s.signal = true
  left : s.loop ≠ .receiving
  crowded : capacity < s.queue.length + s.weigh blocked

theorem Stuck.not_returned (h : s.Stuck) : s.loop ≠ .returned := by
  intro hr
  have hz : s.weigh blocked = 0 := by
    refine weigh_eq_zero fun i task ht => ?_
    rw [h.joined i (by rw [hr]; trivial) task ht]
    rfl
  have hc := h.crowded
  have hb := h.bounded
  omega

theorem Stuck.task (hs : s.Stuck) (h : s.advanceTask i fails = some s') : s'.Stuck := by
  obtain ⟨address, next, hat, ha, ht, hq, hl, hsi, _⟩ := advanceTask_tasks h
  refine ⟨hs.toSound.task h, hsi.trans hs.signal, hl ▸ hs.left, ?_⟩
  have hk := Address.advance_blocked ha
  have hw := weigh_set blocked hat ht
  have hc := hs.crowded
  rw [hq, length_append]
  omega

theorem Stuck.loop (hs : s.Stuck) (h : s.advanceLoop = some s') : s'.Stuck := by
  have hso := hs.toSound.loop h
  obtain ⟨_, rfl⟩ | ⟨hl, _⟩ | ⟨hl, _⟩ | ⟨i, _, _, _, _, rfl⟩ | ⟨i, _, _, rfl⟩ := advanceLoop_cases h
  · exact ⟨hso, hs.signal, by simp [hs.signal], hs.crowded⟩
  · exact absurd hl hs.left
  · exact absurd hl hs.left
  · exact ⟨hso, hs.signal, DispatchLoop.noConfusion, hs.crowded⟩
  · exact ⟨hso, hs.signal, DispatchLoop.noConfusion, hs.crowded⟩

variable [DecidableEq C]

theorem Sound.outside (hs : s.Sound) (h : s.Outside s') : s'.Sound := by
  obtain ⟨ht, hq, hl, _⟩ := outside_cases h
  exact ⟨hq ▸ hs.bounded, by rw [hl, ht]; exact hs.joined⟩

theorem Sound.step (hs : s.Sound) (hst : Either Listens Outside s s') : s'.Sound := by
  rcases hst with (⟨h⟩ | ⟨h⟩) | ho
  · exact hs.task h
  · exact hs.loop h
  · exact hs.outside ho

theorem Sound.run (hs : s.Sound) (hrun : ReflTransGen (Either Listens Outside) s s') : s'.Sound := by
  induction hrun with
  | refl => exact hs
  | tail _ hst ih => exact ih.step hst

theorem Stuck.step (hs : s.Stuck) (hste : Either Listens Outside s s') : s'.Stuck := by
  rcases hste with (⟨h⟩ | ⟨h⟩) | ho
  · exact hs.task h
  · exact hs.loop h
  · obtain ⟨ht, hq, hl, _, hst⟩ := outside_cases ho
    refine ⟨hs.toSound.outside ho, hst hs.signal, hl ▸ hs.left, ?_⟩
    have hc := hs.crowded
    unfold weigh at hc ⊢
    rwa [hq, ht]

theorem returned_stays (h : s.loop = .returned) (hs : Either Listens Outside s s') : s'.loop = .returned := by
  rcases hs with (⟨hs⟩ | ⟨hs⟩) | ho
  · obtain ⟨_, _, _, _, _, _, hl, _⟩ := advanceTask_tasks hs
    exact hl.trans h
  · rw [advanceLoop, h] at hs
    cases hs
  · exact (outside_cases ho).2.2.1.trans h

theorem exists_run_of_stuck (hp : ReflTransGen (Either Listens Outside) s t) (hs : t.Stuck) :
    ∃ run, FairRun Listens Outside run ∧ run 0 = s ∧ (∃ n, (run n).signal) ∧ ∀ n, (run n).loop ≠ .returned := by
  obtain ⟨run, n, hrun, hst, rfl⟩ := exists_fairRun_through hp
  have hl := hrun.keeps (fun _ _ => Stuck.step) hs
  refine ⟨run, hrun, hst, ⟨n, hs.signal⟩, fun m => ?_⟩
  rcases Nat.le_total m n with hm | hm
  · exact fun hr => hs.not_returned (hrun.keeps (fun _ _ => returned_stays) hr n hm)
  · exact (hl m hm).not_returned

theorem exists_accept (c : C) (hat : s.tasks[i]? = some .polling) : ∃ t c', ReflTransGen (Either Listens Outside) s t ∧
      t.tasks = s.tasks.set i (.sending c') ∧ t.queue = s.queue ∧ t.loop = s.loop ∧ t.signal = s.signal := by
  have har : (s.arrive i c).tasks[i]? = some .polling := by rwa [tasks_arrive]
  obtain ⟨address, ha, ht⟩ : ∃ address : Address C,
      (s.arrive i c).addresses[i]? = some address ∧ address.task = .polling := by
    rw [tasks, getElem?_map] at har
    exact map_eq_some_iff.mp har
  have hw : address.backlog ≠ [] := by
    simp only [arrive, getElem?_modify_eq] at ha
    obtain ⟨before, _, rfl⟩ := map_eq_some_iff.mp ha
    exact append_ne_nil_of_right_ne_nil _ (cons_ne_nil c [])
  obtain ⟨c', rest, hb⟩ := exists_cons_of_ne_nil hw
  have had : address.advance (s.arrive i c).signal (s.arrive i c).full false =
      some ({ backlog := rest, task := .sending c' }, none) := by
    simp only [Address.advance, ht, hb]
    rfl
  have hs := advanceTask_eq ha had
  refine ⟨_, c', .tail (.tail .refl (.inr (.arrive i c))) (.inl (.task hs)), ?_, ?_, rfl, rfl⟩
  · rw [← tasks_arrive s i c]
    exact map_set
  · exact append_nil _

theorem exists_all_accept (c : C) (s : MultiLoop C) : ∃ t, ReflTransGen (Either Listens Outside) s t ∧
      t.weigh blocked = s.weigh holding ∧ t.queue = s.queue ∧ t.loop = s.loop ∧ t.signal = s.signal := by
  -- one after the other, by induction on their number
  induction hn : s.weigh unaware generalizing s with
  | zero =>
    refine ⟨s, .refl, ?_, rfl, rfl, rfl⟩
    rw [weigh_holding, hn, Nat.zero_add]
  | succ number ih =>
    obtain ⟨i, hat⟩ : ∃ i : Nat, s.tasks[i]? = some polling := by
      by_contra hno
      have hz : s.weigh unaware = 0 := by
        refine weigh_eq_zero fun i task hta => ?_
        cases task with
        | polling => exact absurd ⟨i, hta⟩ hno
        | _ => rfl
      omega
    obtain ⟨t, c', hp, ht, hq, hl, hs⟩ := exists_accept c hat
    have hu := weigh_set unaware hat ht
    have hh := weigh_set holding hat ht
    simp only [holding, unaware, blocked] at hu hh
    obtain ⟨u, hr, hb, hq', hl', hs'⟩ := ih t (by omega)
    exact ⟨u, hp.trans hr, by omega, hq'.trans hq, hl'.trans hl, hs'.trans hs⟩

theorem exists_left (hc : ¬ s.Room) : ∃ t, ReflTransGen (Either Listens Outside) s t ∧ t.loop ≠ .receiving ∧
      t.signal = s.signal ∧ capacity < t.queue.length + t.weigh holding := by
  unfold Room at hc
  by_cases hl : s.loop = .receiving
  · cases hq : s.queue with
    | nil =>
      refine ⟨_, .tail .refl (.inl (.loop (advanceLoop_empty hl hq))), ?_, rfl, ?_⟩
      · by_cases hall : s.addresses.all (·.isFinished) <;> simp [hall]
      · have hs : s.spare = 0 := if_neg fun h => h.2 hq
        rw [hs] at hc
        exact Nat.not_le.mp hc
    | cons c rest =>
      refine ⟨_, .tail .refl (.inl (.loop (advanceLoop_dispatch hl hq))), DispatchLoop.noConfusion, rfl, ?_⟩
      have hs : s.spare = 1 := if_pos ⟨hl, hq ▸ cons_ne_nil c rest⟩
      rw [hs, hq, length_cons] at hc
      change capacity < rest.length + s.weigh holding
      omega
  · have hs : s.spare = 0 := if_neg fun h => hl h.1
    rw [hs] at hc
    exact ⟨s, .refl, hl, rfl, Nat.not_le.mp hc⟩

theorem exists_stuck [Inhabited C] (hs : s.Sound) (hsi : s.signal) (hc : ¬ s.Room) :
    ∃ t, ReflTransGen (Either Listens Outside) s t ∧ t.Stuck := by
  obtain ⟨t, hp, hl, hsa, hm⟩ := exists_left hc
  obtain ⟨u, hr, hb, hq, hlo, hsi'⟩ := exists_all_accept default t
  refine ⟨u, hp.trans hr, hs.run (hp.trans hr), ?_, hlo ▸ hl, ?_⟩
  · rw [hsi', hsa, hsi]
  · rwa [hb, hq]

/-- **After the signal, the loop returns in every fair run exactly if the channel has room for
what is on its way.** -/
theorem returns_iff [Inhabited C] {n : Nat} {maxConnections : Option Nat}
    (hrun : ReflTransGen (Either Listens Outside) (start n maxConnections) s) (hsignal : s.signal = true) :
    (∀ run, FairRun Listens Outside run → run 0 = s → ∃ m, (run m).loop = .returned) ↔ s.Room := by
  constructor
  · intro hreturns
    by_contra hcrowded
    obtain ⟨t, hpath, hstuck⟩ := exists_stuck ((sound_start n maxConnections).run hrun) hsignal hcrowded
    obtain ⟨run, hfair, hstart, _, hnever⟩ := exists_run_of_stuck hpath hstuck
    obtain ⟨m, hm⟩ := hreturns run hfair hstart
    exact hnever m hm
  · rintro hroom run hfair rfl
    obtain ⟨m, _, hm⟩ := hfair.reaches descent ⟨hsignal, hroom⟩
    exact ⟨m, hm⟩

theorem returns_at_once : ({ start 2 none with signal := true } : MultiLoop Nat).Room ∧
      ∀ run, FairRun Listens Outside run → run 0 = ({ start 2 none with signal := true } : MultiLoop Nat) →
        ∃ m, (run m).loop = .returned := by
  have hroom : ({ start 2 none with signal := true } : MultiLoop Nat).Room := by
    unfold Room
    decide
  exact ⟨hroom, (returns_iff (.tail .refl (.inr .signal)) rfl).mpr hroom⟩

/-! ### Two addresses -/

/-- The first of two addresses, and so many connections to it in the channel; nothing else has
moved yet. -/
def busy (address : Address Nat) (number : Nat) : MultiLoop Nat where
  signal := false
  addresses := [address, { backlog := [], task := .starting }]
  queue := List.replicate number 0
  loop := .selecting
  accounting := .new none

theorem busy_full (address : Address Nat) (number : Nat) : (busy address number).full = decide (capacity ≤ number) := by
  rw [full, busy, length_replicate]

theorem listens_busy {next : Address Nat} (fails : Bool)
    (h : address.advance false (decide (capacity ≤ number)) fails = some (next, none)) :
    (busy address number).Listens (busy next number) := by
  have hs : (busy address number).advanceTask 0 fails = some _ := advanceTask_eq rfl (by rw [busy_full]; exact h)
  rw [toList_none, append_nil] at hs
  exact .task hs

theorem accepts_busy (number : Nat) : ReflTransGen (Either Listens Outside) (busy ⟨[], .selecting⟩ number)
      (busy ⟨[], .sending 0⟩ number) := by
  have hp : (busy ⟨[], .selecting⟩ number).Listens (busy ⟨[], .polling⟩ number) := listens_busy false rfl
  have ha : (busy ⟨[], .polling⟩ number).Outside (busy ⟨[0], .polling⟩ number) := .arrive 0 0
  have hac : (busy ⟨[0], .polling⟩ number).Listens (busy ⟨[], .sending 0⟩ number) := listens_busy false rfl
  exact .tail (.tail (.tail .refl (.inl hp)) (.inr ha)) (.inl hac)

theorem sends_busy (h : number < capacity) :
    (busy ⟨[], .sending 0⟩ number).Listens (busy ⟨[], .selecting⟩ (number + 1)) := by
  have hr : (busy ⟨[], .sending 0⟩ number).full = false := by
    rw [busy_full]
    exact decide_eq_false (Nat.not_le.mpr h)
  have hs : (busy ⟨[], .sending 0⟩ number).advanceTask 0 false = some _ := advanceTask_eq rfl (by rw [hr]; rfl)
  refine .task (hs.trans ?_)
  simp [busy, replicate_succ']

theorem busy_of_start (h : number ≤ capacity) :
    ReflTransGen (Either Listens Outside) (start 2 none) (busy ⟨[], .selecting⟩ number) := by
  induction number with
  | zero =>
    have hs : (busy ⟨[], .starting⟩ 0).Listens (busy ⟨[], .selecting⟩ 0) := listens_busy false rfl
    exact .tail .refl (.inl hs)
  | succ number ih => exact ((ih (Nat.le_of_succ_le h)).trans (accepts_busy number)).tail (.inl (sends_busy h))

/-- **With the channel full and one connection more accepted, the signal comes: the loop never
returns.** -/
theorem never_returns : ∃ run : ℕ → MultiLoop Nat, FairRun Listens Outside run ∧ run 0 = start 2 none ∧
      (∃ n, (run n).signal = true) ∧ ∀ n, (run n).loop ≠ .returned := by
  have hpath : ReflTransGen (Either Listens Outside) (start 2 none)
      { busy ⟨[], .sending 0⟩ capacity with signal := true } :=
    ((busy_of_start (le_refl _)).trans (accepts_busy capacity)).tail (.inr .signal)
  exact exists_run_of_stuck hpath ⟨(sound_start 2 none).run hpath, rfl, DispatchLoop.noConfusion, by decide⟩

end MultiLoop

end ServerWall.Listener
