import Mathlib.Algebra.Order.BigOperators.Group.List
import ServerWall.Proxy.Server

/-!
# Waiting for connections at the end

The wait of `Server::run` after the signal to shut down: until the counters of the listeners add up to
zero, or to the deadline. A reload drops the counters of the listeners it stops, while their connections
go on (`drains_iff`, `stops_with_connection`). Joining the tasks of the relay is left out.
-/

namespace ServerWall.Frontends

open Schema Core Listener Relation List Accounting
open Option (ite_none_right_eq_some some)

variable {C : Type}

namespace Server

def Idle (s : Server C) : Prop :=
  (∀ listener ∈ s.listeners, listener.accounting.running = []) ∧ ∀ a ∈ s.former, a.running = []

variable [DecidableEq C]

/-- The wait is for every connection: the server does not stop before the deadline while one is
being handled. -/
def Drains (s : Server C) : Prop := ∀ t t' deadline, ReflTransGen Next s t → t.phase = .draining deadline →
    t.Next t' → t'.phase = .stopped → t.now < deadline → t.Idle

variable {s s' : Server C}

theorem step_cases (h : s.Next s') : (∃ i listener accounting, s.listeners[i]? = some listener ∧
      listener.accounting.Next accounting ∧
      s' = { s with listeners := s.listeners.set i { listener with accounting } }) ∨
    (∃ i accounting next, s.former[i]? = some accounting ∧ accounting.running ≠ [] ∧
      accounting.Next next ∧ s' = { s with former := s.former.set i next }) ∨
    (∃ milliseconds, s' = { s with now := s.now + milliseconds }) ∨
    (s.phase = .running ∧ ((∃ around config, s' = s.reload around config) ∨
      s' = { s with phase := .stopped } ∨ s' = s.kill)) ∨
    (∃ deadline, s.phase = .draining deadline ∧
      ((s.total = 0 ∨ deadline ≤ s.now) ∧ s' = { s with phase := .stopped } ∨ s' = s)) := by
  obtain ⟨event, hs⟩ := h
  cases event with
  | here i event =>
    obtain ⟨listener, hat, hs⟩ := Option.bind_eq_some_iff.mp hs
    obtain ⟨_, hs⟩ := Option.ite_none_left_eq_some.mp hs
    obtain ⟨accounting, ha, rfl⟩ := Option.map_eq_some_iff.mp hs
    exact .inl ⟨i, listener, accounting, hat, ⟨event, ha⟩, rfl⟩
  | former i event =>
    obtain ⟨accounting, hat, hs⟩ := Option.bind_eq_some_iff.mp hs
    obtain ⟨hend, hs⟩ := Option.ite_none_left_eq_some.mp hs
    obtain ⟨next, hn, rfl⟩ := Option.map_eq_some_iff.mp hs
    refine .inr (.inl ⟨i, accounting, next, hat, ?_, ⟨event, hn⟩, rfl⟩)
    -- the end of a handler is that of one that runs
    cases event with
    | dispatch c => exact absurd rfl hend
    | returns c | panics c =>
      obtain ⟨hmem, _⟩ := ite_none_right_eq_some.mp hn
      exact ne_nil_of_mem hmem
  | wait milliseconds => exact .inr (.inr (.inl ⟨milliseconds, (some.inj hs).symm⟩))
  | reload around config =>
    obtain ⟨hp, hs'⟩ := ite_none_right_eq_some.mp hs
    exact .inr (.inr (.inr (.inl ⟨hp, .inl ⟨around, config, (some.inj hs').symm⟩⟩)))
  | closed =>
    obtain ⟨hp, hs'⟩ := ite_none_right_eq_some.mp hs
    exact .inr (.inr (.inr (.inl ⟨hp, .inr (.inl (some.inj hs').symm)⟩)))
  | kill =>
    obtain ⟨hp, hs'⟩ := ite_none_right_eq_some.mp hs
    exact .inr (.inr (.inr (.inl ⟨hp, .inr (.inr (some.inj hs').symm)⟩)))
  | poll =>
    cases hp : s.phase with
    | running | stopped => simp only [step, hp] at hs; cases hs
    | draining deadline =>
      simp only [step, hp] at hs
      refine .inr (.inr (.inr (.inr ⟨deadline, rfl, ?_⟩)))
      by_cases ho : s.total = 0 ∨ deadline ≤ s.now
      · rw [if_pos ho] at hs
        exact .inl ⟨ho, (some.inj hs).symm⟩
      · rw [if_neg ho] at hs
        exact .inr (some.inj hs).symm

/-! ## The counters -/

def Counted (s : Server C) : Prop := (∀ listener ∈ s.listeners, listener.accounting.Counts) ∧ ∀ a ∈ s.former, a.Counts

omit [DecidableEq C] in
theorem applyConfig_counts (around : Surroundings) (config) (frontends : List FrontendConfig) :
    ∀ listener ∈ (applyConfig around config frontends : List (LiveListener C) × _).1, listener.accounting.Counts := by
  induction frontends with
  | nil => exact fun _ h => absurd h not_mem_nil
  | cons frontend rest ih =>
    intro listener hmem
    unfold applyConfig at hmem
    split at hmem
    · cases hmem
    · rcases mem_cons.mp hmem with rfl | hr
      · exact counts_new _
      · exact ih listener hr

omit [DecidableEq C] in
theorem counted_start (h : start around config = .ok s) : s.Counted := by
  unfold start at h
  split at h
  · cases h
  · next listeners heq =>
    cases h
    have hc := applyConfig_counts (C := C) around config config.frontend
    rw [heq] at hc
    exact ⟨hc, fun _ h => absurd h not_mem_nil⟩

theorem Counted.step (h : s.Counted) (hn : s.Next s') : s'.Counted := by
  obtain ⟨here, former⟩ := h
  obtain ⟨i, listener, accounting, hat, hacc, rfl⟩ | ⟨i, accounting, next, hat, _, hacc, rfl⟩ |
    ⟨_, rfl⟩ | ⟨_, ⟨around, config, rfl⟩ | rfl | rfl⟩ | ⟨_, _, ⟨_, rfl⟩ | rfl⟩ := step_cases hn
  · refine ⟨fun l hl => ?_, former⟩
    rcases mem_or_eq_of_mem_set hl with hl | rfl
    · exact here l hl
    · exact (here listener (mem_of_getElem? hat)).step hacc
  · refine ⟨here, fun a ha => ?_⟩
    rcases mem_or_eq_of_mem_set ha with ha | rfl
    · exact former a ha
    · exact (former accounting (mem_of_getElem? hat)).step hacc
  · exact ⟨here, former⟩
  · refine ⟨applyConfig_counts around config config.frontend, fun a ha => ?_⟩
    rcases mem_append.mp ha with ha | ha
    · exact former a ha
    · obtain ⟨listener, hl, rfl⟩ := mem_map.mp ha
      exact here listener hl
  · exact ⟨here, former⟩
  · exact ⟨here, former⟩
  · exact ⟨here, former⟩
  · exact ⟨here, former⟩

theorem Counted.run (h : s.Counted) (hrun : ReflTransGen Next s s') : s'.Counted := by
  induction hrun with
  | refl => exact h
  | tail _ hn ih => exact ih.step hn

omit [DecidableEq C] in
theorem total_eq_zero : s.total = 0 ↔ ∀ listener ∈ s.listeners, listener.accounting.activeConnections = 0 := by
  unfold total
  rw [sum_eq_zero_iff, forall_mem_map]

/-! ## From the signal on -/

def Panicked (s : Server C) : Prop := ∃ i : Nat, ∃ listener ∈ s.listeners[i]?, listener.accounting.panicked ≠ []

omit [DecidableEq C] in
theorem Panicked.total_ne_zero (h : s.Panicked) (hc : s.Counted) : s.total ≠ 0 := by
  obtain ⟨i, listener, hat, hp⟩ := h
  intro hz
  have hmem : listener ∈ s.listeners := mem_of_getElem? hat
  have ha := (hc.1 listener hmem).active
  rw [total_eq_zero.mp hz listener hmem, unreturned] at ha
  exact hp (length_eq_zero_iff.mp (by omega))

/-- After the signal: the wait is on or over, with no counter added to the former ones. -/
structure Signalled (deadline : Nat) (s : Server C) : Prop where
  counted : s.Counted
  phase : s.phase = .draining deadline ∨ s.phase = .stopped

variable (h : s.Signalled deadline)
include h

theorem Signalled.step (hn : s.Next s') :
    s'.Signalled deadline ∧ (s.Panicked → s'.Panicked) ∧ ((∀ a ∈ s.former, a.running = []) → s'.former = s.former) := by
  have hc := h.counted.step hn
  obtain ⟨i, listener, accounting, hat, hacc, rfl⟩ | ⟨i, accounting, next, hat, hr, _, rfl⟩ |
    ⟨_, rfl⟩ | ⟨hph, _⟩ | ⟨_, _, ⟨_, rfl⟩ | rfl⟩ := step_cases hn
  · refine ⟨⟨hc, h.phase⟩, ?_, fun _ => rfl⟩
    rintro ⟨j, other, ho, hp⟩
    by_cases hij : i = j
    · subst hij
      cases hat.symm.trans ho
      have hm := (panicked_of_run (.single hacc)).1
      refine ⟨i, _, List.getElem?_set_self (List.getElem?_eq_some_iff.mp hat).1, ?_⟩
      exact List.length_pos_iff.mp ((List.length_pos_iff.mpr hp).trans_le hm)
    · exact ⟨j, other, (List.getElem?_set_ne hij).trans ho, hp⟩
  · refine ⟨⟨hc, h.phase⟩, id, fun hi => ?_⟩
    exact absurd (hi accounting (mem_of_getElem? hat)) hr
  · exact ⟨⟨hc, h.phase⟩, id, fun _ => rfl⟩
  · rcases h.phase with hd | hs
    · cases hph.symm.trans hd
    · cases hph.symm.trans hs
  · exact ⟨⟨hc, .inr rfl⟩, id, fun _ => rfl⟩
  · exact ⟨⟨hc, h.phase⟩, id, fun _ => rfl⟩

theorem Signalled.run (hrun : ReflTransGen Next s s') :
    s'.Signalled deadline ∧ (s.Panicked → s'.Panicked) ∧ ((∀ a ∈ s.former, a.running = []) → s'.former = s.former) := by
  induction hrun with
  | refl => exact ⟨h, id, fun _ => rfl⟩
  | tail _ hn ih =>
    obtain ⟨hs, hp, hf⟩ := ih
    obtain ⟨hs', hp', hf'⟩ := hs.step hn
    refine ⟨hs', fun h => hp' (hp h), fun hi => ?_⟩
    have hsa := hf hi
    exact (hf' (by rwa [hsa])).trans hsa

theorem Signalled.total_of_stop (hp : s.phase = .draining deadline) (hn : s.Next s') (hs : s'.phase = .stopped)
    (he : s.now < deadline) : s.total = 0 := by
  obtain ⟨i, listener, accounting, _, _, rfl⟩ | ⟨i, accounting, next, _, _, _, rfl⟩ |
    ⟨_, rfl⟩ | ⟨hr, _⟩ | ⟨deadline', hd, ⟨ho, rfl⟩ | rfl⟩ := step_cases hn
  · cases hp.symm.trans hs
  · cases hp.symm.trans hs
  · cases hp.symm.trans hs
  · cases hp.symm.trans hr
  · cases hp.symm.trans hd
    exact ho.resolve_right (not_le.mpr he)
  · cases hp.symm.trans hs

omit h

theorem exists_returned (s : Server C) : ∃ t, ReflTransGen Next s t ∧ t.former = s.former ∧ t.now = s.now ∧
      t.phase = s.phase ∧ (∀ listener ∈ t.listeners, listener.accounting.running = []) ∧
      (t.Panicked → s.Panicked) := by
  induction hn : (s.listeners.map (·.accounting.running.length)).sum generalizing s with
  | zero =>
    refine ⟨s, .refl, rfl, rfl, rfl, fun listener hmem => ?_, id⟩
    have hz := sum_eq_zero_iff.mp hn _ (mem_map_of_mem hmem)
    exact length_eq_zero_iff.mp hz
  | succ number ih =>
    obtain ⟨i, listener, c, hat, hmem⟩ : ∃ (i : Nat) (listener : LiveListener C) (c : C),
        s.listeners[i]? = some listener ∧ c ∈ listener.accounting.running := by
      by_contra hno
      have hz : (s.listeners.map (·.accounting.running.length)).sum = 0 := by
        refine sum_eq_zero_iff.mpr (forall_mem_map.mpr fun listener hmem => ?_)
        obtain ⟨i, hi⟩ := mem_iff_getElem?.mp hmem
        refine length_eq_zero_iff.mpr (eq_nil_iff_forall_not_mem.mpr fun c hc => ?_)
        exact hno ⟨i, listener, c, hi, hc⟩
      omega
    let returned : LiveListener C := { listener with
      accounting := { listener.accounting with
        activeConnections := listener.accounting.activeConnections - 1
        running := listener.accounting.running.erase c } }
    have hs : s.step (.here i (.returns c)) = some { s with listeners := s.listeners.set i returned } := by
      simp only [step, hat, Option.bind_some, isDispatch, Bool.false_and, Bool.false_eq_true,
        if_false, Accounting.step, if_pos hmem, Option.map_some]
      rfl
    have hfe := sum_map_set (fun l : LiveListener C => l.accounting.running.length) hat returned
    have hone : 0 < listener.accounting.running.length := length_pos_of_mem hmem
    have he : returned.accounting.running.length = listener.accounting.running.length - 1 := length_erase_of_mem hmem
    obtain ⟨t, hrun, hf, hnow, hph, hid, hp⟩ :=
      ih { s with listeners := s.listeners.set i returned } (by dsimp only at hfe ⊢; omega)
    refine ⟨t, .head ⟨_, hs⟩ hrun, hf, hnow, hph, hid, fun h => ?_⟩
    obtain ⟨j, other, ho, hwas⟩ := hp h
    by_cases hij : i = j
    · subst hij
      cases (List.getElem?_set_self (List.getElem?_eq_some_iff.mp hat).1).symm.trans ho
      exact ⟨i, listener, hat, hwas⟩
    · exact ⟨j, other, (List.getElem?_set_ne hij).symm.trans ho, hwas⟩

/-- **When the wait is for every connection.** -/
theorem drains_iff {around : Surroundings} {config : ServerWallConfig} {first : Server C}
    (hstart : start around config = .ok first) (hrun : ReflTransGen Next first s) (hsecs : 0 < s.drainSecs) :
    s.kill.Drains ↔ (∀ a ∈ s.former, a.running = []) ∨ s.Panicked := by
  have hcounted : s.Counted := (counted_start hstart).run hrun
  have hkill : s.kill.phase = .draining (s.now + s.drainSecs * 1000) := if_pos hsecs
  have hsignalled : s.kill.Signalled (s.now + s.drainSecs * 1000) := ⟨hcounted, .inl hkill⟩
  constructor
  · intro hdrains
    by_contra hneither
    obtain ⟨hbusy, hcalm⟩ := not_or.mp hneither
    -- all handlers of the listeners return at once, and the next turn stops the server
    obtain ⟨t, hpath, hformer, hnow, hphase, hidle, hpanicked⟩ := exists_returned s.kill
    have hzero : t.total = 0 := by
      refine total_eq_zero.mpr fun listener hmem => ?_
      have hactive := ((hsignalled.run hpath).1.counted.1 listener hmem).active
      have hnone : listener.accounting.panicked = [] := by
        by_contra hsome
        obtain ⟨i, hi⟩ := mem_iff_getElem?.mp hmem
        exact hcalm (hpanicked ⟨i, listener, hi, hsome⟩)
      rw [hactive, unreturned, hidle listener hmem, hnone]
      rfl
    have hpoll : t.Next { t with phase := .stopped } := by
      refine ⟨.poll, ?_⟩
      simp only [step, hphase, hkill]
      rw [if_pos (.inl hzero)]
    have hearly : t.now < s.now + s.drainSecs * 1000 := by
      rw [show t.now = s.now from hnow]
      omega
    have hidle' := (hdrains t _ _ hpath (hphase.trans hkill) hpoll rfl hearly).2
    exact hbusy (hformer ▸ hidle')
  · rintro hwhen t t' deadline hpath hphase hnext hstop hearly
    obtain ⟨hsignalled', hpanicked, hformer⟩ := hsignalled.run hpath
    obtain rfl : deadline = s.now + s.drainSecs * 1000 := by
      rcases hsignalled'.phase with hsame | hstopped
      · exact Phase.draining.inj (hphase.symm.trans hsame)
      · cases hphase.symm.trans hstopped
    have hzero := hsignalled'.total_of_stop hphase hnext hstop hearly
    rcases hwhen with hidle | hpan
    · refine ⟨fun listener hmem => ?_, (hformer hidle) ▸ hidle⟩
      have hactive := (hsignalled'.counted.1 listener hmem).active
      rw [total_eq_zero.mp hzero listener hmem, unreturned] at hactive
      exact length_eq_zero_iff.mp (by omega)
    · exact absurd hzero ((hpanicked hpan).total_ne_zero hsignalled'.counted)

end Server

theorem drains_of_first : served.kill.Drains := by
  have hstart : Server.start .simple (twoPorts []) = .ok served := rfl
  exact (Server.drains_iff hstart .refl (by decide)).mpr (.inl fun _ h => absurd h not_mem_nil)

/-- **A connection, a reload and the signal: the server stops at once, with the connection being
handled.** -/
theorem stops_with_connection : ∃ t t' : Server Nat, ReflTransGen Server.Next served t ∧
      t.phase = .draining 30000 ∧ t.now = 0 ∧ t.Next t' ∧ t'.phase = .stopped ∧
      t.former.map (·.running) = [[7], []] :=
  ⟨_, _, .tail (.tail (.tail .refl ⟨.here 0 (.dispatch 7), rfl⟩)
    ⟨.reload .simple (twoPorts []), rfl⟩) ⟨.kill, rfl⟩, rfl, rfl, ⟨.poll, rfl⟩, rfl, rfl⟩

end ServerWall.Frontends
