import ServerWall.Relay.Attempts

/-!
# When a message is tried again

The scheduler is asked with the attempts counted before the failure, and its list starts at zero, so the
first interval is never used. `retry_schedule_iff` says where that makes no difference.
-/

namespace ServerWall.Relay

open List

/-- The `k`-th of the intervals, from one on, and the last one beyond the list. -/
def RetryScheduler.interval (s : RetryScheduler) (k : UInt32) : TimeDelta :=
  (s.intervals[k.toNat - 1]?).getD (s.intervals.getLast?.getD (3600 * TimeDelta.second))

/-- The interval that the scheduler takes is the same if it is the last, or if the next is equal. -/
theorem RetryScheduler.interval_eq_delay_iff (s : RetryScheduler) (hk : k ≠ 0) : s.interval k = s.delay k ↔
      (k.toNat < s.intervals.length → s.intervals[k.toNat - 1]? = s.intervals[k.toNat]?) := by
  have hpos : 0 < k.toNat := Nat.pos_of_ne_zero fun h => hk (UInt32.toNat_inj.mp h)
  unfold interval delay
  by_cases hlt : k.toNat < s.intervals.length
  · rw [getElem?_eq_getElem hlt, getElem?_eq_getElem (by omega : k.toNat - 1 < s.intervals.length)]
    simp [hlt]
  · refine iff_of_true ?_ fun h => absurd h hlt
    rw [getElem?_eq_none (Nat.not_lt.mp hlt)]
    rcases Nat.lt_or_eq_of_le (Nat.not_lt.mp hlt) with h | h
    · rw [getElem?_eq_none (by omega : s.intervals.length ≤ k.toNat - 1)]
      rfl
    · rw [getLast?_eq_getElem?, ← h]
      cases hlast : s.intervals[s.intervals.length - 1]? with
      | some d | none => rfl

theorem add_eq_some_iff {t x : DateTime} (h : t.add d = some x) : t.add d' = some x ↔ d' = d := by
  refine ⟨fun h' => ?_, fun he => he ▸ h⟩
  unfold DateTime.add at h h'
  split at h
  · split at h'
    · have hx := congrArg DateTime.ns ((Option.some.inj h).trans (Option.some.inj h').symm)
      exact (Int.add_left_cancel hx).symm
    · cases h'
  · cases h

/-- A task writes, after these events, that its message is put off once more. -/
def Defers (log before : List Happening) (pid : Nat) (m : Text) (q : QueuedMessage) : Prop :=
  q.metadata.status = .deferred ∧ q.metadata.attempts ≠ 0 ∧ ∃ fd r after,
    log = before ++ .did pid (.task m) (.write (.metaPath m) fd (.record q)) r :: after

theorem deferral_of_defers (hrun : runRelay cfg labels = some s) (hd : Defers s.log before pid m q) :
    ∃ t, (docketOf pid before).readings.getLast? = some t ∧
      t.toDateTime.add (cfg.scheduler.delay q.metadata.attempts) = some q.metadata.nextRetry := by
  obtain ⟨hstatus, hpos, fd, r, after, hlog⟩ := hd
  have htold := log_told hrun hlog
  obtain ⟨q₀, q', hloaded, hq, hwrite⟩ := (told_task htold).2
  obtain rfl := Content.record.inj hq
  split at hwrite
  · -- a bounce is stored, and that is with no attempts
    next hid =>
    obtain ⟨q', hq, hnone⟩ := told_starts htold (.inl ⟨m, rfl⟩) (by rw [draft_errandOf, hid])
    obtain rfl := Content.record.inj hq
    exact absurd hnone hpos
  · rcases hwrite with ⟨-, hactive⟩ | ⟨-, hdefers⟩
    · rw [hactive] at hstatus
      cases hstatus
    · exact hdefers.due

/-- **When the schedule is the configured one.** -/
theorem retry_schedule_iff (cfg : Config) {labels : Schedule} {s : Plant} (hrun : runRelay cfg labels = some s) :
    (∀ before pid m q, Defers s.log before pid m q → ∃ t, (docketOf pid before).readings.getLast? = some t ∧
      t.toDateTime.add (cfg.scheduler.interval q.metadata.attempts) = some q.metadata.nextRetry) ↔
    ∀ before pid m q, Defers s.log before pid m q → q.metadata.attempts.toNat < cfg.scheduler.intervals.length →
        cfg.scheduler.intervals[q.metadata.attempts.toNat - 1]? =
          cfg.scheduler.intervals[q.metadata.attempts.toNat]? := by
  refine forall_congr' fun before => forall_congr' fun pid => forall_congr' fun m =>
    forall_congr' fun q => forall_congr' fun hd => ?_
  obtain ⟨t, ht, hadd⟩ := deferral_of_defers hrun hd
  rw [← cfg.scheduler.interval_eq_delay_iff hd.2.1, ht]
  constructor
  · rintro ⟨t', ht', h⟩
    obtain rfl := Option.some.inj ht'
    exact (add_eq_some_iff hadd).mp h
  · exact fun h => ⟨t, rfl, (add_eq_some_iff hadd).mpr h⟩

theorem retry_schedule_single : ∃ s, runRelay smallRelay oneDeferral = some s ∧
    ∀ before pid m q, Defers s.log before pid m q → ∃ t, (docketOf pid before).readings.getLast? = some t ∧
      t.toDateTime.add (smallRelay.scheduler.interval q.metadata.attempts) = some q.metadata.nextRetry := by
  obtain ⟨s, hs⟩ := Option.isSome_iff_exists.mp (by decide +kernel : (runRelay smallRelay oneDeferral).isSome = true)
  refine ⟨s, hs, (retry_schedule_iff smallRelay hs).mpr fun before pid m q hd hlt => ?_⟩
  exact absurd (UInt32.toNat_inj.mp (Nat.lt_one_iff.mp hlt)) hd.2.1

def twoIntervals : Config := { smallRelay with scheduler.intervals := [300 * TimeDelta.second, 900 * TimeDelta.second] }

/-- The first failure of a message, with five minutes and fifteen configured: it is tried again after
fifteen. -/
theorem first_interval_skipped : (runRelay twoIntervals oneDeferral).any (fun s =>
    (s.world.files (.metaPath firstId)).any fun file => file.content.parse.any fun q =>
      q.metadata.status = .deferred ∧ q.metadata.attempts = 1 ∧
        q.metadata.nextRetry.ns = noon.toDateTime.ns + 900 * TimeDelta.second) = true := by
  decide +kernel

end ServerWall.Relay
