import ServerWall.Relay.Runs

/-!
# Purge

What the purge of the web interface removes, by the number of days and the time at which it runs. The
number is cast to a signed one and subtracted from the date. It removes exactly the messages created
before that many days if and only if the calendar goes back so far (`purge_exact_iff`); beyond that it
panics, or takes a moment to come for the cut-off.
-/

namespace ServerWall.Relay

open TimeDelta

def daySpan : Int := 86400 * TimeDelta.second

/-- The calendar goes back so many days. -/
def Reached (t : Instant) (days : Nat) : Prop := -8334601228800 * TimeDelta.second ≤ t.ns - days * daySpan
  deriving Decidable

/-- The messages created more than so many days ago. -/
def expired (t : Instant) (days : Nat) (msgs : List QueuedMessage) : List QueuedMessage :=
  msgs.filter fun q => q.metadata.created.ns + days * daySpan < t.ns

def removeAll : List QueuedMessage → Nat → Io Nat
  | [], purged => pure purged
  | msg :: rest, purged => do
    let result ← (remove msg.id).run
    removeAll rest (if result.toBool then purged + 1 else purged)

/-- `purge` after it has read the clock. -/
def purgeAt (cfg : Config) (days : Nat) (t : Instant) : Io Response :=
  match purgeCutoff t days with
  | none => pure .panicked
  | some cutoff => do
    let messages ← listOrEmpty cfg
    let purged ← purgeEntries cutoff messages 0
    pure (.http 200 [(("purged" : Text), .number purged), (("days" : Text), .number days)])

theorem purgeEntries_eq (cutoff : DateTime) : ∀ (msgs : List QueuedMessage) (n : Nat),
    purgeEntries cutoff msgs n = removeAll (msgs.filter (·.metadata.created.ns < cutoff.ns)) n
  | [], _ => rfl
  | q :: msgs, n => by
    rw [purgeEntries]
    by_cases hq : q.metadata.created.ns < cutoff.ns
    · rw [if_pos hq, List.filter_cons_of_pos (by simpa using hq), removeAll]
      simp only [purgeEntries_eq cutoff msgs]
    · rw [if_neg hq, List.filter_cons_of_neg (by simpa using hq), purgeEntries_eq cutoff msgs]

theorem purgeCutoff_reached (h : Reached t days) :
    ∃ cutoff, purgeCutoff t days = some cutoff ∧ cutoff.ns = t.ns - days * daySpan := by
  have hb := t.bound
  unfold Reached daySpan second at h
  have hs : tryDays (asInt64 days) = some (days * 86400 * second) := by
    rw [asInt64, if_pos (by omega), tryDays, trySeconds, if_pos (by omega)]
  have hr : -8334601228800 * second ≤ t.toDateTime.ns + -(days * 86400 * second) ∧
      t.toDateTime.ns + -(days * 86400 * second) < 8210266876800 * second := by
    unfold Instant.toDateTime second
    dsimp only
    omega
  refine ⟨_, by rw [purgeCutoff, hs, Option.bind_some, DateTime.add, dif_pos hr], ?_⟩
  show (t.ns : Int) + -(days * 86400 * second) = t.ns - days * daySpan
  unfold daySpan second
  omega

/-- The sign bit of `days` turns the cut-off into a moment to come. -/
theorem purgeCutoff_unreached (h : ¬ Reached t days) (hd : days < 2 ^ 64)
    (hc : purgeCutoff t days = some cutoff) : t.ns < cutoff.ns := by
  obtain ⟨span, hs, ha⟩ := Option.bind_eq_some_iff.mp hc
  unfold tryDays trySeconds at hs
  split at hs
  · obtain rfl := Option.some.inj hs
    unfold DateTime.add at ha
    split at ha
    · rename_i hr
      obtain rfl := Option.some.inj ha
      have hlow : _ ≤ (t.ns : Int) + -(asInt64 days * 86400 * second) := hr.1
      show (t.ns : Int) < t.ns + -(asInt64 days * 86400 * second)
      unfold Reached daySpan at h
      unfold asInt64 second at *
      split at hlow <;> omega
    · cases ha
  · cases hs

/-- **Purge**: there is a cut-off, and it parts the old messages from the others, if and only if the
calendar goes back that far; and then these are removed. -/
theorem purge_exact_iff (cfg : Config) (t : Instant) (days : Nat) (hd : days < 2 ^ 64) :
    ((∃ cutoff, purgeCutoff t days = some cutoff ∧ ∀ msgs : List QueuedMessage,
      msgs.filter (·.metadata.created.ns < cutoff.ns) = expired t days msgs) ↔ Reached t days) ∧
    (Reached t days → purgeAt cfg days t = do
      let messages ← listOrEmpty cfg
      let purged ← removeAll (expired t days messages) 0
      pure (.http 200 [(("purged" : Text), .number purged), (("days" : Text), .number days)])) := by
  have hreached : Reached t days → ∃ cutoff, purgeCutoff t days = some cutoff ∧ ∀ msgs : List QueuedMessage,
      msgs.filter (·.metadata.created.ns < cutoff.ns) = expired t days msgs := by
    intro h
    obtain ⟨cutoff, hc, hns⟩ := purgeCutoff_reached h
    refine ⟨cutoff, hc, fun msgs => List.filter_congr fun q _ => decide_eq_decide.mpr ?_⟩
    rw [hns]
    omega
  refine ⟨⟨?_, hreached⟩, fun h => ?_⟩
  · rintro ⟨cutoff, hc, hall⟩
    by_contra hn
    -- a message that comes in at this moment would go
    have hlt : t.toDateTime.ns < cutoff.ns := purgeCutoff_unreached hn hd hc
    have hold : ¬ t.toDateTime.ns + days * daySpan < t.ns := by
      show ¬ (t.ns : Int) + days * daySpan < t.ns
      unfold daySpan second
      omega
    have hq := hall [⟨[], ⟨[], []⟩, ⟨t.toDateTime, t.toDateTime, 0, none, .pending, 0⟩⟩]
    rw [expired, List.filter_cons_of_pos (by simpa using hlt), List.filter_cons_of_neg (by simpa using hold)] at hq
    cases hq
  · obtain ⟨cutoff, hc, hall⟩ := hreached h
    simp only [purgeAt, hc, purgeEntries_eq, hall]

theorem purge_week : ∃ cutoff, purgeCutoff noon 7 = some cutoff ∧ ∀ msgs : List QueuedMessage,
    msgs.filter (·.metadata.created.ns < cutoff.ns) = expired noon 7 msgs :=
  (purge_exact_iff smallRelay noon 7 (by decide)).1.mpr (by decide)

/-- With the largest number the cut-off is a day ahead, and with a smaller one there is none. -/
theorem purge_sign_bit : (purgeCutoff noon (2 ^ 64 - 1)).map (·.ns) = some (noon.ns + daySpan) ∧
    purgeCutoff noon (2 ^ 62) = none := by
  decide +kernel

end ServerWall.Relay
