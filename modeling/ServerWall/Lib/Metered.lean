import Mathlib.Algebra.Order.Field.Basic
import Mathlib.Tactic.Linarith
import Mathlib.Tactic.Ring

/-!
# Metered admissions

A meter has a level that never exceeds a capacity and rises at most at a given rate; every admission
takes one off it. However the times lie, an interval sees at most the capacity and what the rate
gives over its length (`Metered.admittedIn_le`): each admission is paid from the level at its
beginning or from the rise since.
-/

namespace ServerWall

variable {K : Type} [Field K] [LinearOrder K] [IsStrictOrderedRing K]

def spent (admitted : Bool) : K := if admitted then 1 else 0

theorem spent_nonneg (admitted : Bool) : 0 ≤ (spent admitted : K) := by
  cases admitted <;> simp [spent]

/-- The events of a meter, from a level at a time on. At each event the level has risen at most
at the rate, and not over the capacity. -/
inductive Metered (capacity rate : K) : K → K → List (K × Bool) → Prop
  | nil (level last : K) : Metered capacity rate level last []
  | cons {level last now top : K} {admitted : Bool} {rest : List (K × Bool)}
      (hclock : last ≤ now) (hcapacity : top ≤ capacity)
      (hrise : top ≤ level + rate * (now - last)) (hspent : spent admitted ≤ top)
      (hrest : Metered capacity rate (top - spent admitted) now rest) :
      Metered capacity rate level last ((now, admitted) :: rest)

def admittedIn (s t : K) (events : List (K × Bool)) : Nat :=
  events.countP fun e => e.2 && decide (s ≤ e.1) && decide (e.1 ≤ t)

omit [IsStrictOrderedRing K] in
theorem admittedIn_cons (s t now : K) (admitted : Bool) (rest : List (K × Bool)) :
    (admittedIn s t ((now, admitted) :: rest) : K) =
      admittedIn s t rest + if s ≤ now ∧ now ≤ t then spent admitted else 0 := by
  unfold admittedIn spent
  rw [List.countP_cons]
  cases admitted <;> by_cases hs : s ≤ now <;> by_cases ht : now ≤ t <;> simp [hs, ht]

namespace Metered

variable {capacity rate level last s t : K} {events : List (K × Bool)}

variable (h : Metered capacity rate level last events)
include h

theorem admittedIn_eq_zero (ho : t < last) : admittedIn s t events = 0 := by
  induction h with
  | nil level last => rfl
  | @cons level last now top admitted rest hcl _ _ _ _ ih =>
    have hl : t < now := lt_of_lt_of_le ho hcl
    have hc := admittedIn_cons s t now admitted rest
    rw [if_neg (fun h => absurd h.2 (not_le.mpr hl)), add_zero, ih hl] at hc
    exact_mod_cast hc

/-- **The potential**: what is admitted up to a time is paid from the level and its rise. -/
theorem admittedIn_le_level (hr : 0 ≤ rate)
    (hle : 0 ≤ level) (hl : last ≤ t) : (admittedIn s t events : K) ≤ level + rate * (t - last) := by
  induction h with
  | nil level last =>
    have hri : 0 ≤ rate * (t - last) := mul_nonneg hr (sub_nonneg.mpr hl)
    have hz : ((admittedIn s t [] : Nat) : K) = 0 := Nat.cast_zero
    linarith
  | @cons level last now top admitted rest hcl hc hri hs hre ih =>
    rw [admittedIn_cons]
    rcases le_or_gt now t with hnow | hla
    · have hlat := ih (sub_nonneg.mpr hs) hnow
      have hh : (if s ≤ now ∧ now ≤ t then spent admitted else 0 : K) ≤ spent admitted := by
        split
        · exact le_refl _
        · exact spent_nonneg admitted
      have hsp : rate * (now - last) + rate * (t - now) = rate * (t - last) := by ring
      linarith
    · have hz := hre.admittedIn_eq_zero (s := s) hla
      have hri' : 0 ≤ rate * (t - last) := mul_nonneg hr (sub_nonneg.mpr hl)
      rw [hz, if_neg (fun h => absurd h.2 (not_le.mpr hla)), Nat.cast_zero]
      linarith

/-- **The bound.** Wherever an interval begins, it sees at most the capacity and the rise over
its length. -/
theorem admittedIn_le (hr : 0 ≤ rate) (hc : 0 ≤ capacity) (hst : s ≤ t) :
    (admittedIn s t events : K) ≤ capacity + rate * (t - s) := by
  have hle : 0 ≤ rate * (t - s) := mul_nonneg hr (sub_nonneg.mpr hst)
  induction h with
  | nil level last =>
    have hz : ((admittedIn s t [] : Nat) : K) = 0 := Nat.cast_zero
    linarith
  | @cons level last now top admitted rest hcl hcap hri hs hre ih =>
    rw [admittedIn_cons]
    rcases lt_or_ge now s with he | hnow
    · rwa [if_neg (fun h => absurd h.1 (not_le.mpr he)), add_zero]
    · rcases le_or_gt now t with hnow' | hl
      · -- the first event of the interval, whose level is at most the capacity
        have hla := hre.admittedIn_le_level (s := s) hr (sub_nonneg.mpr hs) hnow'
        have hlo : rate * (t - now) ≤ rate * (t - s) := mul_le_mul_of_nonneg_left (sub_le_sub_left hnow t) hr
        rw [if_pos ⟨hnow, hnow'⟩]
        linarith
      · rw [hre.admittedIn_eq_zero hl, if_neg (fun h => absurd h.2 (not_le.mpr hl)), Nat.cast_zero]
        linarith

end Metered

end ServerWall
