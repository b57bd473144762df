import Mathlib.Data.Set.Card
import Mathlib.Data.Set.Finite.Lattice
import ServerWall.Waf.RateLimit

/-!
# The buckets that a limiter holds

A bucket is made for each new key (`check_key`), and `cleanup` forgets those that were idle for 300
seconds; but nothing calls it. So the buckets of a run stay below a bound exactly if its keys do
(`held_bounded_iff`, `buckets_outgrow`).
-/

namespace ServerWall.Waf.RateLimiter

/-! ## What is held -/

def held (limiter : RateLimiter) : Set Text := {key | limiter.buckets key ≠ none}

def afterFirst (limiter : RateLimiter) (run : Nat → Call) (n : Nat) : RateLimiter :=
  limiter.after ((List.range n).map run)

/-- In no 300 seconds are there more keys than that. -/
def Sparse (limit : Nat) (run : Nat → Call) : Prop :=
  ∀ start : ℚ, {key | ∃ n, (run n).key = key ∧ start ≤ (run n).now ∧
    (run n).now ≤ start + 300}.encard ≤ limit

section

variable {limiter : RateLimiter}

theorem held_checkKey (call) : (limiter.checkKey call).2.held = insert call.key limiter.held := by
  ext key
  show Function.update limiter.buckets call.key _ key ≠ none ↔ _
  rw [Function.update_apply, Set.mem_insert_iff]
  split
  · next heq => exact ⟨fun _ => .inl heq, fun _ => Option.some_ne_none _⟩
  · next hne => exact ⟨.inr, fun hor => hor.resolve_left hne⟩

theorem held_after (calls : List Call) :
    (limiter.after calls).held = limiter.held ∪ {key | ∃ call ∈ calls, call.key = key} := by
  induction calls generalizing limiter with
  | nil =>
    have hn : {key | ∃ call ∈ ([] : List Call), call.key = key} = ∅ := by simp
    rw [hn, Set.union_empty]
    rfl
  | cons call calls ih =>
    rw [show limiter.after (call :: calls) = (limiter.checkKey call).2.after calls from rfl, ih, held_checkKey]
    ext key
    simp only [Set.mem_union, Set.mem_insert_iff, Set.mem_ofPred_eq, List.exists_mem_cons_iff]
    grind

theorem Fresh.held_eq (hf : limiter.Fresh) : limiter.held = ∅ :=
  Set.eq_empty_iff_forall_notMem.mpr fun key hkey => hkey (hf key)

theorem Fresh.held_afterFirst (hf : limiter.Fresh) (run : Nat → Call) (n : Nat) :
    (limiter.afterFirst run n).held = (fun i => (run i).key) '' Set.Iio n := by
  rw [afterFirst, held_after, hf.held_eq, Set.empty_union]
  ext key
  simp

/-- **The buckets of a run stay below a bound exactly if its keys do**, however far apart. -/
theorem held_bounded_iff (hfresh : limiter.Fresh) (run : Nat → Call) (bound : Nat) :
    (∀ n, (limiter.afterFirst run n).held.encard ≤ bound) ↔ (Set.range fun n => (run n).key).encard ≤ bound := by
  constructor
  · intro hheld
    by_contra hmore
    -- so many keys and one more are all in use after some call
    have hle : ((bound + 1 : ℕ) : ℕ∞) ≤ (Set.range fun n => (run n).key).encard :=
      Order.add_one_le_of_lt (not_le.mp hmore)
    obtain ⟨keys, hsub, hcard⟩ := Set.exists_subset_encard_eq hle
    have hfinite : keys.Finite := Set.finite_of_encard_eq_coe hcard
    have hfound : ∀ key ∈ keys, ∃ i, (run i).key = key := fun key hkey => hsub hkey
    choose! index hindex using hfound
    obtain ⟨last, hlast⟩ := (hfinite.image index).bddAbove
    have hall : keys ⊆ (limiter.afterFirst run (last + 1)).held := by
      rw [hfresh.held_afterFirst]
      intro key hkey
      exact ⟨index key, Nat.lt_succ_of_le (hlast ⟨key, hkey, rfl⟩), hindex key hkey⟩
    have hcontra := (hcard.symm.le.trans (Set.encard_le_encard hall)).trans (hheld (last + 1))
    exact absurd (Nat.cast_le.mp hcontra) (Nat.not_succ_le_self bound)
  · intro hkeys n
    rw [hfresh.held_afterFirst]
    exact (Set.encard_le_encard (Set.image_subset_range _ _)).trans hkeys

theorem held_of_one_key : (withLimits 100 60).Fresh ∧ ∀ n, ((withLimits 100 60).afterFirst (fun i => ⟨"192.0.2.1", i, i, le_refl _⟩) n).held.encard ≤ (1 : ℕ) := by
  have hfresh := fresh_withLimits 100 60
  refine ⟨hfresh, (held_bounded_iff hfresh _ 1).mpr ?_⟩
  rw [Set.range_const, Set.encard_singleton, Nat.cast_one]

/-! ## Keys that do not come back -/

def visitors (n : Nat) : Call where
  key := List.replicate (n + 1) 'a'
  created := 301 * n
  now := 301 * n
  ordered := le_refl _

theorem visitors_sparse : Sparse 1 visitors := by
  have ha : ∀ {start : ℚ} {m n : Nat}, start ≤ 301 * m → 301 * n ≤ start + 300 → n ≤ m := by
    intro start m n hm hn
    by_contra hlt
    have hc : (m : ℚ) + 1 ≤ n := by exact_mod_cast not_le.mp hlt
    linarith
  intro start
  rw [Nat.cast_one, Set.encard_le_one_iff]
  rintro key key' ⟨m, rfl, hm, hm'⟩ ⟨n, rfl, hn, hn'⟩
  rw [le_antisymm (ha hn hm') (ha hm hn')]

/-- One key in 300 seconds, and more buckets than any bound. -/
theorem buckets_outgrow : Sparse 1 visitors ∧ (∀ n, (visitors n).now < (visitors (n + 1)).created) ∧
      ∀ bound : ℕ, ∃ n, (bound : ℕ∞) < ((withLimits 100 60).afterFirst visitors n).held.encard := by
  have hinjective : Function.Injective fun n => (visitors n).key := by
    intro m n heq
    exact Nat.succ_injective (List.replicate_left_injective 'a' heq)
  refine ⟨visitors_sparse, ?_, ?_⟩
  · intro n
    show (301 * n : ℚ) < 301 * ((n + 1 : ℕ) : ℚ)
    push_cast
    linarith
  · intro bound
    refine ⟨bound + 1, ?_⟩
    rw [(fresh_withLimits 100 60).held_afterFirst, hinjective.encard_image, ← Finset.coe_range,
      Set.encard_coe_eq_coe_finsetCard, Finset.card_range]
    exact Nat.cast_lt.mpr (Nat.lt_succ_self bound)

end

end ServerWall.Waf.RateLimiter
