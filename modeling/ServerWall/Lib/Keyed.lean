import Mathlib.Data.List.Nodup
import Mathlib.Data.List.Count

/-!
# Lists of entries with keys

An entry with a new key is appended, all entries with a key are removed, or the first one gives way to
another. Each is a relation between lists: what it does to the set of keys, when no key is there twice, and
when names that were keys are keys still.
-/

namespace ServerWall.Keyed

open List

variable {α κ μ : Type}

structure Added (key : α → κ) (a : α) (l l' : List α) : Prop where
  fresh : key a ∉ l.map key
  eq : l' = l ++ [a]

structure Removed [DecidableEq κ] (key : α → κ) (k : κ) (l l' : List α) : Prop where
  present : k ∈ l.map key
  eq : l' = l.filter fun b => key b ≠ k

structure Replaced (key : α → κ) (k : κ) (a : α) (l l' : List α) : Prop where
  split : ∃ before old after, l = before ++ old :: after ∧ key old = k ∧ k ∉ before.map key ∧ l' = before ++ a :: after

/-- Every name an entry refers to is a key. -/
def Refers (ref : α → List κ) (l : List α) (keys : List κ) : Prop := ∀ a ∈ l, ∀ k ∈ ref a, k ∈ keys

instance [DecidableEq κ] (ref : α → List κ) (l : List α) (keys : List κ) : Decidable (Refers ref l keys) :=
  inferInstanceAs (Decidable (∀ a ∈ l, ∀ k ∈ ref a, k ∈ keys))

theorem Refers.mono {l : List α} {keys keys' : List κ}
    (h : Refers ref l keys) (hsub : keys ⊆ keys') : Refers ref l keys' :=
  fun a ha k hk => hsub (h a ha k hk)

/-! ## Appending -/

theorem Added.nodup_iff {key : α → κ} {a : α} {l l' : List α} (h : Added key a l l')
    (g : α → μ) : (l'.map g).Nodup ↔ (l.map g).Nodup ∧ g a ∉ l.map g := by
  rw [h.eq, map_append, nodup_append]
  constructor
  · rintro ⟨hn, -, ha⟩
    exact ⟨hn, fun hmem => ha (g a) hmem (g a) (by simp) rfl⟩
  · rintro ⟨hn, hnew⟩
    refine ⟨hn, by simp, ?_⟩
    intro x hx y hy heq
    have hy : y = g a := by simpa using hy
    exact hnew (hy ▸ heq ▸ hx)

theorem Added.nodup {key : α → κ} {a : α} {l l' : List α} (h : Added key a l l')
    (hn : (l.map key).Nodup) : (l'.map key).Nodup :=
  (h.nodup_iff key).mpr ⟨hn, h.fresh⟩

theorem Added.forall_iff {key : α → κ} {a : α} {l l' : List α} (h : Added key a l l')
    {P : α → Prop} (hold : ∀ b ∈ l, P b) : (∀ b ∈ l', P b) ↔ P a := by
  rw [h.eq, forall_mem_append, forall_mem_singleton]
  exact and_iff_right hold

theorem Added.keys_subset {key : α → κ} {a : α} {l l' : List α} (h : Added key a l l') : l.map key ⊆ l'.map key := by
  rw [h.eq, map_append]
  exact subset_append_left _ _

/-! ## Removing -/

section

variable [DecidableEq κ] {key : α → κ} {l l' : List α}

theorem Removed.sublist (h : Removed key k l l') : l'.Sublist l := h.eq ▸ filter_sublist

theorem Removed.nodup (h : Removed key k l l') (g : α → μ) (hn : (l.map g).Nodup) : (l'.map g).Nodup :=
  hn.sublist (h.sublist.map g)

theorem Removed.mem_keys (h : Removed key k l l') : j ∈ l'.map key ↔ j ∈ l.map key ∧ j ≠ k := by
  rw [h.eq]
  simp only [mem_map, mem_filter, decide_eq_true_eq]
  constructor
  · rintro ⟨b, ⟨hb, hne⟩, rfl⟩
    exact ⟨⟨b, hb, rfl⟩, hne⟩
  · rintro ⟨⟨b, hb, rfl⟩, hne⟩
    exact ⟨b, ⟨hb, hne⟩, rfl⟩

theorem Removed.refers_iff {β : Type} {ref : β → List κ} {s : List β} (h : Removed key k l l')
    (hr : Refers ref s (l.map key)) : Refers ref s (l'.map key) ↔ ∀ b ∈ s, k ∉ ref b := by
  constructor
  · intro ha b hb hk
    exact (h.mem_keys.mp (ha b hb k hk)).2 rfl
  · intro hu b hb j hj
    refine h.mem_keys.mpr ⟨hr b hb j hj, ?_⟩
    rintro rfl
    exact hu b hb hj

end

/-! ## Replacing -/

section

variable {key : α → κ} {a : α} {l l' : List α}

theorem Replaced.map_eq (h : Replaced key k a l l') (hs : ∀ old, key old = k → g old = g a) : l'.map g = l.map g := by
  obtain ⟨before, old, after, rfl, hk, -, rfl⟩ := h.split
  simp [hs old hk]

theorem Replaced.forall_iff (h : Replaced key k a l l') {P : α → Prop} (hold : ∀ b ∈ l, P b) :
    (∀ b ∈ l', P b) ↔ P a := by
  obtain ⟨before, old, after, rfl, -, -, rfl⟩ := h.split
  simp only [forall_mem_append, forall_mem_cons] at hold ⊢
  exact ⟨fun hall => hall.2.1, fun hnew => ⟨hold.1, hnew, hold.2.2⟩⟩

/-- Keys stay distinct if the new entry keeps the key or has one that was free. -/
theorem Replaced.nodup_iff (h : Replaced key k a l l') (hn : (l.map key).Nodup) :
    (l'.map key).Nodup ↔ key a = k ∨ key a ∉ l.map key := by
  obtain ⟨before, old, after, rfl, rfl, -, rfl⟩ := h.split
  simp only [map_append, map_cons] at hn ⊢
  -- both lists are the same two parts around one key
  have ha := nodup_middle.mp hn
  rw [nodup_cons] at ha
  rw [nodup_middle, nodup_cons]
  simp only [mem_append, mem_cons, not_or] at ha ⊢
  constructor
  · rintro ⟨⟨hb, haf⟩, -⟩
    by_cases hkey : key a = key old
    · exact .inl hkey
    · exact .inr ⟨hb, hkey, haf⟩
  · rintro (hkey | ⟨hb, -, haf⟩)
    · exact ⟨hkey ▸ ha.1, ha.2⟩
    · exact ⟨⟨hb, haf⟩, ha.2⟩

theorem Replaced.mem_keys_of_ne (h : Replaced key k a l l') (hne : j ≠ k) (hj : j ∈ l.map key) : j ∈ l'.map key := by
  obtain ⟨before, old, after, rfl, rfl, -, rfl⟩ := h.split
  simp only [map_append, map_cons, mem_append, mem_cons] at hj ⊢
  rcases hj with hb | hold | ha
  · exact .inl hb
  · exact absurd hold hne
  · exact .inr (.inr ha)

/-- The key itself is there after a replacement if the new entry has it, or if
there was a second entry with it. -/
theorem Replaced.mem_keys_self [BEq κ] [LawfulBEq κ] (h : Replaced key k a l l') :
    k ∈ l'.map key ↔ key a = k ∨ 2 ≤ (l.map key).count k := by
  obtain ⟨before, old, after, rfl, rfl, hf, rfl⟩ := h.split
  simp only [map_append, map_cons, mem_append, mem_cons, count_append,
    count_cons_self, count_eq_zero.mpr hf, Nat.zero_add]
  have ha : 2 ≤ (after.map key).count (key old) + 1 ↔ key old ∈ after.map key := by
    rw [← count_pos_iff]
    omega
  rw [ha]
  constructor
  · rintro (hb | hkey | hl)
    · exact absurd hb hf
    · exact .inl hkey.symm
    · exact .inr hl
  · rintro (hkey | hl)
    · exact .inr (.inl hkey.symm)
    · exact .inr (.inr hl)

/-- Replacing breaks the references to the key if the only entry with it goes and
the new one has another. -/
theorem Replaced.refers_iff [BEq κ] [LawfulBEq κ] {β : Type} {ref : β → List κ} {s : List β}
    (h : Replaced key k a l l') (hr : Refers ref s (l.map key)) :
    Refers ref s (l'.map key) ↔ key a = k ∨ 2 ≤ (l.map key).count k ∨ ∀ b ∈ s, k ∉ ref b := by
  rw [← or_assoc, ← h.mem_keys_self]
  constructor
  · intro ha
    by_cases hk : k ∈ l'.map key
    · exact .inl hk
    · exact .inr fun b hb hus => hk (ha b hb k hus)
  · intro hc b hb j hj
    by_cases hjk : j = k
    · subst hjk
      rcases hc with hk | hu
      · exact hk
      · exact absurd hj (hu b hb)
    · exact h.mem_keys_of_ne hjk (hr b hb j hj)

end

end ServerWall.Keyed
