import Mathlib.Data.List.Forall2

/-!
# Computations that can fail

How a computation in `Except` that came to a result got there: one lemma per way of
putting computations together.
-/

namespace ServerWall

open List

variable {ε α β γ : Type}

theorem bind_eq_ok {x : Except ε α} {b : β} : x >>= f = .ok b ↔ ∃ a, x = .ok a ∧ f a = .ok b := by
  cases x <;> simp [bind, Except.bind]

theorem bind_pure_eq_ok {x : Except ε β} {f : β → γ} {c : γ} :
    (x >>= fun b => pure (f b)) = .ok c ↔ ∃ b, x = .ok b ∧ c = f b := by
  cases x with
  | error e => simp [bind, Except.bind]
  | ok b => simp [bind, Except.bind, pure, Except.pure, eq_comm]

theorem mapM_eq_ok {f : α → Except ε β} {l : List α} :
    l.mapM f = .ok l' ↔ List.Forall₂ (fun a b => f a = .ok b) l l' := by
  induction l generalizing l' with
  | nil =>
    rw [mapM_nil, forall₂_nil_left_iff]
    constructor
    · intro h
      cases h
      rfl
    · rintro rfl
      rfl
  | cons a l ih =>
    rw [mapM_cons, bind_eq_ok, forall₂_cons_left_iff]
    constructor
    · rintro ⟨b, hb, h⟩
      obtain ⟨rest, hr, rfl⟩ := bind_pure_eq_ok.mp h
      exact ⟨b, rest, hb, ih.mp hr, rfl⟩
    · rintro ⟨b, rest, hb, hr, rfl⟩
      exact ⟨b, hb, bind_pure_eq_ok.mpr ⟨rest, ih.mpr hr, rfl⟩⟩

theorem exists_mapM_eq_ok {f : α → Except ε β} {l : List α} :
    (∃ l', l.mapM f = .ok l') ↔ ∀ a ∈ l, ∃ b, f a = .ok b := by
  simp only [mapM_eq_ok]
  induction l with
  | nil => exact ⟨fun _ _ h => absurd h not_mem_nil, fun _ => ⟨[], .nil⟩⟩
  | cons a l ih =>
    rw [forall_mem_cons, ← ih]
    constructor
    · rintro ⟨l', h⟩
      obtain ⟨b, rest, hb, hr, -⟩ := forall₂_cons_left_iff.mp h
      exact ⟨⟨b, hb⟩, rest, hr⟩
    · rintro ⟨⟨b, hb⟩, rest, hr⟩
      exact ⟨b :: rest, .cons hb hr⟩

end ServerWall
