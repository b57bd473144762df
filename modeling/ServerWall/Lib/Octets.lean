import ServerWall.Lib.Text

/-!
# Reading at a position

Formats with length fields are read with a position that runs through the octets. `At data pos rest`
says that `rest` is what is left at a position: what stands there is read (`At.slice`, `At.readBe`),
and behind it the rest is left (`At.move`). So a proof about a parser follows the encoding from field
to field, and no position is ever computed.
-/

namespace ServerWall

open List

/-! ## Numbers -/

def beNat (octets : Bytes) : Nat := octets.foldl (fun n octet => 256 * n + octet.toNat) 0

def toBe : Nat → Nat → Bytes
  | 0, _ => []
  | width + 1, n => toBe width (n / 256) ++ [UInt8.ofNat n]

@[simp] theorem length_toBe (width n : Nat) : (toBe width n).length = width := by
  induction width generalizing n with
  | zero => rfl
  | succ width ih => rw [toBe, length_append, ih, length_singleton]

theorem beNat_toBe (h : n < 256 ^ width) : beNat (toBe width n) = n := by
  induction width generalizing n with
  | zero =>
    rw [Nat.pow_zero] at h
    exact (Nat.lt_one_iff.mp h).symm
  | succ width ih =>
    have hdiv : n / 256 < 256 ^ width := by
      rw [Nat.pow_succ] at h
      exact Nat.div_lt_of_lt_mul (Nat.mul_comm _ _ ▸ h)
    have hrec : beNat (toBe width (n / 256)) = n / 256 := ih hdiv
    have hl : (UInt8.ofNat n).toNat = n % 256 := UInt8.toNat_ofNat'
    unfold beNat at hrec ⊢
    rw [toBe, foldl_append, hrec, foldl_cons, foldl_nil, hl]
    exact Nat.div_add_mod n 256

/-! ## Positions -/

section

variable {α : Type}

def slice (data : List α) (start stop : Nat) : Option (List α) :=
  if start ≤ stop ∧ stop ≤ data.length then some ((data.drop start).take (stop - start)) else none

structure At (data : List α) (pos : Nat) (rest : List α) : Prop where
  le : pos ≤ data.length
  drop_eq : data.drop pos = rest

variable {data x rest : List α}

theorem At.start (data : List α) : At data 0 data := ⟨Nat.zero_le _, rfl⟩

theorem At.length_eq (h : At data pos rest) : data.length = pos + rest.length := by
  rw [← h.drop_eq, length_drop, Nat.add_sub_cancel' h.le]

theorem At.move (h : At data pos (x ++ rest)) : At data (pos + x.length) rest := by
  have hlen := h.length_eq
  rw [length_append] at hlen
  refine ⟨by omega, ?_⟩
  rw [← drop_drop, h.drop_eq, drop_left]

theorem At.slice (h : At data pos (x ++ rest)) : slice data pos (pos + x.length) = some x := by
  have hlen := h.length_eq
  rw [length_append] at hlen
  unfold ServerWall.slice
  rw [if_pos ⟨Nat.le_add_right _ _, by omega⟩, h.drop_eq, Nat.add_sub_cancel_left, take_left]

theorem At.slice_all (h : At data pos x) : ServerWall.slice data pos (pos + x.length) = some x := by
  rw [← append_nil x] at h
  exact h.slice

theorem At.getElem? (h : At data pos (a :: rest)) : data[pos]? = some a := by
  have hh := congrArg (·[0]?) h.drop_eq
  rwa [getElem?_drop, Nat.add_zero, getElem?_cons_zero] at hh

end

def readBe (width : Nat) (data : Bytes) (pos : Nat) : Option Nat := (slice data pos (pos + width)).map beNat

section

variable {data rest : Bytes} {pos width n : Nat}

theorem At.readBe (h : At data pos (toBe width n ++ rest)) (hn : n < 256 ^ width) : readBe width data pos = some n := by
  have hs := h.slice
  rw [length_toBe] at hs
  rw [ServerWall.readBe, hs, Option.map_some, beNat_toBe hn]

theorem At.move_toBe (h : At data pos (toBe width n ++ rest)) : At data (pos + width) rest := by
  have hm := h.move
  rwa [length_toBe] at hm

theorem readBe_eq_none (h : data.length < pos + width) : readBe width data pos = none := by
  unfold readBe slice
  rw [if_neg (fun hle => Nat.not_le.mpr h hle.2), Option.map_none]

end

end ServerWall
