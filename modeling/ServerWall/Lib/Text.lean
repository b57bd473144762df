import Mathlib.Data.List.DropRight
import Mathlib.Data.Nat.Digits.Defs

/-!
# Text and bytes

A string of the source is a valid UTF-8 buffer, so it is modelled by its characters (`Text`), with the
buffer `Text.bytes`. The Unicode tables are carried by `Unicode`, with the one fact that the program leans
on: on ASCII they are the ASCII case maps.
-/

namespace ServerWall

open List Option List
open Nat (digitChar toDigits)
open UInt8 (ofNat toNat_ofNat')
open String (utf8EncodeChar utf8EncodeChar_ne_nil)

abbrev Bytes := List UInt8

abbrev Text := List Char

instance : Coe String Text := ⟨String.toList⟩

inductive IoError where
  | notFound
  | invalidData
  | connectionReset
  | brokenPipe
  | other (message : Text)
  deriving DecidableEq, Repr

namespace Text

def bytes (t : Text) : Bytes := t.flatMap String.utf8EncodeChar

def len (t : Text) : Nat := (bytes t).length

/-- The pieces of a `format!` call, in order. -/
def fmt (parts : List Text) : Text := parts.flatten

def dec (n : Nat) : Text := Nat.toDigits 10 n

def hex (n : Nat) : Text := Nat.toDigits 16 n

def zeroPad (width : Nat) (t : Text) : Text := List.replicate (width - t.length) '0' ++ t

def hexUpper (width n : Nat) : Text := zeroPad width ((hex n).map Char.toUpper)

example : hexUpper 8 0xBEEF = "0000BEEF" := by decide

@[simp] theorem bytes_nil : bytes [] = [] := rfl

@[simp] theorem bytes_cons (c : Char) (t : Text) : bytes (c :: t) = utf8EncodeChar c ++ bytes t := rfl

@[simp] theorem bytes_append (s t : Text) : bytes (s ++ t) = bytes s ++ bytes t := flatMap_append

/-! ## ASCII in UTF-8 -/

theorem utf8EncodeChar_ascii (hc : c.toNat < 128) : utf8EncodeChar c = [ofNat c.toNat] := by
  have hle : c.val.toNat ≤ 0x7f := by
    have hval : c.toNat = c.val.toNat := rfl
    omega
  simp only [utf8EncodeChar, if_pos hle]
  rfl

theorem utf8EncodeChar_high (hc : 128 ≤ c.toNat) : ∀ b ∈ utf8EncodeChar c, 128 ≤ b.toNat := by
  intro b hb
  have hgt : ¬ c.val.toNat ≤ 0x7f := by
    have hval : c.toNat = c.val.toNat := rfl
    omega
  simp only [utf8EncodeChar, if_neg hgt] at hb
  split at hb
  · simp only [mem_cons, not_mem_nil, or_false] at hb
    rcases hb with rfl | rfl <;> simp only [toNat_ofNat'] <;> omega
  · split at hb
    · simp only [mem_cons, not_mem_nil, or_false] at hb
      rcases hb with rfl | rfl | rfl <;> simp only [toNat_ofNat'] <;> omega
    · simp only [mem_cons, not_mem_nil, or_false] at hb
      rcases hb with rfl | rfl | rfl | rfl <;> simp only [toNat_ofNat'] <;> omega

theorem ascii_mem_utf8EncodeChar (ha : a.toNat < 128) : ofNat a.toNat ∈ utf8EncodeChar c ↔ c = a := by
  by_cases hc : c.toNat < 128
  · rw [utf8EncodeChar_ascii hc, mem_singleton]
    refine ⟨fun h => ?_, fun h => by rw [h]⟩
    have hnat := congrArg UInt8.toNat h
    simp only [toNat_ofNat'] at hnat
    exact Char.toNat_inj.mp (by omega)
  · refine ⟨fun h => ?_, fun h => absurd (h ▸ ha) hc⟩
    have hh := utf8EncodeChar_high (by omega) _ h
    simp only [toNat_ofNat'] at hh
    omega

theorem ascii_mem_bytes (ha : a.toNat < 128) : ofNat a.toNat ∈ bytes t ↔ a ∈ t := by
  simp only [bytes, mem_flatMap, ascii_mem_utf8EncodeChar ha, exists_eq_right]

theorem getLast_bytes_ascii (ha : a.toNat < 128)
    (h : t.getLast? ≠ some a) : (bytes t).getLast? ≠ some (ofNat a.toNat) := by
  rcases eq_nil_or_concat t with rfl | ⟨t, c, rfl⟩
  · simp
  · intro hl
    rw [concat_eq_append] at h hl
    rw [bytes_append, bytes_cons, bytes_nil, append_nil,
      getLast?_append_of_ne_nil _ (utf8EncodeChar_ne_nil)] at hl
    have hmem := mem_of_getLast? hl
    rw [ascii_mem_utf8EncodeChar ha] at hmem
    exact h (by simp [hmem])

theorem bytes_eq_singleton (ha : a.toNat < 128) : bytes t = [ofNat a.toNat] ↔ t = [a] := by
  constructor
  · intro h
    cases t with
    | nil => cases h
    | cons c t =>
      have hc : c = a := by
        rw [bytes_cons] at h
        rw [← ascii_mem_utf8EncodeChar ha]
        rcases append_eq_cons_iff.mp h with ⟨hnil, -⟩ | ⟨l, hl, -⟩
        · exact absurd hnil utf8EncodeChar_ne_nil
        · rw [hl]
          exact mem_cons_self
      subst hc
      rw [bytes_cons, utf8EncodeChar_ascii ha] at h
      cases t with
      | nil => rfl
      | cons d t =>
        have ht := (cons.inj h).2
        simp at ht
  · rintro rfl
    simp [utf8EncodeChar_ascii ha]

/-! ## Decoding -/

/-- `String::from_utf8`: the text of a buffer that is valid UTF-8. -/
def ofBytes (b : Bytes) : Option Text := b.toByteArray.utf8Decode?.map Array.toList

@[simp] theorem ofBytes_bytes (t : Text) : ofBytes (bytes t) = some t := by
  have hd : (bytes t).toByteArray.utf8Decode? = some t.toArray := utf8Decode?_utf8Encode
  rw [ofBytes, hd]
  simp

theorem ofBytes_eq_some : ofBytes b = some t ↔ bytes t = b := by
  constructor
  · intro h
    obtain ⟨chars, hc, rfl⟩ := map_eq_some_iff.mp h
    have he := ByteArray.utf8Encode_get_utf8Decode? (b := b.toByteArray) (h := by simp [hc])
    simp only [hc, get_some] at he
    exact toByteArray_inj.mp he
  · rintro rfl
    exact ofBytes_bytes t

theorem bytes_eq_concat_ascii (ha : a.toNat < 128)
    (h : bytes t = b ++ [ofNat a.toNat]) : ∃ x, t = x ++ [a] ∧ bytes x = b := by
  rcases eq_nil_or_concat t with rfl | ⟨x, c, rfl⟩
  · have hnil : b ++ [ofNat a.toNat] = [] := h.symm
    simp at hnil
  · rw [concat_eq_append] at h ⊢
    rw [bytes_append, bytes_cons, bytes_nil, append_nil] at h
    have hl : (utf8EncodeChar c).getLast? = some (ofNat a.toNat) := by
      have := congrArg getLast? h
      rwa [getLast?_append_of_ne_nil _ utf8EncodeChar_ne_nil, getLast?_concat] at this
    obtain rfl := (ascii_mem_utf8EncodeChar ha).mp (mem_of_getLast? hl)
    rw [utf8EncodeChar_ascii ha] at h
    exact ⟨x, rfl, (append_inj' h rfl).1⟩

theorem bytes_eq_cons_ascii (ha : a.toNat < 128)
    (h : bytes t = ofNat a.toNat :: b) : ∃ x, t = a :: x ∧ bytes x = b := by
  cases t with
  | nil => cases h
  | cons c x =>
    rw [bytes_cons] at h
    have hh : ofNat a.toNat ∈ utf8EncodeChar c := by
      rcases append_eq_cons_iff.mp h with ⟨hnil, -⟩ | ⟨l, hl, -⟩
      · exact absurd hnil utf8EncodeChar_ne_nil
      · rw [hl]
        exact mem_cons_self
    obtain rfl := (ascii_mem_utf8EncodeChar ha).mp hh
    rw [utf8EncodeChar_ascii ha] at h
    exact ⟨x, rfl, (cons.inj h).2⟩

/-! ## Lines of a stream -/

/-- A stream cut after every separator; what follows the last one is a part of
its own. -/
def splitAfter {α : Type} [DecidableEq α] (sep : α) : List α → List (List α)
  | [] => []
  | x :: xs =>
    if x = sep then [x] :: splitAfter sep xs
    else match splitAfter sep xs with
      | [] => [[x]]
      | l :: ls => (x :: l) :: ls

theorem splitAfter_line {α : Type} [DecidableEq α] {sep : α} {body : List α} (h : sep ∉ body) (rest : List α) :
    splitAfter sep (body ++ sep :: rest) = (body ++ [sep]) :: splitAfter sep rest := by
  induction body with
  | nil => simp [splitAfter]
  | cons x body ih =>
    have hx : x ≠ sep := fun hx => h (hx ▸ mem_cons_self)
    rw [cons_append, splitAfter, if_neg hx, ih fun hmem => h (mem_cons_of_mem _ hmem)]
    rfl

theorem flatten_splitAfter {α : Type} [DecidableEq α] (sep : α) (xs : List α) : (splitAfter sep xs).flatten = xs := by
  induction xs with
  | nil => rfl
  | cons x xs ih =>
    rw [splitAfter]
    split
    · rw [flatten_cons, ih, singleton_append]
    · cases hs : splitAfter sep xs with
      | nil | cons l ls => rw [← ih, hs]; rfl

theorem mem_splitAfter {α : Type} [DecidableEq α] {sep : α} {xs l : List α}
    (h : l ∈ splitAfter sep xs) : l ≠ [] ∧ sep ∉ l.dropLast := by
  induction xs generalizing l with
  | nil => cases h
  | cons x xs ih =>
    rw [splitAfter] at h
    split at h
    · rcases mem_cons.mp h with rfl | h
      · exact ⟨cons_ne_nil _ _, not_mem_nil⟩
      · exact ih h
    · rename_i hx
      split at h
      · rw [mem_singleton.mp h]
        exact ⟨cons_ne_nil _ _, not_mem_nil⟩
      · rename_i l' ls hs
        rcases mem_cons.mp h with rfl | h
        · obtain ⟨hne, hsep⟩ := ih (hs ▸ mem_cons_self)
          refine ⟨cons_ne_nil _ _, ?_⟩
          rw [dropLast_cons_of_ne_nil hne, mem_cons]
          rintro (heq | hmem)
          · exact hx heq.symm
          · exact hsep hmem
        · exact ih (hs ▸ mem_cons_of_mem _ h)

/-! ## White space, trimming, splitting -/

/-- `char::is_whitespace`: the code points with the White_Space property. -/
def isWhitespace (c : Char) : Bool :=
  let v := c.toNat
  (0x09 ≤ v && v ≤ 0x0D) || v == 0x20 || v == 0x85 || v == 0xA0 || v == 0x1680 ||
    (0x2000 ≤ v && v ≤ 0x200A) || v == 0x2028 || v == 0x2029 || v == 0x202F || v == 0x205F ||
    v == 0x3000

/-- `str::trim_matches`: both ends lose the characters that satisfy `p`. -/
def trimMatches (p : Char → Bool) (t : Text) : Text := (t.dropWhile p).rdropWhile p

def trim (t : Text) : Text := trimMatches isWhitespace t

def trimEndMatches (c : Char) (t : Text) : Text := t.rdropWhile (· == c)

def stripPrefix (pre t : Text) : Option Text := if pre <+: t then some (t.drop pre.length) else none

def stripSuffix (c : Char) (t : Text) : Option Text := if t.getLast? = some c then some t.dropLast else none

/-- `str::parse` to an unsigned integer below `bound`: one `+` may come first,
then there are only digits, at least one. -/
def parseUnsigned (bound : Nat) (t : Text) : Option Nat :=
  let digits := if t.head? = some '+' then t.tail else t
  if digits ≠ [] ∧ digits.all Char.isDigit then
    let n := digits.foldl (fun n c => n * 10 + (c.toNat - 48)) 0
    if n < bound then some n else none
  else none

def parseInt64 (t : Text) : Option Int :=
  match t with
  | '-' :: digits =>
    -- a second sign is no digit
    if digits.head? = some '+' then none
    else (parseUnsigned (2 ^ 63 + 1) digits).map fun n => -(n : Int)
  | _ => (parseUnsigned (2 ^ 63) t).map Int.ofNat

def eqIgnoreAsciiCase (s t : Text) : Bool := s.map Char.toLower == t.map Char.toLower

/-- `str::find` and the slice up to the match: what stands before the first
occurrence of a pattern. -/
def before (pat : Text) : Text → Option Text
  | [] => if pat = [] then some [] else none
  | c :: t => if pat <+: c :: t then some [] else (before pat t).map (c :: ·)

def join (sep : Text) (parts : List Text) : Text := sep.intercalate parts

/-- `str::rsplit_once` at a character: what stands before and after its last
occurrence. -/
def rsplitOnce (c : Char) : Text → Option (Text × Text)
  | [] => none
  | x :: t =>
    match rsplitOnce c t with
    | some (a, b) => some (x :: a, b)
    | none => if x = c then some ([], t) else none

/-- `str::rsplit(c).next()`: what stands after the last occurrence, or the
whole string. -/
def lastPiece (c : Char) (t : Text) : Text :=
  match rsplitOnce c t with
  | some (_, b) => b
  | none => t

/-- `&t[n..]`, a slice by byte offset; `none` is the panic of an offset that is
out of range or inside a character. -/
def sliceFrom : Nat → Text → Option Text
  | 0, t => some t
  | _ + 1, [] => none
  | n + 1, c :: t =>
    let w := (String.utf8EncodeChar c).length
    if w ≤ n + 1 then sliceFrom (n + 1 - w) t else none

@[simp] theorem sliceFrom_zero (t : Text) : sliceFrom 0 t = some t := by
  cases t <;> rfl

theorem sliceFrom_cons (hw : (utf8EncodeChar c).length = w)
    (hpos : 0 < w) (n : Nat) (t : Text) : sliceFrom (w + n) (c :: t) = sliceFrom n t := by
  obtain ⟨w, rfl⟩ := Nat.exists_eq_add_of_le' hpos
  rw [Nat.add_right_comm, sliceFrom, hw, if_pos (by omega)]
  exact congrArg (sliceFrom · t) (by omega)

theorem sliceFrom_ascii (hs : ∀ c ∈ s, c.toNat < 128) (n : Nat) (t : Text) :
    sliceFrom (s.length + n) (s ++ t) = sliceFrom n t := by
  induction s with
  | nil => rw [length_nil, Nat.zero_add, nil_append]
  | cons c s ih =>
    have hw : (utf8EncodeChar c).length = 1 := by
      rw [utf8EncodeChar_ascii (hs c mem_cons_self)]
      rfl
    rw [length_cons, Nat.add_right_comm, Nat.add_comm _ 1, cons_append, sliceFrom_cons hw Nat.one_pos]
    exact ih fun d hd => hs d (mem_cons_of_mem _ hd)

/-! ## Parts of a text -/

theorem forall_ascii {P : Char → Prop} (hall : ∀ k : Fin 128, P (Char.ofNat k)) (hc : c.toNat < 128) : P c := by
  have h := hall ⟨c.toNat, hc⟩
  rwa [Char.ofNat_toNat] at h

theorem toLower_ascii {c : Char} (h : c.toNat < 128) : c.toLower.toNat < 128 :=
  forall_ascii (P := fun c => c.toLower.toNat < 128) (by decide) h

theorem len_ascii (ht : ∀ c ∈ t, c.toNat < 128) : len t = t.length := by
  unfold len
  induction t with
  | nil => rfl
  | cons c t ih =>
    rw [forall_mem_cons] at ht
    rw [bytes_cons, length_append, utf8EncodeChar_ascii ht.1, ih ht.2, length_singleton, length_cons, Nat.add_comm]

theorem before_eq_some (h : before pat t = some p) : ∃ rest, t = p ++ (pat ++ rest) := by
  induction t generalizing p with
  | nil =>
    unfold before at h
    split at h
    · next hp =>
      cases h
      exact ⟨[], by rw [hp]; rfl⟩
    · cases h
  | cons c t ih =>
    unfold before at h
    split at h
    · next hp =>
      cases h
      obtain ⟨rest, hrest⟩ := hp
      exact ⟨rest, hrest.symm⟩
    · obtain ⟨p, hp, rfl⟩ := map_eq_some_iff.mp h
      obtain ⟨rest, rfl⟩ := ih hp
      exact ⟨rest, rfl⟩

theorem before_isSome_iff : (before pat t).isSome ↔ pat <:+: t := by
  refine ⟨fun h => ?_, fun h => ?_⟩
  · obtain ⟨p, hp⟩ := isSome_iff_exists.mp h
    obtain ⟨rest, rfl⟩ := before_eq_some hp
    exact ⟨p, rest, append_assoc _ _ _⟩
  · induction t with
    | nil =>
      rw [infix_nil] at h
      rw [h]
      rfl
    | cons c t ih =>
      unfold before
      split
      · rfl
      · next hp =>
        rw [isSome_map]
        exact ih ((infix_cons_iff.mp h).resolve_left hp)

theorem trim_infix (t : Text) : trim t <:+: t := ( rdropWhile_prefix _ _).isInfix.trans (dropWhile_suffix _).isInfix

theorem rdropWhile_append_of_pos {s t : Text} (ht : ∀ c ∈ t, p c) : (s ++ t).rdropWhile p = s.rdropWhile p := by
  rw [rdropWhile, reverse_append, dropWhile_append_of_pos (by simpa using ht)]
  rfl

theorem trim_append {t ws : Text} (hh : ∀ c ∈ t.head?, isWhitespace c = false)
    (hl : ∀ c ∈ t.getLast?, isWhitespace c = false) (hws : ∀ c ∈ ws, isWhitespace c) : trim (t ++ ws) = t := by
  cases t with
  | nil => rw [trim, trimMatches, nil_append, dropWhile_eq_nil_iff.mpr hws]; rfl
  | cons c t =>
    have hc : isWhitespace c = false := hh c rfl
    rw [trim, trimMatches, cons_append, dropWhile_cons_of_neg (by simp [hc]), ← cons_append,
      rdropWhile_append_of_pos hws, rdropWhile_eq_self_iff]
    intro hne
    simp [hl _ (getLast?_eq_some_getLast hne)]

theorem trim_eq_self (h : ∀ c ∈ t, isWhitespace c = false) : trim t = t := by
  have hh : ∀ c ∈ t.head?, isWhitespace c = false := fun c hc => h c (mem_of_mem_head? hc)
  have hl : ∀ c ∈ t.getLast?, isWhitespace c = false := fun c hc => h c (mem_of_mem_getLast? hc)
  simpa using @trim_append t [] hh hl (by simp)

theorem mem_of_parseUnsigned (h : parseUnsigned bound t = some n) (hc : c ∈ t) : c ∈ "+0123456789".toList := by
  obtain ⟨⟨-, hd⟩, -⟩ := Option.ite_none_right_eq_some.mp h
  by_cases hplus : c = '+'
  · rw [hplus]
    exact .head _
  · have hdigit : c.isDigit := by
      refine all_eq_true.mp hd c ?_
      split
      · next hh =>
        obtain ⟨rest, rfl⟩ := head?_eq_some_iff.mp hh
        exact (mem_cons.mp hc).resolve_left hplus
      · exact hc
    exact forall_ascii (P := fun c => c.isDigit → c ∈ "+0123456789".toList) (by decide)
      (Nat.lt_of_le_of_lt (Char.isDigit_iff_toNat.mp hdigit).2 (by decide)) hdigit

theorem no_space_of_parseUnsigned (h : parseUnsigned bound t = some n) (hc : c ∈ t) : isWhitespace c = false := by
  have hall : "+0123456789".toList.all (!isWhitespace ·) = true := rfl
  simpa using all_eq_true.mp hall c (mem_of_parseUnsigned h hc)

theorem lf_not_mem_trim (h : '\n' ∉ t.dropLast) : '\n' ∉ trim t := by
  intro hmem
  have hne : trim t ≠ [] := ne_nil_of_mem hmem
  have hl : (trim t).getLast hne ≠ '\n' := by
    intro heq
    have hnot := rdropWhile_last_not isWhitespace (t.dropWhile isWhitespace) hne
    exact hnot (heq.symm ▸ by decide)
  have hf : '\n' ∈ (trim t).dropLast := by
    rw [← dropLast_append_getLast hne, mem_append, mem_singleton] at hmem
    exact hmem.resolve_right fun heq => hl heq.symm
  obtain ⟨a, b, hab⟩ := trim_infix t
  have hcut : t = (a ++ (trim t).dropLast) ++ ((trim t).getLast hne :: b) := by
    conv_lhs => rw [← hab, ← dropLast_append_getLast hne]
    simp
  apply h
  rw [hcut, dropLast_append_of_ne_nil (cons_ne_nil _ _)]
  exact mem_append_left _ (mem_append_right _ hf)

theorem sliceFrom_suffix (h : sliceFrom n t = some s) : s <:+ t := by
  fun_induction sliceFrom n t with
  | case1 t => exact (some.inj h) ▸ suffix_rfl
  | case2 | case4 => cases h
  | case3 n c t w hw ih => exact (ih h).trans (suffix_cons c t)

theorem rsplitOnce_suffix (h : rsplitOnce c t = some (a, b)) : b <:+ t := by
  induction t generalizing a with
  | nil => cases h
  | cons x t ih =>
    rw [rsplitOnce] at h
    cases hrec : rsplitOnce c t with
    | some ab =>
      rw [hrec] at h
      cases h
      exact (ih hrec).trans (suffix_cons x t)
    | none =>
      rw [hrec] at h
      dsimp only at h
      split at h
      · cases h
        exact suffix_cons x _
      · cases h

theorem lastPiece_suffix (c : Char) (t : Text) : lastPiece c t <:+ t := by
  unfold lastPiece
  split
  · rename_i a b h
    exact rsplitOnce_suffix h
  · exact suffix_rfl

theorem lf_not_mem_fmt (h : ∀ p ∈ parts, '\n' ∉ p) : '\n' ∉ fmt parts := by
  intro hmem
  obtain ⟨p, hp, hlf⟩ := mem_flatten.mp hmem
  exact h p hp hlf

theorem mem_intercalate {sep : Text} {c : Char} (h : c ∈ sep.intercalate parts) : c ∈ sep ∨ ∃ part ∈ parts, c ∈ part := by
  induction parts with
  | nil => exact absurd h not_mem_nil
  | cons part parts ih =>
    cases parts with
    | nil =>
      rw [intercalate_singleton] at h
      exact .inr ⟨part, mem_cons_self, h⟩
    | cons next parts =>
      rw [intercalate_cons_cons, mem_append, mem_append] at h
      rcases h with (hp | hsep) | hr
      · exact .inr ⟨part, mem_cons_self, hp⟩
      · exact .inl hsep
      · refine (ih hr).imp_right ?_
        rintro ⟨part', hmem, hc⟩
        exact ⟨part', mem_cons_of_mem _ hmem, hc⟩

theorem mem_toDigits (h : c ∈ toDigits b n) : ∃ k, c = digitChar k := by
  have hco : ∀ fuel n (ds : List Char), (∀ d ∈ ds, ∃ k, d = digitChar k) →
      ∀ d ∈ Nat.toDigitsCore b fuel n ds, ∃ k, d = digitChar k := by
    intro fuel
    induction fuel with
    | zero => exact fun _ _ hds => hds
    | succ fuel ih =>
      intro n ds hds
      have hc : ∀ d ∈ digitChar (n % b) :: ds, ∃ k, d = digitChar k := by
        intro d hd
        rcases mem_cons.mp hd with rfl | hd
        · exact ⟨_, rfl⟩
        · exact hds d hd
      rw [Nat.toDigitsCore]
      split
      · exact hc
      · exact ih _ _ hc
  exact hco _ _ _ (fun _ hd => absurd hd not_mem_nil) c h

theorem digitChar_of_digits {P : Char → Prop} (hd : ∀ k < 16, P (digitChar k)) (hs : P '*')
    (k : Nat) : P (digitChar k) := by
  rcases Nat.lt_or_ge k 16 with hk | hk
  · exact hd k hk
  · have heq : digitChar k = '*' := by
      unfold digitChar
      repeat rw [if_neg (by omega)]
    rwa [heq]

theorem not_mem_dec {c : Char} (hc : c.isDigit = false) (n : Nat) : c ∉ dec n := by
  intro hmem
  rw [Nat.isDigit_of_mem_toDigits (by omega) (by omega) hmem] at hc
  cases hc

theorem lf_not_mem_dec (n : Nat) : '\n' ∉ dec n := not_mem_dec rfl n

theorem lf_not_mem_hexUpper (width n : Nat) : '\n' ∉ hexUpper width n := by
  intro h
  rcases mem_append.mp h with hpad | hhex
  · exact absurd (eq_of_mem_replicate hpad) (by decide)
  · obtain ⟨c, hc, heq⟩ := mem_map.mp hhex
    obtain ⟨k, rfl⟩ := mem_toDigits hc
    exact digitChar_of_digits (P := (·.toUpper ≠ '\n')) (by decide) (by decide) k heq

def hexDigit (c : Char) : Nat := if c.toNat < 65 then c.toNat - 48 else c.toNat - 55

def hexValue (t : Text) : Nat := t.foldl (fun n c => 16 * n + hexDigit c) 0

theorem hexDigit_digitChar : ∀ d < 16, hexDigit (digitChar d).toUpper = d := by decide

theorem hexValue_append (s t : Text) : hexValue (s ++ t) = hexValue s * 16 ^ t.length + hexValue t := by
  induction t using reverseRecOn with
  | nil => simp [hexValue]
  | append_singleton t c ih =>
    rw [← append_assoc, length_append, length_singleton, pow_succ]
    have hl : ∀ u : Text, hexValue (u ++ [c]) = 16 * hexValue u + hexDigit c := by
      intro u
      simp [hexValue, foldl_append]
    rw [hl, hl, ih]
    ring

theorem hexValue_hex (n : Nat) : hexValue ((hex n).map Char.toUpper) = n := by
  induction n using Nat.strongRecOn with
  | ind n ih =>
    rw [hex, Nat.toDigits_eq_if (by decide)]
    split
    · rename_i hlt
      simp [hexValue, hexDigit_digitChar n hlt]
    · rename_i hge
      have hdiv := ih (n / 16) (by omega)
      rw [map_append, hexValue_append, show toDigits 16 (n / 16) = hex (n / 16) from rfl, hdiv]
      have hl : hexValue (map Char.toUpper [digitChar (n % 16)]) = n % 16 := by
        simp [hexValue, hexDigit_digitChar (n % 16) (Nat.mod_lt n (by decide))]
      rw [hl, length_map, length_singleton, pow_one]
      omega

theorem hex_injective : Function.Injective hex := fun m n h => by rw [← hexValue_hex m, h, hexValue_hex]

theorem dec_injective : Function.Injective dec := fun m n h => by
  have hr := congrArg (Nat.ofDigitChars 10 · 0) h
  simpa only [dec, Nat.ofDigitChars_ten_toDigits] using hr

theorem hexValue_hexUpper (width n : Nat) : hexValue (hexUpper width n) = n := by
  have hz : ∀ k, hexValue (replicate k '0') = 0 := by
    intro k
    induction k with
    | zero => rfl
    | succ k ih =>
      rw [replicate_succ', hexValue_append, ih]
      rfl
  rw [hexUpper, zeroPad, hexValue_append, hz, hexValue_hex, Nat.zero_mul, Nat.zero_add]

theorem length_hexUpper (hw : 0 < width) (hn : n < 16 ^ width) : (hexUpper width n).length = width := by
  have hl := Nat.toDigits_length 16 n width hw hn
  rw [hexUpper, zeroPad, length_append, length_replicate, length_map]
  unfold hex
  omega

end Text

/-! ## Letter case -/

/-- The letter-case tables. `upper` maps one character, perhaps to several; `lowercase` a whole string, since
the lower case of a sigma depends on its place in the word. -/
structure Unicode where
  upper : Char → Text
  lowercase : Text → Text
  upper_ascii : ∀ c : Char, c.toNat < 128 → upper c = [c.toUpper]
  lowercase_ascii : ∀ t : Text, (∀ c ∈ t, c.toNat < 128) → lowercase t = t.map Char.toLower

namespace Unicode

def toUppercase (u : Unicode) (t : Text) : Text := t.flatMap u.upper

def toLowercase (u : Unicode) (t : Text) : Text := u.lowercase t

def ascii : Unicode where
  upper c := [c.toUpper]
  lowercase t := t.map Char.toLower
  upper_ascii _ _ := rfl
  lowercase_ascii _ _ := rfl

theorem toUppercase_cons (u : Unicode) (c : Char) (t : Text) : u.toUppercase (c :: t) = u.upper c ++ u.toUppercase t :=
  flatMap_cons

/-- What the tables have outside ASCII: every character has an upper case, and one that begins with ASCII
is that of a dotless i, an `S`, a ligature with `F`, or a letter with its accent behind it. -/
structure Standard (u : Unicode) : Prop where
  upper_ne_nil : ∀ c, u.upper c ≠ []
  upper_foreign : ∀ (c a : Char) (rest : Text), 128 ≤ c.toNat → u.upper c = a :: rest →
    a.toNat < 128 → a.isUpper = true ∧ (c = 'ı' ∧ a = 'I' ∧ rest = [] ∨ a = 'S' ∨
        ∃ b more, rest = b :: more ∧ (128 ≤ b.toNat ∨ a = 'F' ∧ b ∈ ['F', 'I', 'L']))

theorem toUpper_foreign {c : Char} (hc : 128 ≤ c.toNat) : c.toUpper = c := by
  have hnot : ¬ (97 ≤ c.val ∧ c.val ≤ 122) := fun h => by
    have : c.val.toNat ≤ 122 := h.2
    exact absurd (Nat.le_trans hc this) (by decide)
  exact dif_neg hnot

theorem standard_ascii : Standard .ascii where
  upper_ne_nil _ := cons_ne_nil _ _
  upper_foreign c a rest hc hu ha := by
    have heq : c.toUpper = a := (cons.inj hu).1
    rw [← heq, toUpper_foreign hc] at ha
    omega

end Unicode

end ServerWall
