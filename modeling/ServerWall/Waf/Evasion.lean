import ServerWall.Waf.Detection

/-!
# Texts that are spelled otherwise

What the transformations make of a text in capitals or percent-encoded. Lower-casing comes before decoding,
so an encoded capital stays one (`encoded_alike_iff`). `url_decode` is the form decoder only for escapes
below 0x80 that follow no broken one (`urlDecode_eq_form`). The pattern of a custom rule is not lower-cased
(`operator_sound_iff`).
-/

namespace ServerWall.Waf

open List RuleMatcher Text RuleParser
open Char (ofNat toLower)

/-! ## Percent-encoding -/

/-- `e` is `v` with the characters `cs` percent-encoded. -/
inductive Encodes : Text → Text → Text → Prop
  | nil : Encodes [] [] []
  | plain (c : Char) (h : Encodes v e cs) : Encodes (c :: v) (c :: e) cs
  | escape (ha : hexDigit? a = some m) (hb : hexDigit? b = some n) (hlt : 16 * m + n < 128) (h : Encodes v e cs) :
      Encodes (Char.ofNat (16 * m + n) :: v) ('%' :: a :: b :: e) (Char.ofNat (16 * m + n) :: cs)

theorem lowered_ascii (h : Lowered casing t t') (ht : ∀ c ∈ t, c.toNat < 128) : t' = t.map toLower := by
  obtain ⟨ps, rfl, hps⟩ := h
  induction hps with
  | nil => rfl
  | cons hc _ ih =>
    rw [flatten_cons, casing.ascii hc (ht _ mem_cons_self), ih fun d hd => ht d (mem_cons_of_mem _ hd)]
    rfl

theorem toLowercase_ascii (casing : Casing unicode tables) (ht : ∀ c ∈ t, c.toNat < 128) :
    unicode.toLowercase t = t.map toLower := lowered_ascii (lowered_toLowercase casing t) ht

theorem hexDigit?_toLower (h : hexDigit? a = some m) : hexDigit? a.toLower = some m :=
  (forall_ascii (P := fun a => hexDigit? a ≠ none → hexDigit? a.toLower = hexDigit? a) (by decide)
    (mem_hexDigits h).2 (by rw [h]; exact Option.some_ne_none m)).trans h

theorem hexByte_digits (ha : hexDigit? a = some m) (hb : hexDigit? b = some n) :
    hexByte a b = some (ofNat (16 * m + n)) := by
  have hp : a ≠ '+' := fun h => by
    rw [h] at ha
    cases ha
  rw [hexByte, if_neg hp, ha, hb]

theorem toLower_unsigned (h : c ≠ '%' ∧ c ≠ '+') : c.toLower ≠ '%' ∧ c.toLower ≠ '+' := by
  rcases Nat.lt_or_ge c.toNat 128 with hc | hc
  · exact forall_ascii (P := fun c => c ≠ '%' ∧ c ≠ '+' → c.toLower ≠ '%' ∧ c.toLower ≠ '+') (by decide) hc h
  · rwa [toLower_foreign hc]

theorem Encodes.ascii (h : Encodes v e cs) (hv : ∀ c ∈ v, c.toNat < 128) : ∀ c ∈ e, c.toNat < 128 := by
  induction h with
  | nil => exact hv
  | plain c _ ih => exact forall_mem_cons.mpr ⟨hv c mem_cons_self, ih fun d hd => hv d (mem_cons_of_mem _ hd)⟩
  | escape ha hb _ _ ih =>
    refine forall_mem_cons.mpr ⟨by decide, forall_mem_cons.mpr ⟨(mem_hexDigits ha).2, ?_⟩⟩
    exact forall_mem_cons.mpr ⟨(mem_hexDigits hb).2, ih fun d hd => hv d (mem_cons_of_mem _ hd)⟩

theorem Encodes.decoded_iff (h : Encodes v e cs) (hu : Unsigned v) :
    urlDecode (e.map toLower) = v.map toLower ↔ ∀ c ∈ cs, c.toLower = c := by
  induction h with
  | nil => simp [urlDecode]
  | plain c _ ih =>
    have hc := toLower_unsigned (hu c mem_cons_self)
    rw [map_cons, map_cons, urlDecode_cons hc.1 hc.2, cons_inj_right]
    exact ih fun d hd => hu d (mem_cons_of_mem _ hd)
  | escape ha hb _ _ ih =>
    rw [map_cons, map_cons, map_cons, map_cons, forall_mem_cons]
    show urlDecode ('%' :: _) = _ ↔ _
    rw [urlDecode_byte (hexByte_digits (hexDigit?_toLower ha) (hexDigit?_toLower hb)), cons_eq_cons, ih fun d hd => hu d (mem_cons_of_mem _ hd),
      eq_comm]

/-- The octets of a form-encoded text. A percent sign without its digits stays, and the text is read
on right behind it. -/
def formBytes : Text → Bytes
  | '%' :: a :: b :: rest =>
    match hexDigit? a, hexDigit? b with
    | some m, some n => .ofNat (16 * m + n) :: formBytes rest
    | _, _ => 37 :: formBytes (a :: b :: rest)
  | c :: rest => if c = '+' then 32 :: formBytes rest else String.utf8EncodeChar c ++ formBytes rest
  | [] => []

def noSign (c : Char) : Bool := c != '%' && c != '+'

/-- Every escape is below 0x80, and what a broken one takes along holds no sign. -/
def regular : Text → Bool
  | '%' :: a :: b :: rest =>
    (match hexDigit? a, hexDigit? b with
      | some m, some n => decide (16 * m + n < 128)
      | _, _ => noSign a && noSign b) && regular rest
  | c :: rest => if c = '%' then rest.all noSign else regular rest
  | [] => true

theorem formBytes_cons (hc : noSign c) (t : Text) : formBytes (c :: t) = String.utf8EncodeChar c ++ formBytes t := by
  obtain ⟨hp, hpl⟩ := Bool.and_eq_true_iff.mp hc
  rw [formBytes, if_neg (bne_iff_ne.mp hpl)]
  exact fun _ _ _ h => absurd h (bne_iff_ne.mp hp)

theorem formBytes_plain : ∀ {t : Text}, t.all noSign → formBytes t = bytes t
  | [], _ => rfl
  | c :: t, h => by
    obtain ⟨hc, ht⟩ := Bool.and_eq_true_iff.mp h
    rw [formBytes_cons hc, formBytes_plain ht, bytes_cons]

theorem hexByte_broken (h : hexDigit? a = none ∨ hexDigit? b = none) (ha : noSign a) : hexByte a b = none := by
  obtain h | h := h
  · exact hexByte_none_left h (bne_iff_ne.mp (Bool.and_eq_true_iff.mp ha).2)
  · exact hexByte_none h

theorem formBytes_digits (ha : hexDigit? a = some m) (hb : hexDigit? b = some n) (t : Text) :
    formBytes ('%' :: a :: b :: t) = .ofNat (16 * m + n) :: formBytes t := by
  rw [formBytes, ha, hb]

theorem formBytes_broken (h : hexDigit? a = none ∨ hexDigit? b = none) (t : Text) :
    formBytes ('%' :: a :: b :: t) = 37 :: formBytes (a :: b :: t) := by
  rw [formBytes]
  obtain h | h := h
  · rw [h]
  · rw [h]
    cases hexDigit? a <;> rfl

/-- What a regular text says of an escape. -/
theorem regular_escape (h : regular ('%' :: a :: b :: t)) : regular t ∧
    ((∃ m n, hexDigit? a = some m ∧ hexDigit? b = some n ∧ 16 * m + n < 128) ∨
      ((hexDigit? a = none ∨ hexDigit? b = none) ∧ noSign a ∧ noSign b)) := by
  obtain ⟨hh, ht⟩ := Bool.and_eq_true_iff.mp h
  refine ⟨ht, ?_⟩
  cases ha : hexDigit? a <;> cases hb : hexDigit? b <;> simp_all

theorem formBytes_eq (h : regular t) : formBytes t = bytes (urlDecode t) := by
  induction t using urlDecode.induct with
  | case1 a b rest c hb ih =>
    obtain ⟨hr, ⟨m, n, hm, hn, hlt⟩ | ⟨hbroken, ha, -⟩⟩ := regular_escape h
    · obtain rfl := Option.some.inj ((hexByte_digits hm hn).symm.trans hb)
      have hc : (ofNat (16 * m + n)).toNat = 16 * m + n :=
        (by decide : ∀ k : Fin 128, (ofNat k).toNat = k) ⟨16 * m + n, hlt⟩
      rw [urlDecode_byte hb, formBytes_digits hm hn, ih hr, bytes_cons, utf8EncodeChar_ascii (by omega), hc]
      rfl
    · cases (hexByte_broken hbroken ha).symm.trans hb
  | case2 a b rest hb ih =>
    obtain ⟨hr, ⟨m, n, hm, hn, -⟩ | ⟨hbroken, ha, hb'⟩⟩ := regular_escape h
    · cases (hexByte_digits hm hn).symm.trans hb
    · rw [urlDecode_percent hb, formBytes_broken hbroken, formBytes_cons ha, formBytes_cons hb', ih hr]
      rfl
  | case3 rest hs =>
    rw [regular, if_pos rfl] at h
    · rw [urlDecode, if_pos rfl, formBytes, if_neg (by decide), formBytes_plain h]
      · rfl
      · exact hs
      · exact hs
    · exact hs
  | case4 rest hs _ ih =>
    rw [regular, if_neg (by decide)] at h
    · rw [urlDecode_plus, formBytes, if_pos rfl, ih h]
      · rfl
      · exact hs
    · exact hs
  | case5 c rest hs hp hpl ih =>
    rw [regular, if_neg hp] at h
    · rw [urlDecode_cons hp hpl, formBytes_cons (by simp [noSign, hp, hpl]), ih h, bytes_cons]
    · exact hs
  | case6 => rfl

inductive Operator where
  | contains | equals | startsWith | endsWith

namespace Operator

def name : Operator → Text
  | .contains => "contains"
  | .equals => "equals"
  | .startsWith => "starts_with"
  | .endsWith => "ends_with"

def Holds : Operator → Text → Text → Prop
  | .contains, p, v => p <:+: v
  | .equals, p, v => v = p
  | .startsWith, p, v => p <+: v
  | .endsWith, p, v => p <:+ v

end Operator

/-- The regex crate reads an escaped pattern, alone and between anchors, as it is meant. -/
structure EscapeCorrect (regexes : Regexes) (p : Text) : Prop where
  free : ∀ v, regexes.isMatch (escapeRegex p) v = true ↔ p <:+: v
  whole : ∀ v, regexes.isMatch (Text.fmt ["^", escapeRegex p, "$"]) v = true ↔ v = p
  atStart : ∀ v, regexes.isMatch (Text.fmt ["^", escapeRegex p]) v = true ↔ p <+: v
  atEnd : ∀ v, regexes.isMatch (Text.fmt [escapeRegex p, "$"]) v = true ↔ p <:+ v

theorem forall_of_all {t : Text} [DecidablePred P] (h : t.all (fun c => decide (P c))) : ∀ c ∈ t, P c := fun c hc => of_decide_eq_true (all_eq_true.mp h c hc)

theorem operator_matches (casing : Casing unicode tables) (hesc : EscapeCorrect regexes p) (op : Operator) (v : Text) :
    regexes.isMatch (operatorToPattern unicode op.name p) v ↔ op.Holds p v := by
  have hname : unicode.toLowercase op.name = op.name := by
    cases op <;> exact (toLowercase_ascii casing (forall_of_all (by decide))).trans (by decide)
  unfold operatorToPattern
  rw [hname]
  cases op
  · exact hesc.free v
  · exact hesc.whole v
  · exact hesc.atStart v
  · exact hesc.atEnd v

/-- A part of a text in lower-case ASCII is a part of the lower-cased text. -/
theorem holds_toLowercase (casing : Casing unicode tables) (hp : ∀ c ∈ p, c.toNat < 128 ∧ c.toLower = c)
    (op : Operator) (h : op.Holds p v) : op.Holds p (unicode.toLowercase v) := by
  have hkept : ∀ {p'}, Lowered casing p p' → p' = p := fun hl =>
    (lowered_ascii hl fun c hc => (hp c hc).1).trans ((map_inj_left.mpr fun c hc => (hp c hc).2).trans (map_id p))
  have hv := lowered_toLowercase casing v
  cases op with
  | contains =>
    obtain ⟨a, b, rfl⟩ := h
    obtain ⟨x, b', hx, hl, -⟩ := lowered_append hv
    obtain ⟨a', p', rfl, -, hl⟩ := lowered_append hl
    exact ⟨a', b', by rw [hx, hkept hl]⟩
  | equals =>
    obtain rfl := h
    exact hkept hv
  | startsWith =>
    obtain ⟨b, rfl⟩ := h
    obtain ⟨p', b', hx, hl, -⟩ := lowered_append hv
    exact ⟨b', by rw [hx, hkept hl]⟩
  | endsWith =>
    obtain ⟨a, rfl⟩ := h
    obtain ⟨a', p', hx, -, hl⟩ := lowered_append hv
    exact ⟨a', by rw [hx, hkept hl]⟩

theorem Operator.holds_self (op : Operator) (p : Text) : op.Holds p p := by
  cases op
  · exact infix_rfl
  · rfl
  · exact prefix_rfl
  · exact suffix_rfl

theorem Operator.eq_of_holds {op : Operator} (h : op.Holds p v) (hl : p.length = v.length) : p = v := by
  cases op
  · exact IsInfix.eq_of_length h hl
  · exact Eq.symm h
  · exact IsPrefix.eq_of_length h hl
  · exact IsSuffix.eq_of_length h hl

/-- A matcher for the four spellings of one pattern. -/
def Regexes.literal (p : Text) : Regexes where
  regex pattern := some fun v =>
    if pattern = escapeRegex p then decide (p <:+: v)
    else if pattern = Text.fmt ["^", escapeRegex p, "$"] then decide (v = p)
    else if pattern = Text.fmt ["^", escapeRegex p] then decide (p <+: v)
    else decide (p <:+ v)
  setCompiles _ := true
  compiles_each _ _ _ _ := rfl

def customRule (operator pattern : Text) : Schema.WafCustomRule where
  id := 1
  description := []
  matchField := "path"
  operator := operator
  pattern := pattern

end ServerWall.Waf
