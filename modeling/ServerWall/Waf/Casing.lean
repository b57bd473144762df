import ServerWall.Waf.Rules

/-!
# Patterns that survive the usual transformations

`WafRule::regex` lower-cases a text and percent-decodes it before the pattern is tried. `Lasting` says that
a match is still one afterwards. `steady` collects expressions whose matches stay under lower-casing and
hold no percent or plus sign, `headSafe` those whose matches begin with no hexadecimal digit
(`urlDecode_keeps`).
-/

namespace ServerWall.Waf

open Regex List Bool ClassItem

/-! ## Lower-casing -/

/-- What lower-casing and the tables of classes have to do with each other, in the standard. -/
structure Casing (unicode : Unicode) (tables : CharTables) where
  lowers : Char → Text → Prop
  pieces : ∀ t, ∃ ps, unicode.toLowercase t = ps.flatten ∧ List.Forall₂ lowers t ps
  ascii : ∀ {c p}, lowers c p → c.toNat < 128 → p = [c.toLower]
  other : ∀ {c p}, lowers c p → tables.isWord c = false → p = [c]
  digit : ∀ {c p}, lowers c p → tables.isDigit c = true → p = [c]
  word : ∀ {c p}, lowers c p → tables.isWord c = true → p ≠ [] ∧ ∀ d ∈ p, tables.isWord d = true
  space : ∀ {c}, Text.isWhitespace c = true → tables.isWord c = false
  /-- A character that folds to ASCII, as the long s and the Kelvin sign do, keeps to that. -/
  folded : ∀ {c p}, lowers c p → (tables.fold c).toNat < 128 → ∃ d, p = [d] ∧ tables.fold d = tables.fold c
  /-- What folds to a letter is a word character, and only a letter is folded to. -/
  letter : ∀ {c}, (tables.fold c).toNat < 128 → (tables.fold c).isAlpha = true → tables.isWord c = true
  symbol : ∀ {c}, (tables.fold c).toNat < 128 → (tables.fold c).isAlpha = false → tables.fold c = c

section

variable {unicode : Unicode} {tables : CharTables} (casing : Casing unicode tables)

def Lowered (t t' : Text) : Prop := ∃ ps, t' = ps.flatten ∧ List.Forall₂ casing.lowers t ps

theorem lowered_toLowercase (t : Text) : Lowered casing t (unicode.toLowercase t) := casing.pieces t

variable {casing}

theorem lowered_nil (h : Lowered casing [] t') : t' = [] := by
  obtain ⟨ps, rfl, hps⟩ := h
  cases hps
  rfl

theorem lowered_cons (h : Lowered casing (c :: t) t') :
    ∃ p rest, t' = p ++ rest ∧ casing.lowers c p ∧ Lowered casing t rest := by
  obtain ⟨ps, rfl, hps⟩ := h
  obtain ⟨p, rest, hp, hr, rfl⟩ := forall₂_cons_left_iff.mp hps
  exact ⟨p, rest.flatten, flatten_cons, hp, rest, rfl, hr⟩

theorem lowered_append (h : Lowered casing (a ++ b) t') :
    ∃ a' b', t' = a' ++ b' ∧ Lowered casing a a' ∧ Lowered casing b b' := by
  induction a generalizing t' with
  | nil => exact ⟨[], t', rfl, ⟨[], rfl, .nil⟩, h⟩
  | cons c a ih =>
    obtain ⟨p, rest, rfl, hp, hr⟩ := lowered_cons h
    obtain ⟨a', b', rfl, ⟨ps, hf, hps⟩, hb⟩ := ih hr
    refine ⟨p ++ a', b', (append_assoc _ _ _).symm, ⟨p :: ps, ?_, .cons hp hps⟩, hb⟩
    rw [flatten_cons, hf]

theorem lowered_singleton (h : Lowered casing [c] t') : casing.lowers c t' := by
  obtain ⟨p, rest, rfl, hp, hr⟩ := lowered_cons h
  rwa [lowered_nil hr, append_nil]

end

/-! ## Percent-decoding -/

def Unsigned (t : Text) : Prop := ∀ c ∈ t, c ≠ '%' ∧ c ≠ '+'

theorem Unsigned.append (hs : Unsigned s) (ht : Unsigned t) : Unsigned (s ++ t) :=
  fun c hc => (mem_append.mp hc).elim (hs c) (ht c)

theorem urlDecode_cons (hp : c ≠ '%') (hpl : c ≠ '+') (t : Text) : urlDecode (c :: t) = c :: urlDecode t := by
  rw [urlDecode]
  · rw [if_neg hp, if_neg hpl]
  · exact fun _ _ _ h => absurd h hp

theorem urlDecode_plus (t : Text) : urlDecode ('+' :: t) = ' ' :: urlDecode t := by
  rw [urlDecode]
  · rfl
  · exact fun _ _ _ h => absurd h (by decide)

theorem urlDecode_byte (h : hexByte a b = some x) (t : Text) : urlDecode ('%' :: a :: b :: t) = x :: urlDecode t := by
  rw [urlDecode, h]

theorem urlDecode_percent (h : hexByte a b = none) (t : Text) :
    urlDecode ('%' :: a :: b :: t) = '%' :: a :: b :: urlDecode t := by
  rw [urlDecode, h]

theorem urlDecode_append (hw : Unsigned w) (b : Text) : urlDecode (w ++ b) = w ++ urlDecode b := by
  induction w with
  | nil => rfl
  | cons c w ih =>
    have hc := hw c mem_cons_self
    rw [cons_append, urlDecode_cons hc.1 hc.2, ih fun d hd => hw d (mem_cons_of_mem _ hd)]
    rfl

theorem hexByte_none (h : hexDigit? b = none) : hexByte a b = none := by
  unfold hexByte
  split <;> simp_all

theorem hexByte_none_left (h : hexDigit? a = none) (hp : a ≠ '+') : hexByte a b = none := by
  unfold hexByte
  rw [if_neg hp, h]

theorem mem_urlDecode (hhex : hexDigit? c = none) (hp : c ≠ '%') (hpl : c ≠ '+') (hmem : c ∈ t) : c ∈ urlDecode t := by
  induction t using urlDecode.induct with
  | case1 a b rest x hb ih =>
    rw [urlDecode_byte hb]
    have hc : c ∈ rest := by
      rcases mem_cons.mp hmem with rfl | hmem
      · exact absurd rfl hp
      rcases mem_cons.mp hmem with rfl | hmem
      · cases (hexByte_none_left hhex hpl).symm.trans hb
      rcases mem_cons.mp hmem with rfl | hmem
      · cases (hexByte_none hhex).symm.trans hb
      · exact hmem
    exact mem_cons_of_mem _ (ih hc)
  | case2 a b rest hb ih =>
    rw [urlDecode_percent hb]
    simp only [mem_cons] at hmem ⊢
    rcases hmem with h | h | h | h
    · exact .inl h
    · exact .inr (.inl h)
    · exact .inr (.inr (.inl h))
    · exact .inr (.inr (.inr (ih h)))
  | case3 rest hs =>
    rw [urlDecode]
    · simpa using hmem
    · exact hs
  | case4 rest _ _ ih =>
    rcases mem_cons.mp hmem with rfl | hmem
    · exact absurd rfl hpl
    · exact mem_cons_of_mem _ (ih hmem)
  | case5 x rest _ hx hx' ih =>
    rw [urlDecode_cons hx hx']
    rcases mem_cons.mp hmem with rfl | hmem
    · exact mem_cons_self
    · exact mem_cons_of_mem _ (ih hmem)
  | case6 => cases hmem

/-- What becomes of the end of a text `a` before a stretch: nothing stays nothing, and a last
character that is no digit stays, but that a plus sign becomes a blank. -/
def EndsAlike (a a' : Text) : Prop := (a = [] ∧ a' = []) ∨ ∃ x, a.getLast? = some x ∧
    (hexDigit? x = none → a'.getLast? = some x ∨ (x = '+' ∧ a'.getLast? = some ' '))

theorem EndsAlike.prepend (h : EndsAlike a a') (hne : a ≠ []) (p q : Text) : EndsAlike (p ++ a) (q ++ a') := by
  rcases h with ⟨rfl, -⟩ | ⟨x, hx, hx'⟩
  · exact absurd rfl hne
  · refine .inr ⟨x, by rw [getLast?_append, hx]; rfl, fun hhex => ?_⟩
    rcases hx' hhex with h | ⟨rfl, h⟩
    · exact .inl (by rw [getLast?_append, h]; rfl)
    · exact .inr ⟨rfl, by rw [getLast?_append, h]; rfl⟩

theorem EndsAlike.nil_left (h : EndsAlike [] a') : a' = [] := by
  rcases h with ⟨-, h⟩ | ⟨x, hx, -⟩
  · exact h
  · cases hx

theorem EndsAlike.refl (a : Text) : EndsAlike a a := by
  cases h : a.getLast? with
  | none => exact .inl ⟨getLast?_eq_none_iff.mp h, getLast?_eq_none_iff.mp h⟩
  | some x => exact .inr ⟨x, h, fun _ => .inl h⟩

/-- What follows a stretch keeps the characters that are neither signs nor digits. -/
def KeepsMembers (b b' : Text) : Prop := ∀ c ∈ b, hexDigit? c = none → c ≠ '%' → c ≠ '+' → c ∈ b'

theorem keepsMembers_urlDecode (b : Text) : KeepsMembers b (urlDecode b) :=
  fun _ hc hhex hp hpl => mem_urlDecode hhex hp hpl hc

theorem urlDecode_keeps_cons (hd : urlDecode (x :: (a ++ (w ++ b))) = y :: urlDecode (a ++ (w ++ b)))
    (hxy : y = x ∨ (x = '+' ∧ y = ' '))
    (ih : ∃ a' b', urlDecode (a ++ (w ++ b)) = a' ++ (w ++ b') ∧ EndsAlike a a' ∧ KeepsMembers b b') :
    ∃ a' b', urlDecode (x :: a ++ (w ++ b)) = a' ++ (w ++ b') ∧ EndsAlike (x :: a) a' ∧ KeepsMembers b b' := by
  obtain ⟨a', b', heq, he, hk⟩ := ih
  refine ⟨y :: a', b', by rw [cons_append, hd, heq]; rfl, ?_, hk⟩
  by_cases ha : a = []
  · subst ha
    obtain rfl := he.nil_left
    refine .inr ⟨x, rfl, fun _ => ?_⟩
    rcases hxy with rfl | ⟨rfl, rfl⟩
    · exact .inl rfl
    · exact .inr ⟨rfl, rfl⟩
  · exact he.prepend ha [x] [y]

theorem urlDecode_keeps_percent (hhex : hexDigit? h = none) (hu : Unsigned (h :: w)) (b : Text) :
    ∃ b', urlDecode ('%' :: (h :: w ++ b)) = '%' :: (h :: w ++ b') ∧ KeepsMembers b b' := by
  have hp := (hu h mem_cons_self).2
  have ht : ∀ x rest, urlDecode ('%' :: h :: x :: rest) = '%' :: h :: x :: urlDecode rest :=
    fun x rest => urlDecode_percent (hexByte_none_left hhex hp) rest
  cases w with
  | nil =>
    cases b with
    | nil => exact ⟨[], rfl, nofun⟩
    | cons x b =>
      refine ⟨x :: urlDecode b, ht x b, fun c hc h1 h2 h3 => ?_⟩
      rcases mem_cons.mp hc with rfl | hc
      · exact mem_cons_self
      · exact mem_cons_of_mem _ (mem_urlDecode h1 h2 h3 hc)
  | cons y w =>
    have hw : Unsigned w := fun c hc =>
      hu c (mem_cons_of_mem _ (mem_cons_of_mem _ hc))
    refine ⟨urlDecode b, ?_, keepsMembers_urlDecode b⟩
    refine (ht y (w ++ b)).trans ?_
    rw [urlDecode_append hw]
    rfl

/-- **Decoding keeps a stretch** that has no signs and begins with no hexadecimal digit. -/
theorem urlDecode_keeps (hhex : hexDigit? h = none) (hu : Unsigned (h :: w)) (b : Text) (a : Text) :
    ∃ a' b', urlDecode (a ++ (h :: w ++ b)) = a' ++ (h :: w ++ b') ∧ EndsAlike a a' ∧ KeepsMembers b b' := by
  have hw : Unsigned w := fun c hc => hu c (mem_cons_of_mem _ hc)
  -- along the recursion of the decoder over what stands before the stretch
  induction a using urlDecode.induct with
  | case1 c d rest x hb ih =>
    obtain ⟨a', b', heq, he, hk⟩ := ih
    refine ⟨x :: a', b', ?_, ?_, hk⟩
    · exact (urlDecode_byte hb _).trans (congrArg (x :: ·) heq)
    · by_cases hr : rest = []
      · subst hr
        -- the last character was a digit
        refine .inr ⟨d, rfl, fun hd => ?_⟩
        cases (hexByte_none hd).symm.trans hb
      · exact he.prepend hr ['%', c, d] [x]
  | case2 c d rest hb ih =>
    obtain ⟨a', b', heq, he, hk⟩ := ih
    refine ⟨'%' :: c :: d :: a', b', ?_, ?_, hk⟩
    · exact (urlDecode_percent hb _).trans (congrArg ('%' :: c :: d :: ·) heq)
    · by_cases hr : rest = []
      · subst hr
        rw [he.nil_left]
        exact .refl _
      · exact he.prepend hr ['%', c, d] ['%', c, d]
  | case3 rest hs =>
    match rest, hs with
    | [], _ =>
      obtain ⟨b', heq, hk⟩ := urlDecode_keeps_percent hhex hu b
      exact ⟨['%'], b', heq, .refl _, hk⟩
    | [c], _ =>
      refine ⟨['%', c], urlDecode b, ?_, .refl _, keepsMembers_urlDecode b⟩
      refine (urlDecode_percent (hexByte_none hhex) (w ++ b)).trans ?_
      rw [urlDecode_append hw]
      rfl
    | c :: d :: rest, hs => exact absurd rfl (hs c d rest rfl)
  | case4 rest _ _ ih => exact urlDecode_keeps_cons (urlDecode_plus _) (.inr ⟨rfl, rfl⟩) ih
  | case5 x rest _ hp hpl ih => exact urlDecode_keeps_cons (urlDecode_cons hp hpl _) (.inl rfl) ih
  | case6 => exact ⟨[], urlDecode b, urlDecode_append hu b, .inl ⟨rfl, rfl⟩, keepsMembers_urlDecode b⟩

/-! ## Steady expressions -/

/-- The lower case of a member is one member, and no member is a sign: ranges of ASCII that
fold or are closed under lower-casing, digits and blanks. -/
def steadyClass (c : CharClass) : Bool := !c.negated && asciiClass c && !c.mem .ascii '%' && !c.mem .ascii '+' &&
    c.items.all fun item => match item with
      | .range lo hi => c.insensitive || (charsBetween lo hi).all fun x => c.mem .ascii x.toLower
      | .digit => true
      | .space => true
      | _ => false

/-- The lower case of a member is made of members: word characters, and ranges of ASCII closed
under lower-casing. -/
def absorbingClass (c : CharClass) : Bool :=
  !c.negated && !c.insensitive && asciiClass c && !c.mem .ascii '%' && !c.mem .ascii '+' &&
    c.items.all fun item => match item with
      | .range lo hi => (charsBetween lo hi).all fun x => c.mem .ascii x.toLower
      | .word => true
      | _ => false

/-- Every match, in lower case, is a match without signs, wherever it stands. -/
def steady : Regex → Bool
  | .empty => true
  | .cls c => steadyClass c
  | .seq r s => steady r && steady s
  | .alt r s => steady r && steady s
  | .plus (.cls c) => steadyClass c || absorbingClass c
  | .plus r => steady r
  | _ => false

def hexDigits : Text := "0123456789abcdefABCDEF"

/-- Every match begins with a character whose lower case is no hexadecimal digit. -/
def headSafe : Regex → Bool
  | .cls c => steadyClass c && hexDigits.all fun d => !c.mem .ascii d
  | .seq r _ => headSafe r
  | .alt r s => headSafe r && headSafe s
  | .plus r => headSafe r
  | _ => false

theorem toLower_foreign {c : Char} (h : 128 ≤ c.toNat) : c.toLower = c := by
  refine dif_neg ?_
  rintro ⟨-, hle⟩
  have hle : c.toNat ≤ 90 := hle
  omega

theorem mem_hexDigits (h : hexDigit? d = some n) : d ∈ hexDigits ∧ d.toNat < 128 := by
  have hlt : d.toNat < 128 := by
    unfold hexDigit? at h
    simp only at h
    split at h
    · omega
    · split at h
      · omega
      · split at h
        · omega
        · cases h
  refine ⟨?_, hlt⟩
  refine Text.forall_ascii (P := fun d => (hexDigit? d).isSome = true → d ∈ hexDigits) (by decide) hlt ?_
  rw [h]
  rfl

section

variable {unicode : Unicode} {tables : CharTables} {casing : Casing unicode tables} {c : CharClass} {x : Char}

theorem mem_of_item (hc : c.negated = false)
    (hi : item ∈ c.items) (hx : item.mem tables c.insensitive x) : c.mem tables x := by
  unfold CharClass.mem
  rw [hc, any_eq_true.mpr ⟨item, hi, hx⟩]
  rfl

theorem exists_item (hc : c.negated = false)
    (hx : c.mem tables x) : ∃ item ∈ c.items, item.mem tables c.insensitive x := by
  unfold CharClass.mem at hx
  rw [hc, bne_false] at hx
  exact any_eq_true.mp hx

theorem not_sign (ha : asciiClass c) (hp : c.mem .ascii '%' = false) (hpl : c.mem .ascii '+' = false)
    (hd : c.mem tables d) : d ≠ '%' ∧ d ≠ '+' := by
  constructor
  · rintro rfl
    rw [mem_ascii ha (by decide), hp] at hd
    cases hd
  · rintro rfl
    rw [mem_ascii ha (by decide), hpl] at hd
    cases hd

theorem steadyClass_parts (hs : steadyClass c) :
    (c.negated = false ∧ asciiClass c ∧ c.mem .ascii '%' = false ∧ c.mem .ascii '+' = false) ∧
    c.items.all (fun item => match item with
      | .range lo hi => c.insensitive || (charsBetween lo hi).all fun x => c.mem .ascii x.toLower
      | .digit => true
      | .space => true
      | _ => false) := by
  obtain ⟨hr, hit⟩ := and_eq_true_iff.mp hs
  obtain ⟨hr, hpl⟩ := and_eq_true_iff.mp hr
  obtain ⟨hr, hp⟩ := and_eq_true_iff.mp hr
  obtain ⟨hneg, ha⟩ := and_eq_true_iff.mp hr
  rw [not_eq_true'] at hpl hp hneg
  exact ⟨⟨hneg, ha, hp, hpl⟩, hit⟩

theorem plainRange_lowers (hins : c.insensitive = false) (ha : asciiClass c) (hit : .range lo hi ∈ c.items)
    (hc : ((charsBetween lo hi).all fun x => c.mem .ascii x.toLower)) (hx : (range lo hi).mem tables c.insensitive x)
    (hp : casing.lowers x p) : p = [x.toLower] ∧ c.mem tables x.toLower := by
  have hhi : hi.toNat < 128 := by simpa using all_eq_true.mp ha _ hit
  simp only [mem, hins, false_eq_true, if_false, and_eq_true, decide_eq_true_eq] at hx
  have hlt : x.toNat < 128 := by omega
  refine ⟨casing.ascii hp hlt, ?_⟩
  rw [mem_ascii ha (Text.toLower_ascii hlt)]
  exact all_eq_true.mp hc x (mem_charsBetween hx.1 hx.2)

theorem steadyClass_lowers (hs : steadyClass c)
    (hx : c.mem tables x) (hp : casing.lowers x p) : ∃ d, p = [d] ∧ c.mem tables d ∧ d ≠ '%' ∧ d ≠ '+' := by
  obtain ⟨⟨hneg, ha, hpe, hpl⟩, hite⟩ := steadyClass_parts hs
  suffices h : ∃ d, p = [d] ∧ c.mem tables d = true by
    obtain ⟨d, hd, hmem⟩ := h
    exact ⟨d, hd, hmem, not_sign ha hpe hpl hmem⟩
  obtain ⟨item, hit, hxi⟩ := exists_item hneg hx
  have hc := all_eq_true.mp hite item hit
  cases item with
  | range lo hi =>
    have hhi : hi.toNat < 128 := by simpa using all_eq_true.mp ha _ hit
    cases hins : c.insensitive with
    | true =>
      simp only [mem, hins, if_true] at hxi
      obtain ⟨d₀, hd₀, hf⟩ := any_eq_true.mp hxi
      have hf : tables.fold d₀ = tables.fold x := by simpa using hf
      have hlt : d₀.toNat < 128 := Nat.lt_of_le_of_lt (le_of_mem_charsBetween hd₀) hhi
      have hsm : (tables.fold x).toNat < 128 := by
        rw [← hf, tables.fold_ascii d₀ hlt]
        exact Text.toLower_ascii hlt
      obtain ⟨d, hd, hdf⟩ := casing.folded hp hsm
      refine ⟨d, hd, mem_of_item hneg hit ?_⟩
      simp only [mem, hins, if_true]
      exact any_eq_true.mpr ⟨d₀, hd₀, by simp [hf, hdf]⟩
    | false =>
      simp only [hins, Bool.false_or] at hc
      exact ⟨x.toLower, plainRange_lowers hins ha hit hc hxi hp⟩
  | digit => exact ⟨x, casing.digit hp hxi, hx⟩
  | space => exact ⟨x, casing.other hp (casing.space hxi), hx⟩
  | word | notSpace => cases hc

theorem absorbingClass_lowers (hab : absorbingClass c)
    (hx : c.mem tables x) (hp : casing.lowers x p) : p ≠ [] ∧ ∀ d ∈ p, c.mem tables d ∧ d ≠ '%' ∧ d ≠ '+' := by
  obtain ⟨hr, hite⟩ := and_eq_true_iff.mp hab
  obtain ⟨hr, hpl⟩ := and_eq_true_iff.mp hr
  obtain ⟨hr, hpe⟩ := and_eq_true_iff.mp hr
  obtain ⟨hr, ha⟩ := and_eq_true_iff.mp hr
  obtain ⟨hneg, hins⟩ := and_eq_true_iff.mp hr
  rw [not_eq_true'] at hpl hpe hneg hins
  suffices h : p ≠ [] ∧ ∀ d ∈ p, c.mem tables d = true from
    ⟨h.1, fun d hd => ⟨h.2 d hd, not_sign ha hpe hpl (h.2 d hd)⟩⟩
  obtain ⟨item, hit, hxi⟩ := exists_item hneg hx
  have hc := all_eq_true.mp hite item hit
  cases item with
  | range lo hi =>
    obtain ⟨rfl, hmem⟩ := plainRange_lowers hins ha hit hc hxi hp
    refine ⟨cons_ne_nil _ _, fun d hd => ?_⟩
    rwa [mem_singleton.mp hd]
  | word =>
    obtain ⟨hne, hw⟩ := casing.word hp hxi
    exact ⟨hne, fun d hd => mem_of_item hneg hit (hw d hd)⟩
  | digit | space | notSpace => cases hc

/-- The stretch `w`, in lower case, is matched wherever it stands. -/
def StaysMatched (casing : Casing unicode tables) (r : Regex) (w : Text) : Prop :=
  ∀ w', Lowered casing w w' → Unsigned w' ∧ ∀ before b, ∃ last, r.Matches tables (before, w' ++ b) (last, b)

theorem StaysMatched.seq (hr : StaysMatched casing r w)
    (hs : StaysMatched casing s v) : StaysMatched casing (.seq r s) (w ++ v) := by
  intro t ht
  obtain ⟨w', v', rfl, hw, hv⟩ := lowered_append ht
  obtain ⟨hws, hwm⟩ := hr w' hw
  obtain ⟨hvs, hvm⟩ := hs v' hv
  refine ⟨hws.append hvs, fun before b => ?_⟩
  obtain ⟨mid, hmid⟩ := hwm before (v' ++ b)
  obtain ⟨last, hl⟩ := hvm mid b
  rw [append_assoc]
  exact ⟨last, (mid, v' ++ b), hmid, hl⟩

theorem StaysMatched.plus_cons (hr : StaysMatched casing r w)
    (hre : StaysMatched casing (.plus r) v) : StaysMatched casing (.plus r) (w ++ v) := by
  intro t ht
  obtain ⟨hs, hm⟩ := hr.seq hre t ht
  refine ⟨hs, fun before b => ?_⟩
  obtain ⟨last, mid, hmid, hl⟩ := hm before b
  exact ⟨last, .head hmid hl⟩

theorem plus_class (hne : w ≠ []) (hw : ∀ d ∈ w, c.mem tables d) (before : Option Char) (b : Text) :
    ∃ last, (plus (.cls c)).Matches tables (before, w ++ b) (last, b) := by
  induction w generalizing before with
  | nil => exact absurd rfl hne
  | cons d w ih =>
    have hs : (cls c).Matches tables (before, d :: w ++ b) (some d, w ++ b) := ⟨d, rfl, hw d mem_cons_self, rfl⟩
    by_cases he : w = []
    · subst he
      exact ⟨some d, .single hs⟩
    · obtain ⟨last, hl⟩ := ih he (fun d hd => hw d (mem_cons_of_mem _ hd)) (some d)
      exact ⟨last, .head hs hl⟩

theorem exists_of_plus_class (h : (plus (.cls c)).Matches tables p q) :
    ∃ w, p.2 = w ++ q.2 ∧ w ≠ [] ∧ ∀ d ∈ w, c.mem tables d := by
  induction h with
  | single h =>
    obtain ⟨x, hx, hmem, -⟩ := h
    exact ⟨[x], hx, cons_ne_nil _ _, fun d hd => mem_singleton.mp hd ▸ hmem⟩
  | tail _ h ih =>
    obtain ⟨w, hw, -, hall⟩ := ih
    obtain ⟨x, hx, hmem, -⟩ := h
    refine ⟨w ++ [x], by rw [hw, hx, append_assoc]; rfl, by simp, fun d hd => ?_⟩
    rcases mem_append.mp hd with hd | hd
    · exact hall d hd
    · exact mem_singleton.mp hd ▸ hmem

theorem staysMatched_absorbing (ha : absorbingClass c) (hne : w ≠ []) (hw : ∀ d ∈ w, c.mem tables d) :
    StaysMatched casing (.plus (.cls c)) w := by
  have hl : ∀ {w w' : Text}, Lowered casing w w' → (∀ d ∈ w, c.mem tables d = true) →
      (w ≠ [] → w' ≠ []) ∧ ∀ d ∈ w', c.mem tables d = true ∧ d ≠ '%' ∧ d ≠ '+' := by
    intro w
    induction w with
    | nil =>
      intro w' h _
      rw [lowered_nil h]
      exact ⟨id, nofun⟩
    | cons x w ih =>
      intro w' h hall
      obtain ⟨p, rest, rfl, hp, hre⟩ := lowered_cons h
      obtain ⟨hpne, hpa⟩ := absorbingClass_lowers ha (hall x mem_cons_self) hp
      have hr := (ih hre fun d hd => hall d (mem_cons_of_mem _ hd)).2
      refine ⟨fun _ => append_ne_nil_of_left_ne_nil hpne _, fun d hd => ?_⟩
      exact (mem_append.mp hd).elim (hpa d) (hr d)
  intro w' hw'
  obtain ⟨hne', hall⟩ := hl hw' hw
  exact ⟨fun d hd => (hall d hd).2, plus_class (hne' hne) fun d hd => (hall d hd).1⟩

theorem staysMatched_class (hs : steadyClass c) (hx : c.mem tables x) : StaysMatched casing (.cls c) [x] := by
  intro w' hw'
  obtain ⟨d, rfl, hmem, hsi⟩ := steadyClass_lowers hs hx (lowered_singleton hw')
  refine ⟨fun e he => mem_singleton.mp he ▸ hsi, fun before b => ?_⟩
  exact ⟨some d, d, rfl, hmem, rfl⟩

theorem staysMatched_plus
    (ih : ∀ {p q : Pos}, r.Matches tables p q → ∃ w, p.2 = w ++ q.2 ∧ StaysMatched casing r w) (h : (plus r).Matches tables p q) :
    ∃ w, p.2 = w ++ q.2 ∧ StaysMatched casing (.plus r) w := by
  induction h using Relation.TransGen.head_induction_on with
  | single h =>
    obtain ⟨w, hw, hs⟩ := ih h
    refine ⟨w, hw, fun w' hw' => ?_⟩
    obtain ⟨hsi, hm⟩ := hs w' hw'
    refine ⟨hsi, fun before b => ?_⟩
    obtain ⟨last, hl⟩ := hm before b
    exact ⟨last, .single hl⟩
  | head h _ hr =>
    obtain ⟨w, hw, hs⟩ := ih h
    obtain ⟨v, hv, hs'⟩ := hr
    exact ⟨w ++ v, by rw [hw, hv, append_assoc], hs.plus_cons hs'⟩

/-- **Matches of steady expressions stay matches** in lower case. -/
theorem staysMatched_of_steady (casing : Casing unicode tables) (hst : steady r) :
    ∀ {p q : Pos}, r.Matches tables p q → ∃ w, p.2 = w ++ q.2 ∧ StaysMatched casing r w := by
  induction r with
  | empty =>
    rintro p q rfl
    refine ⟨[], rfl, fun w' hw' => ?_⟩
    rw [lowered_nil hw']
    exact ⟨fun _ hc => absurd hc not_mem_nil, fun before b => ⟨before, rfl⟩⟩
  | cls c =>
    rintro p q ⟨x, hx, hmem, -⟩
    exact ⟨[x], hx, staysMatched_class hst hmem⟩
  | seq r s ihr ihs =>
    obtain ⟨hr, hs⟩ := and_eq_true_iff.mp hst
    rintro p q ⟨m, hpm, hmq⟩
    obtain ⟨w, hw, hsta⟩ := ihr hr hpm
    obtain ⟨v, hv, hsta'⟩ := ihs hs hmq
    exact ⟨w ++ v, by rw [hw, hv, append_assoc], hsta.seq hsta'⟩
  | alt r s ihr ihs =>
    obtain ⟨hr, hs⟩ := and_eq_true_iff.mp hst
    rintro p q (h | h)
    · obtain ⟨w, hw, hsta⟩ := ihr hr h
      refine ⟨w, hw, fun w' hw' => ⟨(hsta w' hw').1, fun before b => ?_⟩⟩
      obtain ⟨last, hl⟩ := (hsta w' hw').2 before b
      exact ⟨last, .inl hl⟩
    · obtain ⟨w, hw, hsta⟩ := ihs hs h
      refine ⟨w, hw, fun w' hw' => ⟨(hsta w' hw').1, fun before b => ?_⟩⟩
      obtain ⟨last, hl⟩ := (hsta w' hw').2 before b
      exact ⟨last, .inr hl⟩
  | plus r ih =>
    intro p q h
    cases r with
    | cls c =>
      rcases or_eq_true_iff.mp hst with hst | ha
      · exact staysMatched_plus (ih hst) h
      · obtain ⟨w, hw, hne, hall⟩ := exists_of_plus_class h
        exact ⟨w, hw, staysMatched_absorbing ha hne hall⟩
    | empty | seq r s | alt r s | plus r => exact staysMatched_plus (ih hst) h
    | start | stop | boundary => cases hst
  | start | stop | boundary => cases hst

theorem head_of_headSafe (casing : Casing unicode tables) (hsa : headSafe r) :
    ∀ {p q : Pos}, r.Matches tables p q → ∃ x t, p.2 = x :: t ∧ q.2.length ≤ t.length ∧
      ∀ {l : Text}, casing.lowers x l → ∃ d, l = [d] ∧ hexDigit? d = none := by
  induction r with
  | cls c =>
    obtain ⟨hst, hdi⟩ := and_eq_true_iff.mp hsa
    rintro p q ⟨x, hx, hmem, -⟩
    refine ⟨x, q.2, hx, Nat.le_refl _, fun {l} hl => ?_⟩
    obtain ⟨d, hd, hdm, -⟩ := steadyClass_lowers hst hmem hl
    refine ⟨d, hd, ?_⟩
    cases hhex : hexDigit? d with
    | none => rfl
    | some n =>
      obtain ⟨hin, hlt⟩ := mem_hexDigits hhex
      have ha : asciiClass c = true := (steadyClass_parts hst).1.2.1
      have hnot := all_eq_true.mp hdi d hin
      rw [mem_ascii ha hlt] at hdm
      rw [hdm] at hnot
      cases hnot
  | seq r s ihr _ =>
    rintro p q ⟨m, hpm, hmq⟩
    obtain ⟨x, t, hp, hlen, hlo⟩ := ihr hsa hpm
    refine ⟨x, t, hp, ?_, hlo⟩
    rcases hmq.onward with rfl | hlt
    · exact hlen
    · omega
  | alt r s ihr ihs =>
    obtain ⟨hr, hs⟩ := and_eq_true_iff.mp hsa
    rintro p q (h | h)
    · exact ihr hr h
    · exact ihs hs h
  | plus r ih =>
    intro p q h
    induction h with
    | single h => exact ih hsa h
    | tail _ h hb =>
      obtain ⟨x, t, hp, hlen, hlo⟩ := hb
      refine ⟨x, t, hp, ?_, hlo⟩
      rcases h.onward with rfl | hlt
      · exact hlen
      · omega
  | empty | start | stop | boundary => cases hsa

end

end ServerWall.Waf
