import ServerWall.Waf.Builtin
import ServerWall.Waf.Casing

/-!
# What the transformations lose

A match may be lost by the transformations if the pattern asks for capitals, for an encoded character, or
for what decoding can break (`<form%41` becomes `<formA`). Twenty-nine of the fifty-seven rules lose
detections (`losingText`), the others none (`lossless_iff`), as is read off their patterns
(`lasting_of_check`).
-/

namespace ServerWall.Waf

open Regex List Bool ClassItem Regex
open CharTables (ascii)

section

variable {unicode : Unicode} {tables : CharTables}

/-- What matches still matches after the usual transformations. -/
def Lasting (unicode : Unicode) (tables : CharTables) (r : Regex) : Prop :=
  ∀ v, r.isMatch tables v = true → r.isMatch tables (urlDecode (unicode.toLowercase v)) = true

variable {casing : Casing unicode tables}

/-- **The way of a match through the transformations**: a text before it, its first character
and the rest of it in lower case, and a text after it. -/
theorem passage (casing : Casing unicode tables) (hs : steady r) (hsa : headSafe r) (a : Text)
    (h : r.Matches tables (before, rest) q) :
    ∃ a₁ b₁ a' d w b' x t, rest = x :: t ∧ casing.lowers x [d] ∧ Lowered casing a a₁ ∧
      Lowered casing q.2 b₁ ∧ EndsAlike a₁ a' ∧ KeepsMembers b₁ b' ∧
      urlDecode (unicode.toLowercase (a ++ rest)) = a' ++ (d :: w ++ b') ∧
      ∀ before, ∃ last, r.Matches tables (before, d :: w ++ b') (last, b') := by
  obtain ⟨w, hw, hst⟩ := staysMatched_of_steady casing hs h
  obtain ⟨x, t, hx, hlen, hh⟩ := head_of_headSafe casing hsa h
  have hr : rest = w ++ q.2 := hw
  obtain rfl : rest = x :: t := hx
  cases w with
  | nil =>
    have : (x :: t).length = q.2.length := congrArg List.length hr
    rw [length_cons] at this
    omega
  | cons y w =>
    obtain ⟨rfl, -⟩ := List.cons.inj hr
    obtain ⟨a₁, rest₁, hl, ha, hr₁⟩ := lowered_append (lowered_toLowercase casing (a ++ (x :: t)))
    rw [hr] at hr₁
    obtain ⟨w₁, b₁, rfl, hw₁, hb₁⟩ := lowered_append hr₁
    obtain ⟨hu, hm⟩ := hst w₁ hw₁
    obtain ⟨p, w', rfl, hp, -⟩ := lowered_cons hw₁
    obtain ⟨d, rfl, hhex⟩ := hh hp
    obtain ⟨a', b', hd, he, hk⟩ := urlDecode_keeps hhex hu b₁ a₁
    refine ⟨a₁, b₁, a', d, w', b', x, t, rfl, hp, ha, hb₁, he, hk, ?_, fun before => hm before b'⟩
    rwa [hl]

theorem lasting_of_steady (casing : Casing unicode tables)
    (hs : steady r) (hsa : headSafe r) : Lasting unicode tables r := by
  intro v hv
  obtain ⟨a, rest, q, rfl, h⟩ := isMatch_iff.mp hv
  obtain ⟨-, -, a', d, w, b', -, -, -, -, -, -, -, -, hd, hm⟩ := passage casing hs hsa a h
  obtain ⟨last, hl⟩ := hm a'.getLast?
  rw [hd]
  exact isMatch_iff.mpr ⟨a', _, _, rfl, hl⟩

theorem lasting_start (casing : Casing unicode tables) (hs : steady s) : Lasting unicode tables (.seq .start s) := by
  intro v hv
  obtain ⟨a, rest, q, rfl, m, ⟨rfl, hst⟩, h⟩ := isMatch_iff.mp hv
  obtain rfl : a = [] := getLast?_eq_none_iff.mp hst
  obtain ⟨w, hw, hsta⟩ := staysMatched_of_steady casing hs h
  obtain rfl : rest = w ++ q.2 := hw
  obtain ⟨w₁, b₁, hl, hw₁, -⟩ := lowered_append (lowered_toLowercase casing (w ++ q.2))
  obtain ⟨hu, hm⟩ := hsta w₁ hw₁
  obtain ⟨last, hla⟩ := hm none (urlDecode b₁)
  rw [nil_append, hl, urlDecode_append hu]
  exact isMatch_iff.mpr ⟨[], _, _, rfl, _, ⟨rfl, rfl⟩, hla⟩

/-! ## The beginning of a word -/

/-- Every match begins with a letter of either case. -/
def wordHead : Regex → Bool
  | .cls c => !c.negated && c.insensitive && c.items.all fun item => match item with
      | .range lo hi => hi.toNat < 128 && (charsBetween lo hi).all fun d => d.toLower.isAlpha
      | _ => false
  | .seq r _ => wordHead r
  | .alt r s => wordHead r && wordHead s
  | _ => false

theorem word_of_wordHead (casing : Casing unicode tables) (hh : wordHead r) :
    ∀ {p q : Pos}, r.Matches tables p q → ∀ x ∈ p.2.head?, tables.isWord x := by
  induction r with
  | cls c =>
    rintro p q ⟨y, hy, hmem, -⟩ x hx
    obtain rfl : y = x := by
      rw [hy] at hx
      exact Option.some.inj hx
    simp only [wordHead, and_eq_true, not_eq_true'] at hh
    obtain ⟨⟨hneg, hins⟩, hit⟩ := hh
    obtain ⟨item, hite, hyi⟩ := exists_item hneg hmem
    have hc := all_eq_true.mp hit item hite
    cases item with
    | range lo hi =>
      simp only [and_eq_true, decide_eq_true_eq] at hc
      simp only [mem, hins, if_true] at hyi
      obtain ⟨d, hd, hf⟩ := any_eq_true.mp hyi
      have hlt : d.toNat < 128 := Nat.lt_of_le_of_lt (le_of_mem_charsBetween hd) hc.1
      have hf : tables.fold y = d.toLower := by
        rw [← tables.fold_ascii d hlt]
        exact (beq_iff_eq.mp hf).symm
      refine casing.letter ?_ ?_
      · rw [hf]
        exact Text.toLower_ascii hlt
      · rw [hf]
        exact all_eq_true.mp hc.2 d hd
    | word | digit | space | notSpace => cases hc
  | seq r s ihr _ =>
    rintro p q ⟨m, h, -⟩
    exact ihr hh h
  | alt r s ihr ihs =>
    obtain ⟨hr, hs⟩ := and_eq_true_iff.mp hh
    rintro p q (h | h)
    · exact ihr hr h
    · exact ihs hs h
  | empty | plus r _ | start | stop | boundary => cases hh

theorem hexDigit_none (hx : tables.isWord x = false) : hexDigit? x = none := by
  cases hhex : hexDigit? x with
  | none => rfl
  | some n =>
    obtain ⟨hin, hlt⟩ := mem_hexDigits hhex
    have hall : (hexDigits.all fun d => d.isAlphanum || d == '_') = true := by decide
    rw [tables.word_ascii x hlt, all_eq_true.mp hall x hin] at hx
    cases hx

theorem wordAt_lowered (casing : Casing unicode tables) (hlo : Lowered casing a a₁) (he : EndsAlike a₁ a')
    (ha : wordAt tables a.getLast? = false) : wordAt tables a'.getLast? = false := by
  rcases eq_nil_or_concat a with rfl | ⟨a₀, y, rfl⟩
  · rw [lowered_nil hlo] at he
    rw [he.nil_left]
    rfl
  · rw [concat_eq_append] at hlo ha
    rw [getLast?_concat] at ha
    have hy : tables.isWord y = false := ha
    obtain ⟨a₂, l, rfl, -, hl⟩ := lowered_append hlo
    rw [casing.other (lowered_singleton hl) hy] at he
    rcases he with ⟨hnil, -⟩ | ⟨x, hx, hla⟩
    · simp at hnil
    · obtain rfl : y = x := by
        rw [getLast?_concat] at hx
        exact Option.some.inj hx
      rcases hla (hexDigit_none hy) with h | ⟨-, h⟩
      · rwa [h]
      · rw [h]
        exact casing.space (by decide)

theorem lasting_boundary (casing : Casing unicode tables) (hs : steady s) (hsa : headSafe s) (hh : wordHead s) :
    Lasting unicode tables (.seq .boundary s) := by
  intro v hv
  obtain ⟨a, rest, q, rfl, m, ⟨rfl, hb⟩, h⟩ := isMatch_iff.mp hv
  obtain ⟨a₁, b₁, a', d, w, b', x, t, rfl, hd, ha, -, he, -, hde, hm⟩ := passage casing hs hsa a h
  have hx : tables.isWord x = true := word_of_wordHead casing hh h x rfl
  have hw : wordAt tables (some d) = true := (casing.word hd hx).2 d (mem_singleton_self d)
  have hbe : wordAt tables a.getLast? = false := by
    have hne : wordAt tables a.getLast? ≠ true := by
      intro ht
      exact hb (ht.trans hx.symm)
    exact eq_false_iff.mpr hne
  obtain ⟨last, hl⟩ := hm a'.getLast?
  rw [hde]
  refine isMatch_iff.mpr ⟨a', _, _, rfl, _, ⟨rfl, ?_⟩, hl⟩
  show wordAt tables a'.getLast? ≠ wordAt tables (some d)
  rw [wordAt_lowered casing ha he hbe, hw]
  decide

/-! ## Anything up to a closing bracket -/

def notBracket : CharClass := { items := [.range '>' '>'], negated := true, insensitive := true }

theorem fold_bracket (casing : Casing unicode tables) : tables.fold '>' = tables.fold x ↔ x = '>' := by
  have hb : tables.fold '>' = '>' := tables.fold_ascii '>' (by decide)
  rw [hb]
  constructor
  · intro h
    have hs := casing.symbol (c := x) (by rw [← h]; decide) (by rw [← h]; decide)
    rw [← h] at hs
    exact hs.symm
  · rintro rfl
    exact hb.symm

theorem matches_bracket (casing : Casing unicode tables) :
    (∃ q, (seqs [star (.cls notBracket), lit true '>']).Matches tables p q) ↔ '>' ∈ p.2 := by
  have hmem : ∀ x, (CharClass.mem tables { items := [.range '>' '>'], insensitive := true } x = true ↔ x = '>') := by
    intro x
    simp [CharClass.mem, mem, charsBetween, ← fold_bracket casing]
  constructor
  · rintro ⟨q, m, hs, x, hx, hc, -⟩
    obtain rfl := (hmem x).mp hc
    obtain ⟨w, hw⟩ := hs.exists_append
    rw [hw, hx]
    exact mem_append_right _ mem_cons_self
  · obtain ⟨before, text⟩ := p
    intro hin
    obtain ⟨u, b, rfl, hu⟩ := eq_append_cons_of_mem hin
    have hall : ∀ x ∈ u, notBracket.mem tables x = true := by
      intro x hx
      have hne : x ≠ '>' := fun h => hu (h ▸ hx)
      have hf : ¬ tables.fold '>' = tables.fold x := fun h => hne ((fold_bracket casing).mp h)
      simp [notBracket, CharClass.mem, mem, charsBetween, hf]
    have hl : ∀ last, (lit true '>').Matches tables (last, '>' :: b) (some '>', b) :=
      fun last => ⟨'>', rfl, (hmem '>').mpr rfl, rfl⟩
    by_cases he : u = []
    · subst he
      exact ⟨_, _, .inr rfl, hl before⟩
    · obtain ⟨last, hp⟩ := plus_class he hall before ('>' :: b)
      exact ⟨_, _, .inl hp, hl last⟩

theorem mem_lowered (hc : c.toNat < 128) (hl : c.toLower = c) (h : Lowered casing t t') (hmem : c ∈ t) : c ∈ t' := by
  induction t generalizing t' with
  | nil => cases hmem
  | cons x t ih =>
    obtain ⟨p, rest, rfl, hp, hr⟩ := lowered_cons h
    rcases mem_cons.mp hmem with rfl | hmem
    · rw [casing.ascii hp hc, hl]
      exact mem_append_left _ (mem_singleton_self _)
    · exact mem_append_right _ (ih hr hmem)

theorem lasting_bracket (casing : Casing unicode tables) (hs : steady (seqs rs)) (hsa : headSafe (seqs rs)) :
    Lasting unicode tables (seqs (rs ++ [Regex.star (.cls notBracket), lit true '>'])) := by
  intro v hv
  obtain ⟨a, rest, q, rfl, h⟩ := isMatch_iff.mp hv
  obtain ⟨m, ho, ht⟩ := matches_seqs_append.mp h
  have hc : '>' ∈ m.2 := (matches_bracket casing).mp ⟨q, ht⟩
  obtain ⟨-, b₁, a', d, w, b', -, -, -, -, -, hb₁, -, hk, hd, hm⟩ := passage casing hs hsa a ho
  have hc' : '>' ∈ b' := hk '>' (mem_lowered (by decide) (by decide) hb₁ hc) (by decide) (by decide) (by decide)
  obtain ⟨last, hl⟩ := hm a'.getLast?
  obtain ⟨q', hq'⟩ : ∃ q', (seqs [Regex.star (.cls notBracket), lit true '>']).Matches tables
      (last, b') q' := (matches_bracket casing).mpr hc'
  rw [hd]
  exact isMatch_iff.mpr ⟨a', _, q', rfl, matches_seqs_append.mpr ⟨_, hl, hq'⟩⟩

/-! ## The end of a word -/

def wordClass : CharClass := { items := [.word] }

theorem plus_word_boundary (h : (plus (.cls wordClass)).Matches tables p q) :
    ∃ q', (seqs [.plus (.cls wordClass), .boundary]).Matches tables p q' := by
  obtain ⟨x, rest, hq, hx⟩ : ∃ x rest, q = (some x, rest) ∧ tables.isWord x = true := by
    have hl : ∃ m, (cls wordClass).Matches tables m q := by
      cases h with
      | single h | tail _ h => exact ⟨_, h⟩
    obtain ⟨m, x, -, hmem, hq⟩ := hl
    exact ⟨x, q.2, Prod.ext hq rfl, by simpa [wordClass, CharClass.mem, mem] using hmem⟩
  subst hq
  induction rest generalizing x with
  | nil =>
    refine ⟨_, _, h, rfl, ?_⟩
    show tables.isWord x ≠ false
    rw [hx]
    decide
  | cons y rest ih =>
    cases hy : tables.isWord y with
    | true =>
      have hs : (cls wordClass).Matches tables (some x, y :: rest) (some y, rest) :=
        ⟨y, rfl, by simp [wordClass, CharClass.mem, mem, hy], rfl⟩
      exact ih y hy (Relation.TransGen.tail h hs)
    | false =>
      refine ⟨_, _, h, rfl, ?_⟩
      show tables.isWord x ≠ tables.isWord y
      rw [hx, hy]
      decide

theorem lasting_wordEnd (casing : Casing unicode tables) (hs : steady (seqs (rs ++ [.plus (.cls wordClass)])))
    (hsa : headSafe (seqs (rs ++ [.plus (.cls wordClass)]))) :
    Lasting unicode tables (seqs (rs ++ [.plus (.cls wordClass), .boundary])) := by
  intro v hv
  obtain ⟨a, rest, q, rfl, h⟩ := isMatch_iff.mp hv
  obtain ⟨m, hf, m', hw, -⟩ := matches_seqs_append.mp h
  have hsh : (seqs (rs ++ [.plus (.cls wordClass)])).isMatch tables (a ++ rest) = true :=
    isMatch_iff.mpr ⟨a, rest, m', rfl, matches_seqs_append.mpr ⟨m, hf, hw⟩⟩
  obtain ⟨a', rest', q', ht, h'⟩ := isMatch_iff.mp (lasting_of_steady casing hs hsa _ hsh)
  obtain ⟨m', hf', hw'⟩ := matches_seqs_append.mp h'
  obtain ⟨q'', hend⟩ := plus_word_boundary hw'
  rw [ht]
  exact isMatch_iff.mpr ⟨a', rest', q'', rfl, matches_seqs_append.mpr ⟨m', hf', hend⟩⟩

/-! ## All of them -/

/-- `(?i)<\s*script[^>]*>` up to the closing bracket. -/
def scriptTag : List Regex := [lit true '<', Regex.star (.cls { items := [.space], insensitive := true }), lit true 's',
    lit true 'c', lit true 'r', lit true 'i', lit true 'p', lit true 't']

def chaining : List Regex := [.alt (seqs [lit false '&', lit false '&']) (seqs [lit false '|', lit false '|']),
    Regex.star (.cls { items := [.space] })]

/-- The expressions of which this can be read off, and two more. -/
def lastingCheck (r : Regex) : Bool := r == seqs (scriptTag ++ [Regex.star (.cls notBracket), lit true '>']) ||
  r == seqs (chaining ++ [.plus (.cls wordClass), .boundary]) ||
  match r with
  | .seq .start s => steady s
  | .seq .boundary s => steady s && headSafe s && wordHead s
  | r => steady r && headSafe r

/-- **Patterns that lose nothing.** -/
theorem lasting_of_check (casing : Casing unicode tables) (hc : lastingCheck r) : Lasting unicode tables r := by
  unfold lastingCheck at hc
  simp only [or_eq_true, beq_iff_eq] at hc
  rcases hc with (rfl | rfl) | hc
  · exact lasting_bracket casing (by decide) (by decide)
  · exact lasting_wordEnd casing (by decide) (by decide)
  split at hc
  · exact lasting_start casing hc
  · simp only [and_eq_true] at hc
    exact lasting_boundary casing hc.1.1 hc.1.2 hc.2
  · obtain ⟨hs, hsa⟩ := and_eq_true_iff.mp hc
    exact lasting_of_steady casing hs hsa

end

/-! ## The built-in rules -/

def lossless : List UInt32 := [941100, 941110, 941120, 941130, 941210, 941220, 941230, 941300, 942100, 942110, 942120,
    942210, 942230, 942320, 943100, 943110, 943140, 943300, 944140, 944200, 944230, 944300, 945130, 945140, 945200,
    945220, 945300, 945310]

/-- A text that each of the others matches as it comes, and not after the transformations. -/
def losingTexts : List (UInt32 × Text) := [(941140, "%0exec xp_"), (941200, "%0benchmark(1"),
    (941240, "%00x12345678"), (941310, "%0cast("), (941320, "'%41"), (942130, "<form%41"),
    (942140, "%0data:text/html"), (942200, "<svg%3e onload="), (942220, "%0expression("), (942240, "<img%3e onload="),
    (942300, "%0alert("), (942310, "%0document.cookie"), (943120, "%0c:\\"), (943130, "%00"), (943200, "%2e%2e/"),
    (943210, "%0boot.ini"), (943220, "%c0%ae"), (943230, "%0config.yml"), (944100, ";cat%41"), (944110, "`%0cat`"),
    (944120, "$(%0cat)"), (944130, "|cat%41"), (944210, ">>+"), (944220, "$\x7bIFS\x7d"), (944310, "%0a"),
    (945100, "transfer-encoding:chunked%0acontent-length"), (945110, "%0d%0a"), (945120, "%0aset-cookie"),
    (945210, "GET /")]

def losingText (id : UInt32) : Text := ((losingTexts.find? fun e => e.1 == id).map Prod.snd).getD []

/-- The expression matches the text as it comes, and not after the transformations, whatever
the tables. -/
def losesOn (r : Regex) (v : Text) : Bool :=
  let after := urlDecode (v.map Char.toLower)
  r.isMatch .ascii v && !r.isMatch .ascii after && v.all (fun c => c.toNat < 128) &&
    (tableFree r || (asciiRanges r && after.all fun c => c.toNat < 128))

theorem not_lasting_of_losesOn (unicode) (tables)
    (h : losesOn r v) : ¬ Lasting unicode tables r := by
  simp only [losesOn, and_eq_true, or_eq_true, not_eq_true', all_eq_true, decide_eq_true_eq] at h
  obtain ⟨⟨⟨hb, haf⟩, has⟩, ht⟩ := h
  have hlo : unicode.toLowercase v = v.map Char.toLower := unicode.lowercase_ascii v has
  intro hl
  have hm := hl v
  rw [hlo] at hm
  -- the tables decide neither match
  rcases ht with hf | ⟨hr, ha⟩
  · rw [isMatch_tableFree hf, isMatch_tableFree hf (urlDecode _), haf] at hm
    cases hm hb
  · rw [isMatch_ascii hr has, isMatch_ascii hr ha, haf] at hm
    cases hm hb

def ruleCheck (id : UInt32) (pattern : Text) : Bool := (Regex.parse pattern).any fun r =>
    if id ∈ lossless then lastingCheck r else losesOn r (losingText id)

section

-- the patterns are read and tried by the kernel
set_option maxRecDepth 100000

theorem ruleCheck_builtin : ∀ rule ∈ allBuiltinRules, ruleCheck rule.id rule.pattern := by
  simp only [allBuiltinRules, forall_mem_append]
  refine ⟨⟨⟨⟨?_, ?_⟩, ?_⟩, ?_⟩, ?_⟩
  all_goals
    repeat refine forall_cons_rule (by decide +kernel) ?_
    exact forall_mem_nil _

end

/-- The regex crate reads the built-in patterns as `Regex.parse` does. -/
def ReadsBuiltin (regexes : Regexes) (tables : CharTables) : Prop :=
  ∀ rule ∈ allBuiltinRules, ∀ r, Regex.parse rule.pattern = some r →
    regexes.regex rule.pattern = some (r.isMatch tables)

/-- The rule still matches after its transformations what it matches as it comes. -/
def LosesNothing (unicode : Unicode) (regexes : Regexes) (rule : WafRule) : Prop :=
  ∀ v, regexes.isMatch rule.pattern v = true → regexes.isMatch rule.pattern
    (RuleMatcher.applyTransformations unicode v rule.transformations) = true

theorem losesNothing_iff_lasting
    (hre : ReadsBuiltin regexes tables) (hr : rule ∈ allBuiltinRules) (hp : parse rule.pattern = some r) :
    LosesNothing unicode regexes rule ↔ Lasting unicode tables r := by
  have hreg : ∀ t, regexes.isMatch rule.pattern t = r.isMatch tables t := by
    intro t
    rw [Regexes.isMatch, hre rule hr r hp]
  unfold LosesNothing Lasting
  simp only [hreg, builtin_transformations rule hr]
  exact Iff.rfl

/-- **Which rules lose detections.** -/
theorem lossless_iff {unicode : Unicode} {tables : CharTables} (casing : Casing unicode tables)
    {regexes : Regexes} (hreads : ReadsBuiltin regexes tables) {rule : WafRule} (hrule : rule ∈ allBuiltinRules) :
    LosesNothing unicode regexes rule ↔ rule.id ∈ lossless := by
  obtain ⟨r, hparse, hcheck⟩ := (Option.any_eq_true _ _).mp (ruleCheck_builtin rule hrule)
  refine (losesNothing_iff_lasting hreads hrule hparse).trans ?_
  split at hcheck
  case isTrue hin => exact iff_of_true (lasting_of_check casing hcheck) hin
  case isFalse hout => exact iff_of_false (not_lasting_of_losesOn unicode tables hcheck) hout

/-! ## Text within ASCII -/

theorem isWord_foreign (h : 128 ≤ c.toNat) : ascii.isWord c = false := by
  -- the letters and the digits are three intervals below 128
  have ha : ∀ hi : UInt32, hi.toNat < 128 → ¬c.val ≤ hi := by
    intro hi hhi
    have hc : c.val.toNat = c.toNat := rfl
    rw [UInt32.le_iff_toNat_le, hc]
    omega
  have hu : c.isUpper = false := decide_eq_false fun hin => ha 90 (by decide) hin.2
  have hl : c.isLower = false := and_eq_false_iff.mpr (.inr (decide_eq_false (ha 122 (by decide))))
  have hd : c.isDigit = false := and_eq_false_iff.mpr (.inr (decide_eq_false (ha 57 (by decide))))
  have ho : (c == '_') = false := by
    rw [beq_eq_false_iff_ne]
    rintro rfl
    exact absurd h (by decide)
  show (c.isUpper || c.isLower || c.isDigit || c == '_') = false
  rw [hu, hl, hd, ho]
  rfl

def asciiCasing : Casing .ascii .ascii where
  lowers c p := p = [c.toLower]
  pieces t := by
    refine ⟨t.map fun c => [c.toLower], ?_, ?_⟩
    · show t.map Char.toLower = _
      induction t with
      | nil => rfl
      | cons c t ih => simp [ih]
    · rw [forall₂_map_right_iff]
      exact forall₂_same.mpr fun _ _ => rfl
  ascii h _ := h
  other {c p} h hword := by
    rw [h]
    rcases Nat.lt_or_ge c.toNat 128 with hc | hc
    · exact Text.forall_ascii (P := fun c => CharTables.ascii.isWord c = false → [c.toLower] = [c]) (by decide) hc hword
    · rw [toLower_foreign hc]
  digit {c p} h hdigit := by
    rw [h]
    rcases Nat.lt_or_ge c.toNat 128 with hc | hc
    · exact Text.forall_ascii (P := fun c => CharTables.ascii.isDigit c = true → [c.toLower] = [c])
        (by decide) hc hdigit
    · rw [toLower_foreign hc]
  word {c p} h hword := by
    subst h
    refine ⟨cons_ne_nil _ _, fun d hd => ?_⟩
    rw [mem_singleton.mp hd]
    rcases Nat.lt_or_ge c.toNat 128 with hc | hc
    · exact Text.forall_ascii (P := fun c => CharTables.ascii.isWord c = true → CharTables.ascii.isWord c.toLower = true) (by decide) hc hword
    · rwa [toLower_foreign hc]
  space {c} hspace := by
    rcases Nat.lt_or_ge c.toNat 128 with hc | hc
    · exact Text.forall_ascii (P := fun c => Text.isWhitespace c = true → CharTables.ascii.isWord c = false) (by decide) hc hspace
    · exact isWord_foreign hc
  folded {c p} h hfold := by
    refine ⟨c.toLower, h, ?_⟩
    rcases Nat.lt_or_ge c.toNat 128 with hc | hc
    · exact Text.forall_ascii (P := fun c => c.toLower.toLower = c.toLower) (by decide) hc
    · rw [toLower_foreign hc]
  letter {c} hfold halpha := by
    rcases Nat.lt_or_ge c.toNat 128 with hc | hc
    · exact Text.forall_ascii (P := fun c => c.toLower.isAlpha = true → CharTables.ascii.isWord c = true) (by decide) hc halpha
    · have hlt : c.toLower.toNat < 128 := hfold
      rw [toLower_foreign hc] at hlt
      omega
  symbol {c} _ halpha := by
    rcases Nat.lt_or_ge c.toNat 128 with hc | hc
    · exact Text.forall_ascii (P := fun c => c.toLower.isAlpha = false → c.toLower = c) (by decide) hc halpha
    · exact toLower_foreign hc

theorem readsBuiltin_parsed (tables) : ReadsBuiltin (.parsed tables) tables := by
  intro rule _ r hp
  show (parse rule.pattern).map _ = _
  rw [hp]
  rfl

theorem unionSelect_lossless : ∃ rule ∈ allBuiltinRules, rule.id = 941100 ∧
      LosesNothing .ascii (Regexes.parsed .ascii) rule := by
  refine ⟨_, mem_append_left _ (mem_append_left _ (mem_append_left _ (mem_append_left _ mem_cons_self))), rfl, ?_⟩
  exact (lossless_iff asciiCasing (readsBuiltin_parsed .ascii) (mem_append_left _
    (mem_append_left _ (mem_append_left _ (mem_append_left _ mem_cons_self))))).mpr (by decide)

/-- The rule against null bytes matches `%00`, which is decoded before the rule is tried. -/
theorem nullByte_lost : ∃ rule ∈ allBuiltinRules, rule.id = 943130 ∧
      (Regexes.parsed .ascii).isMatch rule.pattern "%00" = true ∧ (Regexes.parsed .ascii).isMatch rule.pattern
        (RuleMatcher.applyTransformations .ascii "%00" rule.transformations) = false := by
  refine ⟨_, mem_append_left _ (mem_append_left _ (mem_append_right _
    (mem_cons_of_mem _ (mem_cons_of_mem _ (mem_cons_of_mem _ mem_cons_self))))), rfl, ?_, ?_⟩
  · decide +kernel
  · decide +kernel

end ServerWall.Waf
