import ServerWall.Lib.Text

/-!
# Regular expressions

Patterns of the regex crate, as far as they use literals, classes, groups, alternation, `*`, `+`, `?`,
`{n,}`, `^`, `$`, word boundaries, and `(?i)` at the start. `Matches` is the meaning, `ends` computes it
(`mem_ends`). Classes and folding go by tables of which the ASCII part is fixed (`isMatch_ascii`).
-/

namespace ServerWall

open List Bool

structure CharTables where
  (isWord isDigit : Char → Bool)
  fold : Char → Char
  word_ascii : ∀ c : Char, c.toNat < 128 → isWord c = (c.isAlphanum || c == '_')
  digit_ascii : ∀ c : Char, c.toNat < 128 → isDigit c = c.isDigit
  fold_ascii : ∀ c : Char, c.toNat < 128 → fold c = c.toLower

def CharTables.ascii : CharTables where
  isWord c := c.isAlphanum || c == '_'
  isDigit c := c.isDigit
  fold c := c.toLower
  word_ascii _ _ := rfl
  digit_ascii _ _ := rfl
  fold_ascii _ _ := rfl

/-! ## Classes of characters -/

inductive ClassItem where
  | range (lo hi : Char)
  | word
  | digit
  | space
  | notSpace
deriving DecidableEq

/-- `[..]` or `[^..]`; under `(?i)` up to case folding. -/
structure CharClass where
  items : List ClassItem
  (negated insensitive : Bool := false)
deriving DecidableEq

def charsBetween (lo hi : Char) : List Char :=
  (List.range (hi.toNat + 1 - lo.toNat)).map fun i => Char.ofNat (lo.toNat + i)

def ClassItem.mem (tables : CharTables) (insensitive : Bool) (c : Char) : ClassItem → Bool
  | .range lo hi =>
    if insensitive then (charsBetween lo hi).any fun d => tables.fold d == tables.fold c
    else lo.toNat ≤ c.toNat && c.toNat ≤ hi.toNat
  | .word => tables.isWord c
  | .digit => tables.isDigit c
  | .space => Text.isWhitespace c
  | .notSpace => !Text.isWhitespace c

def CharClass.mem (tables : CharTables) (cls : CharClass) (c : Char) : Bool :=
  (cls.items.any fun item => item.mem tables cls.insensitive c) != cls.negated

/-! ## Expressions -/

inductive Regex where
  | empty
  | cls (c : CharClass)
  | seq (r s : Regex)
  | alt (r s : Regex)
  | plus (r : Regex)
  | start
  | stop
  | boundary
deriving DecidableEq

namespace Regex

def opt (r : Regex) : Regex := .alt r .empty

def star (r : Regex) : Regex := opt (.plus r)

def seqs : List Regex → Regex
  | [] => .empty
  | [r] => r
  | r :: rs => .seq r (seqs rs)

def atLeast (n : Nat) (r : Regex) : Regex := seqs (List.replicate n r ++ [star r])

def lit (insensitive : Bool) (c : Char) : Regex := .cls { items := [.range c c], insensitive }

/-! ## Reading a pattern -/

/-- An open group: the alternatives before the last bar, and the last one so far, both
backwards. -/
structure Frame where
  (alts atoms : List Regex := [])

namespace Frame

def push (f : Frame) (r : Regex) : Frame := { f with atoms := r :: f.atoms }

def bar (f : Frame) : Frame := { alts := seqs f.atoms.reverse :: f.alts }

def close (f : Frame) : Regex := f.alts.foldl (fun r s => .alt s r) (seqs f.atoms.reverse)

def quantify (f : Frame) (q : Regex → Regex) : Option Frame :=
  match f.atoms with
  | r :: rest => some { f with atoms := q r :: rest }
  | [] => none

end Frame

/-- The outer groups, the innermost, and the class that is being read, if any. -/
structure ParseState where
  outer : List Frame := []
  frame : Frame := {}
  inClass : Option CharClass := none

namespace ParseState

def push (s : ParseState) (r : Regex) : ParseState := { s with frame := s.frame.push r }

def addItem (s : ParseState) (cls : CharClass) (item : ClassItem) : ParseState :=
  { s with inClass := some { cls with items := cls.items ++ [item] } }

end ParseState

def escapeItem (c : Char) : ClassItem := if c = 'w' then .word else if c = 'd' then .digit else if c = 's' then .space
  else if c = 'S' then .notSpace
  else if c = 'n' then .range '\n' '\n' else if c = 'r' then .range '\r' '\r'
  else .range c c

def escape (insensitive : Bool) (c : Char) : Regex :=
  if c = 'b' then .boundary else .cls { items := [escapeItem c], insensitive }

/-- One character inside a class, with what follows it: the state after it, and how many of
the following characters it took along. -/
def classStep (s : ParseState) (cc : CharClass) (c : Char) (t : Text) : Option (ParseState × Nat) :=
  if c = ']' then some ({ s.push (.cls cc) with inClass := none }, 0)
  else if c = '\\' then t.head?.map fun e => (s.addItem cc (escapeItem e), 1)
  else match t with
    | '-' :: hi :: _ =>
      -- a hyphen before the bracket stands for itself
      if hi = ']' then some (s.addItem cc (.range c c), 0)
      else some (s.addItem cc (.range c hi), 2)
    | _ => some (s.addItem cc (.range c c), 0)

def openStep (insensitive : Bool) (s : ParseState) (c : Char) (t : Text) : Option (ParseState × Nat) :=
  match c, t with
  | '[', '^' :: _ => some ({ s with inClass := some { items := [], negated := true, insensitive } }, 1)
  | '[', _ => some ({ s with inClass := some { items := [], insensitive } }, 0)
  | '(', '?' :: ':' :: _ => some ({ s with outer := s.frame :: s.outer, frame := {} }, 2)
  | _, _ => none

def groupStep (insensitive : Bool) (s : ParseState) (c : Char) (t : Text) : Option (ParseState × Nat) :=
  let quantified (q : Regex → Regex) (n : Nat) : Option (ParseState × Nat) :=
    (s.frame.quantify q).map fun frame => ({ s with frame }, n)
  if c = '\\' then t.head?.map fun e => (s.push (escape insensitive e), 1)
  else if c = '[' || c = '(' then openStep insensitive s c t
  else if c = ')' then
    match s.outer with
    | f :: outer => some ({ s with outer, frame := f.push s.frame.close }, 0)
    | [] => none
  else if c = '|' then some ({ s with frame := s.frame.bar }, 0)
  else if c = '*' then quantified star 0
  else if c = '+' then quantified plus 0
  else if c = '?' then quantified opt 0
  else if c.toNat = 0x7b then
    -- the least number, a comma and the closing brace
    t.head?.bind fun n => quantified (atLeast (n.toNat - 48)) 3
  else if c = '^' then some (s.push .start, 0)
  else if c = '$' then some (s.push .stop, 0)
  else if c = '.' then some (s.push (.cls { items := [.range '\n' '\n'], negated := true }), 0)
  else some (s.push (lit insensitive c), 0)

/-- A state machine over the characters of the pattern; the number counts characters that were
taken along already. -/
def parseFrom (insensitive : Bool) : Text → Nat → ParseState → Option Regex
  | [], _, s => if s.outer.isEmpty && s.inClass.isNone then some s.frame.close else none
  | _ :: t, n + 1, s => parseFrom insensitive t n s
  | c :: t, 0, s =>
    let next := match s.inClass with
      | some cc => classStep s cc c t
      | none => groupStep insensitive s c t
    next.bind fun (s, n) => parseFrom insensitive t n s

def parse (pattern : Text) : Option Regex :=
  match Text.stripPrefix "(?i)" pattern with
  | some t => parseFrom true t 0 {}
  | none => parseFrom false pattern 0 {}

/-! ## Matching -/

/-- A position in a text: the character before, and what follows. -/
abbrev Pos := Option Char × Text

/-- The character before is a word character, or that after is. -/
def wordAt (tables : CharTables) (c : Option Char) : Bool := c.any tables.isWord

def Matches (tables : CharTables) : Regex → Pos → Pos → Prop
  | .empty, p, q => q = p
  | .cls c, p, q => ∃ x, p.2 = x :: q.2 ∧ c.mem tables x = true ∧ q.1 = some x
  | .seq r s, p, q => ∃ m, r.Matches tables p m ∧ s.Matches tables m q
  | .alt r s, p, q => r.Matches tables p q ∨ s.Matches tables p q
  | .plus r, p, q => Relation.TransGen (fun a b => r.Matches tables a b) p q
  | .start, p, q => q = p ∧ p.1 = none
  | .stop, p, q => q = p ∧ p.2 = []
  | .boundary, p, q => q = p ∧ wordAt tables p.1 ≠ wordAt tables p.2.head?

/-- Repetition: one step, and then, if something was consumed, perhaps more. -/
def plusEnds (step : Pos → List Pos) : Nat → Pos → List Pos
  | 0, p => step p
  | fuel + 1, p =>
    (step p).flatMap fun m =>
      if m.2.length < p.2.length then m :: plusEnds step fuel m else [m]

def ends (tables : CharTables) : Regex → Pos → List Pos
  | .empty, p => [p]
  | .cls c, (_, x :: t) => if c.mem tables x then [(some x, t)] else []
  | .cls _, (_, []) => []
  | .seq r s, p => (r.ends tables p).flatMap (s.ends tables)
  | .alt r s, p => r.ends tables p ++ s.ends tables p
  | .plus r, p => plusEnds (r.ends tables) p.2.length p
  | .start, p => if p.1.isNone then [p] else []
  | .stop, p => if p.2.isEmpty then [p] else []
  | .boundary, p => if wordAt tables p.1 != wordAt tables p.2.head? then [p] else []

def matchesFrom (tables : CharTables) (r : Regex) : Option Char → Text → Bool
  | before, [] => !(r.ends tables (before, [])).isEmpty
  | before, c :: t => !(r.ends tables (before, c :: t)).isEmpty || matchesFrom tables r (some c) t

def isMatch (tables : CharTables) (r : Regex) (text : Text) : Bool := r.matchesFrom tables none text

example : (parse r"(?i)a(?:b|[^c-e])+\b").any (fun r => r.isMatch .ascii "xxAbZ!") = true := by
  decide

/-! ## The computed ends are the matches -/

variable {r : Regex} {text : Text}

section

variable {tables : CharTables}

def Pos.Onward (p q : Pos) : Prop := q = p ∨ q.2.length < p.2.length

theorem Pos.Onward.trans {p q m : Pos} (h : p.Onward m) (h' : m.Onward q) : p.Onward q := by
  rcases h with rfl | h <;> rcases h' with rfl | h'
  · exact .inl rfl
  · exact .inr h'
  · exact .inr h
  · exact .inr (Nat.lt_trans h' h)

theorem Matches.onward : ∀ {p q : Pos}, r.Matches tables p q → p.Onward q := by
  induction r with
  | empty => exact fun h => .inl h
  | cls c =>
    rintro p q ⟨x, hx, -, -⟩
    exact .inr (by rw [hx]; exact Nat.lt_succ_self _)
  | seq r s ihr ihs =>
    rintro p q ⟨m, hr, hs⟩
    exact (ihr hr).trans (ihs hs)
  | alt r s ihr ihs =>
    rintro p q (h | h)
    · exact ihr h
    · exact ihs h
  | plus r ih =>
    intro p q h
    induction h with
    | single h => exact ih h
    | tail _ h hb => exact hb.trans (ih h)
  | start | stop | boundary => exact fun h => .inl h.1

theorem Matches.exists_append : ∀ {p q : Pos}, r.Matches tables p q → ∃ w, p.2 = w ++ q.2 := by
  induction r with
  | empty => rintro p q rfl; exact ⟨[], rfl⟩
  | cls c => rintro p q ⟨x, hx, -, -⟩; exact ⟨[x], hx⟩
  | seq r s ihr ihs =>
    rintro p q ⟨m, hr, hs⟩
    obtain ⟨w, hw⟩ := ihr hr
    obtain ⟨v, hv⟩ := ihs hs
    exact ⟨w ++ v, by rw [hw, hv, append_assoc]⟩
  | alt r s ihr ihs =>
    rintro p q (h | h)
    · exact ihr h
    · exact ihs h
  | plus r ih =>
    intro p q h
    induction h with
    | single h => exact ih h
    | tail _ h hb =>
      obtain ⟨w, hw⟩ := hb
      obtain ⟨v, hv⟩ := ih h
      exact ⟨w ++ v, by rw [hw, hv, append_assoc]⟩
  | start | stop | boundary => rintro p q ⟨rfl, -⟩; exact ⟨[], rfl⟩

theorem matches_seqs_cons :
    (seqs (r :: rs)).Matches tables p q ↔ ∃ m, r.Matches tables p m ∧ (seqs rs).Matches tables m q := by
  cases rs with
  | nil =>
    constructor
    · exact fun h => ⟨q, h, rfl⟩
    · rintro ⟨m, h, rfl⟩
      exact h
  | cons s rs => exact Iff.rfl

theorem matches_seqs_append : (seqs (rs ++ ss)).Matches tables p q ↔
      ∃ m, (seqs rs).Matches tables p m ∧ (seqs ss).Matches tables m q := by
  induction rs generalizing p with
  | nil =>
    constructor
    · exact fun h => ⟨p, rfl, h⟩
    · rintro ⟨m, rfl, h⟩
      exact h
  | cons r rs ih =>
    rw [cons_append, matches_seqs_cons]
    constructor
    · rintro ⟨m, hr, h⟩
      obtain ⟨m', hrs, hss⟩ := ih.mp h
      exact ⟨m', matches_seqs_cons.mpr ⟨m, hr, hrs⟩, hss⟩
    · rintro ⟨m', h, hss⟩
      obtain ⟨m, hr, hrs⟩ := matches_seqs_cons.mp h
      exact ⟨m, hr, ih.mpr ⟨m', hrs, hss⟩⟩

theorem mem_plusEnds (ho : ∀ p q, q ∈ step p → p.Onward q) (hf : p.2.length ≤ fuel) :
    q ∈ plusEnds step fuel p ↔ Relation.TransGen (fun a b => b ∈ step a) p q := by
  constructor
  · intro h
    induction fuel generalizing p with
    | zero => exact .single h
    | succ fuel ih =>
      obtain ⟨m, hm, hq⟩ := mem_flatMap.mp h
      split at hq
      · rename_i hlt
        rcases mem_cons.mp hq with rfl | hq
        · exact .single hm
        · exact .head hm (ih (by omega) hq)
      · rw [mem_singleton.mp hq]
        exact .single hm
  · intro h
    induction h using Relation.TransGen.head_induction_on generalizing fuel with
    | single hs =>
      cases fuel with
      | zero => exact hs
      | succ fuel =>
        refine mem_flatMap.mpr ⟨q, hs, ?_⟩
        split <;> exact mem_cons_self
    | @head p m hs hr ih =>
      rcases ho p m hs with rfl | hlt
      · exact ih hf
      · cases fuel with
        | zero => omega
        | succ fuel =>
          refine mem_flatMap.mpr ⟨m, hs, ?_⟩
          rw [if_pos hlt]
          exact mem_cons_of_mem _ (ih (by omega))

/-- **`ends` computes the matches.** -/
theorem mem_ends : ∀ {p q : Pos}, q ∈ r.ends tables p ↔ r.Matches tables p q := by
  induction r with
  | empty => exact mem_singleton
  | cls c =>
    rintro ⟨before, text⟩ ⟨last, rest⟩
    cases text with
    | nil => simp [ends, Matches]
    | cons x t =>
      have hmem : (last, rest) ∈ (if c.mem tables x then [(some x, t)] else []) ↔
          c.mem tables x = true ∧ last = some x ∧ rest = t := by
        split <;> simp_all
      refine hmem.trans ⟨?_, ?_⟩
      · rintro ⟨hx, rfl, rfl⟩
        exact ⟨x, rfl, hx, rfl⟩
      · rintro ⟨y, hy, hx, hl⟩
        obtain ⟨rfl, rfl⟩ := List.cons.inj hy
        exact ⟨hx, hl, rfl⟩
  | seq r s ihr ihs =>
    intro p q
    simp only [ends, Matches, mem_flatMap, ihr, ihs]
  | alt r s ihr ihs =>
    intro p q
    simp only [ends, Matches, mem_append, ihr, ihs]
  | plus r ih =>
    intro p q
    simp only [ends, Matches]
    rw [mem_plusEnds (fun p q hq => (ih.mp hq).onward) (Nat.le_refl _)]
    simp only [ih]
  | start =>
    intro p q
    cases hp : p.1 <;> simp [ends, Matches, hp]
  | stop =>
    intro p q
    cases hp : p.2 <;> simp [ends, Matches, hp]
  | boundary =>
    intro p q
    by_cases hp : wordAt tables p.1 = wordAt tables p.2.head? <;> simp [ends, Matches, hp]

def posAfter (before : Option Char) (a rest : Text) : Pos := (a.getLast?.or before, rest)

theorem getLast?_cons_or (c : Char) (a : Text) (before : Option Char) :
    (c :: a).getLast?.or before = a.getLast?.or (some c) := by
  rw [getLast?_cons]
  cases a.getLast? <;> rfl

theorem matchesFrom_iff {before : Option Char} : r.matchesFrom tables before text ↔
      ∃ a rest q, text = a ++ rest ∧ r.Matches tables (posAfter before a rest) q := by
  induction text generalizing before with
  | nil =>
    simp only [matchesFrom, not_eq_true', isEmpty_eq_false_iff_exists_mem, mem_ends]
    constructor
    · rintro ⟨q, hq⟩
      exact ⟨[], [], q, rfl, hq⟩
    · rintro ⟨a, rest, q, heq, hq⟩
      obtain ⟨rfl, rfl⟩ := append_eq_nil_iff.mp heq.symm
      exact ⟨q, hq⟩
  | cons c t ih =>
    rw [matchesFrom, or_eq_true, ih, not_eq_true', isEmpty_eq_false_iff_exists_mem]
    simp only [mem_ends]
    constructor
    · rintro (⟨q, hq⟩ | ⟨a, rest, q, rfl, hq⟩)
      · exact ⟨[], c :: t, q, rfl, hq⟩
      · refine ⟨c :: a, rest, q, rfl, ?_⟩
        rwa [posAfter, getLast?_cons_or]
    · rintro ⟨a, rest, q, heq, hq⟩
      cases a with
      | nil =>
        obtain rfl : c :: t = rest := heq
        exact .inl ⟨q, hq⟩
      | cons x a =>
        obtain ⟨rfl, rfl⟩ := List.cons.inj heq
        refine .inr ⟨a, rest, q, rfl, ?_⟩
        rw [posAfter, getLast?_cons_or] at hq
        exact hq

/-- **A text matches** if there is a match from one of its positions. -/
theorem isMatch_iff : r.isMatch tables text ↔ ∃ a rest q, text = a ++ rest ∧ r.Matches tables (a.getLast?, rest) q := by
  unfold isMatch
  rw [matchesFrom_iff]
  simp [posAfter]

end

/-! ## Where the tables do not matter -/

/-- On the characters of a kind the tables agree with the ASCII ones. -/
def AgreeOn (tables : CharTables) (kind : Char → Prop) : Regex → Prop
  | .cls c => ∀ x, kind x → c.mem tables x = c.mem .ascii x
  | .seq r s => r.AgreeOn tables kind ∧ s.AgreeOn tables kind
  | .alt r s => r.AgreeOn tables kind ∧ s.AgreeOn tables kind
  | .plus r => r.AgreeOn tables kind
  | .boundary => ∀ x, kind x → tables.isWord x = CharTables.ascii.isWord x
  | _ => True

/-- A position in a text of a kind of characters. -/
def Pos.Of (kind : Char → Prop) (p : Pos) : Prop := (∀ c ∈ p.1, kind c) ∧ ∀ c ∈ p.2, kind c

section

variable {tables : CharTables} {kind : Char → Prop}

theorem Matches.of : ∀ {p q : Pos}, r.Matches tables p q → p.Of kind → q.Of kind := by
  induction r with
  | empty => rintro p q rfl hp; exact hp
  | cls c =>
    rintro p ⟨last, rest⟩ ⟨x, hx, -, hl⟩ hp
    have hall := hp.2
    rw [hx] at hall
    refine ⟨fun c hc => ?_, fun c hc => hall c (mem_cons_of_mem _ hc)⟩
    obtain rfl : x = c := Option.some.inj (hl.symm.trans hc)
    exact hall x mem_cons_self
  | seq r s ihr ihs =>
    rintro p q ⟨m, hr, hs⟩ hp
    exact ihs hs (ihr hr hp)
  | alt r s ihr ihs =>
    rintro p q (h | h) hp
    · exact ihr h hp
    · exact ihs h hp
  | plus r ih =>
    intro p q h hp
    induction h with
    | single h => exact ih h hp
    | tail _ h hb => exact ih h hb
  | start | stop | boundary => rintro p q ⟨rfl, -⟩ hp; exact hp

theorem wordAt_agree (hw : ∀ x, kind x → tables.isWord x = CharTables.ascii.isWord x) (hc : ∀ x ∈ c, kind x) : wordAt tables c = wordAt .ascii c := by
  cases c with
  | none => rfl
  | some x => exact hw x (hc x rfl)

theorem matches_agree (hr : r.AgreeOn tables kind) :
    ∀ {p q : Pos}, p.Of kind → (r.Matches tables p q ↔ r.Matches .ascii p q) := by
  induction r with
  | empty | start | stop => exact fun _ => Iff.rfl
  | cls c =>
    intro p q hp
    refine exists_congr fun x => and_congr_right fun hx => ?_
    rw [hr x (hp.2 x (hx ▸ mem_cons_self))]
  | seq r s ihr ihs =>
    intro p q hp
    refine exists_congr fun m => ?_
    rw [ihr hr.1 hp]
    exact and_congr_right fun hm => ihs hr.2 (hm.of hp)
  | alt r s ihr ihs => exact fun hp => or_congr (ihr hr.1 hp) (ihs hr.2 hp)
  | plus r ih =>
    intro p q hp
    constructor
    · intro h
      have hbo : Relation.TransGen (fun a b => r.Matches .ascii a b) p q ∧ q.Of kind := by
        induction h with
        | single h => exact ⟨.single ((ih hr hp).mp h), h.of hp⟩
        | tail _ h hb => exact ⟨.tail hb.1 ((ih hr hb.2).mp h), h.of hb.2⟩
      exact hbo.1
    · intro h
      have hbo : Relation.TransGen (fun a b => r.Matches tables a b) p q ∧ q.Of kind := by
        induction h with
        | single h => exact ⟨.single ((ih hr hp).mpr h), h.of hp⟩
        | tail _ h hb => exact ⟨.tail hb.1 ((ih hr hb.2).mpr h), h.of hb.2⟩
      exact hbo.1
  | boundary =>
    intro p q hp
    have hh : ∀ x ∈ p.2.head?, kind x := fun x hx => hp.2 x (mem_of_mem_head? hx)
    refine and_congr_right fun _ => ?_
    rw [wordAt_agree hr hp.1, wordAt_agree hr hh]

theorem isMatch_agree (hr : r.AgreeOn tables kind)
    (ht : ∀ c ∈ text, kind c) : r.isMatch tables text = r.isMatch .ascii text := by
  rw [Bool.eq_iff_iff, isMatch_iff, isMatch_iff]
  refine exists_congr fun a => exists_congr fun rest => exists_congr fun q =>
    and_congr_right fun heq => ?_
  refine matches_agree hr ⟨fun c hc => ht c ?_, fun c hc => ht c ?_⟩
  · rw [heq]
    exact mem_append_left _ (mem_of_mem_getLast? hc)
  · rw [heq]
    exact mem_append_right _ hc

end

/-! ### ASCII text -/

def asciiClass (c : CharClass) : Bool := c.items.all fun item => match item with
    | .range _ hi => hi.toNat < 128
    | _ => true

def asciiRanges : Regex → Bool
  | .cls c => asciiClass c
  | .seq r s => r.asciiRanges && s.asciiRanges
  | .alt r s => r.asciiRanges && s.asciiRanges
  | .plus r => r.asciiRanges
  | _ => true

section

variable {tables : CharTables}

theorem toNat_charOfNat (n : Nat) : (Char.ofNat n).toNat = n ∨ (Char.ofNat n).toNat = 0 := by
  by_cases hv : n.isValidChar
  · left
    rw [Char.ofNat, dif_pos hv]
    rfl
  · right
    rw [Char.ofNat, dif_neg hv]
    rfl

theorem le_of_mem_charsBetween (h : d ∈ charsBetween lo hi) : d.toNat ≤ hi.toNat := by
  obtain ⟨i, hi', rfl⟩ := mem_map.mp h
  have hlt := mem_range.mp hi'
  rcases toNat_charOfNat (lo.toNat + i) with hof | hof <;> omega

theorem mem_charsBetween (hlo : lo.toNat ≤ x.toNat) (hhi : x.toNat ≤ hi.toNat) : x ∈ charsBetween lo hi := by
  refine mem_map.mpr ⟨x.toNat - lo.toNat, mem_range.mpr (by omega), ?_⟩
  rw [Nat.add_sub_cancel' hlo]
  exact Char.ofNat_toNat x

theorem mem_ascii (hc : asciiClass c) (hx : x.toNat < 128) : c.mem tables x = c.mem .ascii x := by
  have hite : ∀ item ∈ c.items, item.mem tables c.insensitive x = item.mem .ascii c.insensitive x := by
    intro item hit
    cases item with
    | range lo hi =>
      have hhi : hi.toNat < 128 := by simpa using all_eq_true.mp hc _ hit
      simp only [ClassItem.mem]
      split
      · rw [Bool.eq_iff_iff, any_eq_true, any_eq_true]
        refine exists_congr fun d => and_congr_right fun hd => ?_
        have hd' : d.toNat < 128 := Nat.lt_of_le_of_lt (le_of_mem_charsBetween hd) hhi
        rw [tables.fold_ascii d hd', tables.fold_ascii x hx]
        rfl
      · rfl
    | word => exact tables.word_ascii x hx
    | digit => exact tables.digit_ascii x hx
    | space | notSpace => rfl
  unfold CharClass.mem
  congr 1
  rw [Bool.eq_iff_iff, any_eq_true, any_eq_true]
  exact exists_congr fun item => and_congr_right fun hit => by rw [hite item hit]

theorem agreeOn_ascii (hr : r.asciiRanges) : r.AgreeOn tables fun x => x.toNat < 128 := by
  induction r with
  | cls c => exact fun x hx => mem_ascii hr hx
  | seq r s ihr ihs | alt r s ihr ihs =>
    obtain ⟨hr, hs⟩ := and_eq_true_iff.mp hr
    exact ⟨ihr hr, ihs hs⟩
  | plus r ih => exact ih hr
  | boundary => exact fun x hx => tables.word_ascii x hx
  | empty | start | stop => trivial

/-- **In ASCII text a match does not depend on the tables.** -/
theorem isMatch_ascii (hr : r.asciiRanges)
    (ht : ∀ c ∈ text, c.toNat < 128) : r.isMatch tables text = r.isMatch .ascii text :=
  isMatch_agree (agreeOn_ascii hr) ht

/-! ### Expressions that go by no table -/

/-- Every class of the expression is spelled out by its ranges. -/
def tableFree : Regex → Bool
  | .cls c => !c.insensitive && c.items.all fun item => match item with
      | .range _ _ => true
      | _ => false
  | .seq r s => tableFree r && tableFree s
  | .alt r s => tableFree r && tableFree s
  | .plus r => tableFree r
  | .boundary => false
  | _ => true

theorem mem_tableFree (hc : (Regex.cls c).tableFree) (x : Char) : c.mem tables x = c.mem .ascii x := by
  obtain ⟨hins, hite⟩ := Bool.and_eq_true_iff.mp hc
  rw [Bool.not_eq_true'] at hins
  have hall : ∀ item ∈ c.items, item.mem tables c.insensitive x = item.mem .ascii c.insensitive x := by
    intro item hit
    have hch := all_eq_true.mp hite item hit
    cases item with
    | range lo hi => simp only [ClassItem.mem, hins, Bool.false_eq_true, if_false]
    | word | digit => cases hch
    | space | notSpace => rfl
  unfold CharClass.mem
  congr 1
  rw [Bool.eq_iff_iff, any_eq_true, any_eq_true]
  exact exists_congr fun item => and_congr_right fun hit => by rw [hall item hit]

theorem agreeOn_tableFree (hr : r.tableFree) : r.AgreeOn tables fun _ => True := by
  induction r with
  | cls c => exact fun x _ => mem_tableFree hr x
  | seq r s ihr ihs | alt r s ihr ihs =>
    obtain ⟨hr, hs⟩ := and_eq_true_iff.mp hr
    exact ⟨ihr hr, ihs hs⟩
  | plus r ih => exact ih hr
  | boundary => cases hr
  | empty | start | stop => trivial

theorem isMatch_tableFree (hr : r.tableFree) (text) : r.isMatch tables text = r.isMatch .ascii text :=
  isMatch_agree (agreeOn_tableFree hr) fun _ _ => trivial

end

end Regex

end ServerWall
