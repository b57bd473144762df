import Mathlib.Data.List.Forall2
import ServerWall.Lib.Text

/-!
# The lines of a header block

Lines ended by CR LF; one that starts with a blank continues the header before it. `IsBlock names text`
is what a receiver is to find: one header for each name, no empty line and no single dot. Written header
by header it is found exactly if every value is folded and none repeats its name (`isBlock_iff`).
-/

namespace ServerWall.HeaderLines

open List Option

/-! ## Lines -/

def plain (c : Char) : Bool := c != '\r' && c != '\n'

def blank (c : Char) : Bool := c == ' ' || c == '\t'

def continues (line : Text) : Bool := line.head?.any blank

def push (c : Char) : List Text → Option (List Text)
  | [] => none
  | line :: rest => some ((c :: line) :: rest)

/-- The lines of a text, if every line ends with CR LF and has neither of them before. -/
def lines : Text → Option (List Text)
  | [] => some []
  | [_] => none
  | c :: d :: t =>
    if c = '\r' ∧ d = '\n' then (lines t).map ([] :: ·)
    else if plain c then (lines (d :: t)).bind (push c)
    else none

/-- Every line break is CR LF and a blank. -/
def folded : Text → Bool
  | [] => true
  | [c] => plain c
  | c :: d :: t =>
    if c = '\r' ∧ d = '\n' then continues t && folded t
    else plain c && folded (d :: t)

example : folded "one\r\n\ttwo" = true := by decide
example : folded "one\r\ntwo" = false := by decide

theorem lines_crlf (t : Text) : lines ('\r' :: '\n' :: t) = (lines t).map ([] :: ·) := rfl

theorem lines_plain (hc : plain c) (t : Text) : lines (c :: t) = (lines t).bind (push c) := by
  cases t with
  | nil => rfl
  | cons d t =>
    have hcr : ¬ (c = '\r' ∧ d = '\n') := by
      rintro ⟨rfl, -⟩
      exact absurd hc (by decide)
    rw [lines, if_neg hcr, if_pos hc]

theorem folded_crlf (t : Text) : folded ('\r' :: '\n' :: t) = (continues t && folded t) := rfl

theorem folded_plain (hc : plain c) (t : Text) : folded (c :: t) = folded t := by
  cases t with
  | nil => exact hc
  | cons d t =>
    have hcr : ¬ (c = '\r' ∧ d = '\n') := by
      rintro ⟨rfl, -⟩
      exact absurd hc (by decide)
    rw [folded, if_neg hcr, hc, Bool.true_and]

theorem bare (hc : plain c = false) (hcr : ¬ (c = '\r' ∧ t.head? = some '\n')) :
    lines (c :: t) = none ∧ folded (c :: t) = false := by
  cases t with
  | nil => exact ⟨rfl, hc⟩
  | cons d t =>
    have hcr' : ¬ (c = '\r' ∧ d = '\n') := fun h => hcr ⟨h.1, congrArg some h.2⟩
    rw [lines, if_neg hcr', hc, if_neg Bool.false_ne_true, folded, if_neg hcr', hc]
    exact ⟨rfl, rfl⟩

@[elab_as_elim]
theorem breaks {motive : Text → Prop} (nil : motive []) (crlf : ∀ t, motive t → motive ('\r' :: '\n' :: t))
    (plain : ∀ c t, plain c → motive t → motive (c :: t))
    (bare : ∀ c t, HeaderLines.plain c = false → ¬ (c = '\r' ∧ t.head? = some '\n') →
      motive (c :: t)) (t : Text) : motive t := by
  induction hlen : t.length using Nat.strongRecOn generalizing t with
  | ind n ih =>
    subst hlen
    cases t with
    | nil => exact nil
    | cons c t =>
      cases hc : HeaderLines.plain c with
      | true => exact plain c t hc (ih t.length (Nat.lt_succ_self _) t rfl)
      | false =>
        by_cases hcr : c = '\r' ∧ t.head? = some '\n'
        · obtain ⟨rest, rfl⟩ := head?_eq_some_iff.mp hcr.2
          rw [hcr.1]
          exact crlf rest (ih rest.length (Nat.lt_succ_of_lt (Nat.lt_succ_self _)) rest rfl)
        · exact bare c t hc hcr

/-- Text with a line break of its own behind it does not mend a bare one. -/
theorem bare_append (hc : plain c = false) (hcr : ¬ (c = '\r' ∧ t.head? = some '\n')) (hd : d ≠ '\n') (rest : Text) :
    lines (c :: (t ++ d :: rest)) = none ∧ folded (c :: (t ++ d :: rest)) = false := by
  refine bare hc fun h => hcr ⟨h.1, ?_⟩
  cases t with
  | nil => exact absurd (some.inj h.2) hd
  | cons e t => exact h.2

theorem push_append (c : Char) (ha : a ≠ []) (b : List Text) : push c (a ++ b) = (push c a).map (· ++ b) := by
  cases a with
  | nil => exact absurd rfl ha
  | cons line a => rfl

theorem lines_ne_nil (h : lines (c :: t) = some ls) : ls ≠ [] := by
  rintro rfl
  cases t with
  | nil => cases h
  | cons d t =>
    rw [lines] at h
    split at h
    · obtain ⟨_, _, hnil⟩ := map_eq_some_iff.mp h
      cases hnil
    · split at h
      · obtain ⟨a, _, hp⟩ := bind_eq_some_iff.mp h
        cases a <;> cases hp
      · cases h

theorem lines_crlf_ne_nil (h : lines (v ++ ['\r', '\n']) = some ls) : ls ≠ [] := by
  cases v with
  | nil | cons c v => exact lines_ne_nil h

theorem lines_append (v rest : Text) : lines (v ++ '\r' :: '\n' :: rest) =
      (lines (v ++ ['\r', '\n'])).bind fun a => (lines rest).map (a ++ ·) := by
  induction v using breaks with
  | nil =>
    rw [nil_append, nil_append, lines_crlf, lines_crlf]
    rfl
  | crlf t ih =>
    rw [cons_append, cons_append, cons_append, cons_append, lines_crlf, lines_crlf, ih]
    cases lines (t ++ ['\r', '\n']) with
    | none => rfl
    | some a => cases lines rest <;> rfl
  | plain c t hc ih =>
    rw [cons_append, cons_append, lines_plain hc, lines_plain hc, ih]
    cases ha : lines (t ++ ['\r', '\n']) with
    | none => rfl
    | some a =>
      have hne : a ≠ [] := lines_crlf_ne_nil ha
      cases lines rest with
      | none => cases a <;> rfl
      | some b =>
        show push c (a ++ b) = (push c a).bind fun a => some (a ++ b)
        rw [push_append c hne]
        cases push c a <;> rfl
  | bare c t hc hcr =>
    rw [cons_append, cons_append, (bare_append hc hcr (by decide) _).1, (bare_append hc hcr (by decide) _).1]
    rfl

theorem lines_plain_append (hw : ∀ c ∈ w, plain c) (h : lines t = some (line :: rest)) :
    lines (w ++ t) = some ((w ++ line) :: rest) := by
  induction w with
  | nil => exact h
  | cons c w ih =>
    rw [cons_append, lines_plain (hw c mem_cons_self), ih fun d hd => hw d (mem_cons_of_mem c hd)]
    rfl

/-- The first line of a text that ends in a line break, with what stands before the text. -/
theorem lines_plain_append_inv (hw : ∀ c ∈ w, plain c) (h : lines (w ++ (t ++ ['\r', '\n'])) = some ls) :
    ∃ line rest, lines (t ++ ['\r', '\n']) = some (line :: rest) ∧ ls = (w ++ line) :: rest := by
  induction w generalizing ls with
  | nil =>
    cases ls with
    | nil => exact absurd rfl (lines_crlf_ne_nil h)
    | cons line rest => exact ⟨line, rest, h, rfl⟩
  | cons c w ih =>
    rw [cons_append, lines_plain (hw c mem_cons_self)] at h
    obtain ⟨ls', hls, hp⟩ := bind_eq_some_iff.mp h
    obtain ⟨line, rest, hl, rfl⟩ := ih (fun d hd => hw d (mem_cons_of_mem c hd)) hls
    cases hp
    exact ⟨line, rest, hl, rfl⟩

/-! ## Values -/

theorem first_line (h : lines (v ++ ['\r', '\n']) = some (line :: rest)) :
    line <+: v ∧ continues line = continues v := by
  induction v using breaks generalizing line rest with
  | nil =>
    cases h
    exact ⟨prefix_rfl, rfl⟩
  | crlf t _ =>
    obtain ⟨_, _, heq⟩ := map_eq_some_iff.mp h
    cases heq
    exact ⟨ nil_prefix, rfl⟩
  | plain c t hc ih =>
    rw [cons_append, lines_plain hc] at h
    obtain ⟨ls, hls, hp⟩ := bind_eq_some_iff.mp h
    cases ls with
    | nil => cases hp
    | cons first ls =>
      cases hp
      exact ⟨(prefix_cons_inj c).mpr (ih hls).1, rfl⟩
  | bare c t hc hcr =>
    rw [cons_append, (bare_append hc hcr (by decide) _).1] at h
    cases h

theorem first_line_starts (hw : ∀ c ∈ w, plain c)
    (hv : w <+: v) (h : lines (v ++ ['\r', '\n']) = some (line :: rest)) : w <+: line := by
  obtain ⟨tail, rfl⟩ := hv
  rw [append_assoc] at h
  obtain ⟨first, ls, -, heq⟩ := lines_plain_append_inv hw h
  rw [(List.cons.inj heq).1]
  exact prefix_append w first

/-- **A folded value** has lines, and all but the first continue it. -/
theorem folded_iff (v : Text) : folded v ↔ ∃ line rest, lines (v ++ ['\r', '\n']) = some (line :: rest) ∧
      ∀ l ∈ rest, continues l := by
  induction v using breaks with
  | nil => exact ⟨fun _ => ⟨[], [], rfl, fun l hl => absurd hl not_mem_nil⟩, fun _ => rfl⟩
  | crlf t ih =>
    rw [folded_crlf, Bool.and_eq_true, ih, cons_append, cons_append, lines_crlf]
    constructor
    · rintro ⟨hco, line, rest, hli, hr⟩
      refine ⟨[], line :: rest, by rw [hli]; rfl, ?_⟩
      rw [forall_mem_cons, (first_line hli).2]
      exact ⟨hco, hr⟩
    · rintro ⟨line, rest, hmap, hall⟩
      obtain ⟨ls, hli, heq⟩ := map_eq_some_iff.mp hmap
      obtain ⟨rfl, rfl⟩ := cons_eq_cons.mp heq
      cases ls with
      | nil => exact absurd rfl (lines_crlf_ne_nil hli)
      | cons first rest =>
        rw [forall_mem_cons, (first_line hli).2] at hall
        exact ⟨hall.1, first, rest, hli, hall.2⟩
  | plain c t hc ih =>
    rw [folded_plain hc, ih, cons_append, lines_plain hc]
    constructor
    · rintro ⟨line, rest, hli, hr⟩
      exact ⟨c :: line, rest, by rw [hli]; rfl, hr⟩
    · rintro ⟨line, rest, hb, hr⟩
      obtain ⟨ls, hli, hp⟩ := bind_eq_some_iff.mp hb
      cases ls with
      | nil => cases hp
      | cons first ls =>
        cases hp
        exact ⟨first, rest, hli, hr⟩
  | bare c t hc hcr =>
    rw [(bare hc hcr).2, cons_append, (bare_append hc hcr (by decide) _).1]
    constructor
    · nofun
    · rintro ⟨line, rest, hn, -⟩
      cases hn

theorem continues_append (hc : blank c = false) (t b : Text) : continues (t ++ c :: b) = continues t := by
  cases t with
  | nil => exact hc
  | cons d t => rfl

theorem folded_append (hc : plain c) (b : Text) (h : blank c = false ∨ folded a) :
    folded (a ++ c :: b) = (folded a && folded b) := by
  induction a using breaks with
  | nil => exact folded_plain hc b
  | crlf t ih =>
    rw [cons_append, cons_append, folded_crlf, folded_crlf]
    rcases h with hb | hf
    · rw [continues_append hb, ih (.inl hb), Bool.and_assoc]
    · -- the value does not end here, so what follows is not its continuation
      rw [folded_crlf, Bool.and_eq_true] at hf
      rw [ih (.inr hf.2), hf.1, hf.2]
      cases t with
      | nil => cases hf.1
      | cons e t =>
        have hco : continues (e :: t ++ c :: b) = true := hf.1
        rw [hco]
        rfl
  | plain d t hd ih =>
    rw [folded_plain hd] at h
    rw [cons_append, folded_plain hd, folded_plain hd, ih h]
  | bare d t hd hcr =>
    have hlf : c ≠ '\n' := by
      rintro rfl
      exact absurd hc (by decide)
    rw [cons_append, (bare_append hd hcr hlf b).2, (bare hd hcr).2, Bool.false_and]

theorem folded_fold (a b : Text) : folded (a ++ '\r' :: '\n' :: b) = (folded a && (continues b && folded b)) := by
  induction a using breaks with
  | nil => rfl
  | crlf t ih =>
    rw [cons_append, cons_append, folded_crlf, folded_crlf, ih, continues_append (by decide), Bool.and_assoc]
  | plain d t hd ih => rw [cons_append, folded_plain hd, folded_plain hd, ih]
  | bare d t hd hcr => rw [cons_append, (bare_append hd hcr (by decide) _).2, (bare hd hcr).2, Bool.false_and]

theorem folded_intercalate (hsep : ∀ a b, folded (a ++ (sep ++ b)) = (folded a && folded b)) (parts : List Text) :
    folded (sep.intercalate parts) = parts.all folded := by
  induction parts with
  | nil => rfl
  | cons part parts ih =>
    cases parts with
    | nil => rw [intercalate_singleton, all_cons, all_nil, Bool.and_true]
    | cons next parts =>
      rw [intercalate_cons_cons, append_assoc, hsep, ih]
      rfl

theorem folded_plain_append (hw : w.all plain) (t : Text) : folded (w ++ t) = folded t := by
  induction w with
  | nil => rfl
  | cons c w ih =>
    rw [all_cons, Bool.and_eq_true] at hw
    rw [cons_append, folded_plain hw.1, ih hw.2]

theorem folded_of_plain (h : t.all plain) : folded t := by
  have ha := folded_plain_append h []
  rwa [append_nil] at ha

/-! ## Blocks -/

/-- The line opens a header of the name, and has the name once. -/
def Opens (name line : Text) : Prop := ∃ rest, line = name ++ (": " ++ rest) ∧ ¬ (name ++ [':'] <+: rest)

/-- The text is a block of headers with these names. -/
def IsBlock (names : List Text) (text : Text) : Prop :=
  ∃ ls, lines text = some ls ∧ (∀ first ∈ ls.head?, continues first = false) ∧
    List.Forall₂ Opens names (ls.filter (!continues ·)) ∧ [] ∉ ls ∧ ['.'] ∉ ls

structure Proper (name : Text) : Prop where
  plain : ∀ c ∈ name, plain c = true
  opens : ∃ c rest, name = c :: rest ∧ blank c = false

theorem proper_of (hp : name.all plain) (ho : name.head?.any (fun c => !blank c) = true) : Proper name := by
  refine ⟨all_eq_true.mp hp, ?_⟩
  obtain ⟨c, hc, hb⟩ := (any_eq_true _ _).mp ho
  obtain ⟨rest, rfl⟩ := head?_eq_some_iff.mp hc
  exact ⟨c, rest, rfl, by simpa using hb⟩

def field (header : Text × Text) : Text := header.1 ++ (": " ++ (header.2 ++ ['\r', '\n']))

section

variable {headers : List (Text × Text)}

theorem Opens.ne (h : Opens name line) : line ≠ [] ∧ line ≠ ['.'] := by
  obtain ⟨rest, rfl, -⟩ := h
  have hlen : 2 ≤ (name ++ (": " ++ rest)).length := by
    rw [length_append, length_append]
    exact Nat.le_add_left_of_le (Nat.le_add_right 2 _)
  constructor <;> intro heq <;> rw [heq] at hlen <;> exact absurd hlen (by decide)

theorem ne_of_continues (h : continues line) : line ≠ [] ∧ line ≠ ['.'] := by
  constructor
  · rintro rfl
    cases h
  · rintro rfl
    revert h
    decide

theorem lines_field (hn : Proper header.1) (h : lines (field header) = some ls) :
    ∃ line rest, lines (header.2 ++ ['\r', '\n']) = some (line :: rest) ∧
      ls = (header.1 ++ (": " ++ line)) :: rest := by
  rw [field, ← append_assoc] at h
  obtain ⟨line, rest, hv, heq⟩ := lines_plain_append_inv (forall_mem_append.mpr ⟨hn.plain, all_eq_true.mp rfl⟩) h
  exact ⟨line, rest, hv, by rw [heq, append_assoc]⟩

theorem not_continues_name (hn : Proper name) (t : Text) : continues (name ++ t) = false := by
  obtain ⟨c, rest, rfl, hb⟩ := hn.opens
  exact hb

theorem lines_cons (header : Text × Text) (headers : List (Text × Text)) : lines ((header :: headers).flatMap field) =
      (lines (field header)).bind fun a => (lines (headers.flatMap field)).map (a ++ ·) := by
  have hf : field header = header.1 ++ (": " ++ header.2) ++ ['\r', '\n'] := by rw [field, append_assoc, append_assoc]
  rw [flatMap_cons, hf, append_assoc]
  exact lines_append _ _

theorem lines_cons_eq_some (h : lines ((header :: headers).flatMap field) = some ls) :
    ∃ a b, lines (field header) = some a ∧ lines (headers.flatMap field) = some b ∧ ls = a ++ b := by
  rw [lines_cons] at h
  obtain ⟨a, ha, hmap⟩ := bind_eq_some_iff.mp h
  obtain ⟨b, hb, rfl⟩ := map_eq_some_iff.mp hmap
  exact ⟨a, b, ha, hb, rfl⟩

variable (hn : ∀ header ∈ headers, Proper header.1)
include hn

variable (h : lines (headers.flatMap field) = some ls)
include h

theorem length_le_heads : headers.length ≤ (ls.filter (!continues ·)).length := by
  induction headers generalizing ls with
  | nil => exact Nat.zero_le _
  | cons header headers ih =>
    obtain ⟨a, b, ha, hb, rfl⟩ := lines_cons_eq_some h
    obtain ⟨line, rest, -, rfl⟩ := lines_field (hn header mem_cons_self) ha
    have hrec := ih (fun header' hmem => hn header' (mem_cons_of_mem _ hmem)) hb
    have hf := not_continues_name (hn header mem_cons_self) (": " ++ line)
    rw [cons_append, filter_cons_of_pos (by rw [hf]; rfl), filter_append, length_cons, length_cons, length_append]
    omega

/-- With as many names as headers, no value opens a header of its own. -/
theorem folded_of_opens (hop : List.Forall₂ Opens (headers.map Prod.fst) (ls.filter (!continues ·))) :
    ∀ header ∈ headers, folded header.2 ∧ ¬ (header.1 ++ [':'] <+: header.2) := by
  induction headers generalizing ls with
  | nil => exact fun header hmem => absurd hmem not_mem_nil
  | cons header headers ih =>
    have hna := hn header mem_cons_self
    have hn' := fun header' hmem => hn header' (mem_cons_of_mem header hmem)
    obtain ⟨a, b, ha, hb, rfl⟩ := lines_cons_eq_some h
    obtain ⟨line, rest, hv, rfl⟩ := lines_field hna ha
    have hf := not_continues_name hna (": " ++ line)
    rw [cons_append, filter_cons_of_pos (by rw [hf]; rfl), map_cons, filter_append] at hop
    obtain ⟨hope, ho⟩ := forall₂_cons.mp hop
    -- the others open as many headers as they are, so nothing is left for this value
    have hco := ho.length_eq
    have hle := length_le_heads hn' hb
    rw [length_map, length_append] at hco
    have hre : rest.filter (!continues ·) = [] := length_eq_zero_iff.mp (by omega)
    rw [hre, nil_append] at ho
    rw [forall_mem_cons]
    refine ⟨⟨(folded_iff _).mpr ⟨line, rest, hv, ?_⟩, ?_⟩, ih hn' hb ho⟩
    · intro l hl
      simpa using filter_eq_nil_iff.mp hre l hl
    · intro hr
      obtain ⟨rest', heq, hnot⟩ := hope
      have hli : line = rest' := append_cancel_left (append_cancel_left heq)
      have hcol : ∀ c ∈ header.1 ++ [':'], plain c = true := by
        intro c hc
        rcases mem_append.mp hc with hc | hc
        · exact hna.plain c hc
        · rw [mem_singleton.mp hc]
          decide
      exact hnot (hli ▸ first_line_starts hcol hr hv)

omit h

omit hn

theorem lines_field_of_folded (hn : Proper header.1)
    (hf : folded header.2) (ho : ¬ (header.1 ++ [':'] <+: header.2)) :
    ∃ first rest, lines (field header) = some (first :: rest) ∧ Opens header.1 first ∧
      continues first = false ∧ ∀ l ∈ rest, continues l := by
  have hc : ∀ c ∈ (": " : Text), plain c = true := all_eq_true.mp rfl
  obtain ⟨line, rest, hv, hr⟩ := (folded_iff _).mp hf
  refine ⟨header.1 ++ (": " ++ line), rest, lines_plain_append hn.plain (lines_plain_append hc hv), ⟨line, rfl, ?_⟩,
    not_continues_name hn _, hr⟩
  exact fun hl => ho (hl.trans (first_line hv).1)

/-- **A block is one exactly if every value is folded and does not repeat its name.** -/
theorem isBlock_iff (hn : ∀ header ∈ headers, Proper header.1) :
    IsBlock (headers.map Prod.fst) (headers.flatMap field) ↔
      ∀ header ∈ headers, folded header.2 ∧ ¬ (header.1 ++ [':'] <+: header.2) := by
  constructor
  · rintro ⟨ls, hli, -, ho, -⟩
    exact folded_of_opens hn hli ho
  · intro hall
    induction headers with
    | nil =>
      refine ⟨[], rfl, ?_, .nil, not_mem_nil, not_mem_nil⟩
      intro first hf
      cases hf
    | cons header headers ih =>
      obtain ⟨hh, hhe⟩ := forall_mem_cons.mp hall
      obtain ⟨hna, hn⟩ := forall_mem_cons.mp hn
      obtain ⟨b, hb, -, ho, he, hdot⟩ := ih hn hhe
      obtain ⟨first, rest, ha, hf, hhea, hr⟩ := lines_field_of_folded hna hh.1 hh.2
      have hfi : rest.filter (!continues ·) = [] := filter_eq_nil_iff.mpr fun l hl => by simp [hr l hl]
      refine ⟨first :: (rest ++ b), ?_, ?_, ?_, ?_, ?_⟩
      · rw [lines_cons, ha, hb]
        rfl
      · intro l hl
        cases hl
        exact hhea
      · rw [filter_cons_of_pos (by rw [hhea]; rfl), filter_append, hfi]
        exact .cons hf ho
      · rw [mem_cons, mem_append]
        rintro (heq | hmem | hmem)
        · exact hf.ne.1 heq.symm
        · exact (ne_of_continues (hr _ hmem)).1 rfl
        · exact he hmem
      · rw [mem_cons, mem_append]
        rintro (heq | hmem | hmem)
        · exact hf.ne.2 heq.symm
        · exact (ne_of_continues (hr _ hmem)).2 rfl
        · exact hdot hmem

end

end ServerWall.HeaderLines
