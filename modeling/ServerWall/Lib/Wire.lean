import ServerWall.Lib.Text

/-!
# Message text on the wire

How a receiver of SMTP reads the text that follows `DATA`: it splits the stream at CR LF, stops at
the first line that is a single dot, and takes one dot from the front of every other line that has
one. A CR or LF that stands alone is an ordinary byte, unlike for a program that splits at LF
(`splitLines_lf`).
-/

namespace ServerWall.Wire

open List List

/-- The complete lines of a stream, without their CR LF, and what follows the
last of them. -/
def splitLines : Bytes → List Bytes × Bytes
  | [] => ([], [])
  | 13 :: 10 :: s => ([] :: (splitLines s).1, (splitLines s).2)
  | b :: s =>
    match splitLines s with
    | ([], t) => ([], b :: t)
    | (l :: ls, t) => ((b :: l) :: ls, t)

/-- Put bytes in front of a split stream, without ending a line. -/
def glue (x : Bytes) : List Bytes × Bytes → List Bytes × Bytes
  | ([], t) => ([], x ++ t)
  | (l :: ls, t) => ((x ++ l) :: ls, t)

def joinLines (ls : List Bytes) : Bytes := ls.flatMap (· ++ [13, 10])

def stripDot : Bytes → Bytes
  | 46 :: l => l
  | l => l

/-- The lines up to the first that is a single dot, each without its leading
dot, and the lines after it. -/
def untilDot : List Bytes → Option (List Bytes × List Bytes)
  | [] => none
  | l :: ls =>
    if l = [46] then some ([], ls)
    else (untilDot ls).map fun (text, rest) => (stripDot l :: text, rest)

/-- What a receiver takes for the message, and the bytes it takes for what
follows. -/
def receive (s : Bytes) : Option (List Bytes × Bytes) :=
  (untilDot (splitLines s).1).map fun (text, rest) => (text, joinLines rest ++ (splitLines s).2)

/-! ## Splitting -/

theorem splitLines_cons (b : UInt8) (s : Bytes) (h : b = 13 → s.head? ≠ some 10) :
    splitLines (b :: s) = glue [b] (splitLines s) := by
  rw [splitLines.eq_3]
  · rcases hs : splitLines s with ⟨_ | ⟨l, ls⟩, t⟩ <;> rfl
  · rintro s' rfl rfl
    exact h rfl rfl

@[simp] theorem glue_nil (r : List Bytes × Bytes) : glue [] r = r := by
  rcases r with ⟨_ | ⟨l, ls⟩, t⟩ <;> rfl

@[simp] theorem glue_glue (x y : Bytes) (r : List Bytes × Bytes) : glue x (glue y r) = glue (x ++ y) r := by
  rcases r with ⟨_ | ⟨l, ls⟩, t⟩ <;> simp [glue]

theorem splitLines_crlf (x y : Bytes) : splitLines (x ++ 13 :: 10 :: y) =
      ((splitLines x).1 ++ (splitLines x).2 :: (splitLines y).1, (splitLines y).2) := by
  fun_induction splitLines x with
  | case1 => rfl
  | case2 s ih =>
    show ([] :: (splitLines (s ++ 13 :: 10 :: y)).1, (splitLines (s ++ 13 :: 10 :: y)).2) = _
    rw [ih]
    rfl
  | case3 b s hnot t hs ih | case4 b s hnot l ls t hs ih =>
    rw [cons_append, splitLines_cons _ _ ?_, ih, hs]
    · rfl
    · rintro rfl
      cases s with
      | nil => simp
      | cons c s => exact fun hc => hnot s rfl (by rw [(Option.some.inj hc : c = 10)])

theorem splitLines_lf (hlf : (10 : UInt8) ∉ x) (hcr : x.getLast? ≠ some 13) (y : Bytes) :
    splitLines (x ++ 10 :: y) = glue (x ++ [10]) (splitLines y) := by
  induction x with
  | nil => exact splitLines_cons 10 y nofun
  | cons b x ih =>
    have hn : b = 13 → (x ++ 10 :: y).head? ≠ some 10 := by
      rintro rfl
      cases x with
      | nil => exact absurd rfl hcr
      | cons c x =>
        rintro hc
        cases hc
        exact hlf (by simp)
    have ht : x.getLast? ≠ some 13 := by
      cases x with
      | nil => exact nofun
      | cons c x => exact hcr
    rw [cons_append, splitLines_cons _ _ hn, ih (fun h => hlf (mem_cons_of_mem _ h)) ht, glue_glue]
    rfl

theorem splitLines_of_noLf (hlf : (10 : UInt8) ∉ x) : splitLines x = ([], x) := by
  induction x with
  | nil => rfl
  | cons b x ih =>
    rw [splitLines_cons _ _ ?_, ih (fun h => hlf (mem_cons_of_mem _ h))]
    · rfl
    · rintro rfl hc
      cases x with
      | nil => cases hc
      | cons c x =>
        cases hc
        exact hlf (by simp)

theorem joinLines_cons (l : Bytes) (ls : List Bytes) : joinLines (l :: ls) = l ++ 13 :: 10 :: joinLines ls := by
  simp [joinLines]

@[simp] theorem joinLines_append (ls ls' : List Bytes) : joinLines (ls ++ ls') = joinLines ls ++ joinLines ls' :=
  flatMap_append

theorem join_splitLines (s : Bytes) : joinLines (splitLines s).1 ++ (splitLines s).2 = s := by
  fun_induction splitLines s with
  | case1 => rfl
  | case2 s ih => exact congrArg (13 :: 10 :: ·) ih
  | case3 b s _ t hs ih | case4 b s _ l ls t hs ih =>
    rw [hs] at ih
    exact congrArg (b :: ·) ih

theorem splitLines_join : ∀ {ls : List Bytes}, (∀ l ∈ ls, (10 : UInt8) ∉ l) → splitLines (joinLines ls) = (ls, [])
  | [], _ => rfl
  | l :: ls, hlf => by
    have hl := hlf l mem_cons_self
    have hls := fun l' h => hlf l' (mem_cons_of_mem _ h)
    rw [joinLines_cons, splitLines_crlf, splitLines_of_noLf hl, splitLines_join hls]
    rfl

theorem joinLines_inj (hls : ∀ l ∈ ls, (10 : UInt8) ∉ l)
    (hls' : ∀ l ∈ ls', (10 : UInt8) ∉ l) (h : joinLines ls = joinLines ls') : ls = ls' := by
  have hs := congrArg splitLines h
  rw [splitLines_join hls, splitLines_join hls'] at hs
  exact (Prod.mk.inj hs).1

/-! ## A message and its terminator -/

def textLines (x : Bytes) : List Bytes := (splitLines x).1 ++ [(splitLines x).2]

theorem textLines_crlf (x y : Bytes) : textLines (x ++ 13 :: 10 :: y) = textLines x ++ textLines y := by
  simp [textLines, splitLines_crlf]

theorem join_textLines (x : Bytes) : joinLines (textLines x) = x ++ [13, 10] := by
  conv_rhs => rw [← join_splitLines x]
  simp [textLines, joinLines]

theorem untilDot_eq_some : untilDot ls = some (text, rest) ↔
      ∃ before, ls = before ++ [46] :: rest ∧ [46] ∉ before ∧ text = before.map stripDot := by
  induction ls generalizing text with
  | nil =>
    refine ⟨nofun, ?_⟩
    rintro ⟨before, heq, -⟩
    cases before <;> cases heq
  | cons l ls ih =>
    by_cases hl : l = [46]
    · subst hl
      rw [untilDot, if_pos rfl]
      constructor
      · rintro ⟨⟩
        exact ⟨[], rfl, nofun, rfl⟩
      · rintro ⟨before, heq, hno, rfl⟩
        cases before with
        | nil => cases heq; rfl
        | cons b before =>
          obtain ⟨rfl, -⟩ := cons.inj heq
          exact absurd mem_cons_self hno
    · rw [untilDot, if_neg hl, Option.map_eq_some_iff]
      constructor
      · rintro ⟨⟨text', rest'⟩, hrec, heq⟩
        obtain ⟨before, rfl, hno, rfl⟩ := ih.mp (hrec.trans (by rw [(Prod.mk.inj heq).2]))
        exact ⟨l :: before, rfl, fun h => (mem_cons.mp h).elim (hl ·.symm) hno, (Prod.mk.inj heq).1.symm⟩
      · rintro ⟨before, heq, hno, rfl⟩
        cases before with
        | nil => exact absurd (cons.inj heq).1 hl
        | cons b before =>
          obtain ⟨rfl, rfl⟩ := cons.inj heq
          exact ⟨(before.map stripDot, rest), ih.mpr ⟨before, rfl, fun h => hno (mem_cons_of_mem _ h), rfl⟩, rfl⟩

theorem joinLines_eq_nil (h : joinLines ls = []) : ls = [] := by
  cases ls with
  | nil => rfl
  | cons l ls => simp [joinLines] at h

/-- **A text with the terminator after it is received whole exactly when no
line of it is a single dot.** -/
theorem receive_terminated (x : Bytes) (text : List Bytes) : receive (x ++ [13, 10, 46, 13, 10]) = some (text, []) ↔
      [46] ∉ textLines x ∧ text = (textLines x).map stripDot := by
  have hs : splitLines (x ++ [13, 10, 46, 13, 10]) = (textLines x ++ [[46]], []) := by
    rw [splitLines_crlf x [46, 13, 10]]
    simp [textLines, splitLines]
  rw [receive, hs, Option.map_eq_some_iff]
  constructor
  · rintro ⟨⟨text', rest⟩, hu, heq⟩
    obtain ⟨rfl, hr⟩ := Prod.mk.inj heq
    obtain rfl := joinLines_eq_nil (append_eq_nil_iff.mp hr).1
    obtain ⟨before, hb, hno, rfl⟩ := untilDot_eq_some.mp hu
    obtain ⟨rfl, -⟩ := append_inj' hb rfl
    exact ⟨hno, rfl⟩
  · rintro ⟨hno, rfl⟩
    exact ⟨_, untilDot_eq_some.mpr ⟨_, rfl, hno, rfl⟩, rfl⟩

theorem stripDot_of_head (h : l.head? ≠ some 46) : stripDot l = l := by
  unfold stripDot
  split
  · exact absurd rfl h
  · rfl

theorem mem_of_mem_stripDot (h : b ∈ stripDot l) : b ∈ l := by
  unfold stripDot at h
  split at h
  · exact mem_cons_of_mem _ h
  · exact h

theorem count_stripDot (l : Bytes) : (stripDot l).count 10 = l.count 10 := by
  unfold stripDot
  split
  · rw [count_cons_of_ne (by decide)]
  · rfl

theorem count_join_stripDot (ls : List Bytes) : (joinLines (ls.map stripDot)).count 10 = (joinLines ls).count 10 := by
  induction ls with
  | nil => rfl
  | cons l ls ih =>
    simp only [joinLines, map_cons, flatMap_cons, count_append, count_stripDot] at ih ⊢
    rw [ih]

/-! ## Stuffing -/

/-- A line as it is sent: with one more dot if it starts with one. -/
def stuffDot (l : Bytes) : Bytes := if l.head? = some 46 then 46 :: l else l

@[simp] theorem stripDot_stuffDot (l : Bytes) : stripDot (stuffDot l) = l := by
  by_cases h : l.head? = some 46
  · rw [stuffDot, if_pos h, stripDot]
  · rw [stuffDot, if_neg h, stripDot_of_head h]

theorem stuffDot_ne_dot (l : Bytes) : stuffDot l ≠ [46] := by
  intro hdot
  by_cases h : l.head? = some 46
  · rw [stuffDot, if_pos h] at hdot
    rw [(cons.inj hdot).2] at h
    cases h
  · rw [stuffDot, if_neg h] at hdot
    rw [hdot] at h
    exact h rfl

theorem lf_mem_stuffDot : (10 : UInt8) ∈ stuffDot l ↔ (10 : UInt8) ∈ l := by
  by_cases h : l.head? = some 46
  · rw [stuffDot, if_pos h, mem_cons, or_iff_right (by decide)]
  · rw [stuffDot, if_neg h]

def pieces (x : Bytes) : List Bytes := x.splitOn 10

/-- A piece without the carriage return at its end, if it has one there. -/
def chopCr (l : Bytes) : Bytes := if l.getLast? = some 13 then l.dropLast else l

theorem pieces_cons (b : UInt8) (x : Bytes) :
    pieces (b :: x) = if b = 10 then [] :: pieces x else (pieces x).modifyHead (b :: ·) := by
  rw [pieces, splitOn_cons_eq_if_modifyHead]
  simp only [beq_iff_eq]
  rfl

theorem pieces_ne_nil (x : Bytes) : pieces x ≠ [] := splitOn_ne_nil 10 x

theorem lf_not_mem_pieces (hl : l ∈ pieces x) : (10 : UInt8) ∉ l := by
  induction x generalizing l with
  | nil =>
    rw [mem_singleton.mp hl]
    exact not_mem_nil
  | cons b x ih =>
    rw [pieces_cons] at hl
    split at hl
    · rcases mem_cons.mp hl with rfl | hl
      · exact not_mem_nil
      · exact ih hl
    · rename_i hb
      cases hp : pieces x with
      | nil => exact absurd hp (pieces_ne_nil x)
      | cons p ps =>
        rw [hp] at hl
        rcases mem_cons.mp hl with rfl | hl
        · intro hlf
          rcases mem_cons.mp hlf with heq | hlf
          · exact hb heq.symm
          · exact ih (hp ▸ mem_cons_self) hlf
        · exact ih (hp ▸ mem_cons_of_mem _ hl)

theorem lf_mem_chopCr (h : (10 : UInt8) ∈ chopCr l) : (10 : UInt8) ∈ l := by
  unfold chopCr at h
  split at h
  · exact (dropLast_sublist l).subset h
  · exact h

/-- The pieces of a text, each without a trailing carriage return. -/
def chopped (x : Bytes) : List Bytes := (pieces x).map chopCr

/-- The lines that carry a text: its pieces, stuffed. -/
def stuffed (x : Bytes) : List Bytes := (chopped x).map stuffDot

theorem lf_not_mem_stuffed (hl : l ∈ stuffed x) : (10 : UInt8) ∉ l := by
  obtain ⟨c, hc, rfl⟩ := mem_map.mp hl
  obtain ⟨p, hp, rfl⟩ := mem_map.mp hc
  exact fun h => lf_not_mem_pieces hp (lf_mem_chopCr (lf_mem_stuffDot.mp h))

theorem dot_not_mem_stuffed (x : Bytes) : [46] ∉ stuffed x := by
  intro h
  obtain ⟨c, -, hc⟩ := mem_map.mp h
  exact stuffDot_ne_dot c hc

theorem strip_stuffed (x : Bytes) : (stuffed x).map stripDot = chopped x := by
  rw [stuffed, map_map]
  exact (map_congr_left fun l _ => stripDot_stuffDot l).trans (map_id _)

theorem stuffed_ne_nil (x : Bytes) : stuffed x ≠ [] := by
  intro h
  exact pieces_ne_nil x (map_eq_nil_iff.mp (map_eq_nil_iff.mp h))

theorem lf_not_mem_cr (hl : (10 : UInt8) ∉ l) : (10 : UInt8) ∉ l ++ [13] := by
  simp [hl]

theorem pieces_join (hlf : ∀ l ∈ ls, (10 : UInt8) ∉ l) : pieces (joinLines ls) = ls.map (· ++ [13]) ++ [[]] := by
  induction ls with
  | nil => rfl
  | cons l ls ih =>
    have hl : (10 : UInt8) ∉ l ++ [13] := lf_not_mem_cr (hlf l mem_cons_self)
    have hcut : joinLines (l :: ls) = (l ++ [13]) ++ 10 :: joinLines ls := by
      rw [joinLines_cons]
      simp
    rw [hcut, pieces, splitOn_append_cons_self_of_not_mem hl]
    show (l ++ [13]) :: pieces (joinLines ls) = _
    rw [ih fun l' hl' => hlf l' (mem_cons_of_mem _ hl')]
    rfl

theorem stuffed_join (hlf : ∀ l ∈ ls, (10 : UInt8) ∉ l) : stuffed (joinLines ls) = ls.map stuffDot ++ [[]] := by
  have hc : (ls.map (· ++ [13])).map chopCr = ls := by
    rw [map_map]
    exact (map_congr_left fun l _ => by simp [chopCr]).trans (map_id _)
  rw [stuffed, chopped, pieces_join hlf, map_append, hc, map_append]
  rfl

/-! ## Lines and a closing dot -/

section

variable {ls : List Bytes}

theorem cr_before_lf (hlf : ∀ l ∈ ls, (10 : UInt8) ∉ l) (h : joinLines ls = x ++ 10 :: y) : x.getLast? = some 13 := by
  induction ls generalizing x with
  | nil =>
    have hnil : x ++ 10 :: y = [] := h.symm
    simp at hnil
  | cons l ls ih =>
    have hl : (10 : UInt8) ∉ l ++ [13] := lf_not_mem_cr (hlf l mem_cons_self)
    have hcut : (l ++ [13]) ++ 10 :: joinLines ls = x ++ 10 :: y := by
      rw [← h, joinLines_cons]
      simp
    rcases append_eq_append_iff.mp hcut with ⟨z, rfl, hz⟩ | ⟨z, hx, hz⟩
    · cases z with
      | nil => simp
      | cons b z =>
        obtain ⟨rfl, hr⟩ := cons.inj hz
        have hla := ih (fun l' hl' => hlf l' (mem_cons_of_mem _ hl')) hr
        have hz : z ≠ [] := by
          rintro rfl
          cases hla
        rw [getLast?_append_of_ne_nil _ (cons_ne_nil _ _), ← hla]
        exact getLast?_cons_of_ne_nil hz
    · cases z with
      | nil =>
        rw [append_nil] at hx
        rw [← hx]
        simp
      | cons b z =>
        obtain ⟨rfl, -⟩ := cons.inj hz
        exact absurd (hx ▸ by simp) hl

def closed (ls : List Bytes) : Bytes := joinLines ls ++ [46, 13, 10]

theorem closed_eq_join (ls : List Bytes) : closed ls = joinLines (ls ++ [[46]]) := by
  simp [closed, joinLines]

variable (hlf : ∀ l ∈ ls, (10 : UInt8) ∉ l)
include hlf

theorem splitLines_closed : splitLines (closed ls) = (ls ++ [[46]], []) := by
  rw [closed_eq_join, splitLines_join]
  intro l hl
  rcases mem_append.mp hl with hl | hl
  · exact hlf l hl
  · rw [mem_singleton.mp hl]
    decide

/-- **A receiver takes exactly the lines** in front of the closing dot. -/
theorem receive_closed (hdot : [46] ∉ ls) : receive (closed ls) = some (ls.map stripDot, []) := by
  rw [receive, splitLines_closed hlf, untilDot_eq_some.mpr ⟨ls, rfl, hdot, rfl⟩]
  rfl

theorem closed_ends (hdot : [46] ∉ ls) (h : closed ls = x ++ [13, 10, 46, 13, 10] ++ y) : y = [] := by
  have hs : splitLines (closed ls) =
      ((splitLines x).1 ++ (splitLines x).2 :: [46] :: (splitLines y).1, (splitLines y).2) := by
    rw [h, append_assoc]
    show splitLines (x ++ 13 :: 10 :: ([46] ++ 13 :: 10 :: y)) = _
    rw [splitLines_crlf, splitLines_crlf [46] y]
    rfl
  rw [splitLines_closed hlf] at hs
  obtain ⟨hl, hr⟩ := Prod.mk.inj hs
  have hla : (splitLines y).1 = [] := by
    rcases eq_nil_or_concat (splitLines y).1 with hnil | ⟨more, l, hm⟩
    · exact hnil
    · rw [hm, concat_eq_append] at hl
      have hcut : ls ++ [[46]] = ((splitLines x).1 ++ (splitLines x).2 :: [46] :: more) ++ [l] := by simpa using hl
      have hinj := append_inj' hcut rfl
      exact absurd (hinj.1 ▸ by simp) hdot
  rw [← join_splitLines y, hla, ← hr]
  rfl

theorem closed_not_dot (hdot : [46] ∉ ls) (hls : ls ≠ []) : ¬ [46, 13, 10] <+: closed ls := by
  rintro ⟨y, hy⟩
  have hs : splitLines (closed ls) = ([46] :: (splitLines y).1, (splitLines y).2) := by
    rw [← hy]
    exact splitLines_crlf [46] y
  rw [splitLines_closed hlf] at hs
  cases ls with
  | nil => exact hls rfl
  | cons l ls =>
    have hl : l = [46] := (cons.inj (Prod.mk.inj hs).1).1
    exact hdot (hl ▸ mem_cons_self)

omit hlf

theorem terminator_suffix (hls : ls ≠ []) : [13, 10, 46, 13, 10] <:+ closed ls := by
  rcases eq_nil_or_concat ls with rfl | ⟨before, l, rfl⟩
  · exact absurd rfl hls
  · refine ⟨joinLines before ++ l, ?_⟩
    simp [closed, joinLines]

end

end ServerWall.Wire
