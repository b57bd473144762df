import ServerWall.Proxy.Conversation
import ServerWall.Proxy.History

/-!
# Reply fidelity

Every line of an SMTP reply but the last has a hyphen after its code. `ownReplies` deals the lines of a
backend out to the commands in that way; the call reads otherwise. `Fidelity` asks that the two agree, that
message bytes follow only favourable answers, and that the client is told of success only when there was
one (`fidelity_iff`).
-/

namespace ServerWall.Proxy

open List SmtpProxy List Conn Stage Text
open Prod (ext fst mk snd)

/-! ## Replies -/

/-- A line that a backend sends; the empty text would be the end of the
stream. -/
abbrev ReplyLine := { l : Text // l ≠ [] }

def continues (l : Text) : Bool := fourthByte l == some 45

def firstReply : List Text → Option (List Text × List Text)
  | [] => none
  | l :: ls => if continues l then (firstReply ls).map fun (r, rest) => (l :: r, rest) else some ([l], ls)

def replyOf (lines : List Text) : List Text × List Text := (firstReply lines).getD ([], [])

def ownReplies : List Stage → List Text → List (Stage × List Text)
  | [], _ => []
  | stage :: stages, lines => (stage, (replyOf lines).1) :: ownReplies stages (replyOf lines).2

def stageReads : List Stage → List Text → List (Stage × List Text)
  | [], _ => []
  | stage :: stages, lines => (stage, (taken stage lines).1) :: stageReads stages (taken stage lines).2

/-- The lines that a list of turns has for one stage. -/
def linesOf (stage : Stage) (rs : List (Stage × List Text)) : List Text :=
  rs.flatMap fun r => if r.1 = stage then r.2 else []

def receivedAt (stage : Stage) (events : List BackendEvent) : List Text := events.flatMap fun
    | .received s l => if s = stage then [l] else []
    | .sent _ _ => []

def beforeMessage (events : List BackendEvent) : List BackendEvent := events.takeWhile fun
    | .sent .message _ => false
    | _ => true

/-- There is a reply, and its code starts with this digit. -/
def Answered (digit : Char) (lines : List Text) : Prop := lines ≠ [] ∧ ∀ l ∈ lines, l.head? = some digit

/-- What message bytes, and a favourable answer to the client, stand on. -/
structure Fidelity (p : SmtpProxy) (f : Forward) (lines : List Text) : Prop where
  /-- Every command is matched with its own complete reply. -/
  matched : ∀ stage ∈ (p.script f).map Prod.fst, receivedAt stage (p.forwardToBackend (.answering lines) f).events =
      linesOf stage (ownReplies ((p.script f).map Prod.fst) lines)
  /-- Message bytes are written after favourable replies only. -/
  cleared : messageBytes (p.forwardToBackend (.answering lines) f).events ≠ [] →
    let before := beforeMessage (p.forwardToBackend (.answering lines) f).events
    Answered '2' (receivedAt .mail before) ∧ (∀ i < f.rcptTo.length, Answered '2' (receivedAt (.rcpt i) before)) ∧
        Answered '3' (receivedAt .data before)
  /-- The client hears of success only when the backend took the message for
  every recipient. -/
  answered : (p.forwardToBackend (.answering lines) f).clientAnswer.head? = some '2' →
    Answered '2' (receivedAt .message (p.forwardToBackend (.answering lines) f).events) ∧ ∀ i < f.rcptTo.length,
        Answered '2' (receivedAt (.rcpt i) (p.forwardToBackend (.answering lines) f).events)

/-- One line that is a whole reply, with this digit. -/
def SingleReply (digit : Char) (l : Text) : Prop := continues l = false ∧ l.head? = some digit

/-- The backends with which the call has fidelity: a reply to `EHLO` that ends with a space after the code,
favourable replies of one line to `MAIL`, each `RCPT` and `DATA`, and no other reply of several lines. -/
def Favourable (rcptCount : Nat) (lines : List Text) : Prop := ∃ banner more last mail rcpts data tail,
    lines = banner :: (more ++ last :: mail :: (rcpts ++ data :: tail)) ∧
      continues banner = false ∧ (∀ l ∈ more, continues l = true) ∧ endsEhlo last = true ∧
        SingleReply '2' mail ∧ rcpts.length = rcptCount ∧ (∀ l ∈ rcpts, SingleReply '2' l) ∧
          SingleReply '3' data ∧ ∀ l ∈ tail.take 2, continues l = false

/-! ## One stage -/

theorem firstReply_append : ∀ {lines r rest : List Text}, firstReply lines = some (r, rest) → r ++ rest = lines
  | l :: ls, r, rest, h => by
    unfold firstReply at h
    split at h
    · obtain ⟨⟨r', rest'⟩, hls, heq⟩ := Option.map_eq_some_iff.mp h
      cases heq
      exact congrArg (l :: ·) (firstReply_append hls)
    · cases h
      rfl

theorem ehloLines_append : ∀ lines : List Text, (ehloLines lines).1 ++ (ehloLines lines).2 = lines
  | [] => rfl
  | l :: ls => by
    unfold ehloLines
    split
    · rfl
    · exact congrArg (l :: ·) (ehloLines_append ls)

theorem taken_append (stage) (lines : List Text) : (taken stage lines).1 ++ (taken stage lines).2 = lines := by
  cases stage with
  | ehlo => exact ehloLines_append lines
  | _ => exact take_append_drop 1 lines

theorem eq_nil_of_taken (h : (taken s lines).1 = []) : lines = [] := by
  cases lines with
  | nil => rfl
  | cons l ls =>
    cases s with
    | ehlo =>
      rw [taken, ehloLines] at h
      split at h <;> cases h
    | _ => cases h

theorem rest_eq_of_matched (h : (taken stage lines).1 = (replyOf lines).1) :
    (taken stage lines).2 = (replyOf lines).2 := by
  cases hr : firstReply lines with
  | none =>
    have hn : replyOf lines = ([], []) := by rw [replyOf, hr]; rfl
    rw [hn] at h ⊢
    have happ := taken_append stage lines
    rw [h, eq_nil_of_taken h] at happ
    rwa [eq_nil_of_taken h]
  | some rr =>
    obtain ⟨r, rest⟩ := rr
    have hs : replyOf lines = (r, rest) := by rw [replyOf, hr]; rfl
    rw [hs] at h ⊢
    have happ := (taken_append stage lines).trans (firstReply_append hr).symm
    rw [h] at happ
    exact append_cancel_left happ

theorem one_matched_iff (hs : stage ≠ .ehlo) (l : Text) (ls : List Text) :
    (taken stage (l :: ls)).1 = (replyOf (l :: ls)).1 ↔ continues l = false := by
  have ht : (taken stage (l :: ls)).1 = [l] := by
    cases stage with
    | ehlo => exact absurd rfl hs
    | _ => rfl
  rw [ht, replyOf, firstReply]
  cases hl : continues l with
  | false => exact ⟨fun _ => rfl, fun _ => rfl⟩
  | true =>
    refine ⟨fun h => ?_, nofun⟩
    cases hls : firstReply ls with
    | none => rw [hls] at h; cases h
    | some rr =>
      obtain ⟨r, rest⟩ := rr
      rw [hls] at h
      -- the reply has a second line, since `firstReply` never gives an empty one
      cases ls with
      | nil => cases hls
      | cons l' ls =>
        unfold firstReply at hls
        split at hls
        · obtain ⟨_, -, heq⟩ := Option.map_eq_some_iff.mp hls
          cases heq
          cases h
        · cases hls
          cases h

theorem continues_of_endsEhlo (h : endsEhlo l) : continues l = false := by
  rw [endsEhlo, beq_iff_eq] at h
  rw [continues, h]
  decide

theorem ehloLines_reply : ∀ {more : List Text} {last : Text} (rest : List Text),
    (∀ l ∈ more, continues l) → endsEhlo last → ehloLines (more ++ last :: rest) = (more ++ [last], rest)
  | [], last, rest, _, hla => by
    show ehloLines (last :: rest) = _
    rw [ehloLines, hla, Bool.or_true, if_pos rfl]
    rfl
  | l :: more, last, rest, hm, hla => by
    obtain ⟨hl, hm⟩ := forall_mem_cons.mp hm
    have hg : (decide (l = []) || endsEhlo l) = false := by
      cases he : endsEhlo l with
      | true => rw [continues_of_endsEhlo he] at hl; cases hl
      | false =>
        have hne : l ≠ [] := by
          rintro rfl
          cases hl
        rw [decide_eq_false hne, Bool.or_false]
    rw [cons_append, ehloLines, hg, if_neg Bool.false_ne_true, ehloLines_reply rest hm hla]
    rfl

theorem ehlo_matched_cons (ls : List Text) (hl : continues l) :
    (l :: (ehloLines ls).1 = (replyOf (l :: ls)).1 ∧ (ehloLines ls).2 ≠ []) ↔
      ((ehloLines ls).1 = (replyOf ls).1 ∧ (ehloLines ls).2 ≠ []) := by
  refine and_congr_left fun hle => ?_
  rw [replyOf, firstReply, if_pos hl, replyOf]
  cases hls : firstReply ls with
  | none =>
    refine iff_of_false (cons_ne_nil _ _) fun hnil => hle ?_
    rw [eq_nil_of_taken (s := .ehlo) hnil]
    rfl
  | some rr => exact ⟨fun h => (cons.inj h).2, fun h => congrArg (l :: ·) h⟩

/-- The `EHLO` loop reads its own reply and leaves lines for the others exactly
when the reply ends with a space after the code. -/
theorem ehlo_matched_iff : ∀ {lines : List Text}, (∀ l ∈ lines, l ≠ []) →
    (((ehloLines lines).1 = (replyOf lines).1 ∧ (ehloLines lines).2 ≠ []) ↔
      ∃ more last, lines = more ++ last :: (ehloLines lines).2 ∧
        (∀ l ∈ more, continues l) ∧ endsEhlo last ∧ (ehloLines lines).2 ≠ [])
  | [], _ => by
    refine ⟨fun h => absurd rfl h.2, ?_⟩
    rintro ⟨more, last, heq, -⟩
    cases more <;> cases heq
  | l :: ls, hne => by
    have ih := ehlo_matched_iff fun l' h => hne l' (mem_cons_of_mem _ h)
    rw [ehloLines, decide_eq_false (hne l mem_cons_self), Bool.false_or]
    cases he : endsEhlo l with
    | true =>
      rw [if_pos rfl, replyOf, firstReply, continues_of_endsEhlo he]
      refine ⟨fun h => ⟨[], l, rfl, fun _ hmem => absurd hmem not_mem_nil, he, h.2⟩, ?_⟩
      intro h
      obtain ⟨_, _, -, -, -, hle⟩ := h
      exact ⟨rfl, hle⟩
    | false =>
      rw [if_neg Bool.false_ne_true]
      cases hl : continues l with
      | true =>
        rw [ehlo_matched_cons ls hl, ih]
        constructor
        · rintro ⟨more, last, heq, hm, hla, hle⟩
          refine ⟨l :: more, last, congrArg (l :: ·) heq, ?_, hla, hle⟩
          exact forall_mem_cons.mpr ⟨hl, hm⟩
        · rintro ⟨more, last, heq, hm, hla, hle⟩
          cases more with
          | nil =>
            cases (cons.inj heq).1
            cases he.symm.trans hla
          | cons l' more => exact ⟨more, last, (cons.inj heq).2, (forall_mem_cons.mp hm).2, hla, hle⟩
      | false =>
        refine iff_of_false ?_ ?_
        · rintro ⟨heq, hle⟩
          rw [replyOf, firstReply, hl] at heq
          refine hle ?_
          rw [eq_nil_of_taken (s := .ehlo) (cons.inj heq).2]
          rfl
        · rintro ⟨more, last, heq, hm, hla, -⟩
          cases more with
          | nil =>
            cases (cons.inj heq).1
            cases he.symm.trans hla
          | cons l' more =>
            rw [(cons.inj heq).1, (forall_mem_cons.mp hm).1] at hl
            cases hl

/-! ## All stages -/

/-- The digit that the reply of a stage must start with before message bytes
may be written. -/
def needs : Stage → Option Char
  | .mail | .rcpt _ => some '2'
  | .data => some '3'
  | _ => none

/-- Stage by stage, the lines read are the stage's own reply and have the digit
it needs. -/
def Walk : List Stage → List Text → Prop
  | [], _ => True
  | stage :: stages, lines =>
    (taken stage lines).1 = (replyOf lines).1 ∧
      (∀ d, needs stage = some d → Answered d (taken stage lines).1) ∧ Walk stages (taken stage lines).2

theorem walk_iff : ∀ (stages : List Stage) (lines : List Text),
    Walk stages lines ↔ stageReads stages lines = ownReplies stages lines ∧
      ∀ r ∈ stageReads stages lines, ∀ d, needs r.1 = some d → Answered d r.2
  | [], _ => ⟨fun _ => ⟨rfl, nofun⟩, fun _ => trivial⟩
  | stage :: stages, lines => by
    rw [Walk, stageReads, ownReplies, forall_mem_cons, walk_iff stages]
    constructor
    · rintro ⟨hm, hn, hr, hall⟩
      exact ⟨by rw [hm, hr, rest_eq_of_matched hm], hn, hall⟩
    · rintro ⟨hr, hn, hall⟩
      obtain ⟨hh, ht⟩ := cons.inj hr
      have hm := (mk.inj hh).2
      exact ⟨hm, hn, by rw [ht, rest_eq_of_matched hm], hall⟩

theorem stageReads_keys : ∀ (stages : List Stage) (lines : List Text), (stageReads stages lines).map fst = stages
  | [], _ => rfl
  | stage :: stages, _ => congrArg (stage :: ·) (stageReads_keys stages _)

theorem ownReplies_keys : ∀ (stages : List Stage) (lines : List Text), (ownReplies stages lines).map fst = stages
  | [], _ => rfl
  | stage :: stages, _ => congrArg (stage :: ·) (ownReplies_keys stages _)

theorem linesOf_of_not_mem (h : stage ∉ rs.map fst) : linesOf stage rs = [] := by
  rw [linesOf, flatMap_eq_nil_iff]
  intro r hr
  have hne : r.1 ≠ stage := fun heq => h (heq ▸ mem_map_of_mem hr)
  exact if_neg hne

theorem linesOf_of_mem (hn : (rs.map fst).Nodup) (hr : r ∈ rs) : linesOf r.1 rs = r.2 := by
  induction rs with
  | nil => cases hr
  | cons r' rs ih =>
    obtain ⟨hf, hn⟩ := nodup_cons.mp hn
    rw [linesOf, flatMap_cons]
    rcases mem_cons.mp hr with rfl | hr
    · rw [if_pos rfl]
      exact (congrArg (r.2 ++ ·) (linesOf_of_not_mem hf)).trans (append_nil _)
    · have hne : r'.1 ≠ r.1 := fun heq => hf (heq ▸ mem_map_of_mem hr)
      rw [if_neg hne]
      exact ih hn hr

theorem eq_iff_linesOf : ∀ {stages : List Stage} {rs rs' : List (Stage × List Text)},
    stages.Nodup → rs.map fst = stages → rs'.map fst = stages →
      ((∀ stage ∈ stages, linesOf stage rs = linesOf stage rs') ↔ rs = rs')
  | stages, rs, rs', hn, hk, hk' => by
    refine ⟨fun h => ?_, fun h _ _ => by rw [h]⟩
    have hlen : rs.length = rs'.length := by rw [← length_map fst, hk, ← hk', length_map]
    refine ext_getElem hlen fun i hi hi' => ?_
    have hfst : (rs[i]).1 = (rs'[i]).1 := by
      have hget := congrArg (·[i]?) (hk.trans hk'.symm)
      simpa [hi, hi'] using hget
    have hs : (rs[i]).1 ∈ stages := hk ▸ mem_map_of_mem (getElem_mem hi)
    have hsnd : (rs[i]).2 = (rs'[i]).2 := by
      rw [← linesOf_of_mem (hk ▸ hn) (getElem_mem hi), h _ hs, hfst, linesOf_of_mem (hk' ▸ hn) (getElem_mem hi')]
    exact ext hfst hsnd

/-! ## The walk over the script -/

section

variable {s : Stage} {stages : List Stage} {d : Char}

theorem taken_one (hs : s ≠ .ehlo) (lines : List Text) : taken s lines = (lines.take 1, lines.drop 1) := by
  cases s with
  | ehlo => exact absurd rfl hs
  | _ => rfl

theorem walk_cons_one (hs : s ≠ .ehlo) (l : Text) (ls : List Text) : Walk (s :: stages) (l :: ls) ↔
      continues l = false ∧ (∀ d, needs s = some d → l.head? = some d) ∧ Walk stages ls := by
  rw [Walk, one_matched_iff hs, taken_one hs]
  simp [Answered]

theorem walk_needed (hs : s ≠ .ehlo) (hn : needs s = some d) (lines : List Text) :
    Walk (s :: stages) lines ↔ ∃ l ls, lines = l :: ls ∧ SingleReply d l ∧ Walk stages ls := by
  cases lines with
  | nil =>
    refine iff_of_false (fun h => ?_) nofun
    rw [Walk, taken_one hs] at h
    exact (h.2.1 d hn).1 rfl
  | cons l ls =>
    rw [walk_cons_one hs, hn]
    constructor
    · rintro ⟨hl, hh, hw⟩
      exact ⟨l, ls, rfl, ⟨hl, hh d rfl⟩, hw⟩
    · rintro ⟨_, _, heq, ⟨hl, hh⟩, hw⟩
      cases heq
      refine ⟨hl, ?_, hw⟩
      rintro _ ⟨⟩
      exact hh

theorem walk_tail (lines : List Text) : Walk [.message, .quit] lines ↔ ∀ l ∈ lines.take 2, continues l = false := by
  rcases lines with _ | ⟨l, _ | ⟨l', ls⟩⟩
  · simp [Walk, taken, replyOf, firstReply, needs]
  · rw [walk_cons_one (s := .message) (by decide)]
    simp [Walk, taken, replyOf, firstReply, needs]
  · rw [walk_cons_one (s := .message) (by decide), walk_cons_one (s := .quit) (by decide)]
    simp [Walk, needs]

end

def rcptStages (i : Nat) (rcpts : List Text) : List Stage := (List.range' i rcpts.length).map .rcpt

theorem rcptTurns_stages : ∀ (i : Nat) (rcpts : List Text), (rcptTurns i rcpts).map fst = rcptStages i rcpts
  | _, [] => rfl
  | i, _ :: rcpts => congrArg (rcpt i :: ·) (rcptTurns_stages (i + 1) rcpts)

theorem script_stages (p : SmtpProxy) (f : Forward) : (p.script f).map fst =
      .banner :: .ehlo :: .mail :: (rcptStages 0 f.rcptTo ++ [.data, .message, .quit]) := by
  simp [script, rcptTurns_stages]

theorem script_stages_nodup (p : SmtpProxy) (f : Forward) : ((p.script f).map fst).Nodup := by
  have hr : (rcptStages 0 f.rcptTo).Nodup := Nodup.map (fun _ _ h => rcpt.inj h) nodup_range'
  have hk : ∀ s ∈ rcptStages 0 f.rcptTo, ∃ i, s = .rcpt i := by
    intro s hs
    obtain ⟨i, -, rfl⟩ := mem_map.mp hs
    exact ⟨i, rfl⟩
  rw [script_stages]
  refine nodup_cons.mpr ⟨?_, nodup_cons.mpr ⟨?_, nodup_cons.mpr ⟨?_, ?_⟩⟩⟩
  · simp [rcptStages]
  · simp [rcptStages]
  · simp [rcptStages]
  · refine nodup_append.mpr ⟨hr, by decide, ?_⟩
    rintro s hs s' hs' rfl
    obtain ⟨i, rfl⟩ := hk s hs
    simp at hs'

theorem walk_rcpts : ∀ (i : Nat) (rcpts lines : List Text),
    Walk (rcptStages i rcpts ++ [.data, .message, .quit]) lines ↔
      ∃ ls data tail, lines = ls ++ data :: tail ∧ ls.length = rcpts.length ∧
        (∀ l ∈ ls, SingleReply '2' l) ∧ SingleReply '3' data ∧ ∀ l ∈ tail.take 2, continues l = false
  | i, [], lines => by
    show Walk [.data, .message, .quit] lines ↔ _
    rw [walk_needed (s := .data) (by decide) rfl]
    constructor
    · rintro ⟨data, tail, rfl, hd, hw⟩
      exact ⟨[], data, tail, rfl, rfl, nofun, hd, (walk_tail tail).mp hw⟩
    · rintro ⟨ls, data, tail, rfl, hlen, -, hd, ht⟩
      rw [length_eq_zero_iff.mp hlen]
      exact ⟨data, tail, rfl, hd, (walk_tail tail).mpr ht⟩
  | i, _ :: rcpts, lines => by
    show Walk (.rcpt i :: (rcptStages (i + 1) rcpts ++ [.data, .message, .quit])) lines ↔ _
    rw [walk_needed (s := .rcpt i) (by simp) rfl]
    constructor
    · rintro ⟨l, rest, rfl, hl, hw⟩
      obtain ⟨ls, data, tail, rfl, hlen, hls, hd, ht⟩ := (walk_rcpts (i + 1) rcpts rest).mp hw
      exact ⟨l :: ls, data, tail, rfl, congrArg (· + 1) hlen, forall_mem_cons.mpr ⟨hl, hls⟩, hd, ht⟩
    · rintro ⟨ls, data, tail, rfl, hlen, hls, hd, ht⟩
      cases ls with
      | nil => cases hlen
      | cons l ls =>
        obtain ⟨hl, hls⟩ := forall_mem_cons.mp hls
        exact ⟨l, _, rfl, hl, (walk_rcpts (i + 1) rcpts _).mpr ⟨ls, data, tail, rfl, Nat.succ.inj hlen, hls, hd, ht⟩⟩

theorem walk_script_iff (p : SmtpProxy) (f : Forward) (hne : ∀ l ∈ lines, l ≠ []) :
    Walk ((p.script f).map fst) lines ↔ Favourable f.rcptTo.length lines := by
  rw [script_stages]
  have hmai : ∀ x, Walk (.mail :: (rcptStages 0 f.rcptTo ++ [.data, .message, .quit])) x ↔
      ∃ l ls, x = l :: ls ∧ SingleReply '2' l ∧ Walk (rcptStages 0 f.rcptTo ++ [.data, .message, .quit]) ls :=
    fun x => walk_needed (s := .mail) (by decide) rfl x
  cases lines with
  | nil =>
    refine iff_of_false ?_ ?_
    · rintro ⟨-, -, -, -, hw⟩
      obtain ⟨_, _, hnil, -⟩ := (hmai _).mp hw
      cases hnil
    · rintro ⟨_, _, _, _, _, _, _, hnil, -⟩
      cases hnil
  | cons banner lines =>
    have he := ehlo_matched_iff fun l h => hne l (mem_cons_of_mem _ h)
    rw [walk_cons_one (s := .banner) (by decide), Walk]
    constructor
    · rintro ⟨hb, -, hma, -, hw⟩
      obtain ⟨mail, rest, hre, hm, hw⟩ := (hmai _).mp hw
      obtain ⟨rcpts, data, tail, rfl, hlen, hr, hd, ht⟩ := (walk_rcpts 0 _ _).mp hw
      change (ehloLines lines).2 = _ at hre
      obtain ⟨more, last, hli, hmo, hl, -⟩ := he.mp ⟨hma, by rw [hre]; nofun⟩
      rw [hre] at hli
      exact ⟨banner, more, last, mail, rcpts, data, tail, congrArg (banner :: ·) hli, hb, hmo, hl, hm, hlen, hr, hd, ht⟩
    · rintro ⟨_, more, last, mail, rcpts, data, tail, heq, hb, hmo, hl, hm, hlen, hr, hd, ht⟩
      obtain ⟨rfl, rfl⟩ := cons.inj heq
      have hle := congrArg snd (ehloLines_reply (mail :: (rcpts ++ data :: tail)) hmo hl)
      have hma := he.mpr ⟨more, last, by rw [hle], hmo, hl, by rw [hle]; nofun⟩
      refine ⟨hb, nofun, hma.1, nofun, (hmai _).mpr ⟨mail, _, hle, hm, ?_⟩⟩
      exact (walk_rcpts 0 _ _).mpr ⟨rcpts, data, tail, rfl, hlen, hr, hd, ht⟩

/-! ## The walk and the events -/

theorem receivedAt_append (stage) (es es' : List BackendEvent) :
    receivedAt stage (es ++ es') = receivedAt stage es ++ receivedAt stage es' :=
  flatMap_append

theorem receivedAt_sent (stage s : Stage) (chunks : List Bytes) : receivedAt stage (chunks.map (.sent s)) = [] := by
  simp [receivedAt, flatMap_eq_nil_iff]

theorem receivedAt_received (stage s : Stage) (lines : List Text) :
    receivedAt stage (lines.map (.received s)) = if s = stage then lines else [] := by
  rw [receivedAt, flatMap_map]
  by_cases h : s = stage
  · simp only [if_pos h]
    exact flatMap_singleton' lines
  · simp only [if_neg h]
    exact flatMap_eq_nil_iff.mpr fun _ _ => rfl

theorem receivedAt_converse (stage) : ∀ (ts : List (Stage × List Bytes)) (lines : List Text),
    receivedAt stage (converse ts lines) = linesOf stage (stageReads (ts.map fst) lines)
  | [], _ => rfl
  | t :: ts, lines => by
    rw [converse, receivedAt_append, receivedAt_append, receivedAt_sent, receivedAt_received,
      receivedAt_converse stage ts]
    rfl

theorem converse_append : ∀ (ts us : List (Stage × List Bytes)) (lines : List Text),
    converse (ts ++ us) lines = converse ts lines ++ converse us (leftAfter ts lines)
  | [], _, _ => rfl
  | t :: ts, us, lines => by
    rw [cons_append, converse, converse, converse_append ts us]
    simp [leftAfter]

theorem stage_of_sent : ∀ {ts : List (Stage × List Bytes)} {lines : List Text},
      BackendEvent.sent stage chunk ∈ converse ts lines → stage ∈ ts.map fst
  | t :: ts, lines, h => by
    rw [converse, append_assoc, mem_append, mem_append] at h
    rcases h with h | h | h
    · obtain ⟨_, -, heq⟩ := mem_map.mp h
      cases heq
      exact mem_cons_self
    · obtain ⟨_, -, heq⟩ := mem_map.mp h
      cases heq
    · exact mem_cons_of_mem _ (stage_of_sent h)

def SmtpProxy.preamble (p : SmtpProxy) (f : Forward) : List (Stage × List Bytes) := (.banner, []) ::
  (.ehlo, [bytes (fmt ["EHLO ", p.hostname, "\r\n"])]) ::
  (.mail, [bytes (fmt ["MAIL FROM:<", f.mailFrom, ">\r\n"])]) ::
  (rcptTurns 0 f.rcptTo ++ [(.data, [bytes "DATA\r\n"])])

theorem script_eq (p : SmtpProxy) (f : Forward) : p.script f = p.preamble f ++
      [(.message, p.messageChunks f), (.quit, [bytes "QUIT\r\n"])] := by
  simp [script, preamble]

section

variable (p : SmtpProxy) (f : SmtpProxy.Forward) (lines : List Text)

theorem events_forward : (p.forwardToBackend (.answering lines) f).events = converse (p.script f) lines :=
  (turns_open (p.script f) (open_start lines)).2

theorem beforeMessage_forward :
    beforeMessage (p.forwardToBackend (.answering lines) f).events = converse (p.preamble f) lines := by
  rw [events_forward, script_eq, converse_append, beforeMessage, takeWhile_append_of_pos ?_]
  · obtain ⟨chunk, chunks, hc⟩ := exists_cons_of_ne_nil (show p.messageChunks f ≠ [] by simp [messageChunks])
    rw [converse, hc]
    simp
  · intro e he
    cases e with
    | received s l => rfl
    | sent s chunk =>
      have hs := stage_of_sent he
      cases s with
      | message => simp [preamble, rcptTurns_stages, rcptStages] at hs
      | _ => rfl

theorem receivedAt_beforeMessage (stage) (hm : stage ≠ .message) (hq : stage ≠ .quit) :
    receivedAt stage (beforeMessage (p.forwardToBackend (.answering lines) f).events) =
      receivedAt stage (p.forwardToBackend (.answering lines) f).events := by
  rw [beforeMessage_forward, events_forward, script_eq, converse_append, receivedAt_append,
    receivedAt_converse stage [_, _], linesOf_of_not_mem, append_nil]
  rw [stageReads_keys]
  simp [hm, hq]

theorem messageBytes_ne_nil : messageBytes (p.forwardToBackend (.answering lines) f).events ≠ [] := by
  rw [messageBytes_forward]
  simp [messageChunks, bytes, flatMap_cons]

theorem clientAnswer_forward : (p.forwardToBackend (.answering lines) f).clientAnswer =
        (leftAfter (p.preamble f) lines).head?.getD [] ∧
      receivedAt .message (p.forwardToBackend (.answering lines) f).events =
        (leftAfter (p.preamble f) lines).take 1 := by
  constructor
  · have ho := (turns_open (p.script f) (open_start lines)).1
    rw [clientAnswer, result, forwardToBackend, ho.failure, script_eq, foldl_append]
    obtain ⟨hpre, -⟩ := turns_open (p.preamble f) (open_start lines)
    generalize (p.preamble f).foldl turn _ = c at hpre ⊢
    generalize leftAfter (p.preamble f) lines = left at hpre ⊢
    obtain ⟨hm, -⟩ := turn_open hpre (.message, p.messageChunks f)
    have hq : ∀ {c : Conn} {ls : List Text}, c.Open ls → ∀ chunks, (c.turn (.quit, chunks)).resp = c.resp := by
      intro c ls hc chunks
      rw [turn, writes_open _ _ hc]
      obtain ⟨replies, budget, failure, events, bytes, resp⟩ := c
      obtain ⟨rfl, rfl, rfl⟩ := hc
      cases ls <;> rfl
    show (turn (turn c (.message, p.messageChunks f)) (.quit, [bytes "QUIT\r\n"])).resp = _
    rw [hq hm, turn, writes_open _ _ hpre]
    obtain ⟨replies, budget, failure, events, bytes, resp⟩ := c
    obtain ⟨rfl, rfl, rfl⟩ := hpre
    cases left <;> rfl
  · have hpre : message ∉ (p.preamble f).map fst := by
      simp [preamble, rcptTurns_stages, rcptStages]
    rw [events_forward, script_eq, converse_append, receivedAt_append, receivedAt_converse,
      linesOf_of_not_mem (by rw [stageReads_keys]; exact hpre), receivedAt_converse]
    simp [stageReads, linesOf, taken]

end

theorem rcpt_mem_script {p : SmtpProxy} : rcpt i ∈ (p.script f).map fst ↔ i < f.rcptTo.length := by
  rw [script_stages]
  simp [rcptStages, mem_range']

theorem needed_iff (p : SmtpProxy) (f : Forward) (lines : List Text) :
    (∀ r ∈ stageReads ((p.script f).map fst) lines, ∀ d, needs r.1 = some d → Answered d r.2) ↔
      Answered '2' (linesOf .mail (stageReads ((p.script f).map fst) lines)) ∧ (∀ i < f.rcptTo.length,
          Answered '2' (linesOf (.rcpt i) (stageReads ((p.script f).map fst) lines))) ∧
          Answered '3' (linesOf .data (stageReads ((p.script f).map fst) lines)) := by
  have hk := stageReads_keys ((p.script f).map fst) lines
  have hn : ((stageReads ((p.script f).map fst) lines).map fst).Nodup := hk.symm ▸ script_stages_nodup p f
  constructor
  · intro h
    have hs : ∀ stage ∈ (p.script f).map fst, ∀ d, needs stage = some d →
        Answered d (linesOf stage (stageReads ((p.script f).map fst) lines)) := by
      intro stage hmem d hd
      rw [← hk] at hmem
      obtain ⟨r, hr, rfl⟩ := mem_map.mp hmem
      rw [linesOf_of_mem hn hr]
      exact h r hr d hd
    refine ⟨hs .mail ?_ '2' rfl, fun i hi => hs (.rcpt i) (rcpt_mem_script.mpr hi) '2' rfl, hs .data ?_ '3' rfl⟩ <;>
    · rw [script_stages]
      simp
  · rintro ⟨hm, hrc, hda⟩ ⟨stage, ls⟩ hr d hd
    have hl := linesOf_of_mem hn hr
    cases stage with
    | mail =>
      cases hd
      exact hl ▸ hm
    | rcpt i =>
      cases hd
      have hmem : rcpt i ∈ (p.script f).map fst := hk ▸ mem_map_of_mem hr
      exact hl ▸ hrc i (rcpt_mem_script.mp hmem)
    | data =>
      cases hd
      exact hl ▸ hda
    | _ => cases hd

/-- **The call has reply fidelity with the favourable backends and no
others.** -/
theorem fidelity_iff (p : SmtpProxy) (f : SmtpProxy.Forward) (lines : List ReplyLine) :
    Fidelity p f (lines.map Subtype.val) ↔ Favourable f.rcptTo.length (lines.map Subtype.val) := by
  have hne : ∀ l ∈ lines.map Subtype.val, l ≠ [] := by
    intro l hl
    obtain ⟨⟨l, hl'⟩, -, rfl⟩ := mem_map.mp hl
    exact hl'
  generalize lines.map Subtype.val = lines at hne ⊢
  rw [← walk_script_iff p f hne, walk_iff, needed_iff]
  have hreceived : ∀ stage, receivedAt stage (p.forwardToBackend (.answering lines) f).events =
      linesOf stage (stageReads ((p.script f).map Prod.fst) lines) := fun stage => by
    rw [events_forward, receivedAt_converse]
  have hequal := eq_iff_linesOf (script_stages_nodup p f) (stageReads_keys _ lines) (ownReplies_keys _ lines)
  rw [← hequal]
  simp only [← hreceived]
  constructor
  · rintro ⟨hmatched, hcleared, -⟩
    obtain ⟨hmail, hrcpt, hdata⟩ := hcleared (messageBytes_ne_nil p f lines)
    rw [receivedAt_beforeMessage p f lines .mail (by decide) (by decide)] at hmail
    rw [receivedAt_beforeMessage p f lines .data (by decide) (by decide)] at hdata
    refine ⟨hmatched, hmail, fun i hi => ?_, hdata⟩
    rw [← receivedAt_beforeMessage p f lines (.rcpt i) (by simp) (by simp)]
    exact hrcpt i hi
  · rintro ⟨hmatched, hmail, hrcpt, hdata⟩
    refine ⟨hmatched, fun _ => ⟨?_, fun i hi => ?_, ?_⟩, fun hanswer => ⟨?_, hrcpt⟩⟩
    · rwa [receivedAt_beforeMessage p f lines .mail (by decide) (by decide)]
    · rw [receivedAt_beforeMessage p f lines (.rcpt i) (by simp) (by simp)]
      exact hrcpt i hi
    · rwa [receivedAt_beforeMessage p f lines .data (by decide) (by decide)]
    · obtain ⟨hclient, hmessage⟩ := clientAnswer_forward p f lines
      rw [hclient] at hanswer
      rw [hmessage]
      cases hleft : leftAfter (p.preamble f) lines with
      | nil => rw [hleft] at hanswer; cases hanswer
      | cons l ls =>
        rw [hleft] at hanswer
        refine ⟨nofun, fun l' hl' => ?_⟩
        rwa [mem_singleton.mp hl']

example : Favourable 1 ["220 b\r\n", "250-b\r\n", "250 SIZE 9\r\n", "250 Ok\r\n", "250 Ok\r\n",
    "354 Go\r\n", "550 no\r\n"] :=
  ⟨_, ["250-b\r\n"], _, _, ["250 Ok\r\n"], _, _, rfl, by decide, by decide, by decide,
    ⟨by decide, by decide⟩, rfl, by simp only [forall_mem_singleton]; exact ⟨by decide, by decide⟩,
    ⟨by decide, by decide⟩, by decide⟩

/-- A backend that refuses the sender and the recipient, and so never asks for
the message, is sent it all the same. -/
theorem fidelity_refused : ¬ Fidelity (.withLists {} {})
      { messageData := [], mailFrom := "a@example.com", rcptTo := ["user@example.org"]
        report := Session.bypassReport, clientIp := .v4 192 0 2 1, date := [] }
      ["220 b\r\n", "250 b\r\n", "550 no\r\n", "550 no\r\n", "503 no\r\n", "250 Ok\r\n", "221 Bye\r\n"] := by
  rintro ⟨-, hcleared, -⟩
  obtain ⟨⟨-, hmail⟩, -⟩ := hcleared (by decide +kernel)
  exact absurd (hmail "550 no\r\n" (by decide +kernel)) (by decide)

end ServerWall.Proxy
