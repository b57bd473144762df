import ServerWall.Lib.Wire
import ServerWall.Proxy.Conversation
import ServerWall.Proxy.History

/-!
# Message transparency

The session takes one dot from a line that starts with two, and `forward_to_backend` writes the result with
an empty line and the terminator after it, so a line of two dots is written as the terminator
(`message_not_transparent`). Otherwise the text arrives up to the empty line exactly when no line starts
with two dots (`received_iff`).
-/

namespace ServerWall.Proxy

open Antispam Smtp List Wire Text Session SmtpProxy

/-! ## Client lines -/

/-- A line of the message as `read_line` returns it: it ends with a line feed
and is not one of the two that end the message. -/
structure ClientLine where
  body : Text
  crlf : Bool
  noNewline : '\n' ∉ body
  bare : crlf = false → body.getLast? ≠ some '\r'
  goesOn : body ≠ ['.']

namespace ClientLine

def ending (l : ClientLine) : Text := if l.crlf then "\r\n" else "\n"

def text (l : ClientLine) : Text := l.body ++ l.ending

def kept (l : ClientLine) : Text := if (".." : Text) <+: l.body then l.body.drop 1 else l.body

/-- The line as a receiver takes it: without the leading dot, if it has one. -/
def plain (l : ClientLine) : Bytes := Wire.stripDot (Text.bytes l.body) ++ Text.bytes l.ending

theorem endsMessage_snoc (x : Text) : endsMessage (x ++ ['\n']) ↔ x = ['.', '\r'] ∨ x = ['.'] := by
  rw [endsMessage, Bool.or_eq_true_iff, decide_eq_true_iff, decide_eq_true_iff]
  exact or_congr (@append_left_inj _ x ['.', '\r'] ['\n']) (@append_left_inj _ x ['.'] ['\n'])

theorem of_read (hl : '\n' ∉ x) (hg : endsMessage (x ++ ['\n']) = false) :
    ∃ l : ClientLine, l.text = x ++ ['\n'] := by
  have hend : ¬ (x = ['.', '\r'] ∨ x = ['.']) := by
    rw [← endsMessage_snoc, hg]
    exact nofun
  by_cases hcr : x.getLast? = some '\r'
  · obtain ⟨y, rfl⟩ := getLast?_eq_some_iff.mp hcr
    refine ⟨⟨y, true, fun h => hl (mem_append_left _ h), nofun, ?_⟩, ?_⟩
    · rintro rfl
      exact hend (.inl rfl)
    · show y ++ ['\r', '\n'] = _
      simp
  · exact ⟨⟨x, false, hl, fun _ => hcr, fun h => hend (.inr h)⟩, rfl⟩

theorem text_goesOn (l : ClientLine) : l.text ≠ [] ∧ endsMessage l.text = false := by
  obtain ⟨body, crlf, hl, hb, hg⟩ := l
  cases crlf with
  | true =>
    have ht : (⟨body, true, hl, hb, hg⟩ : ClientLine).text = (body ++ ['\r']) ++ ['\n'] := by simp [text, ending]
    rw [ht, ← Bool.not_eq_true, endsMessage_snoc]
    refine ⟨by simp, ?_⟩
    rintro (h | h)
    · exact hg ((@append_left_inj _ body ['.'] ['\r']).mp h)
    · have hla := congrArg List.getLast? h
      rw [getLast?_concat] at hla
      cases hla
  | false =>
    have ht : (⟨body, false, hl, hb, hg⟩ : ClientLine).text = body ++ ['\n'] := rfl
    rw [ht, ← Bool.not_eq_true, endsMessage_snoc]
    refine ⟨by simp, ?_⟩
    rintro (rfl | h)
    · exact hb rfl rfl
    · exact hg h

/-! ### What is kept of a line -/

theorem dots_prefix_append (body : Text) (hr : rest.head? ≠ some '.') :
    (".." : Text) <+: body ++ rest ↔ (".." : Text) <+: body := by
  refine ⟨fun h => ?_, fun h => h.trans (prefix_append _ _)⟩
  rcases body with _ | ⟨a, _ | ⟨b, body⟩⟩
  · obtain ⟨tail, rfl⟩ := h
    exact absurd rfl hr
  · obtain ⟨-, tail, ht⟩ := cons_prefix_cons.mp h
    exact absurd (congrArg List.head? ht.symm) hr
  · obtain ⟨rfl, hsnd⟩ := cons_prefix_cons.mp h
    obtain ⟨rfl, -⟩ := cons_prefix_cons.mp hsnd
    exact ⟨body, rfl⟩

variable (l : ClientLine)
include l

theorem unstuff_text : unstuff l.text = bytes l.kept ++ bytes l.ending := by
  have hd : (".." : Text) <+: l.text ↔ (".." : Text) <+: l.body := by
    refine dots_prefix_append l.body ?_
    unfold ending
    split <;> decide
  by_cases h : (".." : Text) <+: l.body
  · rw [unstuff, if_pos (hd.mpr h), kept, if_pos h, ← bytes_append, text,
      drop_append_of_le_length (le_trans (by decide) h.length_le)]
  · rw [unstuff, if_neg (hd.not.mpr h), kept, if_neg h, ← bytes_append, text]

theorem lf_not_mem_kept : (10 : UInt8) ∉ bytes l.kept := by
  refine (ascii_mem_bytes (a := '\n') (by decide)).not.mpr fun h => l.noNewline ?_
  unfold kept at h
  split at h
  · exact mem_of_mem_drop h
  · exact h

theorem kept_bare (hc : l.crlf = false) : (bytes l.kept).getLast? ≠ some 13 := by
  refine getLast_bytes_ascii (a := '\r') (by decide) ?_
  have hb := l.bare hc
  unfold kept
  split
  · next h =>
    obtain ⟨rest, hr⟩ := h
    rw [← hr] at hb ⊢
    exact hb
  · exact hb

theorem kept_dot_iff : bytes l.kept = [46] ↔ l.body = ['.', '.'] := by
  refine (bytes_eq_singleton (a := '.') (by decide)).trans ?_
  unfold kept
  split
  · next h =>
    obtain ⟨rest, hr⟩ := h
    rw [← hr]
    simp
  · next h =>
    refine ⟨fun hdot => absurd hdot l.goesOn, fun hd => absurd ?_ h⟩
    rw [hd]
    exact prefix_refl _

end ClientLine

open ClientLine (ending plain)

/-! ## The reading loop -/

def readData (lines : List ClientLine) : Bytes := lines.flatMap fun l => Session.unstuff l.text

/-! ### What is forwarded -/

def forwards (trace : List Event) : List Forward := trace.filterMap fun
    | .forwarded _ f _ => some f
    | _ => none

def passedReport (p : SmtpProxy) (env : Env) (s : Session) (preScore : SpamScore)
    (preContribs : List ScoreContribution) : Option SpamReport :=
  match p.pipeline.runPostData p.unicode s.moment
    { envelope := s.envelope p env, rawMessage := s.dataBuffer } preScore preContribs {} with
  | .ok report => if report.verdict = .spam then none else some report
  | .error _ => none

def acceptedReport (p : SmtpProxy) (env : Env) (s : Session) : Option SpamReport :=
  match p.pipeline.runPreData s.moment (s.envelope p env) with
  | (.reject _ _, _, _) => none
  | (.tempFail _, _, _) => none
  | (_, preScore, preContribs) =>
    if s.allowed then some Session.bypassReport else passedReport p env s preScore preContribs

section

variable {p : SmtpProxy} {env : Env} (s : Session)

theorem forwards_reply (resp : Text) : forwards (s.reply env .endOfData resp).trace = forwards s.trace := by
  unfold reply
  split
  · rw [forwards, filterMap_append]
    exact append_nil _
  · rfl

theorem forwards_forward (report) (bypass : Bool) :
    forwards (s.forward p env report bypass).trace = forwards s.trace ++ [s.forwardArgs env report] := by
  unfold forward
  rw [forwards_reply, forwards, filterMap_append]
  rfl

theorem forwards_postData (preScore : SpamScore) (preContribs : List ScoreContribution) :
    forwards (s.postData p env preScore preContribs).trace = forwards s.trace ++
        ((passedReport p env s preScore preContribs).map (s.forwardArgs env)).toList := by
  unfold postData passedReport
  dsimp only
  generalize p.pipeline.runPostData p.unicode s.moment
    { envelope := s.envelope p env, rawMessage := s.dataBuffer } preScore preContribs {} = result
  cases result with
  | ok report =>
    dsimp only
    cases report.verdict with
    | spam => exact (forwards_reply s _).trans (append_nil _).symm
    | suspect | clean => exact forwards_forward s report false
  | error decision =>
    cases decision with
    | reject code reason | tempFail reason => exact (forwards_reply s _).trans (append_nil _).symm
    | _ => exact (append_nil _).symm

/-- **What was read is forwarded if it is accepted**, and nothing else is. -/
theorem forwards_endOfData : forwards (s.endOfData p env).trace =
      forwards s.trace ++ ((acceptedReport p env s).map (s.forwardArgs env)).toList := by
  have hr : ∀ preScore preContribs,
      forwards (if s.allowed then (s.forward p env bypassReport true).clearTransaction
        else { (s.postData p env preScore preContribs).clearTransaction with allowed := false }).trace =
      forwards s.trace ++ ((if s.allowed then some bypassReport
        else passedReport p env s preScore preContribs).map (s.forwardArgs env)).toList := by
    intro preScore preContribs
    split
    · exact forwards_forward s bypassReport true
    · exact forwards_postData s preScore preContribs
  unfold endOfData acceptedReport
  generalize p.pipeline.runPreData s.moment (s.envelope p env) = pre
  obtain ⟨decision, preScore, preContribs⟩ := pre
  cases decision with
  | reject code reason | tempFail reason => exact (forwards_reply s _).trans (append_nil _).symm
  | _ => exact hr preScore preContribs

end

section

variable {p : SmtpProxy} {env : Env} {s : Session}

theorem step_line (hrun : s.status = .running) (hs : s.state = .data)
    (hne : text ≠ []) (hg : endsMessage text = false) :
    s.step p env (.ok text) = { s with
        moment := s.moment + 1
        bytesFromClient := s.bytesFromClient + len text
        dataBuffer := s.dataBuffer ++ unstuff text } := by
  simp [step, dataLine, hrun, hs, hne, hg]

theorem run_lines (lines : List ClientLine) (hrun : s.status = .running) (hs : s.state = .data) :
    let s' := s.run p env (lines.map fun l => .ok l.text)
    s'.status = .running ∧ s'.state = .data ∧ s'.trace = s.trace ∧ s'.dataBuffer = s.dataBuffer ++ readData lines := by
  induction lines generalizing s with
  | nil => exact ⟨hrun, hs, rfl, by simp [readData, run]⟩
  | cons l lines ih =>
    obtain ⟨hne, hg⟩ := l.text_goesOn
    have hst : s.step p env (.ok l.text) = _ := step_line hrun hs hne hg
    obtain ⟨hrun', hs', ht, hb⟩ := @ih (s.step p env (.ok l.text)) (by rw [hst]; exact hrun) (by rw [hst]; exact hs)
    refine ⟨hrun', hs', ht.trans (by rw [hst]), hb.trans ?_⟩
    rw [hst]
    simp [readData]

end

def headerBlock (p : SmtpProxy) (f : Forward) : Bytes :=
  (p.injectedHeaders f.report f.clientIp f.date).flatMap fun h => Text.bytes (headerLine h)

/-- The bytes written after the reply to `DATA`, when the session read these
lines. -/
def sentMessage (p : SmtpProxy) (f : Forward) (lines : List ClientLine) (answers : List Text) : Bytes :=
  messageBytes (p.forwardToBackend (.answering answers) { f with messageData := readData lines }).events

/-- The receiver takes the header lines and the client's lines, each without
its leading dot, for the message, and nothing is left over. -/
def Transparent (p : SmtpProxy) (f : Forward) (lines : List ClientLine) (answers : List Text) : Prop :=
  ∃ text, Wire.receive (sentMessage p f lines answers) = some (text, []) ∧
    Wire.joinLines text = headerBlock p f ++ lines.flatMap ClientLine.plain

/-- Is there a line of two dots and CR LF, at a place where a receiver starts a
line? The flag says whether the first line is at such a place. -/
def bareDot : Bool → List ClientLine → Bool
  | _, [] => false
  | atStart, l :: lines => (atStart && l.crlf && l.body == ['.', '.']) || bareDot l.crlf lines

theorem sentMessage_eq (p : SmtpProxy) (f : Forward) (lines : List ClientLine) (answers : List Text) :
    sentMessage p f lines answers = (headerBlock p f ++ readData lines) ++ [13, 10, 46, 13, 10] := by
  have hend : bytes "\r\n.\r\n" = [13, 10, 46, 13, 10] := by decide
  rw [sentMessage, messageBytes_forward, messageChunks, hend, headerBlock, flatten_append, ← flatMap_def]
  simp

theorem readData_cons (l : ClientLine) (lines : List ClientLine) :
    readData (l :: lines) = bytes l.kept ++ (bytes l.ending ++ readData lines) := by
  rw [readData, flatMap_cons, l.unstuff_text, append_assoc]
  rfl

theorem dot_mem_readData : ∀ (lines : List ClientLine) {x : Bytes}, x = [] ∨ 10 ∈ x →
    ([46] ∈ (glue x (splitLines (readData lines))).1 ++ [(glue x (splitLines (readData lines))).2] ↔
      bareDot x.isEmpty lines)
  | [], x, hx => by
    have hne : [46] ≠ x := by
      rintro rfl
      exact absurd hx (by decide)
    simp [readData, splitLines, glue, bareDot, hne]
  | l :: lines, x, hx => by
    rw [readData_cons, bareDot]
    cases hc : l.crlf with
    | true =>
      have hend : bytes l.ending = [13, 10] := by
        rw [ending, if_pos hc]
        decide
      have hf : [46] = x ++ bytes l.kept ↔ x = [] ∧ l.body = ['.', '.'] := by
        rw [← l.kept_dot_iff]
        constructor
        · intro h
          rcases hx with rfl | hlf
          · exact ⟨rfl, h.symm⟩
          · exact absurd (h ▸ mem_append_left _ hlf : (10 : UInt8) ∈ [46]) (by decide)
        · intro h
          rw [h.1, h.2]
          rfl
      have ih := dot_mem_readData lines (.inl rfl)
      rw [glue_nil] at ih
      rw [hend, cons_append, cons_append, nil_append, splitLines_crlf, splitLines_of_noLf l.lf_not_mem_kept]
      show [46] ∈ (x ++ bytes l.kept) :: ((splitLines (readData lines)).1 ++ [(splitLines (readData lines)).2]) ↔ _
      rw [mem_cons, hf, ih]
      simp
    | false =>
      -- the line feed ends nothing here: the line goes on
      have hend : bytes l.ending = [10] := by
        rw [ending, hc]
        decide
      have ih := dot_mem_readData lines (x := x ++ (bytes l.kept ++ [10])) (.inr (by simp))
      have ho : (x ++ (bytes l.kept ++ [10])).isEmpty = false := isEmpty_eq_false_iff.mpr (by simp)
      rw [hend, cons_append, nil_append, splitLines_lf l.lf_not_mem_kept (l.kept_bare hc), glue_glue, ih, ho]
      simp

theorem textLines_headerBlock (p : SmtpProxy) (f : Forward) (y : Bytes) :
    textLines (headerBlock p f ++ y) = (p.injectedHeaders f.report f.clientIp f.date).flatMap
          (fun h => textLines (bytes (fmt [h.1, ": ", h.2]))) ++ textLines y := by
  unfold headerBlock
  induction p.injectedHeaders f.report f.clientIp f.date with
  | nil => rfl
  | cons h hs ih =>
    have hl : bytes (headerLine h) = bytes (fmt [h.1, ": ", h.2]) ++ [13, 10] := by
      have hend : bytes "\r\n" = [13, 10] := by decide
      rw [← hend, ← bytes_append]
      simp [headerLine, fmt]
    rw [flatMap_cons, flatMap_cons, hl, append_assoc, append_assoc,
      cons_append, cons_append, nil_append, textLines_crlf, ih, append_assoc]

theorem count_readData (lines : List ClientLine) :
    (readData lines).count 10 = (lines.flatMap plain).count 10 := by
  induction lines with
  | nil => rfl
  | cons l lines ih =>
    have hb : (bytes l.body).count 10 = 0 :=
      count_eq_zero.mpr ((ascii_mem_bytes (a := '\n') (by decide)).not.mpr l.noNewline)
    rw [readData_cons, flatMap_cons, plain]
    simp only [count_append, count_stripDot, hb, count_eq_zero.mpr l.lf_not_mem_kept, ih]
    omega

/-- **No message arrives as it was sent**, and where it ends. -/
theorem message_not_transparent (p : SmtpProxy) (f : SmtpProxy.Forward)
    (lines : List ClientLine) (answers : List Text) :
    ¬ Transparent p f lines answers ∧ ((∃ text, Wire.receive (sentMessage p f lines answers) = some (text, [])) ↔
        (∀ h ∈ p.injectedHeaders f.report f.clientIp f.date,
            [46] ∉ Wire.textLines (Text.bytes (Text.fmt [h.1, ": ", h.2]))) ∧ bareDot true lines = false) := by
  rw [Transparent, sentMessage_eq]
  simp only [receive_terminated]
  constructor
  · rintro ⟨text, ⟨-, rfl⟩, htext⟩
    have hcount := congrArg (List.count 10) htext
    rw [count_join_stripDot, join_textLines] at hcount
    simp only [count_append, count_readData] at hcount
    have hcrlf : ([13, 10] : Bytes).count 10 = 1 := by decide
    omega
  · have hdata := dot_mem_readData lines (.inl rfl)
    rw [glue_nil] at hdata
    change ([46] ∈ textLines (readData lines) ↔ bareDot true lines = true) at hdata
    rw [exists_and_left, and_iff_left ⟨_, rfl⟩, textLines_headerBlock, mem_append, not_or,
      hdata, Bool.not_eq_true, mem_flatMap]
    simp only [not_exists, not_and]

/-- A client line of two dots ends the message, and the backend reads the rest
of the client's text as commands. -/
theorem message_cut_by_dots :
    let p : SmtpProxy := .withLists {} {}
    let f : Forward :=
      { messageData := []
        mailFrom := "a@example.com"
        rcptTo := ["user@example.org"]
        report := bypassReport
        clientIp := .v4 192 0 2 1
        date := [] }
    let lines : List ClientLine :=
      [⟨"hello", true, by decide, nofun, by decide⟩, ⟨"..", true, by decide, nofun, by decide⟩,
        ⟨"MAIL FROM:<b@example.net>", true, by decide, nofun, by decide⟩]
    (receive (sentMessage p f lines [])).map Prod.snd =
        some (bytes "MAIL FROM:<b@example.net>\r\n\r\n.\r\n") ∧
      ¬ Transparent p f lines [] := by
  intro p f lines
  have hrest : (receive (sentMessage p f lines [])).map Prod.snd =
      some (bytes "MAIL FROM:<b@example.net>\r\n\r\n.\r\n") := by
    decide +kernel
  refine ⟨hrest, ?_⟩
  rintro ⟨text, htext, -⟩
  rw [htext] at hrest
  have hnil : [] = bytes "MAIL FROM:<b@example.net>\r\n\r\n.\r\n" := Option.some.inj hrest
  exact absurd hnil (by decide)

/-! ## Up to the empty line -/

theorem textLines_readData : ∀ {lines : List ClientLine}, (∀ l ∈ lines, l.crlf) →
    textLines (readData lines) = lines.map (fun l => bytes l.kept) ++ [[]]
  | [], _ => rfl
  | l :: lines, hc => by
    have hend : bytes l.ending = [13, 10] := by
      rw [ending, if_pos (hc l mem_cons_self)]
      decide
    rw [readData_cons, hend, cons_append, cons_append, nil_append, textLines_crlf,
      textLines_readData fun l' h => hc l' (mem_cons_of_mem _ h), textLines, splitLines_of_noLf l.lf_not_mem_kept]
    rfl

theorem plain_eq_join {lines : List ClientLine} (hc : ∀ l ∈ lines, l.crlf) : lines.flatMap plain =
      joinLines (lines.map fun l => stripDot (bytes l.body)) := by
  rw [joinLines, flatMap_map]
  refine flatMap_congr fun l hl => ?_
  rw [plain, ending, if_pos (hc l hl)]
  rfl

theorem join_headerLines (p : SmtpProxy) (f : Forward) :
    joinLines ((p.injectedHeaders f.report f.clientIp f.date).flatMap fun h => textLines (bytes (fmt [h.1, ": ", h.2]))) = headerBlock p f := by
  have hj := join_textLines (headerBlock p f ++ [])
  rw [textLines_headerBlock, joinLines_append, append_nil] at hj
  exact append_cancel_right hj

theorem ClientLine.stripDot_kept_iff (l : ClientLine) :
    stripDot (bytes l.kept) = stripDot (bytes l.body) ↔ ¬ (".." : Text) <+: l.body := by
  by_cases h : (".." : Text) <+: l.body
  · refine iff_of_false (fun heq => ?_) (not_not.mpr h)
    rw [kept, if_pos h] at heq
    obtain ⟨rest, hr⟩ := h
    rw [← hr] at heq
    change bytes rest = 46 :: bytes rest at heq
    exact absurd (congrArg List.length heq) (by simp)
  · rw [kept, if_neg h]
    exact iff_of_true rfl h

/-- **Up to the empty line after it, the text arrives exactly when no line
starts with two dots**, for clients that end every line with CR LF and headers
without a line that starts with a dot. -/
theorem received_iff (p : SmtpProxy) (f : Forward) {lines : List ClientLine}
    (answers : List Text) (hc : ∀ l ∈ lines, l.crlf) (hhe : ∀ h ∈ p.injectedHeaders f.report f.clientIp f.date,
      ∀ x ∈ textLines (bytes (fmt [h.1, ": ", h.2])), x.head? ≠ some 46) :
    (∃ text, receive (sentMessage p f lines answers) = some (text, []) ∧
        joinLines text = headerBlock p f ++ lines.flatMap plain ++ [13, 10]) ↔
      ∀ l ∈ lines, ¬ (".." : Text) <+: l.body := by
  rw [sentMessage_eq]
  simp only [receive_terminated, textLines_headerBlock, textLines_readData hc]
  rw [plain_eq_join hc, ← join_headerLines]
  generalize hH : (p.injectedHeaders f.report f.clientIp f.date).flatMap _ = headers
  have hd : ∀ x ∈ headers, x.head? ≠ some 46 := by
    rw [← hH]
    intro x hx
    obtain ⟨h, hh, hx⟩ := mem_flatMap.mp hx
    exact hhe h hh x hx
  have hs : headers.map stripDot = headers :=
    (map_congr_left fun x hx => stripDot_of_head (hd x hx)).trans (map_id _)
  have hsa : joinLines (lines.map fun l => stripDot (bytes l.kept)) =
        joinLines (lines.map fun l => stripDot (bytes l.body)) ↔
      ∀ l ∈ lines, ¬ (".." : Text) <+: l.body := by
    refine Iff.trans ⟨fun h => ?_, fun h => ?_⟩ (forall₂_congr fun l _ => l.stripDot_kept_iff)
    · refine map_inj_left.mp (joinLines_inj ?_ ?_ h)
      · simp only [forall_mem_map]
        exact fun l _ hmem => l.lf_not_mem_kept (mem_of_mem_stripDot hmem)
      · simp only [forall_mem_map]
        exact fun l _ hmem => (ascii_mem_bytes (a := '\n') (by decide)).not.mpr l.noNewline
          (mem_of_mem_stripDot hmem)
    · exact congrArg joinLines (map_congr_left h)
  rw [← hsa]
  constructor
  · rintro ⟨text, ⟨-, rfl⟩, ht⟩
    simp only [map_append, joinLines_append, map_map, hs, append_assoc, append_cancel_left_eq] at ht
    exact append_cancel_right ht
  · intro hj
    refine ⟨_, ⟨?_, rfl⟩, ?_⟩
    · simp only [mem_append, mem_map, mem_singleton, not_or]
      refine ⟨fun hmem => hd _ hmem rfl, ?_, by decide⟩
      rintro ⟨l, hl, hdot⟩
      refine hsa.mp hj l hl ?_
      rw [l.kept_dot_iff.mp hdot]
      exact prefix_refl _
    · simp only [map_append, joinLines_append, map_map, hs, append_assoc]
      rw [← hj]
      rfl

theorem received_hello :
    let p : SmtpProxy := .withLists {} {}
    let f : Forward := ⟨[], [], [], bypassReport, .v4 192 0 2 1, []⟩
    let lines : List ClientLine := [⟨"hello", true, by decide, by decide, by decide⟩]
    ∃ text, receive (sentMessage p f lines []) = some (text, []) ∧
      joinLines text = headerBlock p f ++ lines.flatMap plain ++ [13, 10] :=
  (received_iff _ _ [] (forall_mem_singleton.mpr rfl) (by decide +kernel)).mpr (by decide)

end ServerWall.Proxy
