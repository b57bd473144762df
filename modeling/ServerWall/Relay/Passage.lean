import ServerWall.Relay.Receiver

/-!
# The way of a message through the relay

The session takes the stuffing off, the spool keeps what it is given, and the sender puts the stuffing on
again, and takes the empty piece after the last line end for a line (`transparent_iff_refused`). A line
that is not UTF-8 ends the session.
-/

namespace ServerWall.Relay

open Smtp List Wire Text SmtpReceiver

/-! ## The property -/

/-- The text a client sends, by its lines before they are stuffed. -/
structure DataStream where
  lines : List Bytes
  noLf : ∀ l ∈ lines, (10 : UInt8) ∉ l

/-- What the client sends: the lines, stuffed, and the closing dot. -/
def DataStream.octets (d : DataStream) : Bytes := Wire.closed (d.lines.map Wire.stuffDot)

def SessionEvent.submission : SessionEvent → Option (Envelope × Bytes)
  | .enqueued envelope message => some (envelope, message)
  | _ => none

def submitted (s s' : Session) : Option (Envelope × Bytes) :=
  (s'.trace.drop s.trace.length).findSome? SessionEvent.submission

/-- What the sender writes of a message that the spool gives back to it, to a host
that sends these replies. -/
def sentOctets (envelope : Envelope) (message : Bytes) (replies : List LineRead) : Bytes :=
  octetsOf .message (record ((smtpConversation envelope.mailFrom envelope.rcptTo
    (Content.text message).octets).run ⟨replies, none, []⟩))

/-- The host with these replies agrees to take the text. -/
def takesData (envelope : Envelope) (replies : List LineRead) : Bool :=
  completed ((openMessage envelope.mailFrom envelope.rcptTo).run ⟨replies, none, []⟩)

/-- The session reads the stream to its closing dot, and what it submits then is
sent as it came to every host that agrees to take it. -/
def Transparent (r : SmtpReceiver) (env : Surroundings) (s : Session) (d : DataStream) : Prop :=
  let s' := r.run env s (readsOf d.octets)
  s'.receiving = none ∧ ∀ envelope message, submitted s s' = some (envelope, message) →
    ∀ replies, takesData envelope replies = true → sentOctets envelope message replies = d.octets

def verdict (r : SmtpReceiver) (env : Surroundings) (s : Session) (envelope : Envelope)
    (d : DataStream) : Except Text Unit :=
  let moment := s.moment + d.lines.length + 1
  r.policy.check r.unicode r.decoder (env.counters moment) (env.clock moment)
    (Text.lastPiece '@' envelope.mailFrom) envelope.rcptTo.length (Wire.joinLines d.lines)

/-! ## The lines of the client -/

theorem dropCrlf_of_noLf (h : '\n' ∉ x) : dropCrlf x = x := by
  cases x with
  | nil => rfl
  | cons c x =>
    have hc : c ≠ '\n' := fun hc => h (hc ▸ mem_cons_self)
    unfold dropCrlf
    split
    · rename_i heq
      exact absurd (List.cons.inj heq).1 hc
    · rfl

theorem trimEndMatches_of_not_mem (h : c ∉ x) : trimEndMatches c x = x := by
  rw [trimEndMatches, rdropWhile_eq_self_iff]
  intro hne hl
  rw [beq_iff_eq] at hl
  exact h (hl ▸ getLast_mem hne)

theorem endsMessage_crlf (h : '\n' ∉ x) : endsMessage (x ++ ['\r', '\n']) ↔ x = ['.'] := by
  have hrev : '\n' ∉ x.reverse := fun hmem => h (mem_reverse.mp hmem)
  have hd : dropCrlf (x ++ ['\r', '\n']).reverse = x.reverse := by
    rw [reverse_append]
    exact dropCrlf_of_noLf hrev
  rw [endsMessage, hd, reverse_reverse, trimEndMatches_of_not_mem h, decide_eq_true_iff]

theorem line_of_octets (hlf : (10 : UInt8) ∉ l) (h : bytes t = stuffDot l ++ [13, 10]) :
    ∃ x, t = x ++ ['\r', '\n'] ∧ bytes x = stuffDot l ∧ '\n' ∉ x := by
  obtain ⟨y, rfl, hy⟩ := bytes_eq_concat_ascii (a := '\n') (b := stuffDot l ++ [13])
    (by decide) (by rw [h, append_assoc]; rfl)
  obtain ⟨x, rfl, hx⟩ := bytes_eq_concat_ascii (a := '\r') (by decide) hy
  refine ⟨x, by simp, hx, fun hmem => hlf ?_⟩
  rw [← lf_mem_stuffDot, ← hx]
  exact (ascii_mem_bytes (a := '\n') (by decide)).mpr hmem

theorem unstuff_line (h : bytes t = stuffDot l ++ [13, 10]) : unstuff t = l ++ [13, 10] := by
  by_cases hdot : l.head? = some 46
  · -- the line was stuffed: it starts with two dots
    obtain ⟨l', rfl⟩ := head?_eq_some_iff.mp hdot
    rw [stuffDot, if_pos hdot] at h
    obtain ⟨y, rfl, hy⟩ := bytes_eq_cons_ascii (a := '.') (by decide) h
    obtain ⟨x, rfl, -⟩ := bytes_eq_cons_ascii (a := '.') (by decide) hy
    have hd : (".." : Text) <+: '.' :: '.' :: x := ⟨x, rfl⟩
    rwa [unstuff, if_pos hd]
  · rw [stuffDot, if_neg hdot] at h
    have hd : ¬ (".." : Text) <+: t := by
      rintro ⟨x, rfl⟩
      rw [bytes_append] at h
      cases l with
      | nil => cases h
      | cons b l =>
        have hb : (46 : UInt8) = b := (List.cons.inj h).1
        exact hdot (by rw [← hb]; rfl)
    rw [unstuff, if_neg hd, h]

theorem isSome_ofBytes_line (hlf : (10 : UInt8) ∉ l) :
    (ofBytes (stuffDot l ++ [13, 10])).isSome = (ofBytes l).isSome := by
  rw [Bool.eq_iff_iff, Option.isSome_iff_exists, Option.isSome_iff_exists]
  constructor
  · rintro ⟨t, ht⟩
    obtain ⟨x, -, hx, -⟩ := line_of_octets hlf (ofBytes_eq_some.mp ht)
    by_cases hdot : l.head? = some 46
    · rw [stuffDot, if_pos hdot] at hx
      obtain ⟨y, -, hy⟩ := bytes_eq_cons_ascii (a := '.') (by decide) hx
      exact ⟨y, ofBytes_eq_some.mpr hy⟩
    · rw [stuffDot, if_neg hdot] at hx
      exact ⟨x, ofBytes_eq_some.mpr hx⟩
  · rintro ⟨t, ht⟩
    have hc : bytes ("\r\n" : Text) = [13, 10] := by decide +kernel
    have hb := ofBytes_eq_some.mp ht
    by_cases hdot : l.head? = some 46
    · refine ⟨'.' :: (t ++ ("\r\n" : Text)), ofBytes_eq_some.mpr ?_⟩
      rw [bytes_cons, bytes_append, hc, hb, stuffDot, if_pos hdot]
      rfl
    · refine ⟨t ++ ("\r\n" : Text), ofBytes_eq_some.mpr ?_⟩
      rw [bytes_append, hc, hb, stuffDot, if_neg hdot]

theorem readsOf_closed (hlf : ∀ l ∈ ls, (10 : UInt8) ∉ l) :
    readsOf (closed ls) = ls.map (fun l => readOf (l ++ [13, 10])) ++ [.ok ".\r\n"] := by
  induction ls with
  | nil =>
    have hdot : readOf [46, 13, 10] = .ok ".\r\n" := by
      have hd : ofBytes [46, 13, 10] = some (".\r\n" : Text) := ofBytes_eq_some.mpr (by decide +kernel)
      rw [readOf, hd]
    exact congrArg (fun read => [read]) hdot
  | cons l ls ih =>
    have hl : (10 : UInt8) ∉ l ++ [13] := lf_not_mem_cr (hlf l mem_cons_self)
    have hcut : closed (l :: ls) = (l ++ [13]) ++ 10 :: closed ls := by
      simp [closed, joinLines_cons]
    rw [hcut, readsOf, splitAfter_line hl, map_cons, append_assoc]
    exact congrArg (readOf _ :: ·) (ih fun l' hl' => hlf l' (mem_cons_of_mem _ hl'))

/-! ## The loop that reads a message -/

section

variable (r : SmtpReceiver) (env : Surroundings)

variable {s : Session} {envelope : Envelope} {message : Bytes}

theorem step_line (hrun : s.status = .running) (ho : s.receiving = some (envelope, message)) (hlf : (10 : UInt8) ∉ l) (hr : ofBytes (stuffDot l ++ [13, 10]) = some t) :
    r.step env s (.ok t) =
      { s with moment := s.moment + 1, receiving := some (envelope, message ++ (l ++ [13, 10])) } := by
  have hb := ofBytes_eq_some.mp hr
  obtain ⟨x, hx, hxb, hxlf⟩ := line_of_octets hlf hb
  have hne : t ≠ [] := by
    rw [hx]
    simp
  have he : ¬ endsMessage t = true := by
    rw [hx, endsMessage_crlf hxlf]
    rintro rfl
    exact stuffDot_ne_dot l hxb.symm
  simp only [step, hrun, ne_eq, not_true_eq_false, if_false, ho,
    dataLine, hne, he, unstuff_line hb, Bool.false_eq_true]

theorem readOf_eq_ok (h : (ofBytes line).isSome) : ∃ t, ofBytes line = some t ∧ readOf line = .ok t := by
  obtain ⟨t, ht⟩ := Option.isSome_iff_exists.mp h
  exact ⟨t, ht, by rw [readOf, ht]⟩

theorem run_lines (hlf : ∀ l ∈ ls, (10 : UInt8) ∉ l) (hu : ∀ l ∈ ls, (ofBytes l).isSome) :
    ∀ (s : Session) (message : Bytes), s.status = .running → s.receiving = some (envelope, message) →
    r.run env s (ls.map fun l => readOf (stuffDot l ++ [13, 10])) = { s with
        moment := s.moment + ls.length
        receiving := some (envelope, message ++ joinLines ls) } := by
  induction ls with
  | nil =>
    intro s message _ ho
    have hk : some (envelope, message ++ joinLines []) = s.receiving := by
      rw [ho]
      simp [joinLines]
    rw [hk]
    rfl
  | cons l ls ih =>
    intro s message hrun ho
    have hl := hlf l mem_cons_self
    have hs := hu l mem_cons_self
    rw [← isSome_ofBytes_line hl] at hs
    obtain ⟨t, ht, hr⟩ := readOf_eq_ok hs
    rw [map_cons, hr, run, foldl_cons, step_line r env hrun ho hl ht]
    have hre := ih (fun l' hl' => hlf l' (mem_cons_of_mem _ hl')) (fun l' hl' => hu l' (mem_cons_of_mem _ hl'))
      { s with moment := s.moment + 1, receiving := some (envelope, message ++ (l ++ [13, 10])) }
      _ hrun rfl
    refine hre.trans ?_
    simp [joinLines_cons, Nat.add_assoc, Nat.add_comm 1]

theorem run_garbled {ls : List Bytes} (hlf : ∀ l ∈ ls, (10 : UInt8) ∉ l)
    (hbad : ∃ l ∈ ls, (ofBytes l).isSome = false) :
    ∀ (s : Session) (message : Bytes), s.status = .running → s.receiving = some (envelope, message) →
    let s' := r.run env s (ls.map fun l => readOf (stuffDot l ++ [13, 10]))
    s'.status ≠ .running ∧ s'.receiving ≠ none := by
  induction ls with
  | nil =>
    obtain ⟨l, hl, -⟩ := hbad
    exact absurd hl not_mem_nil
  | cons l ls ih =>
    intro s message hrun ho
    have hl := hlf l mem_cons_self
    rw [map_cons, run, foldl_cons]
    cases hs : (ofBytes l).isSome with
    | false =>
      have hf : readOf (stuffDot l ++ [13, 10]) = .error .invalidData := by
        rw [← isSome_ofBytes_line hl, Option.isSome_eq_false_iff, Option.isNone_iff_eq_none] at hs
        rw [readOf, hs]
      have hst : r.step env s (.error .invalidData) = { s with moment := s.moment + 1, status := .failed } := by
        simp [step, hrun]
      have hov : ({ s with moment := s.moment + 1, status := .failed } : Session).status ≠ .running :=
        SessionStatus.noConfusion
      rw [hf, hst, ← run, r.run_of_over env hov]
      exact ⟨hov, by simp [ho]⟩
    | true =>
      obtain ⟨t, ht, hr⟩ := readOf_eq_ok ((isSome_ofBytes_line hl).trans hs)
      have hre : ∃ l ∈ ls, (ofBytes l).isSome = false := by
        obtain ⟨l', hl', hbad'⟩ := hbad
        rcases mem_cons.mp hl' with rfl | hl'
        · rw [hs] at hbad'
          cases hbad'
        · exact ⟨l', hl', hbad'⟩
      rw [hr, step_line r env hrun ho hl ht]
      exact ih (fun l' hl' => hlf l' (mem_cons_of_mem _ hl')) hre _ _ hrun rfl

theorem step_dot (hrun : s.status = .running) (ho : s.receiving = some (envelope, message)) :
    r.step env s (.ok ".\r\n") = r.endOfData env { s with moment := s.moment + 1 } envelope message := by
  have he : endsMessage ".\r\n" = true := by decide +kernel
  have hne : (".\r\n" : Text) ≠ [] := by decide
  simp only [step, hrun, ne_eq, not_true_eq_false, if_false, ho, dataLine, hne, he, if_true]

end

/-! ## The end of the message -/

section

variable (r : SmtpReceiver) (env : Surroundings) (s : Session) (envelope : Envelope) (message : Bytes)

theorem submitted_of_trace {s s' : Session} {more : List SessionEvent}
    (h : s'.trace = s.trace ++ more) : submitted s s' = more.findSome? SessionEvent.submission := by
  rw [submitted, h, drop_left]

theorem submitted_endOfData (hd : r.dkim.enabled = false) : submitted s (r.endOfData env s envelope message) =
      match r.policy.check r.unicode r.decoder (env.counters s.moment) (env.clock s.moment)
        (lastPiece '@' envelope.mailFrom) envelope.rcptTo.length message with
      | .error _ => none
      | .ok _ => some (envelope, message) := by
  split
  · rename_i reason hc
    rw [submitted_of_trace (r.trace_endOfData_refused env s hc)]
    split <;> rfl
  · rename_i hc
    have hs : r.signed (lastPiece '@' envelope.mailFrom) message = message := by simp [signed, hd]
    rw [submitted_of_trace (r.trace_endOfData_passed env s hc), hs]
    rfl

end

/-! ## Transparency -/

theorem sentOctets_join (hlf : ∀ l ∈ ls, (10 : UInt8) ∉ l) (ht : takesData envelope replies) :
    sentOctets envelope (joinLines ls) replies = closed (ls.map stuffDot ++ [[]]) := by
  rw [sentOctets, octetsOf_message _ rfl rfl ht]
  exact congrArg closed (stuffed_join hlf)

theorem closed_ne_closed_concat (ls : List Bytes) : closed (ls ++ [[]]) ≠ closed ls := by
  intro h
  have hl := congrArg List.length h
  simp [closed, joinLines] at hl

theorem takesData_agreeing (envelope) : takesData envelope (agreeing envelope.rcptTo.length) := by
  let link : Link := ⟨agreeing envelope.rcptTo.length, none, []⟩
  have hr : link.replies = agreeing envelope.rcptTo.length ++ [] := (append_nil _).symm
  obtain ⟨link', -, hrun, -⟩ := openMessage_agreed envelope.mailFrom envelope.rcptTo rfl hr
  rw [takesData, hrun]
  rfl

/-- **No message passes the relay unchanged**, unless nothing is sent at all. -/
theorem transparent_iff_refused (r : SmtpReceiver) (env : Surroundings) (s : Session)
    (envelope : Envelope) (d : DataStream) (hrun : s.status = .running)
    (hopen : s.receiving = some (envelope, [])) (hdkim : r.dkim.enabled = false) :
    Transparent r env s d ↔ (∀ l ∈ d.lines, (Text.ofBytes l).isSome) ∧
        ∃ reason, verdict r env s envelope d = .error reason := by
  have hstuffed : ∀ l ∈ d.lines.map stuffDot, (10 : UInt8) ∉ l := by
    intro l hl
    obtain ⟨l', hl', rfl⟩ := mem_map.mp hl
    exact fun h => d.noLf l' hl' (lf_mem_stuffDot.mp h)
  have hreads : r.run env s (readsOf d.octets) = r.run env
      (r.run env s (d.lines.map fun l => readOf (stuffDot l ++ [13, 10]))) [.ok ".\r\n"] := by
    rw [DataStream.octets, readsOf_closed hstuffed, map_map, r.run_append]
    rfl
  unfold Transparent
  dsimp only
  rw [hreads]
  by_cases hutf8 : ∀ l ∈ d.lines, (ofBytes l).isSome
  · let s₁ : Session := { s with
      moment := s.moment + d.lines.length + 1
      receiving := some (envelope, joinLines d.lines) }
    have hend : r.run env (r.run env s (d.lines.map fun l => readOf (stuffDot l ++ [13, 10])))
        [.ok ".\r\n"] = r.endOfData env s₁ envelope (joinLines d.lines) := by
      rw [run_lines r env d.noLf hutf8 s [] hrun hopen]
      exact step_dot r env hrun rfl
    have hsubmitted : submitted s (r.endOfData env s₁ envelope (joinLines d.lines)) =
        match verdict r env s envelope d with
        | .error _ => none
        | .ok _ => some (envelope, joinLines d.lines) :=
      submitted_endOfData r env s₁ envelope _ hdkim
    rw [hend, r.receiving_endOfData, hsubmitted]
    cases verdict r env s envelope d with
    | error reason => exact ⟨fun _ => ⟨hutf8, reason, rfl⟩, fun _ => ⟨rfl, fun _ _ h => by cases h⟩⟩
    | ok _ =>
      constructor
      · intro h
        have hsame := h.2 _ _ rfl _ (takesData_agreeing envelope)
        rw [sentOctets_join d.noLf (takesData_agreeing envelope)] at hsame
        exact absurd hsame (closed_ne_closed_concat _)
      · rintro ⟨-, reason, hreason⟩
        cases hreason
  · have hbad : ∃ l ∈ d.lines, (ofBytes l).isSome = false := by
      push Not at hutf8
      simpa using hutf8
    obtain ⟨hover, hinside⟩ := run_garbled r env d.noLf hbad s [] hrun hopen
    rw [r.run_of_over env hover]
    exact ⟨fun h => absurd h.1 hinside, fun h => absurd h.1 hutf8⟩

def openedSession : Session := plainReceiver.run plainSurroundings (plainReceiver.start plainSurroundings)
    [.ok "EHLO client\r\n", .ok "MAIL FROM:<a@b.example>\r\n", .ok "RCPT TO:<c@d.example>\r\n", .ok "DATA\r\n"]

def oneLine : DataStream := ⟨[[72, 105]], by decide⟩

/-- The text `Hi`, a line end and a dot come in; an empty line more goes out. -/
theorem oneLine_not_transparent : openedSession.receiving = some (⟨"a@b.example", ["c@d.example"]⟩, []) ∧
      oneLine.octets = Text.bytes "Hi\r\n.\r\n" ∧
      ¬ Transparent plainReceiver plainSurroundings openedSession oneLine := by
  have hsubmitted : submitted openedSession
      (plainReceiver.run plainSurroundings openedSession (readsOf oneLine.octets)) =
        some (⟨"a@b.example", ["c@d.example"]⟩, bytes "Hi\r\n") := by decide +kernel
  have hsent : sentOctets ⟨"a@b.example", ["c@d.example"]⟩ (bytes "Hi\r\n") (agreeing 1) =
      bytes "Hi\r\n\r\n.\r\n" := by decide +kernel
  refine ⟨by decide +kernel, by decide +kernel, fun h => ?_⟩
  have hsame := h.2 _ _ hsubmitted (agreeing 1) (by decide +kernel)
  rw [hsent] at hsame
  revert hsame
  decide +kernel

theorem transparent_iff_refused_tooLong :
    Transparent { plainReceiver with policy := { plainReceiver.policy with contentPolicy := ⟨[], false, 3, nil_subset _⟩ } }
      plainSurroundings openedSession oneLine :=
  (transparent_iff_refused _ plainSurroundings openedSession ⟨"a@b.example", ["c@d.example"]⟩ oneLine
    (by decide +kernel) (by decide +kernel) rfl).mpr
    ⟨by decide +kernel, _, rfl⟩

end ServerWall.Relay
