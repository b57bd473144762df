import ServerWall.Proxy.Transparency
import ServerWall.Relay.Receiver

/-!
# A message that is cut off

The loop that reads a message ends at a dot with CR LF or a bare LF, and at the end of the stream; what
was read is then checked and forwarded (`discards_iff`, `cut_message_forwarded`).
-/

namespace ServerWall.Proxy

open Antispam Smtp List Session Text List
open Relay (readOf)

def streamLines (octets : Bytes) : List Bytes := Text.splitAfter 10 octets

def streamReads (lines : List Bytes) : List LineRead := lines.map Relay.readOf ++ [.ok [], .ok []]

def dotCrlf : Bytes := [46, 13, 10]

def dotLf : Bytes := [46, 10]

section

variable (p : SmtpProxy) (env : Env) (s : Session) (lines : List Bytes)

/-- Nothing is forwarded, to the end of the stream. -/
def ForwardsNothing : Prop := forwards (s.run p env (streamReads lines)).trace = forwards s.trace

/-- A dot and LF read inside the message leaves the session there. -/
def StaysInside : Prop := ∀ before after, lines = before ++ dotLf :: after →
    let t := s.run p env (before.map Relay.readOf)
    t.status = .running → t.state = .data → (t.step p env (Relay.readOf dotLf)).state = .data

def Discards : Prop := ForwardsNothing p env s lines ∧ StaysInside p env s lines

/-- A line that is not UTF-8, before any dot with LF. -/
def Unreadable : Prop := ∃ before bad after, lines = before ++ bad :: after ∧ dotLf ∉ before ∧ Text.ofBytes bad = none

/-- The session that finds the end of the stream inside the message. -/
def atEnd : Session :=
  let t := s.run p env (lines.map Relay.readOf)
  { t with moment := t.moment + 1 }

end

/-! ## The end of the message -/

section

variable {p : SmtpProxy} {env : Env} (s : Session)

theorem state_endOfData : (s.endOfData p env).state = .heloReceived := by
  unfold endOfData
  split
  · rfl
  · rfl
  · split <;> rfl

end

/-! ## The reads -/

section

variable {p : SmtpProxy} {env : Env} {s : Session}

theorem trace_step_end (hs : s.state ≠ .data) : (s.step p env (.ok [])).trace = s.trace := by
  unfold step
  split
  · rfl
  · dsimp only
    rw [if_neg hs]
    unfold commandLine leave
    rw [if_pos rfl]
    split <;> rfl

theorem step_end (hrun : s.status = .running) (hs : s.state = .data) :
    s.step p env (.ok []) = ({ s with moment := s.moment + 1 } : Session).endOfData p env := by
  rw [step, if_neg (not_not.mpr hrun)]
  dsimp only
  rw [if_pos hs]
  rfl

theorem step_dotLf (hrun : s.status = .running) (hs : s.state = .data) :
    (s.step p env (readOf dotLf)).state = .heloReceived := by
  have hr : readOf dotLf = .ok (".\n" : Text) := by
    rw [readOf, ofBytes_eq_some.mpr (by decide : bytes ".\n" = dotLf)]
  rw [hr, step, if_neg (not_not.mpr hrun)]
  dsimp only
  rw [if_pos hs]
  exact state_endOfData _

theorem step_bad (p : SmtpProxy) (env) (hrun : s.status = .running) (e : IoError) :
    (s.step p env (.error e)).status = .failed ∧ (s.step p env (.error e)).trace = s.trace := by
  rw [step, if_neg (not_not.mpr hrun)]
  exact ⟨rfl, rfl⟩

theorem run_ended (he : s.status ≠ .running) (reads : List LineRead) : s.run p env reads = s := by
  induction reads with
  | nil => rfl
  | cons read reads ih => rwa [run, foldl_cons, step, if_pos he]

end

/-! ## Streams that end inside a message -/

section

variable {p : SmtpProxy} {env : Env} {s : Session} {lines : List Bytes}

theorem readOf_line (hne : line ≠ []) (hc : line ≠ dotCrlf) (hlf : line ≠ dotLf) (ht : ofBytes line = some text) :
    readOf line = .ok text ∧ text ≠ [] ∧ endsMessage text = false := by
  have hb := ofBytes_eq_some.mp ht
  refine ⟨by rw [readOf, ht], ?_, ?_⟩
  · rintro rfl
    exact hne hb.symm
  · rw [endsMessage, Bool.or_eq_false_iff, decide_eq_false_iff_not, decide_eq_false_iff_not]
    constructor
    · rintro rfl
      exact hc (hb.symm.trans (by decide))
    · rintro rfl
      exact hlf (hb.symm.trans (by decide))

theorem discards_nil (hrun : s.status = .running) (hs : s.state = .data) :
    Discards p env s [] ↔ acceptedReport p env (atEnd p env s []) = none := by
  have ht : forwards (s.run p env (streamReads [])).trace =
      forwards s.trace ++ ((acceptedReport p env (atEnd p env s [])).map
        (({ s with moment := s.moment + 1 } : Session).forwardArgs env)).toList := by
    show forwards ((s.step p env (.ok [])).step p env (.ok [])).trace = _
    rw [step_end hrun hs, trace_step_end (by rw [state_endOfData]; decide), forwards_endOfData]
    rfl
  have hst : StaysInside p env s [] := by
    intro before after heq
    exact absurd heq.symm (by simp)
  rw [Discards, and_iff_left hst, ForwardsNothing, ht]
  cases acceptedReport p env (atEnd p env s []) <;> simp

theorem discards_cons (hr : readOf line = .ok text)
    (hlf : line ≠ dotLf) (ht : (s.step p env (.ok text)).trace = s.trace) :
    Discards p env s (line :: lines) ↔ Discards p env (s.step p env (.ok text)) lines := by
  have hrun : ∀ reads, s.run p env (readOf line :: reads) = (s.step p env (.ok text)).run p env reads := by
    intro reads
    rw [hr]
    rfl
  refine and_congr ?_ ?_
  · unfold ForwardsNothing
    rw [streamReads, map_cons, cons_append, hrun, ht]
    rfl
  · constructor
    · intro hs before after heq
      have hc := hs (line :: before) after (by rw [heq]; rfl)
      rwa [map_cons, hrun] at hc
    · intro hs before after heq
      cases before with
      | nil => exact absurd (cons.inj heq).1 hlf
      | cons first before =>
        obtain ⟨rfl, hre⟩ := cons.inj heq
        rw [map_cons, hrun]
        exact hs before after hre

theorem unreadable_cons (ht : ofBytes line = some text)
    (hlf : line ≠ dotLf) : Unreadable (line :: lines) ↔ Unreadable lines := by
  constructor
  · rintro ⟨before, bad, after, heq, hb, hbad⟩
    cases before with
    | nil =>
      obtain ⟨rfl, -⟩ := cons.inj heq
      cases ht.symm.trans hbad
    | cons first before => exact ⟨before, bad, after, (cons.inj heq).2, fun h => hb (.tail _ h), hbad⟩
  · rintro ⟨before, bad, after, rfl, hb, hbad⟩
    refine ⟨line :: before, bad, after, rfl, ?_, hbad⟩
    rw [mem_cons, not_or]
    exact ⟨fun h => hlf h.symm, hb⟩

variable (hrun : s.status = .running)
include hrun

theorem not_discards_dotLf (hs : s.state = .data) : ¬ Discards p env s (dotLf :: lines) := by
  rintro ⟨-, hst⟩
  have hi := hst [] lines rfl hrun hs
  rw [run, map_nil, foldl_nil, step_dotLf hrun hs] at hi
  cases hi

theorem discards_bad (hbad : ofBytes line = none) : Discards p env s (line :: lines) := by
  have hre : readOf line = .error .invalidData := by rw [readOf, hbad]
  have hf := step_bad p env hrun .invalidData
  have he : ∀ reads, s.run p env (readOf line :: reads) = s.step p env (.error .invalidData) := by
    intro reads
    rw [hre]
    exact run_ended (by rw [hf.1]; decide) reads
  refine ⟨?_, ?_⟩
  · unfold ForwardsNothing
    rw [streamReads, map_cons, cons_append, he, hf.2]
  · intro before after heq
    cases before with
    | nil =>
      rw [(cons.inj heq).1, ofBytes_eq_some.mpr (by decide : bytes ".\n" = dotLf)] at hbad
      cases hbad
    | cons first before =>
      obtain ⟨rfl, -⟩ := cons.inj heq
      intro t hr
      rw [show t = _ from he _, hf.1] at hr
      cases hr

theorem discards_lines (hs : s.state = .data) (hl : ∀ line ∈ lines, line ≠ [] ∧ line ≠ dotCrlf) :
    Discards p env s lines ↔ Unreadable lines ∨ dotLf ∉ lines ∧ acceptedReport p env (atEnd p env s lines) = none := by
  induction lines generalizing s with
  | nil =>
    have hr : ¬ Unreadable [] := by
      rintro ⟨before, bad, after, heq, -⟩
      exact absurd heq.symm (by simp)
    rw [discards_nil hrun hs, or_iff_right hr, and_iff_right not_mem_nil]
  | cons line lines ih =>
    obtain ⟨⟨hne, hc⟩, hl⟩ := forall_mem_cons.mp hl
    cases ht : ofBytes line with
    | none => exact ⟨fun _ => .inl ⟨[], line, lines, rfl, not_mem_nil, ht⟩, fun _ => discards_bad hrun ht⟩
    | some text =>
      by_cases hlf : line = dotLf
      · subst hlf
        refine ⟨fun h => absurd h (not_discards_dotLf hrun hs), ?_⟩
        rintro (⟨before, bad, after, heq, hb, hbad⟩ | ⟨hmem, -⟩)
        · cases before with
          | nil =>
            rw [← (cons.inj heq).1, ht] at hbad
            cases hbad
          | cons first before => exact absurd ((cons.inj heq).1 ▸ mem_cons_self) hb
        · exact absurd mem_cons_self hmem
      · obtain ⟨hre, hte, hg⟩ := readOf_line hne hc hlf ht
        have hst : s.step p env (.ok text) = _ := step_line hrun hs hte hg
        have hend : atEnd p env s (line :: lines) = atEnd p env (s.step p env (.ok text)) lines := by
          rw [atEnd, map_cons, hre]
          rfl
        have hmem : dotLf ∉ line :: lines ↔ dotLf ∉ lines := by rw [mem_cons, or_iff_right (Ne.symm hlf)]
        rw [discards_cons hre hlf (by rw [hst]), ih (by rw [hst]; exact hrun)
          (by rw [hst]; exact hs) hl, unreadable_cons ht hlf, hend, hmem]

end

/-- **An incomplete message is discarded exactly if it cannot be read or is refused.** -/
theorem discards_iff (p : SmtpProxy) (env : Env) (s : Session) (hrun : s.status = .running)
    (hstate : s.state = .data) (octets : Bytes) (hopen : dotCrlf ∉ streamLines octets) :
    Discards p env s (streamLines octets) ↔ Unreadable (streamLines octets) ∨ dotLf ∉ streamLines octets ∧
          acceptedReport p env (atEnd p env s (streamLines octets)) = none := by
  refine discards_lines hrun hstate fun line hline => ⟨(mem_splitAfter hline).1, ?_⟩
  rintro rfl
  exact hopen hline

def waitingSession : Session := (Session.start (.withLists {} {}) false).run (.withLists {} {}) .quiet
    [.ok "EHLO client.example\r\n", .ok "MAIL FROM:<a@example.com>\r\n",
      .ok "RCPT TO:<user@example.org>\r\n", .ok "DATA\r\n"]

theorem unreadable_discarded : Discards (.withLists {} {}) .quiet waitingSession (streamLines [104, 255, 10]) := by
  refine (discards_iff _ _ waitingSession (by decide +kernel) (by decide +kernel) _ (by decide)).mpr
    (.inl ⟨[], [104, 255, 10], [], by decide, not_mem_nil, by decide +kernel⟩)

/-- A client that leaves after `hello`, and one that sends a dot and LF: both messages are
forwarded. -/
theorem cut_message_forwarded : waitingSession.state = .data ∧ forwards waitingSession.trace = [] ∧
      dotCrlf ∉ streamLines (Text.bytes "hello") ∧ (forwards (waitingSession.run (.withLists {} {}) .quiet
        (streamReads (streamLines (Text.bytes "hello")))).trace).map SmtpProxy.Forward.messageData =
          [Text.bytes "hello"] ∧ dotCrlf ∉ streamLines (Text.bytes "hello\r\n.\nmore\r\n") ∧
      (waitingSession.run (.withLists {} {}) .quiet
        ((streamLines (Text.bytes "hello\r\n.\n")).map Relay.readOf)).state = .heloReceived ∧
      (forwards (waitingSession.run (.withLists {} {}) .quiet
        (streamReads (streamLines (Text.bytes "hello\r\n.\nmore\r\n")))).trace).map
          SmtpProxy.Forward.messageData = [Text.bytes "hello\r\n"] := by
  decide +kernel

end ServerWall.Proxy
