import ServerWall.Lib.Histories
import ServerWall.Relay.Receiver

/-!
# A session of the receiver

`respond` is the session without its connection (`dispatch_written`), `Dialogue` its grammar: one reply to
every command and one more at the end of a message. Every session is such a dialogue, and every message it
stores has the envelope that the replies agreed to (`session_orderly`).
-/

namespace ServerWall.Relay

open Smtp List Text Option Session RecipientLimit

/-! ## Replies -/

/-- A reply as it is written: all lines but the last with a dash after the
code. -/
def renderReply (code : Text) (lines : List Text) (last : Text) : Text :=
  lines.flatMap (fun l => Text.fmt [code, "-", l, "\r\n"]) ++ Text.fmt [code, " ", last, "\r\n"]

/-- One reply, from its code to its last line end. No line of it has a line feed
inside, unless the host is configured with a name that has one. -/
structure Complete (hostname reply : Text) : Prop where
  rendered : ∃ code lines last, code.length = 3 ∧ code.all Char.isDigit ∧
    reply = renderReply code lines last ∧ ∀ l ∈ lines ++ [last], '\n' ∈ l → l = hostname

section

variable {hostname reply : Text}

theorem complete_line (code last : Text)
    (h : reply = fmt [code, " ", last, "\r\n"] ∧ code.length = 3 ∧ code.all Char.isDigit ∧ '\n' ∉ last) : Complete hostname reply := by
  obtain ⟨rfl, hle, hd, hla⟩ := h
  refine ⟨code, [], last, hle, hd, rfl, fun l hl hlf => ?_⟩
  rw [nil_append, mem_singleton] at hl
  exact absurd (hl ▸ hlf) hla

theorem complete_reason (code status : Text)
    (h : front = fmt [code, " ", status] ∧ code.length = 3 ∧ code.all Char.isDigit ∧ '\n' ∉ status) (hr : '\n' ∉ reason) :
    Complete hostname (fmt [front, reason, "\r\n"]) := by
  obtain ⟨rfl, hl, hd, hs⟩ := h
  refine complete_line code (status ++ reason) ⟨?_, hl, hd, fun hlf => ?_⟩
  · simp [fmt]
  · exact (mem_append.mp hlf).elim hs hr

end

/-! ## The session without its connection -/

theorem mem_of_mem_extractAddress (h : c ∈ extractAddress raw) : c ∈ raw := by
  have ht : extractAddress raw ⊆ trim raw := by
    unfold extractAddress
    dsimp only
    split
    · exact fun d hd => mem_of_mem_tail ((dropLast_sublist _).subset hd)
    · exact List.Subset.refl _
  exact ( trim_infix raw).subset (ht h)

def SessionState.envelope : SessionState → Option Envelope
  | .mailFrom sender => some ⟨sender, []⟩
  | .rcptTo sender recipients => some ⟨sender, recipients⟩
  | _ => none

structure Answer where
  reply : Text
  next : SessionState
  /-- The envelope of a message that the client may now send. -/
  opened : Option Envelope := none
  status : SessionStatus := .running

def Answer.plain (reply : Text) (next : SessionState) : Answer := { reply, next }

open Answer (plain)

namespace SmtpReceiver

variable (r : SmtpReceiver)

def respondMail (state : SessionState) (addr : Text) : Answer :=
  match state with
  | .connected => .plain badSequence state
  | _ =>
    match r.policy.spfAlignment.check r.unicode (Text.lastPiece '@' (extractAddress addr)) with
    | .error reason => .plain (Text.fmt ["550 5.7.1 ", reason, "\r\n"]) state
    | .ok _ => .plain "250 2.1.0 OK\r\n" (.mailFrom (extractAddress addr))

def respondRcpt (state : SessionState) (addr : Text) : Answer :=
  match state.envelope with
  | none => .plain badSequence state
  | some ⟨sender, recipients⟩ =>
    match r.policy.recipientLimit.check (recipients ++ [extractAddress addr]).length with
    | .error reason => .plain (Text.fmt ["550 5.5.3 ", reason, "\r\n"]) state
    | .ok _ => .plain "250 2.1.5 OK\r\n" (.rcptTo sender (recipients ++ [extractAddress addr]))

def respondData (state : SessionState) : Answer :=
  match state with
  | .rcptTo sender recipients =>
    if recipients.isEmpty then .plain badSequence state
    else
      { reply := "354 Start mail input; end with <CRLF>.<CRLF>\r\n"
        next := state
        opened := some ⟨sender, recipients⟩ }
  | _ => .plain badSequence state

def respond (state : SessionState) : SmtpCommand → Answer
  | .ehlo _ => .plain r.ehloResponse .greeted
  | .helo _ => .plain r.ehloResponse .greeted
  | .mailFrom addr => r.respondMail state addr
  | .rcptTo addr => r.respondRcpt state addr
  | .data => respondData state
  | .rset => .plain "250 2.0.0 OK\r\n" .greeted
  | .noop => .plain "250 2.0.0 OK\r\n" state
  | .quit => { Answer.plain "221 2.0.0 Bye\r\n" state with status := .closed }
  | .auth _ => .plain "502 5.5.1 AUTH not supported on relay\r\n" state
  | .startTls => .plain "502 5.5.1 STARTTLS not available\r\n" state
  | .xclient _ => .plain "500 5.5.2 Unrecognized command\r\n" state
  | .unknown _ => .plain "500 5.5.2 Unrecognized command\r\n" state

theorem respondMail_plain (state) (addr : Text) :
    (r.respondMail state addr).opened = none ∧ (r.respondMail state addr).status = .running := by
  unfold respondMail
  cases state with
  | connected => exact ⟨rfl, rfl⟩
  | _ => dsimp only; split <;> exact ⟨rfl, rfl⟩

theorem respondRcpt_plain (state) (addr : Text) :
    (r.respondRcpt state addr).opened = none ∧ (r.respondRcpt state addr).status = .running := by
  unfold respondRcpt
  split
  · exact ⟨rfl, rfl⟩
  · split <;> exact ⟨rfl, rfl⟩

theorem respondData_plain (state) :
    (respondData state).next = state ∧ (respondData state).status = .running := by
  unfold respondData
  split
  · split <;> exact ⟨rfl, rfl⟩
  · exact ⟨rfl, rfl⟩

variable (env : Surroundings) {s : Session}

section

def answered (s : Session) (cmd : SmtpCommand) : Session := { s with
    state := (r.respond s.state cmd).next
    receiving := (r.respond s.state cmd).opened.map fun envelope => (envelope, [])
    status := (r.respond s.state cmd).status
    trace := s.trace ++ [.answered cmd (r.respond s.state cmd).reply] }

variable (hwritable : env.writable s.moment = true)
include hwritable

theorem reply_written (event : Text → SessionEvent) (text) :
    s.reply env event text = { s with trace := s.trace ++ [event text] } :=
  if_pos hwritable

theorem mail_written (addr : Text) : r.mail env s addr = { s with
        state := (r.respondMail s.state addr).next
        trace := s.trace ++ [.answered (.mailFrom addr) (r.respondMail s.state addr).reply] } := by
  unfold mail respondMail
  cases hs : s.state <;> simp only [reply_written env hwritable, hs, plain]
  all_goals
    cases r.policy.spfAlignment.check r.unicode (lastPiece '@' (extractAddress addr)) with
    | error reason => simp only [← hs]
    | ok _ => rfl

theorem rcpt_written (addr : Text) : r.rcpt env s addr = { s with
        state := (r.respondRcpt s.state addr).next
        trace := s.trace ++ [.answered (.rcptTo addr) (r.respondRcpt s.state addr).reply] } := by
  unfold rcpt respondRcpt addRecipient
  cases hs : s.state <;>
    simp only [reply_written env hwritable, hs, SessionState.envelope, nil_append, plain]
  case mailFrom sender =>
    cases r.policy.recipientLimit.check _ with
    | error reason => simp only [← hs]
    | ok _ => rfl
  case rcptTo sender recipients =>
    cases r.policy.recipientLimit.check _ with
    | error reason => simp only [← hs]
    | ok _ => rfl

theorem data_written (hi : s.receiving = none) : data env s = { s with
        receiving := (respondData s.state).opened.map fun envelope => (envelope, [])
        trace := s.trace ++ [.answered .data (respondData s.state).reply] } := by
  unfold data respondData
  cases hs : s.state <;> simp only [reply_written env hwritable, hi, hs, map_none, plain]
  case rcptTo sender recipients =>
    cases recipients with
    | nil => simp only [isEmpty_nil, if_true, map_none]
    | cons rcpt rest => rfl

/-- **A command that is answered.** -/
theorem dispatch_written (cmd : SmtpCommand) (hrun : s.status = .running) (hi : s.receiving = none) :
    r.dispatch env s cmd = r.answered s cmd := by
  unfold answered
  cases cmd with
  | mailFrom addr =>
    obtain ⟨ho, hs⟩ := r.respondMail_plain s.state addr
    simp only [dispatch, respond, r.mail_written env hwritable, ho, hs, hrun, hi, map_none]
  | rcptTo addr =>
    obtain ⟨ho, hs⟩ := r.respondRcpt_plain s.state addr
    simp only [dispatch, respond, r.rcpt_written env hwritable, ho, hs, hrun, hi, map_none]
  | data =>
    obtain ⟨hn, hs⟩ := respondData_plain s.state
    simp only [dispatch, respond, data_written env hwritable hi, hn, hs, hrun]
  | quit =>
    simp only [dispatch, respond, reply_written env hwritable, leave, hrun, hi, map_none, if_true, plain]
  | _ => simp only [dispatch, respond, reply_written env hwritable, hrun, hi, map_none, plain]

end

theorem dispatch_unwritten (cmd : SmtpCommand) (hwritable : env.writable s.moment = false) :
    (r.dispatch env s cmd).status = .failed ∧ (r.dispatch env s cmd).trace = s.trace := by
  have hr : ∀ event text, s.reply env event text = { s with status := .failed } := fun _ _ =>
    if_neg (by rw [hwritable]; exact Bool.false_ne_true)
  cases cmd with
  | mailFrom addr =>
    simp only [dispatch, mail, hr]
    split
    · exact ⟨rfl, rfl⟩
    · split <;> exact ⟨rfl, rfl⟩
  | rcptTo addr =>
    simp only [dispatch, rcpt, addRecipient, hr]
    split
    · split <;> exact ⟨rfl, rfl⟩
    · split <;> exact ⟨rfl, rfl⟩
    · exact ⟨rfl, rfl⟩
  | data =>
    simp only [dispatch, data, hr]
    split
    · split <;> exact ⟨rfl, rfl⟩
    · exact ⟨rfl, rfl⟩
  | quit => simp only [dispatch, hr, leave, reduceCtorEq, if_false, and_self]
  | _ => simp only [dispatch, hr, and_self]

theorem head_badSequence : badSequence.head? = some '5' := by decide

theorem respondMail_cases (state) (addr : Text) :
    (r.respondMail state addr).reply.head? = some '5' ∧ (r.respondMail state addr).next = state ∨
      r.policy.spfAlignment.check r.unicode (lastPiece '@' (extractAddress addr)) = .ok () ∧
        r.respondMail state addr = .plain "250 2.1.0 OK\r\n" (.mailFrom (extractAddress addr)) := by
  unfold respondMail
  cases state with
  | connected => exact .inl ⟨head_badSequence, rfl⟩
  | _ =>
    cases r.policy.spfAlignment.check r.unicode (lastPiece '@' (extractAddress addr)) with
    | error reason => exact .inl ⟨rfl, rfl⟩
    | ok _ => exact .inr ⟨rfl, rfl⟩

theorem respondRcpt_cases (state) (addr : Text) :
    (r.respondRcpt state addr).reply.head? = some '5' ∧ (r.respondRcpt state addr).next = state ∨
      ∃ sender recipients, state.envelope = some ⟨sender, recipients⟩ ∧
        (recipients ++ [extractAddress addr]).length ≤ r.policy.recipientLimit.maxRecipients ∧
        r.respondRcpt state addr =
          .plain "250 2.1.5 OK\r\n" (.rcptTo sender (recipients ++ [extractAddress addr])) := by
  unfold respondRcpt
  split
  · exact .inl ⟨head_badSequence, rfl⟩
  · rename_i sender recipients hs
    split
    · exact .inl ⟨rfl, rfl⟩
    · rename_i hl
      exact .inr ⟨sender, recipients, hs, le_of_check hl, rfl⟩

theorem respondData_cases (state) :
    (respondData state).reply.head? = some '5' ∧ (respondData state).opened = none ∨
      ∃ e, state.envelope = some e ∧ e.rcptTo ≠ [] ∧ (respondData state).opened = some e ∧
        ("354" : Text) <+: (respondData state).reply := by
  have hgo : ("354" : Text) <+: ("354 Start mail input; end with <CRLF>.<CRLF>\r\n" : Text) := by decide
  unfold respondData
  split
  · rename_i sender recipients
    cases recipients with
    | nil => exact .inl ⟨head_badSequence, rfl⟩
    | cons rcpt rest => exact .inr ⟨_, rfl, cons_ne_nil _ _, rfl, hgo⟩
  · exact .inl ⟨head_badSequence, rfl⟩

theorem not_go {reply : Text} {c : Char} (h : reply.head? = some c) (hc : c ≠ '3') : ¬ ("354" : Text) <+: reply := by
  rintro ⟨rest, rfl⟩
  exact hc (some.inj h).symm

theorem respond_opened (state) (cmd : SmtpCommand) :
    (r.respond state cmd).opened = none ∧ ¬ ("354" : Text) <+: (r.respond state cmd).reply ∨
      cmd = .data ∧ ("354" : Text) <+: (r.respond state cmd).reply ∧
        ∃ e, state.envelope = some e ∧ e.rcptTo ≠ [] ∧ (r.respond state cmd).opened = some e := by
  cases cmd with
  | mailFrom addr =>
    refine .inl ⟨(r.respondMail_plain state addr).1, ?_⟩
    show ¬ ("354" : Text) <+: (r.respondMail state addr).reply
    rcases r.respondMail_cases state addr with ⟨hr, -⟩ | ⟨-, ha⟩
    · exact not_go hr (by decide)
    · rw [ha]
      exact not_go rfl (by decide)
  | rcptTo addr =>
    refine .inl ⟨(r.respondRcpt_plain state addr).1, ?_⟩
    show ¬ ("354" : Text) <+: (r.respondRcpt state addr).reply
    rcases r.respondRcpt_cases state addr with ⟨hr, -⟩ | ⟨_, _, -, -, ha⟩
    · exact not_go hr (by decide)
    · rw [ha]
      exact not_go rfl (by decide)
  | data =>
    rcases respondData_cases state with ⟨hr, ho⟩ | ⟨e, hs, hne, ho, hgo⟩
    · exact .inl ⟨ho, not_go hr (by decide)⟩
    · exact .inr ⟨rfl, hgo, e, hs, hne, ho⟩
  | _ => exact .inl ⟨rfl, not_go rfl (by decide)⟩

theorem respond_status (state) (cmd : SmtpCommand) :
    cmd = .quit ∧ (r.respond state cmd).status = .closed ∨ cmd ≠ .quit ∧ (r.respond state cmd).status = .running := by
  cases cmd with
  | quit => exact .inl ⟨rfl, rfl⟩
  | mailFrom addr => exact .inr ⟨SmtpCommand.noConfusion, (r.respondMail_plain state addr).2⟩
  | rcptTo addr => exact .inr ⟨SmtpCommand.noConfusion, (r.respondRcpt_plain state addr).2⟩
  | data => exact .inr ⟨SmtpCommand.noConfusion, (respondData_plain state).2⟩
  | _ => exact .inr ⟨SmtpCommand.noConfusion, rfl⟩

/-! ### The replies are complete -/

theorem complete_ehlo : Complete r.hostname r.ehloResponse := by
  have ht : ("\r\n250-SIZE 26214400\r\n250-8BITMIME\r\n250-PIPELINING\r\n250 OK\r\n" : Text) =
      ("\r\n" : Text) ++ renderReply "250" ["SIZE 26214400", "8BITMIME", "PIPELINING"] "OK" := by
    decide +kernel
  refine ⟨"250", [r.hostname, "SIZE 26214400", "8BITMIME", "PIPELINING"], "OK", by decide +kernel,
    by decide +kernel, ?_, ?_⟩
  · rw [ehloResponse, ht]
    simp only [renderReply, fmt, flatMap_cons, flatten_cons, flatten_nil, append_assoc, append_nil]
    rfl
  · intro l hl hlf
    rcases mem_cons.mp hl with rfl | hl
    · rfl
    · have hp : ∀ l ∈ (["SIZE 26214400", "8BITMIME", "PIPELINING"] ++ ["OK"] : List Text), '\n' ∉ l := by
        decide +kernel
      exact absurd hlf (hp l hl)

theorem complete_badSequence {hostname : Text} : Complete hostname badSequence :=
  complete_line "503" "5.5.1 Bad sequence of commands" (by decide +kernel)

variable (state : SessionState)
include state

theorem complete_respondMail (ha : '\n' ∉ addr) : Complete r.hostname (r.respondMail state addr).reply := by
  have hd : '\n' ∉ lastPiece '@' (extractAddress addr) := fun h =>
    ha (mem_of_mem_extractAddress ((lastPiece_suffix _ _).subset h))
  have hok : Complete r.hostname "250 2.1.0 OK\r\n" := complete_line "250" "2.1.0 OK" (by decide +kernel)
  unfold respondMail
  cases state with
  | connected => exact complete_badSequence
  | _ =>
    dsimp only
    split
    · rename_i reason hc
      exact complete_reason "550" "5.7.1 " (by decide +kernel) (SpfAlignmentCheck.reason_oneLine hd hc)
    · exact hok

theorem complete_respondRcpt (addr : Text) : Complete r.hostname (r.respondRcpt state addr).reply := by
  have hok : Complete r.hostname "250 2.1.5 OK\r\n" := complete_line "250" "2.1.5 OK" (by decide +kernel)
  unfold respondRcpt
  split
  · exact complete_badSequence
  · split
    · rename_i reason hl
      exact complete_reason "550" "5.5.3 " (by decide +kernel) (reason_oneLine hl)
    · exact hok

theorem complete_respondData : Complete r.hostname (respondData state).reply := by
  have hgo : Complete r.hostname "354 Start mail input; end with <CRLF>.<CRLF>\r\n" :=
    complete_line "354" "Start mail input; end with <CRLF>.<CRLF>" (by decide +kernel)
  unfold respondData
  split
  · split
    · exact complete_badSequence
    · exact hgo
  · exact complete_badSequence

/-- **Every command gets one complete reply.** -/
theorem complete_respond (hcmd : ∀ addr, cmd = .mailFrom addr → '\n' ∉ addr) :
    Complete r.hostname (r.respond state cmd).reply := by
  have hok : Complete r.hostname "250 2.0.0 OK\r\n" := complete_line "250" "2.0.0 OK" (by decide +kernel)
  have hbye : Complete r.hostname "221 2.0.0 Bye\r\n" := complete_line "221" "2.0.0 Bye" (by decide +kernel)
  have ha : Complete r.hostname "502 5.5.1 AUTH not supported on relay\r\n" :=
    complete_line "502" "5.5.1 AUTH not supported on relay" (by decide +kernel)
  have htls : Complete r.hostname "502 5.5.1 STARTTLS not available\r\n" :=
    complete_line "502" "5.5.1 STARTTLS not available" (by decide +kernel)
  have hu : Complete r.hostname "500 5.5.2 Unrecognized command\r\n" :=
    complete_line "500" "5.5.2 Unrecognized command" (by decide +kernel)
  cases cmd with
  | ehlo _ | helo _ => exact r.complete_ehlo
  | mailFrom addr => exact r.complete_respondMail state (hcmd addr rfl)
  | rcptTo addr => exact r.complete_respondRcpt state addr
  | data => exact r.complete_respondData state
  | rset | noop => exact hok
  | quit => exact hbye
  | auth _ => exact ha
  | startTls => exact htls
  | xclient _ | unknown _ => exact hu

end SmtpReceiver

open SmtpReceiver (answered commandLine dataLine respondData respondData_plain start step)

/-! ## The envelope -/

/-- What an event does to the transaction the client and the receiver have agreed
on. -/
def note (transaction : Option Envelope) : SessionEvent → Option Envelope
  | .answered (.mailFrom addr) reply =>
    if ("250" : Text) <+: reply then some ⟨extractAddress addr, []⟩ else transaction
  | .answered (.rcptTo addr) reply =>
    if ("250" : Text) <+: reply then
      transaction.map fun e => { e with rcptTo := e.rcptTo ++ [extractAddress addr] }
    else transaction
  | _ => transaction

/-- The sender of the last `MAIL` that was answered with 250, and the recipients
that were answered with 250 after it. -/
def transaction (trace : List SessionEvent) : Option Envelope := trace.foldl note none

/-- What a session checks of an envelope while it collects it. -/
structure Acceptable (r : SmtpReceiver) (e : Envelope) : Prop where
  aligned : r.policy.spfAlignment.check r.unicode (Text.lastPiece '@' e.mailFrom) = .ok ()
  bounded : e.rcptTo.length ≤ r.policy.recipientLimit.maxRecipients
  oneLine : '\n' ∉ e.mailFrom

def Agrees (r : SmtpReceiver) (transaction : Option Envelope) (state : SessionState) : Prop :=
  ∀ e, state.envelope = some e → transaction = some e ∧ Acceptable r e

theorem head_of_code {code reply : Text} (hc : code ≠ []) (h : code <+: reply) : reply.head? = code.head? := by
  obtain ⟨rest, rfl⟩ := h
  exact head?_append_of_ne_nil _ hc

section

variable {r : SmtpReceiver} {t : Option Envelope} {state : SessionState}

theorem note_of_refused {reply : Text} (h : reply.head? = some '5') : note t (.answered cmd reply) = t := by
  have hnot : ¬ ("250" : Text) <+: reply := by
    intro hok
    rw [head_of_code (by decide) hok] at h
    revert h
    decide
  cases cmd with
  | mailFrom addr | rcptTo addr => exact if_neg hnot
  | _ => rfl

theorem agrees_mail (had : '\n' ∉ addr) (h : Agrees r t state) :
    Agrees r (note t (.answered (.mailFrom addr) (r.respondMail state addr).reply))
      (r.respondMail state addr).next := by
  rcases r.respondMail_cases state addr with ⟨hr, hn⟩ | ⟨hc, ha⟩
  · rwa [note_of_refused hr, hn]
  · intro e he
    rw [ha] at he ⊢
    cases he
    exact ⟨rfl, hc, Nat.zero_le _, fun hlf => had (mem_of_mem_extractAddress hlf)⟩

theorem agrees_rcpt (h : Agrees r t state) :
    Agrees r (note t (.answered (.rcptTo addr) (r.respondRcpt state addr).reply)) (r.respondRcpt state addr).next := by
  rcases r.respondRcpt_cases state addr with
    ⟨hr, hn⟩ | ⟨sender, recipients, hs, hl, ha⟩
  · rwa [note_of_refused hr, hn]
  · intro e he
    obtain ⟨ht, hacc⟩ := h _ hs
    rw [ha] at he ⊢
    cases he
    exact ⟨ht ▸ rfl, hacc.aligned, hl, hacc.oneLine⟩

/-- **A reply keeps phase and transaction together.** -/
theorem agrees_respond (hcmd : ∀ addr, cmd = .mailFrom addr → '\n' ∉ addr) (h : Agrees r t state) :
    Agrees r (note t (.answered cmd (r.respond state cmd).reply)) (r.respond state cmd).next := by
  have hg : ∀ t', Agrees r t' .greeted := fun t' e he => by cases he
  cases cmd with
  | mailFrom addr => exact agrees_mail (hcmd addr rfl) h
  | rcptTo addr => exact agrees_rcpt h
  | data =>
    show Agrees r t (respondData state).next
    rwa [(respondData_plain state).1]
  | ehlo _ | helo _ | rset => exact hg _
  | _ => exact h

end

/-! ## The dialogue -/

inductive Phase where
  | commands
  | message

/-- The event of a message that is given to the spool, if it is. -/
def storing (stored : Option (Envelope × Bytes)) : List SessionEvent :=
  (stored.map fun (envelope, message) => SessionEvent.enqueued envelope message).toList

/-- How the lines of a client and the events of a session belong together, from a
phase and the number of reads before on. -/
inductive Dialogue (r : SmtpReceiver) (env : Surroundings) : Phase → Nat → List Text → List SessionEvent → Prop where
  /-- The stream ends. Inside a message nothing comes of it. -/
  | ended {phase : Phase} {m : Nat} : Dialogue r env phase m [] []
  /-- The reply cannot be written, and the session is over. -/
  | broken {m : Nat} {line : Text} {rest : List Text} (hwritable : env.writable (m + 1) = false) :
      Dialogue r env .commands m (line :: rest) []
  | quit {m : Nat} {line reply : Text} {rest : List Text}
      (hcmd : parseCommand r.unicode line = some .quit) (hreply : Complete r.hostname reply) :
      Dialogue r env .commands m (line :: rest) [.answered .quit reply]
  | command {m : Nat} {line reply : Text} {rest : List Text} {cmd : SmtpCommand}
      {events : List SessionEvent} (hcmd : parseCommand r.unicode line = some cmd) (hquit : cmd ≠ .quit)
      (hreply : Complete r.hostname reply) (hno : ¬ ("354" : Text) <+: reply)
      (hrest : Dialogue r env .commands (m + 1) rest events) :
      Dialogue r env .commands m (line :: rest) (.answered cmd reply :: events)
  | data {m : Nat} {line reply : Text} {rest : List Text} {events : List SessionEvent}
      (hcmd : parseCommand r.unicode line = some .data) (hreply : Complete r.hostname reply)
      (hgo : ("354" : Text) <+: reply) (hrest : Dialogue r env .message (m + 1) rest events) :
      Dialogue r env .commands m (line :: rest) (.answered .data reply :: events)
  | text {m : Nat} {line : Text} {rest : List Text} {events : List SessionEvent}
      (hline : endsMessage line = false) (hrest : Dialogue r env .message (m + 1) rest events) :
      Dialogue r env .message m (line :: rest) events
  /-- The end of a message is answered, after the message was stored or not. -/
  | concluded {m : Nat} {line reply : Text} {rest : List Text} {events : List SessionEvent}
      (stored : Option (Envelope × Bytes)) (hline : endsMessage line = true)
      (hreply : Complete r.hostname reply) (hrest : Dialogue r env .commands (m + 1) rest events) :
      Dialogue r env .message m (line :: rest) (storing stored ++ .concluded reply :: events)
  | unconcluded {m : Nat} {line : Text} {rest : List Text} (stored : Option (Envelope × Bytes))
      (hline : endsMessage line = true) (hwritable : env.writable (m + 1) = false) :
      Dialogue r env .message m (line :: rest) (storing stored)

/-- Every message that was stored carries the envelope agreed on before. -/
def Accounted (r : SmtpReceiver) (trace : List SessionEvent) : Prop :=
  ∀ before envelope message after, trace = before ++ .enqueued envelope message :: after →
    transaction before = some envelope ∧ Acceptable r envelope ∧ envelope.rcptTo ≠ []

structure Sound (r : SmtpReceiver) (s : Session) : Prop where
  running : s.status = .running
  agrees : Agrees r (transaction s.trace) s.state
  opened : ∀ e b, s.receiving = some (e, b) → s.state.envelope = some e ∧ e.rcptTo ≠ []
  accounted : Accounted r s.trace

def Session.phase (s : Session) : Phase := if s.receiving.isSome then .message else .commands

theorem Accounted.append {r : SmtpReceiver} {trace : List SessionEvent}
    (h : Accounted r trace) (he : ∀ envelope message, event = .enqueued envelope message →
      transaction trace = some envelope ∧ Acceptable r envelope ∧ envelope.rcptTo ≠ []) :
    Accounted r (trace ++ [event]) := by
  intro before envelope message after hcut
  rcases append_eq_cut hcut with ⟨-, rfl, heq⟩ | ⟨after', -, ht⟩
  · exact he envelope message heq.symm
  · exact h before envelope message after' ht

section

variable {r : SmtpReceiver} {env : Surroundings} {s : Session} {line : Text}

theorem step_command (hu : r.unicode.Standard) (h : Sound r s) (hi : s.receiving = none) (hl : line ≠ []) :
    ∃ cmd, parseCommand r.unicode line = some cmd ∧
      (env.writable (s.moment + 1) = false ∧ (r.step env s (.ok line)).status = .failed ∧
          (r.step env s (.ok line)).trace = s.trace ∨
        r.step env s (.ok line) = r.answered { s with moment := s.moment + 1 } cmd) := by
  obtain ⟨cmd, hcmd⟩ := isSome_iff_exists.mp (parseCommand_isSome hu line)
  have hs : r.step env s (.ok line) = r.dispatch env { s with moment := s.moment + 1 } cmd := by
    simp only [step, h.running, hi, commandLine, hl, hcmd, ne_eq, not_true_eq_false, if_false]
  refine ⟨cmd, hcmd, ?_⟩
  rw [hs]
  cases hwritable : env.writable (s.moment + 1) with
  | false =>
    have hf := r.dispatch_unwritten env cmd (s := { s with moment := s.moment + 1 }) hwritable
    exact .inl ⟨rfl, hf⟩
  | true => exact .inr (r.dispatch_written env hwritable cmd h.running hi)

theorem sound_answered (h : Sound r s) (hcmd : ∀ addr, cmd = .mailFrom addr → '\n' ∉ addr) (hq : cmd ≠ .quit) :
    Sound r (r.answered { s with moment := s.moment + 1 } cmd) where
  running := by
    rcases r.respond_status s.state cmd with ⟨heq, -⟩ | ⟨-, hs⟩
    · exact absurd heq hq
    · exact hs
  agrees := by
    show Agrees r (transaction (s.trace ++ [_])) _
    rw [transaction, foldl_append]
    exact agrees_respond hcmd h.agrees
  opened := by
    intro e b hop
    obtain ⟨e', ho, heq⟩ := map_eq_some_iff.mp hop
    cases heq
    rcases r.respond_opened s.state cmd with ⟨hn, -⟩ | ⟨rfl, -, e', hst, hne, ho'⟩
    · cases hn.symm.trans ho
    · cases ho'.symm.trans ho
      refine ⟨?_, hne⟩
      show (respondData s.state).next.envelope = _
      rwa [(respondData_plain s.state).1]
  accounted := h.accounted.append fun _ _ heq => by cases heq

theorem step_text (h : Sound r s) (ho : s.receiving = some (e, b)) (hl : line ≠ []) (he : endsMessage line = false) :
    r.step env s (.ok line) = { s with moment := s.moment + 1, receiving := some (e, b ++ unstuff line) } := by
  simp only [step, h.running, ho, dataLine, hl, he, ne_eq,
    not_true_eq_false, if_false, Bool.false_eq_true]

theorem complete_storeReply (m : Nat) : Complete hostname (env.storeReply m).text := by
  have he : Complete hostname "451 4.3.0 Internal error, try again later\r\n" :=
    complete_line "451" "4.3.0 Internal error, try again later" (by decide +kernel)
  unfold Surroundings.storeReply
  split
  · exact complete_reason "250" "2.0.0 OK queued as " (by decide +kernel) (lf_not_mem_queueId _ _)
  · exact he

theorem step_dataEnd (h : Sound r s) (ho : s.receiving = some (e, b)) (hl : line ≠ []) (he : endsMessage line) :
    r.step env s (.ok line) = r.endOfData env { s with moment := s.moment + 1 } e b := by
  simp only [step, h.running, ho, dataLine, hl, he, ne_eq,
    not_true_eq_false, if_false, if_true]

variable (env) in
theorem trace_endOfData (h : Sound r s) (ho : s.receiving = some (e, b)) :
    ∃ stored reply, Complete r.hostname reply ∧ (∀ p, stored = some p → p.1 = e) ∧
      (r.endOfData env { s with moment := s.moment + 1 } e b).trace = s.trace ++ (storing stored ++ if env.writable (s.moment + 1) then [.concluded reply] else []) := by
  have hacc : Acceptable r e := (h.agrees e (h.opened e b ho).1).2
  have hd : '\n' ∉ lastPiece '@' e.mailFrom := fun hlf =>
    hacc.oneLine ((lastPiece_suffix _ _).subset hlf)
  cases hc : r.policy.check r.unicode r.decoder (env.counters (s.moment + 1))
      (env.clock (s.moment + 1)) (lastPiece '@' e.mailFrom) e.rcptTo.length b with
  | error reason =>
    refine ⟨none, fmt ["550 5.7.1 ", reason, "\r\n"], ?_, fun _ hp => (by cases hp),
      r.trace_endOfData_refused env _ hc⟩
    exact complete_reason "550" "5.7.1 " (by decide +kernel) (OutboundPolicyChecker.reason_oneLine hd hc)
  | ok _ =>
    refine ⟨some (e, r.signed (lastPiece '@' e.mailFrom) b), (env.storeReply (s.moment + 1)).text,
      complete_storeReply _, fun p hp => (by cases hp; rfl), r.trace_endOfData_passed env _ hc⟩

theorem accounted_storing (h : Sound r s) {e : Envelope} {b : Bytes} (ho : s.receiving = some (e, b))
    {stored : Option (Envelope × Bytes)} (hs : ∀ p, stored = some p → p.1 = e) :
    Accounted r (s.trace ++ storing stored) := by
  cases stored with
  | none =>
    rw [storing, map_none, toList_none, append_nil]
    exact h.accounted
  | some p =>
    obtain ⟨hst, hne⟩ := h.opened e b ho
    obtain ⟨ht, hacc⟩ := h.agrees e hst
    refine h.accounted.append fun envelope message heq => ?_
    obtain rfl : p.1 = envelope := (SessionEvent.enqueued.inj heq).1
    rw [hs p rfl]
    exact ⟨ht, hacc, hne⟩

variable (r env) in
/-- The rest of a session is a dialogue, and what it stores is accounted for. -/
def Continues (lines : List Text) (s : Session) : Prop :=
  ∃ events, (r.run env s (lines.map .ok ++ [.ok []])).trace = s.trace ++ events ∧
    Dialogue r env s.phase s.moment lines events ∧ Accounted r (s.trace ++ events)

theorem continues_nil (h : Sound r s) : Continues r env [] s := by
  have hl : (r.step env s (.ok [])).trace = s.trace := by
    cases ho : s.receiving <;>
      simp [step, h.running, ho, dataLine, commandLine, leave]
  refine ⟨[], ?_, .ended, ?_⟩
  · rwa [append_nil]
  · rw [append_nil]
    exact h.accounted

variable {rest : List Text} (hrest : ∀ s, Sound r s → Continues r env rest s)
include hrest

theorem continues_command (hu : r.unicode.Standard) (h : Sound r s) (hi : s.receiving = none)
    (hl : line ≠ []) (hpl : '\n' ∉ line.dropLast) : Continues r env (line :: rest) s := by
  have hp : s.phase = .commands := by
    rw [phase, hi]
    rfl
  obtain ⟨cmd, hcmd, ⟨hwritable, hs, ht⟩ | hst⟩ := step_command hu h hi hl
  · have hov : (r.step env s (.ok line)).status ≠ .running := by
      rw [hs]
      exact SessionStatus.noConfusion
    refine ⟨[], ?_, hp ▸ .broken hwritable, ?_⟩
    · rw [map_cons, cons_append, r.run_cons, r.run_of_over env hov, ht, append_nil]
    · rw [append_nil]
      exact h.accounted
  · have ha : ∀ addr, cmd = .mailFrom addr → '\n' ∉ addr := by
      rintro addr rfl
      exact lf_not_mem_mailFrom hpl hcmd
    have hr := r.complete_respond s.state ha
    unfold Continues
    rw [map_cons, cons_append, r.run_cons, hst, hp]
    by_cases hq : cmd = .quit
    · subst hq
      rw [r.run_of_over env (by exact SessionStatus.noConfusion)]
      exact ⟨[_], rfl, .quit hcmd hr, h.accounted.append fun _ _ heq => by cases heq⟩
    · obtain ⟨events, ht, hd, hacc⟩ := hrest _ (sound_answered h ha hq)
      refine ⟨.answered cmd (r.respond s.state cmd).reply :: events, ?_, ?_, ?_⟩
      · rw [ht]
        simp [answered]
      · rw [phase, answered] at hd
        rcases r.respond_opened s.state cmd with ⟨hn, hno⟩ | ⟨rfl, hgo, e, -, -, ho⟩
        · rw [hn] at hd
          exact .command hcmd hq hr hno hd
        · rw [ho] at hd
          exact .data hcmd hr hgo hd
      · simpa [answered] using hacc

theorem continues_message (h : Sound r s)
    (ho : s.receiving = some (e, b)) (hl : line ≠ []) : Continues r env (line :: rest) s := by
  have hp : s.phase = .message := by
    rw [phase, ho]
    rfl
  unfold Continues
  rw [map_cons, cons_append, r.run_cons, hp]
  cases hen : endsMessage line with
  | false =>
    rw [step_text h ho hl hen]
    obtain ⟨events, ht, hd, hacc⟩ := hrest { s with moment := s.moment + 1, receiving := some (e, b ++ unstuff line) }
      { h with opened := fun e' b' heq => by cases heq; exact h.opened e b ho }
    exact ⟨events, ht, .text hen hd, hacc⟩
  | true =>
    obtain ⟨stored, reply, hr, hs, ht⟩ := trace_endOfData env h ho
    have hacc := accounted_storing h ho hs
    rw [step_dataEnd h ho hl hen]
    cases hwritable : env.writable (s.moment + 1) with
    | false =>
      have hov : (r.endOfData env { s with moment := s.moment + 1 } e b).status ≠ .running := by
        rw [r.status_endOfData]
        simp [hwritable]
      rw [hwritable] at ht
      refine ⟨storing stored, ?_, .unconcluded stored hen hwritable, hacc⟩
      rw [r.run_of_over env hov, ht]
      simp
    | true =>
      rw [hwritable, if_pos rfl, ← append_assoc] at ht
      have hso : Sound r (r.endOfData env { s with moment := s.moment + 1 } e b) := by
        constructor
        · rw [r.status_endOfData]
          simp [hwritable, h.running]
        · rw [r.state_endOfData]
          exact fun _ he => by cases he
        · rw [r.receiving_endOfData]
          exact fun _ _ he => by cases he
        · rw [ht]
          exact hacc.append fun _ _ heq => by cases heq
      obtain ⟨events, hrun, hd, hacc'⟩ := hrest _ hso
      rw [phase, r.receiving_endOfData, r.moment_endOfData] at hd
      refine ⟨storing stored ++ .concluded reply :: events, ?_, .concluded stored hen hr hd, ?_⟩
      · rw [hrun, ht]
        simp
      · rw [ht] at hacc'
        simpa using hacc'

omit hrest in
/-- **Every run of a sound session is a dialogue**, and what it stores is
accounted for. -/
theorem run_dialogue (hu : r.unicode.Standard) (lines : List Text)
    (hli : ∀ l ∈ lines, l ≠ [] ∧ '\n' ∉ l.dropLast) : ∀ s, Sound r s → Continues r env lines s := by
  induction lines with
  | nil => exact fun s h => continues_nil h
  | cons line rest ih =>
    intro s h
    have hrest := ih fun l hl => hli l (mem_cons_of_mem _ hl)
    obtain ⟨hlin, hp⟩ := hli line mem_cons_self
    cases ho : s.receiving with
    | none => exact continues_command hrest hu h ho hlin hp
    | some p => exact continues_message hrest h ho hlin

end

/-! ## Sessions -/

theorem start_trace (r : SmtpReceiver) (env : Surroundings) : (r.start env).trace = [] := by
  unfold start
  split <;> rfl

theorem accounted_nil (r : SmtpReceiver) : Accounted r [] := by
  intro before envelope message after h
  simp at h

theorem sound_start (hrun : (r.start env).status = .running) :
    Sound r (r.start env) ∧ (r.start env).phase = .commands ∧ (r.start env).moment = 0 := by
  have hf : (r.start env).state = .connected ∧ (r.start env).receiving = none ∧ (r.start env).moment = 0 := by
    unfold start
    split <;> exact ⟨rfl, rfl, rfl⟩
  obtain ⟨hs, hi, hm⟩ := hf
  refine ⟨⟨hrun, ?_, ?_, ?_⟩, ?_, hm⟩
  · rw [hs]
    exact fun _ he => by cases he
  · rw [hi]
    exact fun _ _ he => by cases he
  · rw [start_trace]
    exact accounted_nil r
  · rw [phase, hi]
    rfl

/-- **Every session is orderly**: what it stores was agreed to, and what is said is a dialogue. -/
theorem session_orderly (r : SmtpReceiver) (env : Surroundings) (input : Text) (hu : r.unicode.Standard) :
    let s := r.run env (r.start env) (readsOfText input)
    (∀ before envelope message after, s.trace = before ++ .enqueued envelope message :: after →
      transaction before = some envelope ∧ 1 ≤ envelope.rcptTo.length ∧
        envelope.rcptTo.length ≤ r.policy.recipientLimit.maxRecipients ∧
        r.policy.spfAlignment.check r.unicode (lastPiece '@' envelope.mailFrom) = .ok ()) ∧
    if (r.start env).status = .running then
      Dialogue r env .commands 0 (splitAfter '\n' input) s.trace
    else s.trace = [] := by
  dsimp only
  by_cases hrun : (r.start env).status = .running
  · obtain ⟨hsound, hphase, hmoment⟩ := sound_start hrun
    obtain ⟨events, htrace, hdialogue, hacc⟩ :=
      run_dialogue hu (splitAfter '\n' input) (fun l hl => mem_splitAfter hl) _ hsound
    rw [start_trace, nil_append] at htrace hacc
    rw [hphase, hmoment] at hdialogue
    rw [readsOfText, htrace, if_pos hrun]
    refine ⟨fun before envelope message after hcut => ?_, hdialogue⟩
    obtain ⟨htransaction, haccept, hne⟩ := hacc before envelope message after hcut
    exact ⟨htransaction, length_pos_of_ne_nil hne, haccept.bounded, haccept.aligned⟩
  · rw [r.run_of_over env hrun, start_trace, if_neg hrun]
    exact ⟨fun before envelope message after hcut => absurd hcut (by simp), rfl⟩

def narrowReceiver : SmtpReceiver :=
  { plainReceiver with policy := { plainReceiver.policy with recipientLimit := ⟨1⟩ } }

def twoRecipients : Text := "EHLO c\r\nMAIL FROM:<a@b>\r\nRCPT TO:<x@y>\r\nRCPT TO:<z@y>\r\nDATA\r\nHi\r\n.\r\nQUIT\r\n"

theorem session_orderly_limit :
    let s := narrowReceiver.run plainSurroundings (narrowReceiver.start plainSurroundings)
      (readsOfText twoRecipients)
    SessionEvent.enqueued ⟨"a@b", ["x@y"]⟩ (bytes "Hi\r\n") ∈ s.trace ∧
      Dialogue narrowReceiver plainSurroundings .commands 0 (splitAfter '\n' twoRecipients) s.trace := by
  have hrun : (narrowReceiver.start plainSurroundings).status = .running := by decide +kernel
  have horderly := session_orderly narrowReceiver plainSurroundings twoRecipients Unicode.standard_ascii
  dsimp only at horderly ⊢
  rw [if_pos hrun] at horderly
  exact ⟨by decide +kernel, horderly.2⟩

end ServerWall.Relay
