import ServerWall.Core.Smtp
import ServerWall.Relay.Policy
import ServerWall.Relay.Sender

/-!
# The receiver

A session of `SmtpReceiver` (`serverwall-relay/src/receiver.rs`), one step for each `read_line`. Its `trace`
has every command with its reply, every call of `enqueue`, and the reply to the end of every message; how
the storing ends is up to the environment. A failed read or write, a panic of the parser, a client that is
not trusted, and required TLS end the session.
-/

namespace ServerWall.Relay

open Smtp
open Text (fmt lastPiece)

/-! ## Configuration and environment -/

/-- The hosts that may submit mail; a network is given by what it contains. -/
structure TrustedHosts where
  networks : List (IpAddr → Bool)
  singleIps : List IpAddr
  requireTls : Bool

def TrustedHosts.isTrusted (t : TrustedHosts) (ip : IpAddr) : Bool :=
  t.singleIps.contains ip || t.networks.any fun network => network ip

/-- DKIM: the signing function of a domain, if there is a key for it. Signing may
fail. -/
structure Dkim where
  enabled : Bool
  lookup : Text → Option (Bytes → Option Bytes)

structure SmtpReceiver where
  unicode : Unicode
  decoder : Decoder
  hostname : Text
  trustedHosts : TrustedHosts
  policy : OutboundPolicyChecker
  dkim : Dkim

/-- The world around one session, by the number of reads before. -/
structure Surroundings where
  peerIp : IpAddr
  writable : Nat → Bool
  /-- The rate counters as all sessions have left them. -/
  counters : Nat → Counters
  clock : Nat → Int
  /-- How the storing of a message ends: under an id of this time and these random
  bits, or with an error. -/
  stored : Nat → Option (Instant × Nat)

def Surroundings.storeReply (env : Surroundings) (moment : Nat) : Reply :=
  match env.stored moment with
  | some (ts, random) => .queued (queueId ts random)
  | none => .internalError

/-! ## Sessions -/

inductive SessionState where
  | connected
  | greeted
  | mailFrom (sender : Text)
  | rcptTo (sender : Text) (recipients : List Text)
  deriving DecidableEq

inductive SessionStatus where
  | running
  | closed
  | failed
  deriving DecidableEq

inductive SessionEvent where
  | answered (cmd : SmtpCommand) (reply : Text)
  | enqueued (envelope : Envelope) (message : Bytes)
  | concluded (reply : Text)
  deriving DecidableEq

structure Session where
  state : SessionState := .connected
  /-- Inside the loop that reads a message: its envelope and what was read. -/
  receiving : Option (Envelope × Bytes) := none
  moment : Nat := 0
  status : SessionStatus := .running
  trace : List SessionEvent := []

namespace Session

variable (env : Surroundings) (s : Session)

def reply (event : Text → SessionEvent) (text : Text) : Session :=
  if env.writable s.moment then { s with trace := s.trace ++ [event text] }
  else { s with status := .failed }

def leave : Session := if s.status = .running then { s with status := .closed } else s

variable (event : Text → SessionEvent)
include event

variable (text : Text)
include text

@[simp] theorem reply_receiving : (s.reply env event text).receiving = s.receiving := by
  unfold reply
  split <;> rfl

@[simp] theorem reply_moment : (s.reply env event text).moment = s.moment := by
  unfold reply
  split <;> rfl

theorem reply_status : (s.reply env event text).status = if env.writable s.moment then s.status else .failed := by
  unfold reply
  split <;> rfl

theorem reply_trace : (s.reply env event text).trace = s.trace ++ if env.writable s.moment then [event text] else [] := by
  unfold reply
  split <;> simp

end Session

def extractAddress (raw : Text) : Text :=
  let s := Text.trim raw
  if s.head? = some '<' ∧ s.getLast? = some '>' then s.tail.dropLast else s

/-- `trim_end_matches("\r\n")`, on the reversed text. -/
def dropCrlf : Text → Text
  | '\n' :: '\r' :: rest => dropCrlf rest
  | rest => rest

def endsMessage (line : Text) : Bool := Text.trimEndMatches '\n' (dropCrlf line.reverse).reverse = ['.']

/-- One message line as it is kept: a line that starts with two dots loses the
first. -/
def unstuff (line : Text) : Bytes :=
  if (".." : Text) <+: line then Text.bytes (line.drop 1) else Text.bytes line

def badSequence : Text := "503 5.5.1 Bad sequence of commands\r\n"

namespace SmtpReceiver

variable (r : SmtpReceiver) (env : Surroundings)

def ehloResponse : Text := Text.fmt ["250-", r.hostname,
    "\r\n250-SIZE 26214400\r\n250-8BITMIME\r\n250-PIPELINING\r\n250 OK\r\n"]

def mail (s : Session) (addr : Text) : Session :=
  let answer := s.reply env (.answered (.mailFrom addr))
  match s.state with
  | .connected => answer badSequence
  | _ =>
    let sender := extractAddress addr
    match r.policy.spfAlignment.check r.unicode (Text.lastPiece '@' sender) with
    -- a refused sender leaves the transaction there was
    | .error reason => answer (Text.fmt ["550 5.7.1 ", reason, "\r\n"])
    | .ok _ => { answer "250 2.1.0 OK\r\n" with state := .mailFrom sender }

def addRecipient (s : Session) (addr mailFrom : Text) (rcpts : List Text) : Session :=
  let answer := s.reply env (.answered (.rcptTo addr))
  let rcpts := rcpts ++ [extractAddress addr]
  match r.policy.recipientLimit.check rcpts.length with
  | .error reason => answer (Text.fmt ["550 5.5.3 ", reason, "\r\n"])
  | .ok _ => { answer "250 2.1.5 OK\r\n" with state := .rcptTo mailFrom rcpts }

def rcpt (s : Session) (addr : Text) : Session :=
  match s.state with
  | .mailFrom mailFrom => r.addRecipient env s addr mailFrom []
  | .rcptTo mailFrom rcpts => r.addRecipient env s addr mailFrom rcpts
  | _ => s.reply env (.answered (.rcptTo addr)) badSequence

def data (s : Session) : Session :=
  let answer := s.reply env (.answered .data)
  match s.state with
  | .rcptTo mailFrom rcpts =>
    if rcpts.isEmpty then answer badSequence
    else
      { answer "354 Start mail input; end with <CRLF>.<CRLF>\r\n" with
        receiving := some (⟨mailFrom, rcpts⟩, []) }
  | _ => answer badSequence

def signed (senderDomain : Text) (message : Bytes) : Bytes :=
  if r.dkim.enabled then
    match r.dkim.lookup (r.unicode.toLowercase senderDomain) with
    | some sign => (sign message).getD message
    | none => message
  else message

def endOfData (s : Session) (envelope : Envelope) (message : Bytes) : Session :=
  let s := { s with receiving := none }
  let senderDomain := Text.lastPiece '@' envelope.mailFrom
  match r.policy.check r.unicode r.decoder (env.counters s.moment) (env.clock s.moment) senderDomain
      envelope.rcptTo.length message with
  | .error reason => { s.reply env .concluded (Text.fmt ["550 5.7.1 ", reason, "\r\n"]) with state := .greeted }
  | .ok _ =>
    let s := { s with trace := s.trace ++ [SessionEvent.enqueued envelope (r.signed senderDomain message)] }
    { s.reply env .concluded (env.storeReply s.moment).text with state := .greeted }

/-- A line read inside the message; the end of the stream ends the session. -/
def dataLine (s : Session) (envelope : Envelope) (message : Bytes) (line : Text) : Session :=
  if line = [] then s.leave
  else if endsMessage line then r.endOfData env s envelope message
  else { s with receiving := some (envelope, message ++ unstuff line) }

def dispatch (s : Session) (cmd : SmtpCommand) : Session :=
  let answer := s.reply env (.answered cmd)
  match cmd with
  | .ehlo _ => { answer r.ehloResponse with state := .greeted }
  | .helo _ => { answer r.ehloResponse with state := .greeted }
  | .mailFrom addr => r.mail env s addr
  | .rcptTo addr => r.rcpt env s addr
  | .data => data env s
  | .rset => { answer "250 2.0.0 OK\r\n" with state := .greeted }
  | .noop => answer "250 2.0.0 OK\r\n"
  | .quit => (answer "221 2.0.0 Bye\r\n").leave
  | .auth _ => answer "502 5.5.1 AUTH not supported on relay\r\n"
  | .startTls => answer "502 5.5.1 STARTTLS not available\r\n"
  | .xclient _ => answer "500 5.5.2 Unrecognized command\r\n"
  | .unknown _ => answer "500 5.5.2 Unrecognized command\r\n"

/-- A line read by the command loop; the empty line is the end of the stream. -/
def commandLine (s : Session) (line : Text) : Session := if line = [] then s.leave
  else match parseCommand r.unicode line with
    | none => { s with status := .failed }
    | some cmd => r.dispatch env s cmd

def step (s : Session) (read : LineRead) : Session := if s.status ≠ .running then s
  else
    let s := { s with moment := s.moment + 1 }
    match read with
    | .error _ => { s with status := .failed }
    | .ok line =>
      match s.receiving with
      | some (envelope, message) => r.dataLine env s envelope message line
      | none => r.commandLine env s line

def greeting : Text × SessionStatus :=
  if !r.trustedHosts.isTrusted env.peerIp then
    ("554 5.7.1 Relay access denied\r\n", .closed)
  else if r.trustedHosts.requireTls then
    ("530 5.7.0 Must issue STARTTLS first\r\n", .closed)
  else (Text.fmt ["220 ", r.hostname, " ESMTP\r\n"], .running)

def start : Session := if env.writable 0 then { status := (r.greeting env).2 } else { status := .failed }

def run (s : Session) (reads : List LineRead) : Session := reads.foldl (r.step env) s

theorem run_cons (s : Session) (read) (reads : List LineRead) :
    r.run env s (read :: reads) = r.run env (r.step env s read) reads := rfl

theorem run_append (s : Session) (reads more : List LineRead) :
    r.run env s (reads ++ more) = r.run env (r.run env s reads) more :=
  List.foldl_append

theorem run_of_over (h : s.status ≠ .running) (reads : List LineRead) : r.run env s reads = s := by
  induction reads with
  | nil => rfl
  | cons read reads ih =>
    have hs : r.step env s read = s := if_pos h
    rwa [run, List.foldl_cons, hs]

section

variable (s : Session) {envelope : Envelope} {message : Bytes}

@[simp] theorem state_endOfData : (r.endOfData env s envelope message).state = .greeted := by
  unfold endOfData
  dsimp only
  split <;> rfl

@[simp] theorem moment_endOfData : (r.endOfData env s envelope message).moment = s.moment := by
  unfold endOfData
  dsimp only
  split <;> simp

theorem status_endOfData : (r.endOfData env s envelope message).status =
    if env.writable s.moment then s.status else .failed := by
  unfold endOfData
  dsimp only
  split <;> simp [Session.reply_status]

@[simp] theorem receiving_endOfData : (r.endOfData env s envelope message).receiving = none := by
  unfold endOfData
  dsimp only
  split <;> simp

theorem trace_endOfData_refused (h : r.policy.check r.unicode r.decoder (env.counters s.moment) (env.clock s.moment)
      (lastPiece '@' envelope.mailFrom) envelope.rcptTo.length message = .error reason) :
    (r.endOfData env s envelope message).trace = s.trace ++ if env.writable s.moment then
        [.concluded (fmt ["550 5.7.1 ", reason, "\r\n"])] else [] := by
  simp only [endOfData, h, Session.reply_trace]

theorem trace_endOfData_passed (h : r.policy.check r.unicode r.decoder (env.counters s.moment) (env.clock s.moment)
      (lastPiece '@' envelope.mailFrom) envelope.rcptTo.length message = .ok ()) :
    (r.endOfData env s envelope message).trace = s.trace ++
      SessionEvent.enqueued envelope (r.signed (lastPiece '@' envelope.mailFrom) message) ::
      if env.writable s.moment then [.concluded (env.storeReply s.moment).text] else [] := by
  simp only [endOfData, h, Session.reply_trace, List.append_assoc, List.singleton_append]

end

end SmtpReceiver

/-- What a read of these octets returns: an error if they are not UTF-8. -/
def readOf (line : Bytes) : LineRead :=
  match Text.ofBytes line with
  | some text => .ok text
  | none => .error .invalidData

/-- What the reads return on a stream of octets: its lines. -/
def readsOf (octets : Bytes) : List LineRead := (Text.splitAfter 10 octets).map readOf

def readsOfText (input : Text) : List LineRead := (Text.splitAfter '\n' input).map .ok ++ [.ok []]

/-! ## A plain receiver, for sessions that are evaluated -/

def plainReceiver : SmtpReceiver where
  unicode := .ascii
  decoder := .ascii
  hostname := "relay.example"
  trustedHosts := { networks := [fun _ => true], singleIps := [], requireTls := false }
  policy :=
    { rateLimit := ⟨100⟩
      contentPolicy := ⟨[], false, 1000, List.nil_subset _⟩
      spfAlignment := ⟨[]⟩
      recipientLimit := ⟨100⟩ }
  dkim := ⟨false, fun _ => none⟩

def plainSurroundings : Surroundings where
  peerIp := .v4 192 0 2 1
  writable _ := true
  counters _ _ := []
  clock _ := 0
  stored _ := none

end ServerWall.Relay
