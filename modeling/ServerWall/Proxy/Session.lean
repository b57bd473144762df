import ServerWall.Core.Smtp
import ServerWall.Proxy.Backend

/-!
# The inbound SMTP session

The command loop of `SmtpProxy::proxy`, one step for each `read_line`; the loop that reads a message is
the state `Data`. The `trace` has each command with its reply, each call of `forward_to_backend`, and each
answer to the end of a message. A failed write or read ends the session, as does a panic of the parser.
-/

namespace ServerWall.Proxy

open Antispam Smtp Text

inductive SmtpState where
  | connected
  | bannerSent
  | heloReceived
  | mailFrom
  | rcptTo
  | data
  | proxying
  | quit
  deriving DecidableEq, Repr

inductive Status where
  | running
  | closed
  | failed
  deriving DecidableEq, Repr

/-- What a session does that others can see. `bypass` says that the post-DATA
checks were skipped. -/
inductive Event where
  | command (cmd : SmtpCommand) (resp : Text)
  | forwarded (moment : Moment) (f : SmtpProxy.Forward) (bypass : Bool)
  | endOfData (resp : Text)

structure Env where
  peerIp : IpAddr
  (connectTime bannerSentTime : Nat)
  writable : Moment → Bool
  backend : Moment → Backend
  date : Moment → Text

structure Session where
  state : SmtpState
  mailFrom : Text
  rcptTo : List Text
  heloDomain : Text
  earlyTalker : Bool
  commandCount : Nat
  dataBuffer : Bytes
  allowed : Bool
  (bytesFromClient bytesFromBackend : Nat)
  moment : Moment
  status : Status
  trace : List Event

namespace Session

def start (p : SmtpProxy) (earlyTalker : Bool) : Session where
  state := .bannerSent
  mailFrom := []
  rcptTo := []
  heloDomain := []
  earlyTalker := earlyTalker
  commandCount := 0
  dataBuffer := []
  allowed := false
  bytesFromClient := 0
  bytesFromBackend := len (fmt ["220 ", p.hostname, " ESMTP\r\n"])
  moment := 0
  status := .running
  trace := []

def reply (env : Env) (s : Session) (event : Text → Event) (resp : Text) : Session :=
  if env.writable s.moment then
    { s with trace := s.trace ++ [event resp], bytesFromBackend := s.bytesFromBackend + len resp }
  else { s with status := .failed }

def leave (s : Session) : Session := if s.status = .running then { s with status := .closed } else s

def address (arg : Text) : Text := trimMatches (fun c => c == '<' || c == '>') arg

def ehloResponse (p : SmtpProxy) : Text := fmt ["250-", p.hostname,
    "\r\n250-PIPELINING\r\n250-SIZE 26214400\r\n250-ENHANCEDSTATUSCODES\r\n250 8BITMIME\r\n"]

/-- Forget the transaction; the bypass flag is not part of it. -/
def clearTransaction (s : Session) : Session :=
  { s with mailFrom := [], rcptTo := [], dataBuffer := [], state := .heloReceived }

/-! ## The end of a message -/

def envelope (p : SmtpProxy) (env : Env) (s : Session) : EnvelopeContext where
  clientIp := env.peerIp
  heloDomain := s.heloDomain
  mailFrom := s.mailFrom
  rcptTo := s.rcptTo
  earlyTalker := s.earlyTalker
  connectTime := env.connectTime
  bannerSentTime := env.bannerSentTime
  commandCount := s.commandCount
  pipeliningDetected := false
  ja3Fingerprint := p.ja3Fingerprint

def bypassReport : SpamReport where
  score := .zero
  verdict := .clean
  contributions := []
  authResults := {}

def forwardArgs (env : Env) (s : Session) (report : SpamReport) : SmtpProxy.Forward where
  messageData := s.dataBuffer
  mailFrom := s.mailFrom
  rcptTo := s.rcptTo
  report := report
  clientIp := env.peerIp
  date := env.date s.moment

def forward (p : SmtpProxy) (env : Env) (s : Session) (report : SpamReport) (bypass : Bool) :
    Session :=
  let f := s.forwardArgs env report
  let conn := p.forwardToBackend (env.backend s.moment) f
  let counted := match conn.result with
    | .ok (_, b2c) => b2c
    | .error _ => 0
  reply env { s with
      state := .proxying
      bytesFromBackend := s.bytesFromBackend + counted
      trace := s.trace ++ [.forwarded s.moment f bypass] }
    .endOfData conn.clientAnswer

def rejectText (code : Nat) (reason : Text) : Text := fmt [dec code, " 5.7.1 ", reason, "\r\n"]

def tempFailText (reason : Text) : Text := fmt ["451 4.7.1 ", reason, "\r\n"]

def postData (p : SmtpProxy) (env : Env) (s : Session) (preScore : SpamScore)
    (preContribs : List ScoreContribution) : Session :=
  let ctx : MessageContext := { envelope := s.envelope p env, rawMessage := s.dataBuffer }
  match p.pipeline.runPostData p.unicode s.moment ctx preScore preContribs {} with
  | .error (.reject code reason) => s.reply env .endOfData (rejectText code reason)
  | .error (.tempFail reason) => s.reply env .endOfData (tempFailText reason)
  | .error _ => s
  | .ok report =>
    match report.verdict with
    | .spam => s.reply env .endOfData "550 5.7.1 Message rejected as spam\r\n"
    | .suspect | .clean => s.forward p env report false

/-- What follows the message: evaluation, forwarding, and the reset of the
transaction. The bypass flag is reset only after the post-DATA checks. -/
def endOfData (p : SmtpProxy) (env : Env) (s : Session) : Session :=
  match p.pipeline.runPreData s.moment (s.envelope p env) with
  | (.reject code reason, _, _) => (s.reply env .endOfData (rejectText code reason)).clearTransaction
  | (.tempFail reason, _, _) => (s.reply env .endOfData (tempFailText reason)).clearTransaction
  | (_, preScore, preContribs) =>
    if s.allowed then (s.forward p env bypassReport true).clearTransaction
    else { (s.postData p env preScore preContribs).clearTransaction with allowed := false }

/-! ## Lines -/

/-- One message line as it is stored: a line that starts with two dots loses
the first. -/
def unstuff (line : Text) : Bytes := if (".." : Text) <+: line then bytes (line.drop 1) else bytes line

def endsMessage (line : Text) : Bool := line = (".\r\n" : Text) || line = (".\n" : Text)

/-- A line read inside the message; an end of stream ends the message too. -/
def dataLine (p : SmtpProxy) (env : Env) (s : Session) (line : Text) : Session :=
  let s := { s with bytesFromClient := s.bytesFromClient + len line }
  if line = [] || endsMessage line then s.endOfData p env
  else { s with dataBuffer := s.dataBuffer ++ unstuff line }

def mail (p : SmtpProxy) (env : Env) (s : Session) (sender : Text) : Session :=
  let s := { s with mailFrom := address sender }
  if p.blockList.matchesAny p.unicode env.peerIp s.mailFrom then
    leave { s.reply env (.command (.mailFrom sender)) "550 5.7.1 Sender blocked\r\n" with state := .quit }
  else
    reply env { s with state := .mailFrom } (.command (.mailFrom sender)) "250 2.1.0 Ok\r\n"

def rcpt (p : SmtpProxy) (env : Env) (s : Session) (recipient : Text) : Session :=
  let addr := address recipient
  if p.blockList.containsRecipient p.unicode addr then
    s.reply env (.command (.rcptTo recipient)) "550 5.7.1 Recipient blocked\r\n"
  else
    reply env { s with
        rcptTo := s.rcptTo ++ [addr]
        allowed := s.allowed || p.allowList.matchesAny p.unicode env.peerIp s.mailFrom
        state := .rcptTo }
      (.command (.rcptTo recipient)) "250 2.1.5 Ok\r\n"

def data (env : Env) (s : Session) : Session :=
  if s.state ≠ .rcptTo ∧ s.state ≠ .mailFrom then
    s.reply env (.command .data) "503 5.5.1 Bad sequence of commands\r\n"
  else
    reply env { s with state := .data, dataBuffer := [] } (.command .data) "354 End data with <CR><LF>.<CR><LF>\r\n"

def rset (env : Env) (s : Session) : Session := reply env { s with
      mailFrom := []
      rcptTo := []
      dataBuffer := []
      allowed := false
      state := if s.state ≠ .bannerSent ∧ s.state ≠ .connected then .heloReceived else s.state }
    (.command .rset) "250 2.0.0 Ok\r\n"

def dispatch (p : SmtpProxy) (env : Env) (s : Session) (cmd : SmtpCommand) : Session :=
  match cmd with
  | .ehlo domain => reply env { s with heloDomain := domain, state := .heloReceived } (.command cmd) (ehloResponse p)
  | .helo domain => reply env { s with heloDomain := domain, state := .heloReceived } (.command cmd) (ehloResponse p)
  | .startTls => s.reply env (.command cmd) "454 4.7.0 TLS not available\r\n"
  | .mailFrom sender => s.mail p env sender
  | .rcptTo recipient => s.rcpt p env recipient
  | .data => s.data env
  | .rset => s.rset env
  | .noop => s.reply env (.command cmd) "250 2.0.0 Ok\r\n"
  | .quit => leave { s.reply env (.command cmd) "221 2.0.0 Bye\r\n" with state := .quit }
  | .auth _ | .xclient _ | .unknown _ => s.reply env (.command cmd) "502 5.5.2 Command not recognized\r\n"

def commandLine (p : SmtpProxy) (env : Env) (s : Session) (line : Text) : Session := if line = [] then s.leave
  else
    let s := { s with
      bytesFromClient := s.bytesFromClient + len line
      commandCount := s.commandCount + 1 }
    match parseCommand p.unicode line with
    | none => { s with status := .failed }
    | some cmd => s.dispatch p env cmd

def step (p : SmtpProxy) (env : Env) (s : Session) (r : LineRead) : Session := if s.status ≠ .running then s
  else
    let s := { s with moment := s.moment + 1 }
    match r with
    | .error _ => { s with status := .failed }
    | .ok line => if s.state = .data then s.dataLine p env line else s.commandLine p env line

def commandAt (p : SmtpProxy) (s : Session) : LineRead → Option SmtpCommand
  | .error _ => none
  | .ok line => if s.state = .data ∨ line = [] then none else parseCommand p.unicode line

def run (p : SmtpProxy) (env : Env) (s : Session) (reads : List LineRead) : Session := reads.foldl (step p env) s

end Session

end ServerWall.Proxy
