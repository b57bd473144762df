import ServerWall.Antispam.Headers
import ServerWall.Antispam.Lists

/-!
# The conversation with the backend

`SmtpProxy::forward_to_backend` (`serverwall-proxy/src/proxy/smtp_proxy.rs`): a script of turns, write a
command and read a reply, with one executor (`Conn.turn`). A connection keeps its first I/O error. The
`EHLO` turn reads up to a line with a space as its fourth byte; every other turn reads one line.
-/

namespace ServerWall.Proxy

open Antispam Config

/-- What one `read_line` returns; the empty text is the end of the stream. -/
abbrev LineRead := Except IoError Text

inductive Stage where
  | banner
  | ehlo
  | mail
  | rcpt (i : Nat)
  | data
  | message
  | quit
  deriving DecidableEq, Repr

inductive BackendEvent where
  | sent (stage : Stage) (chunk : Bytes)
  | received (stage : Stage) (line : Text)
  deriving DecidableEq

/-- A backend as one call meets it: whether it can be reached, what it sends
(then the stream ends), and after how many writes the connection breaks, if it
does. -/
structure Backend where
  refused : Option IoError
  replies : List LineRead
  writeBudget : Option Nat

def Backend.answering (lines : List Text) : Backend where
  refused := none
  replies := lines.map .ok
  writeBudget := none

structure Conn where
  replies : List LineRead
  writeBudget : Option Nat
  failure : Option IoError
  events : List BackendEvent
  bytesFromBackend : Nat
  resp : Text

def fourthByte (line : Text) : Option UInt8 := (Text.bytes line)[3]?

def endsEhlo (line : Text) : Bool := fourthByte line == some 32

namespace Conn

def start (b : Backend) : Conn where
  replies := b.replies
  writeBudget := b.writeBudget
  failure := b.refused
  events := []
  bytesFromBackend := 0
  resp := []

def write (c : Conn) (stage : Stage) (chunk : Bytes) : Conn :=
  match c.failure, c.writeBudget with
  | some _, _ => c
  | none, some 0 => { c with failure := some .brokenPipe }
  | none, budget => { c with writeBudget := budget.map (· - 1), events := c.events ++ [.sent stage chunk] }

def receive (c : Conn) (stage : Stage) (line : Text) (rest : List LineRead) : Conn := { c with
    replies := rest
    events := c.events ++ [.received stage line]
    bytesFromBackend := c.bytesFromBackend + Text.len line
    resp := line }

def readLine (c : Conn) (stage : Stage) : Conn :=
  match c.failure, c.replies with
  | some _, _ => c
  | none, [] => { c with resp := [] }
  | none, .error e :: rest => { c with replies := rest, failure := some e }
  | none, .ok line :: rest => c.receive stage line rest

/-- The loop that reads the reply to `EHLO`, over what is still to come. -/
def ehloLoop : List LineRead → Conn → Conn
  | [], c => { c with replies := [] }
  | .error e :: rest, c => { c with replies := rest, failure := some e }
  | .ok line :: rest, c =>
    if line = [] || endsEhlo line then c.receive .ehlo line rest
    else ehloLoop rest (c.receive .ehlo line rest)

def readEhlo (c : Conn) : Conn :=
  match c.failure with
  | some _ => c
  | none => ehloLoop c.replies c

/-- `let _ = read_line(&mut quit_resp).await`: an error is dropped, and the
line is neither counted nor kept. -/
def readQuit (c : Conn) : Conn :=
  match c.failure, c.replies with
  | some _, _ => c
  | none, [] => c
  | none, .error _ :: rest => { c with replies := rest }
  | none, .ok line :: rest => { c with replies := rest, events := c.events ++ [.received .quit line] }

def readReply (c : Conn) : Stage → Conn
  | .ehlo => c.readEhlo
  | .quit => c.readQuit
  | stage => c.readLine stage

def turn (c : Conn) (t : Stage × List Bytes) : Conn := (t.2.foldl (fun c chunk => c.write t.1 chunk) c).readReply t.1

end Conn

/-! ## The call -/

structure SmtpProxy where
  unicode : Unicode
  backendTag : Text
  pipeline : AntispamPipeline
  allowList : AllowList
  blockList : BlockList
  hostname : Text
  ja3Fingerprint : Option Text
  smtpHeaders : SmtpHeadersConfig

namespace SmtpProxy

/-- The headers to add, as names and values. `date` is the RFC 2822 text of the
clock. -/
def injectedHeaders (p : SmtpProxy) (report : SpamReport) (clientIp : IpAddr) (date : Text) : List (Text × Text) :=
  (if p.smtpHeaders.addReceived then
    [SpamHeaderBuilder.header "Received" (Text.fmt ["Received: from unknown by ", p.hostname,
      " (id=", p.backendTag, "); ", date])] else []) ++
  (if p.smtpHeaders.xForwardedFor then [SpamHeaderBuilder.header "X-Forwarded-For" clientIp.toText] else []) ++
  (match report.verdict with
   | .suspect => SpamHeaderBuilder.buildHeaders report p.hostname
   | .clean =>
     [SpamHeaderBuilder.header "Authentication-Results"
       (SpamHeaderBuilder.authenticationResults p.hostname report.authResults)]
   | .spam => [])

def headerLine (h : Text × Text) : Text := Text.fmt [h.1, ": ", h.2, "\r\n"]

structure Forward where
  messageData : Bytes
  mailFrom : Text
  rcptTo : List Text
  report : SpamReport
  clientIp : IpAddr
  date : Text

/-- What is written between the reply to `DATA` and the reading of the final
reply. -/
def messageChunks (p : SmtpProxy) (f : Forward) : List Bytes :=
  (p.injectedHeaders f.report f.clientIp f.date).map (fun h => Text.bytes (headerLine h)) ++
    [f.messageData, Text.bytes "\r\n.\r\n"]

def rcptTurns : Nat → List Text → List (Stage × List Bytes)
  | _, [] => []
  | i, rcpt :: rest => (.rcpt i, [Text.bytes (Text.fmt ["RCPT TO:<", rcpt, ">\r\n"])]) :: rcptTurns (i + 1) rest

def script (p : SmtpProxy) (f : Forward) : List (Stage × List Bytes) := (.banner, []) ::
  (.ehlo, [Text.bytes (Text.fmt ["EHLO ", p.hostname, "\r\n"])]) ::
  (.mail, [Text.bytes (Text.fmt ["MAIL FROM:<", f.mailFrom, ">\r\n"])]) ::
  (rcptTurns 0 f.rcptTo ++
  [(.data, [Text.bytes "DATA\r\n"]), (.message, p.messageChunks f), (.quit, [Text.bytes "QUIT\r\n"])])

def forwardToBackend (p : SmtpProxy) (b : Backend) (f : Forward) : Conn := (p.script f).foldl Conn.turn (Conn.start b)

end SmtpProxy

/-- The value returned: the last reply line and the bytes read. The reply kept
in `resp` is that of the message turn, since the `QUIT` turn does not touch
it. -/
def Conn.result (c : Conn) : Except IoError (Text × Nat) :=
  match c.failure with
  | some e => .error e
  | none => .ok (c.resp, c.bytesFromBackend)

/-- What the client is told at the end of its message when the message was
handed to the backend. -/
def Conn.clientAnswer (c : Conn) : Text :=
  match c.result with
  | .ok (resp, _) => resp
  | .error _ => "451 4.3.0 Backend unavailable\r\n"

end ServerWall.Proxy
