import ServerWall.Lib.LineRelay
import ServerWall.Waf.Request

/-!
# Proxies that look at the first lines

`ImapProxy::proxy` and `StratumProxy::proxy` (`serverwall-proxy/src/proxy`) pass lines on one at a time,
to see who logs in, and then copy both directions (`LineRelay`). Lost is what was read together with the
last line, or not yet said when a session ends early (`transparent_iff`, `pipelined_lost`).
-/

namespace ServerWall.Sniffing

open LineRelay Text
open Waf (splitFirst)

inductive Side where
  | client
  | backend
  deriving DecidableEq

instance : Fintype Side where
  elems := {.client, .backend}
  complete side := by cases side <;> decide

abbrev Lines (α : Type) : Type := Prog Side (fun _ => Text) α

def relayLine (side : Side) : Lines Text := Prog.perform side

/-- `ImapProxyResult` and `StratumProxyResult`: the user or worker, and what was counted. -/
structure ProxyResult where
  name : Option Text := none
  (bytesFromClient bytesFromBackend : Nat := 0)

/-! ## IMAP -/

structure ImapCommand where
  (tag command args : Text)

/-- A tag, a command and the rest; a line of one word is no command. -/
def parseCommand (unicode : Unicode) (line : Text) : Option ImapCommand :=
  let trimmed := trim line
  if trimmed.contains ' ' then
    let (tag, rest) := splitFirst ' ' trimmed
    let (command, args) := splitFirst ' ' rest
    some { tag, command := unicode.toUppercase command, args }
  else none

/-- The first of the arguments, which may be quoted. -/
def extractLoginUsername (args : Text) : Option Text :=
  let args := trim args
  let word := if args.isEmpty then none else some (args.takeWhile fun c => !Text.isWhitespace c)
  match args with
  | '"' :: quoted => if quoted.contains '"' then some (splitFirst '"' quoted).1 else word
  | _ => word

def imapCommands (unicode : Unicode) : Nat → ProxyResult → Lines (Ending × ProxyResult)
  | 0, result => pure (.copies, result)
  | limit + 1, result => do
    let line ← relayLine .client
    if line.isEmpty then return (.closes, result)
    let result := { result with bytesFromClient := result.bytesFromClient + len line }
    match parseCommand unicode line with
    -- no answer is waited for
    | none => imapCommands unicode limit result
    | some cmd =>
      let result :=
        if cmd.command = "LOGIN" then { result with name := extractLoginUsername cmd.args }
        else result
      let resp ← relayLine .backend
      let result := { result with bytesFromBackend := result.bytesFromBackend + len resp }
      if cmd.command = "LOGIN" then return (.copies, result)
      if cmd.command ∉ (["CAPABILITY", "NOOP", "ID", "STARTTLS", "LOGOUT"] : List Text) then
        return (.copies, result)
      if cmd.command = "LOGOUT" then return (.closes, result)
      imapCommands unicode limit result

/-- The greeting of the backend, then at most ten lines of the client. -/
def imapLines (unicode : Unicode) : Lines (Ending × ProxyResult) := do
  let greeting ← relayLine .backend
  if greeting.isEmpty then return (.closes, {})
  imapCommands unicode 10 { bytesFromBackend := len greeting }

/-! ## Stratum -/

inductive Json where
  | null
  | bool (value : Bool)
  | number (value : Text)
  | string (value : Text)
  | array (values : List Json)
  | object (fields : List (Text × Json))

namespace Json

def asStr : Json → Option Text
  | string value => some value
  | _ => none

def asArray : Json → Option (List Json)
  | array values => some values
  | _ => none

def asObject : Json → Option (List (Text × Json))
  | object fields => some fields
  | _ => none

end Json

structure StratumMessage where
  method : Option Text
  params : Option Json

structure Parsers where
  unicode : Unicode
  json : Text → Option Json

def parseLine (parsers : Parsers) (line : Text) : Option StratumMessage := do
  let value ← parsers.json (trim line)
  let fields ← value.asObject
  return {
    method := (fields.lookup ("method" : Text)).bind Json.asStr
    params := fields.lookup ("params" : Text) }

def extractWorker (msg : StratumMessage) : Option Text := do
  let params ← (← msg.params).asArray
  (← params.head?).asStr

/-- Up to so many lines of the client, each with a line of the backend. -/
def stratumMessages (parsers : Parsers) : Nat → ProxyResult → Lines (Ending × ProxyResult)
  | 0, result => pure (.copies, result)
  | limit + 1, result => do
    let clientLine ← relayLine .client
    if clientLine.isEmpty then return (.closes, result)
    let result := { result with bytesFromClient := result.bytesFromClient + len clientLine }
    let authorize := (parseLine parsers clientLine).filter fun msg =>
      msg.method == some ("mining.authorize" : Text)
    let result :=
      match authorize with
      | some msg => { result with name := extractWorker msg }
      | none => result
    let backendLine ← relayLine .backend
    if backendLine.isEmpty then return (.closes, result)
    let result := { result with bytesFromBackend := result.bytesFromBackend + len backendLine }
    if authorize.isSome then return (.copies, result)
    stratumMessages parsers limit result

def stratumLines (parsers : Parsers) : Lines (Ending × ProxyResult) := stratumMessages parsers 5 {}

/-! ## What arrives -/

inductive SniffingProxy where
  | imap
  | stratum

def SniffingProxy.lines (parsers : Parsers) : SniffingProxy → Lines (Ending × ProxyResult)
  | .imap => imapLines parsers.unicode
  | .stratum => stratumLines parsers

def Parsers.simple : Parsers where
  unicode := .ascii
  json _ := none

def patientLogin : Side → ByteStream
  | .client => ⟨[bytes "a1 LOGIN u p\r\n", bytes "a2 NOOP\r\n"], by decide⟩
  | .backend => ⟨[bytes "* OK\r\n", bytes "a1 OK\r\n", bytes "a2 OK\r\n"], by decide⟩

def hastyLogin : Side → ByteStream
  | .client => ⟨[bytes "a1 LOGIN u p\r\na2 NOOP\r\n"], by decide⟩
  | .backend => ⟨[bytes "* OK\r\n", bytes "a1 OK\r\n"], by decide⟩

def lateWork : Side → ByteStream
  | .client => ⟨[bytes "subscribe\n"], by decide⟩
  | .backend => ⟨[bytes "subscribed\n", bytes "work\n"], by decide⟩

theorem seamless_patientLogin : Seamless (SniffingProxy.imap.lines .simple) patientLogin := by
  rintro (_ | _)
  · exact ⟨1, rfl⟩
  · exact ⟨2, rfl⟩

end ServerWall.Sniffing
