import ServerWall.Relay.Delivery

/-!
# Who works on the queue

The processes that share the spool: receiver sessions, the periodic scan, the delivery tasks it starts,
and the queue commands of the web interface and the command line. One scan runs at a time. Each daemon and
program can crash alone, and all with the host (`Fault`). Commands that only read are left out.
-/

namespace ServerWall.Relay

inductive Route where
  | delete (id : Text)
  | retry (id : Text)
  | hold (id : Text)
  | release (id : Text)
  | flush
  | purge (days : Option Nat)
  deriving DecidableEq

inductive QueueAction where
  | delete (id : Text)
  | retry (id : Text)
  | hold (id : Text)
  | release (id : Text)
  | flush
  deriving DecidableEq

inductive Role where
  | receive (envelope : Envelope) (message : Bytes)
  | scan
  | task (id : Text)
  | web (route : Route)
  | cli (action : QueueAction)
  deriving DecidableEq

inductive JsonValue where
  | bool (b : Bool)
  | number (n : Nat)
  | string (t : Text)
  deriving DecidableEq

inductive Response where
  | none
  | http (status : Nat) (body : List (Text × JsonValue))
  | printed (line : Text)
  | failed (message : Text)
  | panicked
  deriving DecidableEq

def Response.isOk : Response → Bool
  | .http status _ => status = 200
  | .printed _ => true
  | _ => false

variable (cfg : Config)

/-! ## The relay itself -/

def receiveMessage (envelope : Envelope) (message : Bytes) : Io Response := do
  match ← (enqueue envelope message).run with
  | .ok queueId => reply (.queued queueId)
  | .error _ => reply .internalError
  pure .none

def scan : Io Response := do
  match ← (processQueue cfg).run with
  | .ok _ => pure ()
  | .error _ => trace .processingError
  pure .none

/-- A spawned task. Its permit is dropped with it, after a panic as well. -/
def task (queueId : Text) : Io Response := do
  match ← (deliverMessage cfg queueId).run with
  | .ok _ =>
    release
    pure .none
  | .error .panic =>
    release
    pure .panicked
  | .error _ =>
    trace (.taskFailed queueId)
    release
    pure .none

/-! ## The web interface -/

def errorBody (parts : List Text) : List (Text × JsonValue) := [(("error" : Text), .string (Text.fmt parts))]

def okBody (verb id : Text) : List (Text × JsonValue) := [(verb, .bool true), (("id" : Text), .string id)]

/-- The endpoints that rewrite the metadata of one message: `verb` names the
operation in the answer, `complaint` starts the message of a failed update. -/
def webRewrite (verb complaint id : Text) (change : MessageMetadata → Io MessageMetadata) : Io Response := do
  match ← (dequeue id).run with
  | .ok (msg, _) =>
    let metadata ← change msg.metadata
    match ← (updateMetadata id metadata).run with
    | .ok _ => pure (.http 200 (okBody verb id))
    | .error e => pure (.http 500 (errorBody [complaint, e.display]))
  | .error _ => pure (.http 404 (errorBody ["message not found"]))

def toPendingNow (m : MessageMetadata) : Io MessageMetadata := do
  let now ← now
  pure { m with status := .pending, nextRetry := now.toDateTime }

def toHeld (m : MessageMetadata) : Io MessageMetadata := pure { m with status := .held }

def toPending (m : MessageMetadata) : Io MessageMetadata := pure { m with status := .pending }

def webDelete (id : Text) : Io Response := do
  match ← (remove id).run with
  | .ok _ => pure (.http 200 (okBody "deleted" id))
  | .error e => pure (.http 404 (errorBody ["failed to delete message: ", e.display]))

def webRetry (id : Text) : Io Response := webRewrite "retrying" "failed to update message: " id toPendingNow

def webHold (id : Text) : Io Response := webRewrite "held" "failed to hold message: " id toHeld

def webRelease (id : Text) : Io Response := webRewrite "released" "failed to release message: " id toPendingNow

/-- Make every message that `picks` pending and due now; the number of messages
counted by `counts` from the results of the updates. -/
def flushEntries (picks : QueueStatus → Bool) (counts : Except Failure Unit → Bool) : List QueuedMessage → Nat → Io Nat
  | [], flushed => pure flushed
  | msg :: rest, flushed => do
    if picks msg.metadata.status then
      let metadata ← toPendingNow msg.metadata
      let result ← (updateMetadata msg.id metadata).run
      flushEntries picks counts rest (if counts result then flushed + 1 else flushed)
    else
      flushEntries picks counts rest flushed

def listOrEmpty : Io (List QueuedMessage) := do
  match ← (list cfg.spoolDir).run with
  | .ok messages => pure messages
  | .error _ => pure []

def webFlush : Io Response := do
  let messages ← listOrEmpty cfg
  let flushed ← flushEntries (fun st => st = .deferred || st = .pending) Except.toBool messages 0
  pure (.http 200 [(("flushed" : Text), .number flushed)])

def purgeEntries (cutoff : DateTime) : List QueuedMessage → Nat → Io Nat
  | [], purged => pure purged
  | msg :: rest, purged => do
    if msg.metadata.created.ns < cutoff.ns then
      let result ← (remove msg.id).run
      purgeEntries cutoff rest (if result.toBool then purged + 1 else purged)
    else
      purgeEntries cutoff rest purged

/-- `days as i64`: the 64 bits read as a signed number. -/
def asInt64 (days : Nat) : Int := if days < 2 ^ 63 then days else (days : Int) - 2 ^ 64

/-- The cut-off of a purge; `none` is a panic, of the span or of the
subtraction. -/
def purgeCutoff (now : Instant) (days : Nat) : Option DateTime :=
  (TimeDelta.tryDays (asInt64 days)).bind fun span => now.toDateTime.add (-span)

def webPurge (days : Option Nat) : Io Response := do
  let days := days.getD 7
  let now ← now
  match purgeCutoff now days with
  | none => pure .panicked
  | some cutoff =>
    let messages ← listOrEmpty cfg
    let purged ← purgeEntries cutoff messages 0
    pure (.http 200 [(("purged" : Text), .number purged), (("days" : Text), .number days)])

/-! ## The command line -/

def cliRewrite (id done : Text) (change : MessageMetadata → Io MessageMetadata) :
    Io Response := do
  match ← (dequeue id).run with
  | .ok (msg, _) =>
    let metadata ← change msg.metadata
    match ← (updateMetadata id metadata).run with
    | .ok _ => pure (.printed (Text.fmt ["Message ", id, done]))
    | .error e => pure (.failed e.display)
  | .error e => pure (.failed e.display)

def cliDelete (id : Text) : Io Response := do
  match ← (remove id).run with
  | .ok _ => pure (.printed (Text.fmt ["Message ", id, " deleted."]))
  | .error e => pure (.failed (Text.fmt ["failed to delete: ", e.display]))

def cliRetry (id : Text) : Io Response := cliRewrite id " queued for immediate retry." toPendingNow

def cliHold (id : Text) : Io Response := cliRewrite id " held." toHeld

def cliRelease (id : Text) : Io Response := cliRewrite id " released to pending." toPending

/-- The command line flushes deferred messages only, and counts them whether or
not the update succeeds. -/
def cliFlush : Io Response := do
  let messages ← listOrEmpty cfg
  let count ← flushEntries (fun st => st = .deferred) (fun _ => true) messages 0
  pure (.printed (Text.fmt ["Flushed ", Text.dec count, " deferred messages."]))

/-! ## The machine -/

def code : Role → Io Response
  | .receive envelope message => receiveMessage envelope message
  | .scan => scan cfg
  | .task id => task cfg id
  | .web (.delete id) => webDelete id
  | .web (.retry id) => webRetry id
  | .web (.hold id) => webHold id
  | .web (.release id) => webRelease id
  | .web .flush => webFlush cfg
  | .web (.purge days) => webPurge cfg days
  | .cli (.delete id) => cliDelete id
  | .cli (.retry id) => cliRetry id
  | .cli (.hold id) => cliHold id
  | .cli (.release id) => cliRelease id
  | .cli .flush => cliFlush cfg

/-- Tasks are started by a scan only, and one scan runs at a time. -/
def admits : Role → List Role → Bool
  | .task _, _ => false
  | .scan, running => !running.contains .scan
  | _, _ => true

def spawned : Op → Option Role
  | .spawn id => some (.task id)
  | _ => none

inductive Fault where
  | host
  | daemon
  | webui
  /-- The command line program that is this process. -/
  | command (pid : Nat)

def lost : Fault → Nat → Role → Bool
  | .host, _, _ => true
  | .daemon, _, .receive _ _ => true
  | .daemon, _, .scan => true
  | .daemon, _, .task _ => true
  | .webui, _, .web _ => true
  | .command pid, q, .cli _ => q = pid
  | _, _, _ => false

/-- The semaphore is the daemon's, and new with it. -/
def reboot : Fault → World → World
  | .host, w => { w with permits := cfg.deliveryThreads }
  | .daemon, w => { w with permits := cfg.deliveryThreads }
  | _, w => w

def relay : Machine Op Res Role Outcome Fault World Response where
  exec := exec
  spawned := spawned
  code := code cfg
  admits := admits
  lost := lost
  reboot := reboot cfg

abbrev Schedule := List (Label Role Outcome Fault)

abbrev Happening := Event Op Res Role Response

end ServerWall.Relay
