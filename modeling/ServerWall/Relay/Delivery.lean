import ServerWall.Relay.Spool

/-!
# Delivery

The retry scheduler, the bounce generator and the delivery manager: a scan (`processQueue`) starts one
task per message that is due, and a task (`deliverMessage`) loads the message, marks it active, tries
the mail hosts of its first recipient's domain, and removes, bounces or reschedules it. The resolver
and the SMTP client are operations of the host.
-/

namespace ServerWall.Relay


/-! ## Retries -/

structure RetryScheduler where
  intervals : List TimeDelta
  maxAge : TimeDelta
  maxAttempts : UInt32

/-- A number and one of the letters `s`, `m`, `h`, `d`. The outer `none` is the
panic of cutting the text inside its last character. -/
def parseDuration (s : Text) : Option (Option TimeDelta) :=
  match (Text.trim s).getLast? with
  | none => some none
  | some unit =>
    if (String.utf8EncodeChar unit).length ≠ 1 then none
    else some <| (Text.parseInt64 (Text.trim s).dropLast).bind fun value =>
      match unit with
      | 's' => TimeDelta.trySeconds value
      | 'm' => TimeDelta.tryMinutes value
      | 'h' => TimeDelta.tryHours value
      | 'd' => TimeDelta.tryDays value
      | _ => none

example : parseDuration " 5m " = some (some (300 * TimeDelta.second)) := by decide +kernel
example : parseDuration "abc" = some none := by decide +kernel

structure RetryConfig where
  intervals : List Text
  maxAge : Text
  maxAttempts : UInt32

namespace RetryScheduler

/-- `RetryScheduler::new`; `none` is a panic. Intervals that do not parse are
dropped, a maximum age that does not parse is five days. -/
def new (config : RetryConfig) : Option RetryScheduler := do
  let intervals ← config.intervals.mapM parseDuration
  let maxAge ← parseDuration config.maxAge
  pure
    { intervals := intervals.filterMap id
      maxAge := maxAge.getD (5 * 86400 * TimeDelta.second)
      maxAttempts := config.maxAttempts }

variable (s : RetryScheduler)

/-- The interval after a number of attempts: the one at that place of the list,
the last one beyond its end, an hour if there is none. -/
def delay (attempt : UInt32) : TimeDelta :=
  match s.intervals[attempt.toNat]? with
  | some d => d
  | none => s.intervals.getLast?.getD (3600 * TimeDelta.second)

def nextRetryTime (attempt : UInt32) : Fallible (Option DateTime) := do
  if attempt ≥ s.maxAttempts then pure none
  else
    let now ← (now : Fallible Instant)
    match now.toDateTime.add (s.delay attempt) with
    | some next => pure (some next)
    | none => throw .panic

def isExpired (created : DateTime) : Io Bool := do
  let now ← now
  pure (decide (now.toDateTime.ns - created.ns > s.maxAge))

end RetryScheduler

/-! ## Bounces -/

/-- `String::from_utf8_lossy`, known here only on ASCII. -/
structure Decoder where
  lossy : Bytes → Text
  lossy_ascii : ∀ t : Text, (∀ c ∈ t, c.toNat < 128) → lossy t.bytes = t

/-- Octets outside ASCII become the replacement character. -/
def Decoder.ascii : Decoder where
  lossy b := b.map fun x => if x.toNat < 128 then Char.ofNat x.toNat else Char.ofNat 0xFFFD
  lossy_ascii t ht := by
    induction t with
    | nil => rfl
    | cons c t ih =>
      have hc : c.toNat < 128 := ht c List.mem_cons_self
      have hbyte : (UInt8.ofNat c.toNat).toNat = c.toNat := by
        rw [UInt8.toNat_ofNat']
        omega
      rw [Text.bytes_cons, Text.utf8EncodeChar_ascii hc, List.singleton_append, List.map_cons, hbyte,
        if_pos hc, ih fun d hd => ht d (List.mem_cons_of_mem _ hd), Char.ofNat_toNat]

structure BounceGenerator where
  bounceSender : Text
  includeOriginalHeaders : Bool

namespace BounceGenerator

def new (bounceSender : Option Text) (includeOriginalHeaders : Bool) : BounceGenerator :=
  { bounceSender := bounceSender.getD [], includeOriginalHeaders }

def extractHeaders (d : Decoder) (message : Bytes) : Text :=
  let msg := d.lossy message
  match Text.before "\r\n\r\n" msg with
  | some head => head
  | none => (Text.before "\n\n" msg).getD msg

def isNullSender (mailFrom : Text) : Bool :=
  mailFrom.isEmpty || Text.eqIgnoreAsciiCase mailFrom "MAILER-DAEMON" || mailFrom = "<>"

def recipientReport (error rcpt : Text) : Text :=
  Text.fmt ["Final-Recipient: rfc822;", rcpt, "\r\n", "Action: failed\r\n", "Status: 5.0.0\r\n",
    "Diagnostic-Code: smtp; ", error, "\r\n"]

def body (g : BounceGenerator) (original : Envelope) (error originalHeaders : Text)
    (now : Instant) (uuid : Nat) : Text :=
  let messageId := Text.fmt ["<bounce-", Text.dec now.timestamp, "-", Text.zeroPad 32 (Text.hex uuid), "@localhost>"]
  let date := now.toRfc2822
  let boundary := Text.fmt ["=_bounce_", Text.dec now.timestampMillis]
  let recipientsReport := Text.join "\r\n" (original.rcptTo.map (recipientReport error))
  Text.fmt [ "From: MAILER-DAEMON <", g.bounceSender, ">\r\n", "To: <", original.mailFrom, ">\r\n", "Date: ", date,
    "\r\n", "Message-ID: ", messageId, "\r\n", "Subject: Delivery Status Notification (Failure)\r\n",
    "MIME-Version: 1.0\r\n", "Content-Type: multipart/report; report-type=delivery-status;\r\n", "    boundary=\"",
    boundary, "\"\r\n", "\r\n"] ++ Text.fmt [ "--", boundary, "\r\n", "Content-Type: text/plain; charset=utf-8\r\n", "\r\n",
    "This is an automatically generated Delivery Status Notification.\r\n", "\r\n",
    "Delivery to the following recipients failed:\r\n", "\r\n", Text.join ", " original.rcptTo, "\r\n", "\r\n",
    "Error: ", error, "\r\n", "\r\n"] ++ Text.fmt [ "--", boundary, "\r\n", "Content-Type: message/delivery-status\r\n", "\r\n",
    "Reporting-MTA: dns; localhost\r\n", "Arrival-Date: ", date, "\r\n", "\r\n", recipientsReport,
    "\r\n"] ++ Text.fmt [ "--", boundary, "\r\n", "Content-Type: text/rfc822-headers\r\n", "\r\n",
    originalHeaders, "\r\n", "--", boundary, "--\r\n"]

/-- A notification to the sender of a message, or nothing for a null sender. -/
def generate (g : BounceGenerator) (d : Decoder) (original : Envelope) (error : Text)
    (originalMessage : Bytes) : Io (Option (Envelope × Bytes)) := do
  if isNullSender original.mailFrom then
    trace .nullSender
    pure none
  else
    let now ← now
    let uuid ← uuid
    let originalHeaders :=
      if g.includeOriginalHeaders then extractHeaders d originalMessage else []
    pure (some (⟨g.bounceSender, [original.mailFrom]⟩, (g.body original error originalHeaders now uuid).bytes))

end BounceGenerator

/-! ## The delivery manager -/

structure Config where
  spoolDir : Text
  scheduler : RetryScheduler
  bounceGen : BounceGenerator
  decoder : Decoder
  deliveryThreads : Nat

variable (cfg : Config)

def bounce (original : Envelope) (error : Text) (originalMessage : Bytes) : Io Unit := do
  match ← cfg.bounceGen.generate cfg.decoder original error originalMessage with
  | some (bounceEnv, bounceMsg) => let _ ← (enqueue bounceEnv bounceMsg).run
  | none => pure ()

def handleTempFail (queueId error : Text) (queued : QueuedMessage) : Fallible Unit := do
  if ← (cfg.scheduler.isExpired queued.metadata.created : Fallible Bool) then
    (trace (.expired queueId) : Fallible Unit)
    (bounce cfg queued.envelope error [] : Fallible Unit)
    remove queueId
  else
    match ← cfg.scheduler.nextRetryTime queued.metadata.attempts with
    | some next =>
      updateMetadata queueId
        { queued.metadata with nextRetry := next, status := .deferred, lastError := some error }
      (trace (.rescheduled queueId next) : Fallible Unit)
    | none =>
      (trace (.attemptsExceeded queueId) : Fallible Unit)
      (bounce cfg queued.envelope error [] : Fallible Unit)
      remove queueId

def targets (hosts : List MxHost) : List (MxHost × IpAddr) :=
  hosts.flatMap fun h => h.addresses.map fun a => (h, a)

/-- One address after the other, until one does not fail temporarily. -/
def tryTargets (queueId : Text) (msgBytes : Bytes) : List (MxHost × IpAddr) → QueuedMessage → Fallible Unit
  | [], queued => handleTempFail cfg queueId (queued.metadata.lastError.getD []) queued
  | (host, addr) :: rest, queued => do
    match ← (send addr host.hostname queued.envelope.mailFrom queued.envelope.rcptTo msgBytes : Fallible DeliveryResult) with
    | .success resp =>
      (trace (.delivered queueId resp) : Fallible Unit)
      remove queueId
    | .permFail err =>
      (trace (.permanentFailure queueId err) : Fallible Unit)
      (bounce cfg queued.envelope err msgBytes : Fallible Unit)
      remove queueId
    | .tempFail err =>
      (trace (.temporaryFailure queueId host.hostname addr err) : Fallible Unit)
      tryTargets queueId msgBytes rest { queued with metadata := { queued.metadata with lastError := some err } }

/-- The domain a message is delivered to: what follows the last `@` of its
first recipient. -/
def recipientDomain (envelope : Envelope) : Text :=
  match envelope.rcptTo.head? with
  | some r => Text.lastPiece '@' r
  | none => "localhost"

def MessageMetadata.activated (m : MessageMetadata) : MessageMetadata :=
  { m with status := .active, attempts := m.attempts + 1 }

def deliverMessage (queueId : Text) : Fallible Unit := do
  let (loaded, msgBytes) ← dequeue queueId
  let queued := { loaded with metadata := loaded.metadata.activated }
  updateMetadata queueId queued.metadata
  match ← (resolve (recipientDomain queued.envelope) : Fallible (Except Text (List MxHost))) with
  | .ok mxHosts => tryTargets cfg queueId msgBytes (targets mxHosts) queued
  | .error e =>
    (trace (.mxFailed queueId (recipientDomain queued.envelope) e) : Fallible Unit)
    handleTempFail cfg queueId e queued

def QueuedMessage.isDue (msg : QueuedMessage) (now : Instant) : Bool :=
  (msg.metadata.status = .pending || msg.metadata.status = .deferred) &&
    decide (msg.metadata.nextRetry.ns ≤ now.toDateTime.ns)

def spawnDue (now : Instant) : List QueuedMessage → Io Unit
  | [] => pure ()
  | msg :: rest => do
    if msg.isDue now then
      -- a closed semaphore ends the scan
      if ← acquire then
        spawn msg.id
        spawnDue now rest
    else
      spawnDue now rest

def processQueue : Fallible Unit := do
  let messages ← list cfg.spoolDir
  let now ← (now : Fallible Instant)
  (spawnDue now messages : Fallible Unit)

end ServerWall.Relay
