import ServerWall.Relay.Host

/-!
# The spool

The functions of the filesystem spool, operation by operation. There is no lock and no rename: a
message is stored by writing its `.msg` and then its `.meta` file in place, updated by reading and
rewriting its `.meta` file, and removed by unlinking the two. Serialising a record cannot fail on the
types at hand.
-/

namespace ServerWall.Relay


/-- Twelve hexadecimal digits: 32 bits of the clock in milliseconds and 16
random bits. -/
def generateQueueId : Io Text := do
  let ts ← now
  let random ← uuid
  pure (Text.hexUpper 8 (ts.timestampMillis % 2 ^ 32) ++ Text.hexUpper 4 (random % 2 ^ 16))

def queueId (ts : Instant) (random : Nat) : Text :=
  Text.hexUpper 8 (ts.timestampMillis % 2 ^ 32) ++ Text.hexUpper 4 (random % 2 ^ 16)

theorem generateQueueId_eq : generateQueueId = (do
    let ts ← now
    let random ← uuid
    pure (queueId ts random) : Io Text) := rfl

theorem lf_not_mem_queueId (ts : Instant) (random : Nat) : '\n' ∉ queueId ts random := by
  intro h
  rcases List.mem_append.mp h with h | h
  · exact Text.lf_not_mem_hexUpper _ _ h
  · exact Text.lf_not_mem_hexUpper _ _ h

def enqueue (envelope : Envelope) (message : Bytes) : Fallible Text := do
  let queueId ← (generateQueueId : Fallible Text)
  let now ← (now : Fallible Instant)
  let queued : QueuedMessage :=
    { id := queueId
      envelope
      metadata :=
        { created := now.toDateTime
          nextRetry := now.toDateTime
          attempts := 0
          lastError := none
          status := .pending
          size := message.length } }
  withContext (Text.fmt ["failed to write message file for ", queueId])
    (writeFile (.msgPath queueId) (.text message))
  withContext (Text.fmt ["failed to write metadata file for ", queueId])
    (writeFile (.metaPath queueId) (.record queued))
  (trace (.enqueued queueId message.length) : Fallible Unit)
  pure queueId

def parseMetadata (queueId : Text) (content : Content) : Fallible QueuedMessage :=
  match content.parse with
  | some queued => pure queued
  | none => throw (.context (Text.fmt ["failed to parse metadata for ", queueId]))

def dequeue (queueId : Text) : Fallible (QueuedMessage × Bytes) := do
  let metaBytes ← withContext (Text.fmt ["failed to read metadata for ", queueId]) (read (.metaPath queueId))
  let queued ← parseMetadata queueId metaBytes
  let msgBytes ← withContext (Text.fmt ["failed to read message for ", queueId]) (read (.msgPath queueId))
  pure (queued, msgBytes.octets)

def removeFile (p : Path) (message : Text) : Fallible Unit := do
  if ← (pathExists p : Fallible Bool) then
    withContext message (unlink p)

def remove (queueId : Text) : Fallible Unit := do
  removeFile (.metaPath queueId) (Text.fmt ["failed to remove metadata for ", queueId])
  removeFile (.msgPath queueId) (Text.fmt ["failed to remove message for ", queueId])
  (trace (.removed queueId) : Fallible Unit)

/-- The records behind the entries of a listing. Only `.meta` files are read,
and one that cannot be read or parsed is skipped. -/
def listEntries : List (Except IoError Path) → List QueuedMessage → Fallible (List QueuedMessage)
  | [], messages => pure messages
  | .error e :: _, _ => throw (.io e)
  | .ok (.msgPath _) :: entries, messages => listEntries entries messages
  | .ok (.metaPath id) :: entries, messages => do
    match ← (read (.metaPath id) : Fallible (Except IoError Content)) with
    | .ok data => match data.parse with
      | some msg => listEntries entries (messages ++ [msg])
      | none =>
        (trace (.corruptMetadata (.metaPath id)) : Fallible Unit)
        listEntries entries messages
    | .error _ =>
      (trace (.unreadableMetadata (.metaPath id)) : Fallible Unit)
      listEntries entries messages

def list (spoolDir : Text) : Fallible (List QueuedMessage) := do
  let entries ← withContext (Text.fmt ["failed to read spool directory: ", spoolDir]) readDir
  listEntries entries []

def updateMetadata (queueId : Text) (metadata : MessageMetadata) : Fallible Unit := do
  let metaBytes ← withContext (Text.fmt ["failed to read metadata for ", queueId]) (read (.metaPath queueId))
  let queued ← parseMetadata queueId metaBytes
  withContext (Text.fmt ["failed to write updated metadata for ", queueId])
    (writeFile (.metaPath queueId) (.record { queued with metadata }))

end ServerWall.Relay
