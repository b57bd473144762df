import ServerWall.Lib.Net
import ServerWall.Lib.Time
import ServerWall.Lib.Pool

/-!
# The relay's messages and the host it runs on

The data of the queue, and all that relay code asks of its host, one operation (`Op`) each; `exec` is the
host. A file is an inode with a content. A write goes to the inode that was opened, leaves the tail of a
longer document behind, and if it fails a beginning of the data. A complete `.meta` document is the record
it parses to, any other is `torn`. A crash loses processes; unsynced writes are not lost.
-/

namespace ServerWall.Relay

/-! ## Messages -/

structure Envelope where
  mailFrom : Text
  rcptTo : List Text
  deriving DecidableEq

inductive QueueStatus where
  | pending
  | active
  | deferred
  | held
  deriving DecidableEq

structure MessageMetadata where
  (created nextRetry : DateTime)
  attempts : UInt32
  lastError : Option Text
  status : QueueStatus
  size : Nat
  deriving DecidableEq

structure QueuedMessage where
  id : Text
  envelope : Envelope
  metadata : MessageMetadata
  deriving DecidableEq

/-- A mail host with its addresses; the resolver returns them by priority. -/
structure MxHost where
  hostname : Text
  priority : UInt16
  addresses : List IpAddr

inductive DeliveryResult where
  | success (response : Text)
  | tempFail (error : Text)
  | permFail (error : Text)

/-! ## Files -/

inductive Path where
  | metaPath (id : Text)
  | msgPath (id : Text)
  deriving DecidableEq

inductive Content where
  | blank
  | record (q : QueuedMessage)
  | text (b : Bytes)
  /-- A document cut short, or one with the tail of another. -/
  | torn
  deriving DecidableEq

namespace Content

def parse : Content → Option QueuedMessage
  | .record q => some q
  | _ => none

def octets : Content → Bytes
  | .text b => b
  | _ => []

/-- The content after `new` was written from the start over `old`; `covers`
says whether a document is at least as long as the one it is written over. -/
def land (old new : Content) (covers : Bool) : Content :=
  match old, new with
  | .blank, c => c
  | .text b, .text b' => .text (b' ++ b.drop b'.length)
  | _, c => if covers then c else .torn

def cut : Content → Content → Bool
  | .record _, c => c = .blank || c = .torn
  | .text b, .text b' => b'.isPrefixOf b
  | .text _, c => c = .blank
  | _, _ => false

@[simp] theorem parse_eq_some {c : Content} {q : QueuedMessage} : c.parse = some q ↔ c = .record q := by
  cases c <;> simp [parse]

end Content

structure File where
  ino : Nat
  content : Content

/-! ## Operations -/

inductive TraceLine where
  | enqueued (id : Text) (size : Nat)
  | removed (id : Text)
  | corruptMetadata (p : Path)
  | unreadableMetadata (p : Path)
  | mxFailed (id domain error : Text)
  | delivered (id response : Text)
  | permanentFailure (id error : Text)
  | temporaryFailure (id mx : Text) (addr : IpAddr) (error : Text)
  | expired (id : Text)
  | rescheduled (id : Text) (next : DateTime)
  | attemptsExceeded (id : Text)
  | nullSender
  | taskFailed (id : Text)
  | processingError

inductive Reply where
  | queued (id : Text)
  | internalError

def Reply.text : Reply → Text
  | .queued id => Text.fmt ["250 2.0.0 OK queued as ", id, "\r\n"]
  | .internalError => "451 4.3.0 Internal error, try again later\r\n"

inductive Op where
  | now
  | uuid
  | read (p : Path)
  | create (p : Path)
  | write (p : Path) (fd : Nat) (c : Content)
  | stat (p : Path)
  | unlink (p : Path)
  | readDir
  | resolve (domain : Text)
  /-- Hand a message to the sender, for one address and port 25. -/
  | sendStart (addr : IpAddr) (hostname mailFrom : Text) (rcptTo : List Text) (message : Bytes)
  | sendWait
  | acquire
  | release
  | spawn (id : Text)
  | trace (line : TraceLine)
  | reply (r : Reply)

@[reducible] def Res : Op → Type
  | .now => Instant
  | .uuid => Nat
  | .read _ => Except IoError Content
  | .create _ => Except IoError Nat
  | .write _ _ _ => Except IoError Unit
  | .stat _ => Except IoError Bool
  | .unlink _ => Except IoError Unit
  | .readDir => Except IoError (List (Except IoError Path))
  | .resolve _ => Except Text (List MxHost)
  | .sendStart _ _ _ _ _ => Unit
  | .sendWait => DeliveryResult
  | .acquire => Bool
  | .release => Unit
  | .spawn _ => Unit
  | .trace _ => Unit
  | .reply _ => Unit

inductive Outcome where
  | ok
  | clock (t : Instant)
  | random (n : Nat)
  | ioError (e : IoError)
  | overlaid
  | short (c : Content)
  | listing (entries : List (Except IoError Path))
  | hosts (r : Except Text (List MxHost))
  | sent (r : DeliveryResult)
  | closed

/-- The host: the files, and the free permits of the delivery semaphore. -/
structure World where
  files : Path → Option File := fun _ => none
  nextIno : Nat := 0
  permits : Nat

namespace World

variable (w : World)

def put (p : Path) (f : Option File) : World := { w with files := Function.update w.files p f }

/-- A file opened for writing: the one at the path, emptied, or a new one. -/
def openFile (p : Path) : Nat × World :=
  match w.files p with
  | some f => (f.ino, w.put p (some ⟨f.ino, .blank⟩))
  | none => (w.nextIno, { w.put p (some ⟨w.nextIno, .blank⟩) with nextIno := w.nextIno + 1 })

def writeInode (p : Path) (fd : Nat) (f : Content → Content) : World :=
  match w.files p with
  | some file => if file.ino = fd then w.put p (some ⟨fd, f file.content⟩) else w
  | none => w

/-- Whether a directory listing names files that are there, each once. -/
def lists (entries : List (Except IoError Path)) : Bool :=
  let paths := entries.filterMap Except.toOption
  decide paths.Nodup && paths.all fun p => (w.files p).isSome

end World

/-- One operation on the host, as the environment decides it. -/
def exec (op : Op) (out : Outcome) (w : World) : Option (Res op × World) :=
  match op with
  | .now => match out with
    | .clock t => some (t, w)
    | _ => none
  | .uuid => match out with
    | .random n => some (n, w)
    | _ => none
  | .read p => match out with
    | .ok => match w.files p with
      | some f => some (.ok f.content, w)
      | none => some (.error .notFound, w)
    | .ioError e => some (.error e, w)
    | _ => none
  | .create p => match out with
    | .ok => some (.ok (w.openFile p).1, (w.openFile p).2)
    | .ioError e => some (.error e, w)
    | _ => none
  | .write p fd c => match out with
    | .ok => some (.ok (), w.writeInode p fd fun old => old.land c true)
    | .overlaid => some (.ok (), w.writeInode p fd fun old => old.land c false)
    | .short c' => if c.cut c' then some (.error (.other []), w.writeInode p fd fun _ => c') else none
    | _ => none
  | .stat p => match out with
    | .ok => some (.ok (w.files p).isSome, w)
    | .ioError e => some (.error e, w)
    | _ => none
  | .unlink p => match out with
    | .ok => match w.files p with
      | some _ => some (.ok (), w.put p none)
      | none => some (.error .notFound, w)
    | .ioError e => some (.error e, w)
    | _ => none
  | .readDir => match out with
    | .listing entries => if w.lists entries then some (.ok entries, w) else none
    | .ioError e => some (.error e, w)
    | _ => none
  | .resolve _ => match out with
    | .hosts r => some (r, w)
    | _ => none
  | .sendStart _ _ _ _ _ => match out with
    | .ok => some ((), w)
    | _ => none
  | .sendWait => match out with
    | .sent r => some (r, w)
    | _ => none
  | .acquire => match out with
    -- with no permit left the scan waits: no answer
    | .ok => if w.permits = 0 then none else some (true, { w with permits := w.permits - 1 })
    | .closed => some (false, w)
    | _ => none
  | .release => match out with
    | .ok => some ((), { w with permits := w.permits + 1 })
    | _ => none
  | .spawn _ => match out with
    | .ok => some ((), w)
    | _ => none
  | .trace _ => match out with
    | .ok => some ((), w)
    | _ => none
  | .reply _ => match out with
    | .ok => some ((), w)
    | _ => none

/-! ## Relay code -/

abbrev Io := Prog Op Res

/-- How a fallible function of the source ends early: an error with its
outermost context, a bare I/O error, or a panic. -/
inductive Failure where
  | context (message : Text)
  | io (e : IoError)
  | panic

def Failure.display : Failure → Text
  | .context m => m
  | .io .notFound => "No such file or directory (os error 2)"
  | .io .connectionReset => "Connection reset by peer (os error 104)"
  | .io .brokenPipe => "Broken pipe (os error 32)"
  | .io .invalidData => "invalid data"
  | .io (.other m) => m
  | .panic => []

abbrev Fallible := ExceptT Failure Io

def perform (op : Op) : Io (Res op) := Prog.perform op

def now : Io Instant := perform .now
def uuid : Io Nat := perform .uuid
def read (p : Path) : Io (Except IoError Content) := perform (.read p)
def unlink (p : Path) : Io (Except IoError Unit) := perform (.unlink p)
def readDir : Io (Except IoError (List (Except IoError Path))) := perform .readDir
def resolve (domain : Text) : Io (Except Text (List MxHost)) := perform (.resolve domain)
def acquire : Io Bool := perform .acquire
def release : Io Unit := perform .release
def spawn (id : Text) : Io Unit := perform (.spawn id)
def trace (line : TraceLine) : Io Unit := perform (.trace line)
def reply (r : Reply) : Io Unit := perform (.reply r)

/-- `Path::exists`: a path that cannot be examined does not exist. -/
def pathExists (p : Path) : Io Bool := do
  match ← perform (.stat p) with
  | .ok b => pure b
  | .error _ => pure false

def writeFile (p : Path) (c : Content) : Io (Except IoError Unit) := do
  match ← perform (.create p) with
  | .ok fd => perform (.write p fd c)
  | .error e => pure (.error e)

def send (addr : IpAddr) (hostname mailFrom : Text) (rcptTo : List Text) (message : Bytes) :
    Io DeliveryResult := do
  perform (.sendStart addr hostname mailFrom rcptTo message)
  perform .sendWait

def withContext {α : Type} (message : Text) (x : Io (Except IoError α)) : Fallible α := ExceptT.mk do
    match ← x with
    | .ok v => pure (.ok v)
    | .error _ => pure (.error (.context message))

end ServerWall.Relay
