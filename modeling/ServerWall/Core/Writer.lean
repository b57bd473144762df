import ServerWall.Core.Editor
import ServerWall.Lib.Pool

/-!
# Writing the configuration

`serverwall-core/src/config/writer.rs`, and the frame of the functions of `editor.rs`, as programs over
system calls (`FileOp`). `create_new` and `rename` are one step; `File::create` empties a file, and
writes go to the file that was opened, some of what is left at a time. The guard is dropped on every way
out. A load is one step. A crash takes a whole process; lost writes and links are not modelled.
-/

namespace ServerWall.Core

open Schema ExceptT Function

/-! ## System calls -/

inductive FileOp (Octet : Type) where
  | load (path : Text)
  | createNew (path : Text)
  | sleep (millis : Nat)
  | create (path : Text)
  | write (file : Ino) (octets : List Octet)
  | syncAll (file : Ino)
  | rename (source target : Text)
  | removeFile (path : Text)

inductive Creation where
  | created (file : Ino)
  | taken
  | failed (e : IoError)

abbrev FileOp.Res {Octet : Type} : FileOp Octet → Type
  | .load _ => Result ServerWallConfig
  | .createNew _ => Creation
  | .sleep _ => Unit
  | .create _ => Except IoError Ino
  | .write _ _ => Except IoError Nat
  | .syncAll _ => Except IoError Unit
  | .rename _ _ => Except IoError Unit
  | .removeFile _ => Except IoError Unit

inductive Outcome where
  | ok
  | part (n : Nat)
  | fail (e : IoError)

section

variable {Octet : Type}

def Disk.make (disk : Disk Octet) (path : Text) : Disk Octet := { disk with
    names := update disk.names path (some (.made disk.made))
    data := update disk.data (.made disk.made) []
    made := disk.made + 1 }

/-- Octets at the end of a file; the file may be emptied first. -/
def Disk.store (disk : Disk Octet) (file : Ino) (octets : List Octet) : Disk Octet :=
  { disk with data := update disk.data file octets }

def Disk.move (disk : Disk Octet) (source target : Text) (file : Ino) : Disk Octet := { disk with
    names := update (update disk.names source none) target (some file) }

def Disk.unlink (disk : Disk Octet) (path : Text) : Disk Octet :=
  { disk with names := update disk.names path none }

def exec (crates : Crates Octet) : (op : FileOp Octet) → Outcome → Disk Octet → Option (op.Res × Disk Octet)
  | .load path, .ok, disk => some (loadConfig crates disk path, disk)
  | .load path, .fail e, disk => some (.error (.configLoad path e), disk)
  | .createNew path, .ok, disk =>
    if (disk.names path).isSome then some (.taken, disk)
    else some (.created (.made disk.made), disk.make path)
  | .createNew _, .fail e, disk => some (.failed e, disk)
  | .sleep _, .ok, disk => some ((), disk)
  | .create path, .ok, disk => match disk.names path with
    | some file => some (.ok file, disk.store file [])
    | none => some (.ok (.made disk.made), disk.make path)
  | .create _, .fail e, disk => some (.error e, disk)
  | .write file octets, .part n, disk =>
    if n ≤ octets.length then some (.ok n, disk.store file (disk.data file ++ octets.take n))
    else none
  | .write _ _, .fail e, disk => some (.error e, disk)
  | .syncAll _, .ok, disk => some (.ok (), disk)
  | .syncAll _, .fail e, disk => some (.error e, disk)
  | .rename source target, .ok, disk => match disk.names source with
    | some file => some (.ok (), disk.move source target file)
    | none => some (.error .notFound, disk)
  | .rename _ _, .fail e, disk => some (.error e, disk)
  | .removeFile path, .ok, disk =>
    if (disk.names path).isSome then some (.ok (), disk.unlink path)
    else some (.error .notFound, disk)
  | .removeFile _, .fail e, disk => some (.error e, disk)
  | _, _, _ => none

/-! What the system calls that look at the disk do when they are let through. -/

variable (crates : Crates Octet)
include crates

theorem exec_createNew (path : Text) (disk : Disk Octet) :
    exec crates (.createNew path) .ok disk = if (disk.names path).isSome then some (.taken, disk)
      else some (.created (.made disk.made), disk.make path) := rfl

theorem exec_create (path : Text) (disk : Disk Octet) :
    exec crates (.create path) .ok disk = match disk.names path with
      | some file => some (.ok file, disk.store file []) | none => some (.ok (.made disk.made), disk.make path) := rfl

theorem exec_write (file : Ino) (octets : List Octet) (n : Nat) (disk : Disk Octet) :
    exec crates (.write file octets) (.part n) disk =
      if n ≤ octets.length then some (.ok n, disk.store file (disk.data file ++ octets.take n)) else none := rfl

theorem exec_rename (source target : Text) (disk : Disk Octet) :
    exec crates (.rename source target) .ok disk = match disk.names source with
      | some file => some (.ok (), disk.move source target file) | none => some (.error .notFound, disk) := rfl

theorem exec_removeFile (path : Text) (disk : Disk Octet) :
    exec crates (.removeFile path) .ok disk = if (disk.names path).isSome then some (.ok (), disk.unlink path)
      else some (.error .notFound, disk) := rfl

end

/-! ## The programs -/

section

abbrev Calls (Octet α : Type) : Type := ExceptT ServerWallError (Prog (FileOp Octet) FileOp.Res) α

variable {Octet : Type}

def call (op : FileOp Octet) : Calls Octet op.Res := ExceptT.lift (Prog.perform op)

def orIo {α : Type} : Except IoError α → Calls Octet α
  | .ok a => pure a
  | .error e => throw (.io e)

def lockPath (path : Text) : Text := path ++ ".lock"

/-- The temporary file of a process, in the directory of the configuration. -/
def tmpPath (dir : Text) (os : Nat) : Text := joinPath dir (Text.fmt [".serverwall_cfg_tmp_", Text.dec os, ".toml"])

def lockedByAnother : ServerWallError := .config "config file is locked by another process"

def pause (attempts : Nat) : Calls Octet Unit := if attempts = 0 then pure () else call (.sleep 100)

def acquireLock (lock : Text) : Nat → Calls Octet Unit
  | 0 => throw lockedByAnother
  | attempts + 1 => do
    match ← call (.createNew lock) with
    | .created _ => pure ()
    | .taken => do
      pause attempts
      acquireLock lock attempts
    | .failed e => throw (.io e)

/-- `write_all`. A write that takes nothing is an error, so there are no more calls
than octets. -/
def writeAll (file : Ino) : Nat → List Octet → Calls Octet Unit
  | _, [] => pure ()
  | 0, _ :: _ => throw (.io (.other "failed to write whole buffer"))
  | calls + 1, octet :: octets => do
    let n ← orIo (← call (.write file (octet :: octets)))
    if n = 0 then throw (.io (.other "failed to write whole buffer"))
    else writeAll file calls ((octet :: octets).drop n)

def replaceFile (path tmp : Text) (doc : List Octet) : Calls Octet Unit := do
  let file ← orIo (← call (.create tmp))
  writeAll file doc.length doc
  orIo (← call (.syncAll file))
  match ← call (.rename tmp path) with
  | .ok _ => pure ()
  | .error e =>
    let _ ← call (.removeFile tmp)
    throw (.io e)

/-- A body under the lock: the guard is dropped whatever the body returns. -/
def withLock (lock : Text) (body : Calls Octet Unit) : Calls Octet Unit := do
  acquireLock lock 5
  let result ← ExceptT.lift body.run
  let _ ← call (.removeFile lock)
  ExceptT.mk (pure result)

variable (crates : Crates Octet)

def serialize (config : ServerWallConfig) : Result (List Octet) :=
  match crates.toStringPretty config with
  | .ok doc => pure doc
  | .error e => throw (.config (Text.fmt ["failed to serialize config: ", e]))

def directory (path : Text) : Result Text :=
  match parent path with
  | some dir => pure dir
  | none => throw (.config "config path has no parent directory")

def writeConfigAtomic (path : Text) (os : Nat) (config : ServerWallConfig) : Calls Octet Unit := do
  let doc ← mk (pure (serialize crates config))
  let dir ← mk (pure (directory path))
  withLock (lockPath path) (replaceFile path (tmpPath dir os) doc)

def runEdit (path : Text) (os : Nat) (op : Edit) : Calls Octet Unit := do
  let config ← (mk (Prog.perform (.load path : FileOp Octet)) : Calls Octet _)
  let config ← mk (pure (edited crates op config))
  writeConfigAtomic crates path os config

end

/-! ## Processes -/

/-- A call of the writer or of the editor, in the process with the given id. -/
inductive Caller where
  | write (os : Nat) (config : ServerWallConfig)
  | edit (os : Nat) (op : Edit)

def Caller.os : Caller → Nat
  | .write os _ => os
  | .edit os _ => os

variable {Octet : Type} (crates : Crates Octet) (path : Text)

def Caller.code : Caller → Calls Octet Unit
  | .write os config => writeConfigAtomic crates path os config
  | .edit os op => runEdit crates path os op

/-- Any number of callers on one path. A crash takes the callers of one process. -/
def callers : Machine (FileOp Octet) FileOp.Res Caller Outcome Nat (Disk Octet) (Result Unit) where
  exec := exec crates
  spawned _ := none
  code caller := (caller.code crates path).run
  admits _ _ := true
  lost os _ caller := caller.os == os
  reboot _ disk := disk

end ServerWall.Core
