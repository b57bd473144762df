import ServerWall.Core.Sequential

/-!
# What a caller does, by what it has done

The protocol of a call of the writer or of the editor: `Permits` says which system call each `Stage` of
it allows. Only under the lock is the temporary file made, written and put in place, and the lock is
given back before the call returns. The code keeps to this whatever the system answers (`code_follows`).
-/

namespace ServerWall.Core

open Schema List Protocol ExceptT

variable {Octet : Type}

inductive Stage (Octet : Type) where
  /-- Before the load, or after one that came to nothing. -/
  | idle
  | ready (config : ServerWallConfig)
  | waiting (config : ServerWallConfig)
  | barred
  | locked (config : ServerWallConfig) (lock : Ino)
  | writing (config : ServerWallConfig) (lock file : Ino) (written : List Octet)
  | botched (config : ServerWallConfig) (lock : Ino)
  | installed (config : ServerWallConfig) (lock : Ino)
  /-- It has dropped the guard; whether the file was replaced. -/
  | released (replaced : Bool)

def Stage.lock? : Stage Octet → Option Ino
  | .locked _ lock => some lock
  | .writing _ lock _ _ => some lock
  | .botched _ lock => some lock
  | .installed _ lock => some lock
  | _ => none

def Stage.replaced : Stage Octet → Bool
  | .installed _ _ => true
  | .released replaced => replaced
  | _ => false

section

variable (crates : Crates Octet) (path : Text)

def Caller.IsTmp (caller : Caller) (tmp : Text) : Prop := ∃ dir, directory path = .ok dir ∧ tmp = tmpPath dir caller.os

def Permits (caller : Caller) : Stage Octet → FileOp Octet → Prop
  | .idle, .load p => p = path ∧ ∃ os op, caller = .edit os op
  | .ready config, .createNew p => p = lockPath path ∧ ∃ doc, serialize crates config = .ok doc
  | .waiting config, .createNew p => p = lockPath path ∧ ∃ doc, serialize crates config = .ok doc
  | .waiting _, .sleep _ => True
  | .locked _ _, .create p => caller.IsTmp path p
  | .writing config _ file written, .write f octets => f = file ∧ serialize crates config = .ok (written ++ octets)
  | .writing _ _ file _, .syncAll f => f = file
  | .writing config _ _ written, .rename source target =>
      caller.IsTmp path source ∧ target = path ∧ serialize crates config = .ok written
  | .botched _ _, .removeFile p => caller.IsTmp path p ∨ p = lockPath path
  | .installed _ _, .removeFile p => p = lockPath path
  | _, _ => False

def Caller.loads (caller : Caller) : Result ServerWallConfig → Stage Octet
  | .ok loaded => match caller with
    | .edit _ op => match edited crates op loaded with
      | .ok config => .ready config
      | .error _ => .idle
    | .write _ _ => .idle
  | .error _ => .idle

def Stage.attempt (config : ServerWallConfig) : Creation → Stage Octet
  | .created lock => .locked config lock
  | .taken => .waiting config
  | .failed _ => .barred

def Stage.track (caller : Caller) : Stage Octet → (op : FileOp Octet) → op.Res → Stage Octet
  | .idle, .load _, r => caller.loads crates r
  | .ready config, .createNew _, r => .attempt config r
  | .waiting config, .createNew _, r => .attempt config r
  | .locked config lock, .create _, .ok file => .writing config lock file []
  | .locked config lock, .create _, .error _ => .botched config lock
  | .writing config lock file written, .write _ octets, .ok n =>
      if n = 0 then .botched config lock
      else .writing config lock file (written ++ octets.take n)
  | .writing config lock _ _, .write _ _, .error _ => .botched config lock
  | .writing config lock _ _, .syncAll _, .error _ => .botched config lock
  | .writing config lock _ _, .rename _ _, .ok _ => .installed config lock
  | .writing config lock _ _, .rename _ _, .error _ => .botched config lock
  | .botched config lock, .removeFile p, _ => if p = lockPath path then .released false else .botched config lock
  | .installed _ _, .removeFile _, _ => .released true
  | stage, _, _ => stage

def Stage.Returns : Stage Octet → Result Unit → Prop
  | .idle, x => ∃ e, x = .error e
  | .ready _, x => ∃ e, x = .error e
  | .waiting _, x => x = .error lockedByAnother
  | .barred, x => ∃ e, x = .error (.io e)
  | .released true, x => x = .ok ()
  | .released false, x => ∃ e, x = .error (.io e)
  | _, _ => False

def Caller.stage : Caller → Stage Octet
  | .write _ config => .ready config
  | .edit _ _ => .idle

def conduct : Protocol (FileOp Octet) FileOp.Res Caller (Stage Octet) (Result Unit) where
  start := Caller.stage
  allowed := Permits crates path
  track := Stage.track crates path
  ends _ := Stage.Returns

end

/-! ## The code keeps to it -/

section

variable {crates : Crates Octet} {path : Text} {config : ServerWallConfig}
variable {lock file : Ino}

theorem follows_call : (conduct crates path).Follows caller (call op).run a post ↔ Permits crates path caller a op ∧
        ∀ r, post (Stage.track crates path caller a op r) (.ok r) := Iff.rfl

theorem follows_result {α : Type} {x : Result α} {a : Stage Octet}
    {post : Stage Octet → Except ServerWallError α → Prop} :
    (conduct crates path).Follows caller (mk (pure x) : Calls Octet α).run a post ↔ post a x := Iff.rfl

theorem track_botched : Stage.track crates path caller (.botched config lock : Stage Octet) (.removeFile p) r =
      if p = lockPath path then .released false else .botched config lock := by
  cases r <;> rfl

/-- Work under the lock: it comes to the stage `good`, or it fails with an error of
the system and nothing is in place. -/
def Works (config : ServerWallConfig) (lock : Ino) (good : Stage Octet) (a : Stage Octet) :
    Except ServerWallError Unit → Prop
  | .ok _ => a = good
  | .error e => a = .botched config lock ∧ ∃ io, e = .io io

theorem writeAll_follows (hc : octets.length ≤ calls) (hdoc : serialize crates config = .ok (written ++ octets)) :
    (conduct crates path).Follows caller (writeAll file calls octets).run (.writing config lock file written)
      (Works config lock (.writing config lock file (written ++ octets))) := by
  induction calls generalizing written octets with
  | zero =>
    obtain rfl := length_eq_zero_iff.mp (Nat.le_zero.mp hc)
    show Stage.writing config lock file written = _
    rw [append_nil]
  | succ calls ih =>
    cases octets with
    | nil =>
      show Stage.writing config lock file written = _
      rw [append_nil]
    | cons octet octets =>
      refine ⟨⟨rfl, hdoc⟩, fun answer => ?_⟩
      cases answer with
      | error e => exact ⟨rfl, e, rfl⟩
      | ok n =>
        show (conduct crates path).Follows _ (if n = 0 then _ else _ : Calls Octet Unit).run (if n = 0 then _ else _) _
        by_cases hn : n = 0
        · rw [if_pos hn, if_pos hn]
          exact ⟨rfl, _, rfl⟩
        · rw [if_neg hn, if_neg hn]
          have hr : ((octet :: octets).drop n).length ≤ calls := by
            rw [length_drop]
            omega
          have hs : written ++ octet :: octets = (written ++ (octet :: octets).take n) ++ (octet :: octets).drop n := by
            rw [append_assoc, take_append_drop]
          rw [hs] at hdoc ⊢
          exact ih hr hdoc

theorem replaceFile_follows (caller) (lock : Ino) (hdoc : serialize crates config = .ok doc)
    (hdir : directory path = .ok dir) :
    (conduct crates path).Follows caller (replaceFile path (tmpPath dir caller.os) doc).run
      (.locked config lock) (Works config lock (.installed config lock)) := by
  have htmp : caller.IsTmp path (tmpPath dir caller.os) := ⟨dir, hdir, rfl⟩
  refine ⟨htmp, fun created => ?_⟩
  cases created with
  | error e => exact ⟨rfl, e, rfl⟩
  | ok file =>
    show (conduct crates path).Follows _ (writeAll file doc.length doc >>= _).run (.writing config lock file []) _
    rw [follows_exceptT_bind]
    refine (writeAll_follows (Nat.le_refl _) hdoc).mono fun a r hr => ?_
    cases r with
    | error e => exact hr
    | ok _ =>
      obtain rfl : a = .writing config lock file doc := hr
      refine ⟨rfl, fun synced => ?_⟩
      cases synced with
      | error e => exact ⟨rfl, e, rfl⟩
      | ok _ =>
        refine ⟨⟨htmp, rfl, hdoc⟩, fun moved => ?_⟩
        cases moved with
        | ok _ => exact rfl
        | error e =>
          show (conduct crates path).Follows _ (call (.removeFile _) >>= _).run (.botched config lock) _
          rw [follows_exceptT_bind, follows_call]
          refine ⟨.inl htmp, fun removed => ?_⟩
          rw [orElse_ok, track_botched, if_neg (tmpPath_ne_lockPath _ _ _)]
          exact ⟨rfl, e, rfl⟩

/-- An attempt at the lock ends with the lock, or with an error that says why. -/
def Attempted (config : ServerWallConfig) (a : Stage Octet) : Except ServerWallError Unit → Prop
  | .ok _ => ∃ lock, a = .locked config lock
  | .error e => (a = .waiting config ∧ e = lockedByAnother) ∨ (a = .barred ∧ ∃ io, e = .io io)

theorem pause_follows : (conduct crates path).Follows caller (pause attempts : Calls Octet Unit).run (.waiting config)
      fun a r => a = .waiting config ∧ r = .ok () := by
  unfold pause
  split
  · exact ⟨rfl, rfl⟩
  · exact ⟨trivial, fun _ => ⟨rfl, rfl⟩⟩

theorem acquireLock_follows (hdoc : serialize crates config = .ok doc)
    (ha : (a = .ready config ∧ attempts ≠ 0) ∨ a = .waiting config) :
    (conduct crates path).Follows caller (acquireLock (lockPath path) attempts).run a (Attempted config) := by
  induction attempts generalizing a with
  | zero =>
    rcases ha with ⟨-, h⟩ | rfl
    · exact absurd rfl h
    · exact .inl ⟨rfl, rfl⟩
  | succ attempts ih =>
    have hp : Permits crates path caller a (.createNew (lockPath path)) := by
      rcases ha with ⟨rfl, -⟩ | rfl <;> exact ⟨rfl, doc, hdoc⟩
    have ht : ∀ r : Creation, Stage.track crates path caller a (.createNew (lockPath path)) r = .attempt config r := by
      rcases ha with ⟨rfl, -⟩ | rfl <;> exact fun _ => rfl
    rw [acquireLock, follows_exceptT_bind, follows_call]
    refine ⟨hp, fun answer => ?_⟩
    rw [orElse_ok, ht]
    cases answer with
    | created lock => exact ⟨lock, rfl⟩
    | failed e => exact .inr ⟨rfl, e, rfl⟩
    | taken =>
      rw [follows_exceptT_bind]
      refine pause_follows.mono fun a' r hr => ?_
      obtain ⟨rfl, rfl⟩ := hr
      exact ih (.inr rfl)

theorem writeConfigAtomic_follows (caller) :
    (conduct crates path).Follows caller (writeConfigAtomic crates path caller.os config).run
      (.ready config) Stage.Returns := by
  unfold writeConfigAtomic
  rw [follows_exceptT_bind, follows_result]
  cases hdoc : serialize crates config with
  | error e => exact ⟨e, rfl⟩
  | ok doc =>
    rw [orElse_ok, follows_exceptT_bind, follows_result]
    cases hdir : directory path with
    | error e => exact ⟨e, rfl⟩
    | ok dir =>
      rw [orElse_ok, withLock, follows_exceptT_bind]
      refine (acquireLock_follows hdoc (.inl ⟨rfl, by decide⟩)).mono fun a r hr => ?_
      cases r with
      | error e =>
        rcases hr with ⟨rfl, rfl⟩ | ⟨rfl, io, rfl⟩
        · exact rfl
        · exact ⟨io, rfl⟩
      | ok _ =>
        obtain ⟨lock, rfl⟩ := hr
        -- the body runs under the guard, and the guard is dropped whatever it returns
        have hb := replaceFile_follows caller lock hdoc hdir
        rw [orElse_ok, follows_exceptT_bind]
        show (conduct crates path).Follows _ (run (replaceFile _ _ _) >>= _) _ _
        rw [follows_bind]
        refine hb.mono fun a r hr => ?_
        show (conduct crates path).Follows _ (call (.removeFile (lockPath path)) >>= _).run a _
        rw [follows_exceptT_bind, follows_call]
        cases r with
        | ok _ =>
          obtain rfl : a = .installed config lock := hr
          exact ⟨rfl, fun _ => rfl⟩
        | error e =>
          obtain ⟨rfl, io, rfl⟩ := hr
          refine ⟨.inr rfl, fun _ => ?_⟩
          rw [orElse_ok, track_botched, if_pos rfl]
          exact ⟨io, rfl⟩

/-- **The code of every caller follows the protocol.** -/
theorem code_follows (caller) :
    (conduct crates path).Follows caller (caller.code crates path).run caller.stage Stage.Returns := by
  cases caller with
  | write os config => exact writeConfigAtomic_follows (.write os config)
  | edit os op =>
    refine ⟨⟨rfl, os, op, rfl⟩, fun answer => ?_⟩
    cases answer with
    | error e => exact ⟨e, rfl⟩
    | ok loaded =>
      show (conduct crates path).Follows _ (mk (pure (edited crates op loaded)) >>= _).run
        (Caller.loads crates (.edit os op) (.ok loaded)) _
      rw [follows_exceptT_bind, follows_result, Caller.loads]
      cases edited crates op loaded with
      | error e => exact ⟨e, rfl⟩
      | ok config => exact writeConfigAtomic_follows (.edit os op)

end

end ServerWall.Core
