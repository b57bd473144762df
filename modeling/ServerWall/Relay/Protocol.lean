import ServerWall.Relay.Roles

/-!
# What each process may do to the spool

The protocol of the relay's processes. `Agent` records what a process has open, is storing, has read and
listed, and its stage. `allowed`: files are written through the descriptor opened just before, a `.msg`
file only by whoever drew its id, metadata only from a copy read before; a task hands over only what is
marked active, and a scan starts tasks for ids it has seen pending or deferred (`code_follows`).
-/

namespace ServerWall.Relay

/-! ## Roles by what they are for -/

namespace Role

def rewrite : Role → Option (Text × QueueStatus)
  | .web (.retry id) => some (id, .pending)
  | .web (.release id) => some (id, .pending)
  | .web (.hold id) => some (id, .held)
  | .cli (.retry id) => some (id, .pending)
  | .cli (.release id) => some (id, .pending)
  | .cli (.hold id) => some (id, .held)
  | _ => none

def deletes : Role → Option Text
  | .web (.delete id) => some id
  | .cli (.delete id) => some id
  | _ => none

def flushes : Role → Bool
  | .web .flush => true
  | .cli .flush => true
  | _ => false

def purges : Role → Bool
  | .web (.purge _) => true
  | _ => false

def receives : Role → Bool
  | .receive _ _ => true
  | _ => false

def picks : Role → QueueStatus → Bool
  | .scan, st => st = .pending || st = .deferred
  | .web (.purge _), _ => true
  | role, st => role.flushes && (st = .pending || st = .deferred)

end Role

/-! ## The record of a process -/

inductive Enqueuing where
  | idle
  /-- Its `.msg` file was opened under this id. -/
  | drawn (id : Text)
  /-- Its `.msg` file is complete. -/
  | saved (id : Text)
  /-- Its `.meta` file is complete. -/
  | stored (id : Text)
  deriving DecidableEq

inductive Stage where
  | fresh
  | loaded
  | marked
  | sending
  | delivered
  /-- Delivered, and the `.msg` file is gone. -/
  | removed
  | bounced
  /-- No bounce is due: the sender is the null sender. -/
  | dropped
  | rescheduled
  deriving DecidableEq

structure Agent where
  handle : Option (Path × Nat) := none
  enq : Enqueuing := .idle
  /-- The last metadata read, and the id it was read under. -/
  copy : Option (Text × QueuedMessage) := none
  updated : Bool := false
  seen : List Text := []
  stage : Stage := .fresh
  /-- Whether a file operation failed, or metadata did not parse, while the
  message was marked active or delivered. -/
  failed : Bool := false

/-- A file operation that failed, or metadata that did not parse. -/
def fails : (op : Op) → Res op → Bool
  | .read (.metaPath _), .ok c => c.parse.isNone
  | .read _, .error _ => true
  | .create _, .error _ => true
  | .write _ _ _, .error _ => true
  | .stat _, .error _ => true
  | .unlink _, .error _ => true
  | _, _ => false

def Stage.critical : Stage → Bool
  | .marked => true
  | .delivered => true
  | _ => false

def MayWrite (role : Role) (a : Agent) (id : Text) (st : QueueStatus) : Prop := role.rewrite = some (id, st) ∨
  (role.flushes = true ∧ id ∈ a.seen ∧ st = .pending) ∨
  (role = .task id ∧ a.stage = .loaded ∧ st = .active) ∨
  (role = .task id ∧ a.stage = .marked ∧ a.failed = false ∧ st = .deferred)

def MayRemove (role : Role) (a : Agent) (id : Text) : Prop := role.deletes = some id ∨
  (role.purges = true ∧ id ∈ a.seen) ∨
  (role = .task id ∧ (a.stage = .delivered ∨ a.stage = .bounced ∨ a.stage = .dropped ∨ a.failed = true))

def MayOpen (role : Role) (a : Agent) : Path → Prop
  | .msgPath _ => a.enq = .idle ∧ (role.receives = true ∨ ((∃ m, role = .task m) ∧ a.stage = .marked))
  | .metaPath id => a.enq = .saved id ∨ ((∃ q, a.copy = some (id, q)) ∧ ∃ st, MayWrite role a id st)

def MayStore (role : Role) (a : Agent) : Path → Content → Prop
  | .msgPath id, c => a.enq = .drawn id ∧ ∃ b, c = .text b ∧ ∀ env msg, role = .receive env msg → b = msg
  | .metaPath id, c => ∃ q, c = .record q ∧ if a.enq = .saved id then
      q.id = id ∧ q.metadata.status = .pending ∧ ∀ env msg, role = .receive env msg → q.envelope = env
    else
      (∃ q₀, a.copy = some (id, q₀) ∧ q.id = q₀.id ∧ q.envelope = q₀.envelope) ∧ MayWrite role a id q.metadata.status

/-- The operations a record permits. With a file open, writing it is the only
one. -/
def Allowed (role : Role) (a : Agent) : Op → Prop
  | .write p fd c => a.handle = some (p, fd) ∧ MayStore role a p c
  | .create p => a.handle = none ∧ MayOpen role a p
  | .unlink (.metaPath id) => a.handle = none ∧ MayRemove role a id
  | .unlink (.msgPath id) => a.handle = none ∧ MayRemove role a id
  | .spawn id => a.handle = none ∧ role = .scan ∧ id ∈ a.seen
  | .sendStart _ _ _ _ _ => a.handle = none ∧ (∃ m, role = .task m) ∧ a.stage = .marked ∧ a.failed = false
  | .sendWait => a.handle = none ∧ a.stage = .sending
  | .reply (.queued id) => a.handle = none ∧ a.enq = .stored id ∧ role.receives = true
  | _ => a.handle = none

def Stage.rewritten : Stage → Stage
  | .loaded => .marked
  | .marked => .rescheduled
  | stage => stage

def Agent.reads (role : Role) (a : Agent) (id : Text) (q : QueuedMessage) : Agent := { a with
    copy := some (id, q)
    seen := if role.picks q.metadata.status then q.id :: a.seen else a.seen }

variable (role : Role)
include role

@[simp] theorem Agent.reads_handle (a : Agent) (id : Text) (q : QueuedMessage) :
    (a.reads role id q).handle = a.handle := rfl

@[simp] theorem Agent.reads_enq (a : Agent) (id : Text) (q : QueuedMessage) : (a.reads role id q).enq = a.enq := rfl

@[simp] theorem Agent.reads_stage (a : Agent) (id : Text) (q : QueuedMessage) : (a.reads role id q).stage = a.stage := rfl

@[simp] theorem Agent.reads_failed (a : Agent) (id : Text) (q : QueuedMessage) :
    (a.reads role id q).failed = a.failed := rfl

omit role

def Agent.opens (a : Agent) (p : Path) (fd : Nat) : Agent :=
  match p with
  | .msgPath id => { a with handle := some (p, fd), enq := .drawn id }
  | .metaPath _ => { a with handle := some (p, fd) }

variable (a : Agent)
include a

variable (p : Path)
include p

variable (fd : Nat)
include fd

@[simp] theorem Agent.opens_handle : (a.opens p fd).handle = some (p, fd) := by
  cases p <;> rfl

@[simp] theorem Agent.opens_stage : (a.opens p fd).stage = a.stage := by
  cases p <;> rfl

@[simp] theorem Agent.opens_failed : (a.opens p fd).failed = a.failed := by
  cases p <;> rfl

@[simp] theorem Agent.opens_seen : (a.opens p fd).seen = a.seen := by
  cases p <;> rfl

@[simp] theorem Agent.opens_copy : (a.opens p fd).copy = a.copy := by
  cases p <;> rfl

omit fd

omit p

omit a

def Agent.rewrites (role : Role) (a : Agent) (id : Text) : Agent := { a with
    handle := none
    updated := true
    stage := if role = .task id then a.stage.rewritten else a.stage }

def Agent.wrote (role : Role) (a : Agent) : Path → Agent
  | .msgPath id => { a with handle := none, enq := .saved id }
  | .metaPath id =>
    if a.enq = .saved id then { a with handle := none, enq := .stored id }
    else a.rewrites role id

/-- The record after an operation that did not fail, and its answer. -/
def Agent.after (role : Role) (a : Agent) : (op : Op) → Res op → Agent
  | .read (.metaPath id), .ok (.record q) => a.reads role id q
  | .read (.msgPath id), .ok _ => if role = .task id ∧ a.stage = .fresh then { a with stage := .loaded } else a
  | .create p, .ok fd => a.opens p fd
  | .write p _ _, .ok _ => a.wrote role p
  | .write _ _ _, .error _ => { a with handle := none }
  | .stat (.msgPath id), .ok false =>
    if role = .task id ∧ a.stage = .delivered then { a with stage := .removed } else a
  | .unlink (.msgPath id), .ok _ => if role = .task id ∧ a.stage = .delivered then { a with stage := .removed } else a
  | .sendStart _ _ _ _ _, _ => { a with stage := .sending }
  | .sendWait, .success _ => { a with stage := .delivered }
  | .sendWait, _ => { a with stage := .marked }
  | .trace .nullSender, _ => if a.stage = .marked then { a with stage := .dropped } else a
  | .trace (.enqueued _ _), _ => if a.stage = .marked then { a with stage := .bounced } else a
  | _, _ => a

def Agent.track (role : Role) (a : Agent) (op : Op) (r : Res op) : Agent :=
  { a.after role op r with failed := a.failed || (a.stage.critical && fails op r) }

section

variable {role : Role} {a : Agent}

theorem Agent.wrote_of_saved {id : Text} (h : a.enq = .saved id) :
    a.wrote role (.metaPath id) = { a with handle := none, enq := .stored id } := if_pos h

theorem Agent.wrote_of_not_saved {id : Text} (h : a.enq ≠ .saved id) :
    a.wrote role (.metaPath id) = a.rewrites role id := if_neg h

theorem Agent.wrote_cases (p : Path) : (a.wrote role p).handle = none ∧
    (a.wrote role p).failed = a.failed ∧ (a.wrote role p).copy = a.copy ∧ (a.wrote role p).seen = a.seen := by
  cases p with
  | msgPath id => exact ⟨rfl, rfl, rfl, rfl⟩
  | metaPath id =>
    by_cases h : a.enq = .saved id
    · rw [Agent.wrote_of_saved h]
      exact ⟨rfl, rfl, rfl, rfl⟩
    · rw [Agent.wrote_of_not_saved h]
      exact ⟨rfl, rfl, rfl, rfl⟩

@[simp] theorem Agent.wrote_handle (p : Path) : (a.wrote role p).handle = none := (Agent.wrote_cases p).1

@[simp] theorem Agent.wrote_failed (p : Path) : (a.wrote role p).failed = a.failed := (Agent.wrote_cases p).2.1

@[simp] theorem Agent.wrote_copy (p : Path) : (a.wrote role p).copy = a.copy := (Agent.wrote_cases p).2.2.1

@[simp] theorem Agent.wrote_seen (p : Path) : (a.wrote role p).seen = a.seen := (Agent.wrote_cases p).2.2.2

theorem Agent.after_failed (op : Op) (r : Res op) : (a.after role op r).failed = a.failed := by
  unfold Agent.after
  split <;> first
    | rfl
    | exact a.opens_failed _ _
    | exact Agent.wrote_failed _
    | (split <;> rfl)

theorem Agent.track_of_not_fails (h : fails op r = false) : a.track role op r = a.after role op r := by
  unfold Agent.track
  rw [h, Bool.and_false, Bool.or_false, ← Agent.after_failed op r]

end

/-- Every interval of the scheduler can be added to a reading of the clock. -/
def RetryScheduler.Fits (s : RetryScheduler) : Prop :=
  ∀ d ∈ s.intervals, -Instant.calendarReach ≤ d ∧ d ≤ Instant.calendarReach

/-- The records a process may end with. A task ends with its message neither
active nor delivered but still there, unless an operation failed or the next
retry lies outside the calendar. -/
def Ends (cfg : Config) (role : Role) (a : Agent) (x : Response) : Prop := a.handle = none ∧
  (∀ m, role = .task m → a.stage ≠ .sending ∧ (a.stage = .delivered → a.failed = true) ∧
    (a.stage = .marked → a.failed = true ∨ ¬ cfg.scheduler.Fits)) ∧
  ((∃ m st, role.rewrite = some (m, st)) → x.isOk = true → a.updated = true)

def protocol (cfg : Config) : Protocol Op Res Role Agent Response where
  start _ := {}
  allowed := Allowed
  track := Agent.track
  ends := Ends cfg

end ServerWall.Relay
