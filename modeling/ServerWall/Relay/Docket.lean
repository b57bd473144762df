import ServerWall.Lib.Histories
import ServerWall.Relay.Conduct.Spool

/-!
# What a task knows and does with it

The `Docket` of a process keeps the metadata it loaded, what the resolver and the hosts answered, the
clock, and what was stored of a bounce. The protocol `docket` says to which hosts a message is handed, how
its metadata is rewritten, what a bounce holds, and on what grounds files are unlinked (`Case.Exit`). It is
read off the log (`docketOf`).
-/

namespace ServerWall.Relay

open BounceGenerator

/-! ## The record -/

structure Draft where
  id : Option Text := none
  text : Option Bytes := none
  opened : Bool := false
  /-- What was written into its `.meta` file. -/
  record : Option QueuedMessage := none
  failed : Bool := false

structure Case where
  loaded : Option QueuedMessage := none
  text : Option Bytes := none
  marked : Bool := false
  /-- The domain that was resolved last, and the answer. -/
  resolved : Option (Text × Except Text (List MxHost)) := none
  verdict : Option DeliveryResult := none
  readings : List Instant := []
  randoms : List Nat := []
  stamp : Option Instant := none
  draft : Draft := {}

structure Docket extends Case where
  /-- Whether a `.msg` file was unlinked, or found absent. -/
  removed : Bool := false
  /-- Whether a file could not be examined or unlinked. -/
  stumbled : Bool := false

namespace Case

variable (c : Case)

/-- A file opened: that of the draft, or metadata to be rewritten. -/
def opens : Path → Case
  | .msgPath id => { c with draft := { c.draft with id := some id } }
  | .metaPath id => if c.draft.id = some id then { c with draft := { c.draft with opened := true } } else c

def writes : Path → Content → Case
  | .msgPath _, .text b => { c with draft := { c.draft with text := some b } }
  | .metaPath id, .record q =>
    if c.draft.id = some id then { c with draft := { c.draft with record := some q } }
    else { c with marked := true }
  | _, _ => c

def misses : Case := { c with draft := { c.draft with failed := true } }

def after : (op : Op) → Res op → Case
  | .now, t => { c with readings := c.readings ++ [t] }
  | .uuid, n =>
    { c with
      randoms := c.randoms ++ [n]
      stamp := if c.randoms = [] then c.readings.getLast? else c.stamp }
  | .read (.metaPath _), .ok (.record q) => { c with loaded := some (c.loaded.getD q) }
  | .read (.msgPath _), .ok content => { c with text := some content.octets }
  | .resolve domain, r => { c with resolved := some (domain, r) }
  | .sendWait, r => { c with verdict := some r }
  | .create p, .ok _ => c.opens p
  | .create _, .error _ => c.misses
  | .write p _ content, .ok _ => c.writes p content
  | .write _ _ _, .error _ => c.misses
  | _, _ => c

section

variable {c} {id : Text}

theorem opens_fields (p : Path) : (c.opens p).loaded = c.loaded ∧ (c.opens p).text = c.text ∧
    (c.opens p).resolved = c.resolved ∧ (c.opens p).randoms = c.randoms := by
  cases p with
  | msgPath id => exact ⟨rfl, rfl, rfl, rfl⟩
  | metaPath id =>
    unfold opens
    dsimp only
    split <;> exact ⟨rfl, rfl, rfl, rfl⟩

theorem writes_fields (p : Path) (content) :
    (c.writes p content).loaded = c.loaded ∧ (c.writes p content).text = c.text ∧
      (c.writes p content).resolved = c.resolved ∧ (c.writes p content).randoms = c.randoms := by
  unfold writes
  split
  · exact ⟨rfl, rfl, rfl, rfl⟩
  · split <;> exact ⟨rfl, rfl, rfl, rfl⟩
  · exact ⟨rfl, rfl, rfl, rfl⟩

theorem after_loaded (h : c.loaded = some q) (op : Op) (r : Res op) : (c.after op r).loaded = some q := by
  unfold after
  split <;> first
    | exact h
    | (show some (c.loaded.getD _) = some q; rw [h]; rfl)
    | exact (opens_fields _).1.trans h
    | exact (writes_fields _ _).1.trans h

theorem loaded_of_after (h : (c.after op r).loaded = some q) : c.loaded = some q ∨ (c.loaded = none ∧
      ∃ id, (⟨op, r⟩ : Σ op, Res op) = ⟨.read (.metaPath id), .ok (.record q)⟩) := by
  unfold after at h
  split at h <;> first
    | exact .inl h
    | exact .inl ((opens_fields _).1.symm.trans h)
    | exact .inl ((writes_fields _ _).1.symm.trans h)
    | skip
  rename_i id q'
  cases hl : c.loaded with
  | some q₀ =>
    rw [hl] at h
    exact .inl h
  | none =>
    rw [hl] at h
    obtain rfl := Option.some.inj h
    exact .inr ⟨rfl, id, rfl⟩

theorem text_of_after (h : c.text = none) : (c.after op r).text = none ∨
      ∃ id content, (⟨op, r⟩ : Σ op, Res op) = ⟨.read (.msgPath id), .ok content⟩ := by
  unfold after
  split <;> first
    | exact .inl h
    | exact .inl ((opens_fields _).2.1.trans h)
    | exact .inl ((writes_fields _ _).2.1.trans h)
    | exact .inr ⟨_, _, rfl⟩

theorem after_randoms (h : c.randoms ≠ []) : (c.after op r).randoms ≠ [] := by
  unfold after
  split <;> first
    | exact h
    | exact List.append_ne_nil_of_left_ne_nil h _
    | exact fun hnil => h ((opens_fields _).2.2.2.symm.trans hnil)
    | exact fun hnil => h ((writes_fields _ _).2.2.2.symm.trans hnil)

theorem after_resolved (op : Op) (r : Res op) (h : (c.after op r).resolved = some (domain, answer)) :
    c.resolved = some (domain, answer) ∨ (⟨.resolve domain, answer⟩ : Σ op, Res op) = ⟨op, r⟩ := by
  unfold after at h
  split at h <;> first
    | exact .inl h
    | exact .inl ((opens_fields _).2.2.1.symm.trans h)
    | exact .inl ((writes_fields _ _).2.2.1.symm.trans h)
    | (cases h; exact .inr rfl)

theorem opens_draft (h : c.draft.id = some id) :
    c.opens (.metaPath id) = { c with draft := { c.draft with opened := true } } := if_pos h

theorem opens_other (h : c.draft.id ≠ some id) : c.opens (.metaPath id) = c := if_neg h

theorem writes_draft (h : c.draft.id = some id) (q : QueuedMessage) :
    c.writes (.metaPath id) (.record q) = { c with draft := { c.draft with record := some q } } :=
  if_pos h

theorem writes_other (h : c.draft.id ≠ some id) (q : QueuedMessage) :
    c.writes (.metaPath id) (.record q) = { c with marked := true } := if_neg h

def taken : (op : Op) → Res op → Option Text
  | .create (.msgPath id), .ok _ => some id
  | _, _ => none

theorem after_id (op : Op) (r : Res op) : (c.after op r).draft.id = (taken op r).or c.draft.id := by
  cases op with
  | create p =>
    cases r with
    | error e => cases p <;> rfl
    | ok fd =>
      cases p with
      | msgPath id => rfl
      | metaPath id =>
        show (c.opens (.metaPath id)).draft.id = c.draft.id
        by_cases h : c.draft.id = some id
        · rw [opens_draft h]
        · rw [opens_other h]
  | write p fd content =>
    cases r with
    | error e => rfl
    | ok u =>
      show (c.writes p content).draft.id = c.draft.id
      unfold writes
      split
      · rfl
      · split <;> rfl
      · rfl
  | read p =>
    cases r with
    | error e => cases p <;> rfl
    | ok content => cases p <;> cases content <;> rfl
  | _ => rfl

theorem after_opened (h : (c.after op r).draft.opened = false) : c.draft.opened = false := by
  cases op with
  | create p =>
    cases r with
    | error e => cases p <;> exact h
    | ok fd =>
      cases p with
      | msgPath id => exact h
      | metaPath id =>
        have h' : (c.opens (.metaPath id)).draft.opened = false := h
        by_cases hid : c.draft.id = some id
        · rw [opens_draft hid] at h'
          cases h'
        · rwa [opens_other hid] at h'
  | write p fd content =>
    cases r with
    | error e => exact h
    | ok u =>
      have h' : (c.writes p content).draft.opened = false := h
      unfold writes at h'
      split at h'
      · exact h'
      · split at h' <;> exact h'
      · exact h'
  | read p =>
    cases r with
    | error e => cases p <;> exact h
    | ok content => cases p <;> cases content <;> exact h
  | _ => exact h

end

/-- The error a task reports: of the last remote host, or of the resolver, or,
where there was no host to try, of an earlier task. -/
def error : Text :=
  match c.verdict with
  | some (.permFail e) => e
  | some (.tempFail e) => e
  | _ => match c.resolved with
    | some (_, .error e) => e
    | _ => (c.loaded.bind fun q => q.metadata.lastError).getD []

/-- The message a bounce is generated from: that of a permanent failure is
passed on, in every other case nothing is. -/
def returned : Bytes :=
  match c.verdict with
  | some (.permFail _) => c.text.getD []
  | _ => []

def headers (cfg : Config) : Text :=
  if cfg.bounceGen.includeOriginalHeaders then extractHeaders cfg.decoder c.returned else []

/-! ## What a task may do -/

/-- Metadata rewritten to defer a message: with its attempts below the limit, at a failure within
its maximum age, and until the interval for its attempts is over. -/
structure Deferral (cfg : Config) (q q' : QueuedMessage) : Prop where
  status : q'.metadata.status = .deferred
  attempts : q'.metadata.attempts = q.metadata.attempts + 1
  fewer : q.metadata.attempts + 1 < cfg.scheduler.maxAttempts
  created : q'.metadata.created = q.metadata.created
  young : ∃ t rest, c.readings = t :: rest ∧ t.toDateTime.ns - q.metadata.created.ns ≤ cfg.scheduler.maxAge
  due : ∃ t, c.readings.getLast? = some t ∧
    t.toDateTime.add (cfg.scheduler.delay q'.metadata.attempts) = some q'.metadata.nextRetry

/-- The two ways a task rewrites the metadata of its message. -/
def Rewrite (cfg : Config) (q q' : QueuedMessage) : Prop :=
  (c.marked = false ∧ q'.metadata = q.metadata.activated) ∨ (c.marked = true ∧ c.Deferral cfg q q')

/-- The address a bounce about a message goes to, and the one it comes from. -/
def bounceEnvelope (cfg : Config) (q : QueuedMessage) : Envelope := ⟨cfg.bounceGen.bounceSender, [q.envelope.mailFrom]⟩

/-- A bounce was generated; what is stored of it, unless a file could not be
written, and that it has no metadata then. -/
structure Notified (cfg : Config) (q : QueuedMessage) : Prop where
  sender : isNullSender q.envelope.mailFrom = false
  lost : c.draft.failed = true → c.draft.record = none
  stored : ∃ t u, c.stamp = some t ∧ c.randoms.head? = some u ∧ (c.draft.failed = false → c.draft.text =
        some (cfg.bounceGen.body q.envelope c.error (c.headers cfg) t u).bytes ∧
      ∃ q', c.draft.record = some q' ∧ q'.envelope = bounceEnvelope cfg q)

/-- The grounds on which a task gives up its message. -/
inductive Exit (cfg : Config) : Prop
  | delivered (response : Text) (hverdict : c.verdict = some (.success response))
  | dropped (q : QueuedMessage) (hloaded : c.loaded = some q) (hnull : isNullSender q.envelope.mailFrom = true)
  | bounced (q : QueuedMessage) (hloaded : c.loaded = some q) (hnotified : c.Notified cfg q)

/-- What a task may do, besides what anyone may who stores a message. -/
def TaskMay (cfg : Config) : Op → Prop
  | .uuid => ∃ q, c.loaded = some q ∧ c.text.isSome ∧ isNullSender q.envelope.mailFrom = false
  | .resolve domain => ∃ q, c.loaded = some q ∧ domain = recipientDomain q.envelope
  | .sendStart addr hostname mailFrom rcptTo message => ∃ q hosts host,
      c.loaded = some q ∧ c.resolved = some (recipientDomain q.envelope, .ok hosts) ∧
      (host, addr) ∈ targets hosts ∧
      hostname = host.hostname ∧ mailFrom = q.envelope.mailFrom ∧ rcptTo = q.envelope.rcptTo ∧
      c.text = some message
  | .write (.metaPath id) _ content => ∃ q q', c.loaded = some q ∧ content = .record q' ∧
      if c.draft.id = some id then q'.envelope = bounceEnvelope cfg q else c.Rewrite cfg q q'
  | .unlink _ => c.Exit cfg
  | _ => True

def DraftMay : Op → Prop
  | .create (.msgPath id) => c.draft.id = none ∧ ∃ ts random, id = queueId ts random
  | .create (.metaPath id) => c.draft.id = some id → c.draft.opened = false
  | .trace (.enqueued id _) => c.draft.id = some id
  | _ => True

end Case

namespace Docket

def clears : (op : Op) → Res op → Bool
  | .stat (.msgPath _), .ok false => true
  | .unlink (.msgPath _), .ok _ => true
  | _, _ => false

def trips : (op : Op) → Res op → Bool
  | .stat _, .error _ => true
  | .unlink _, .error _ => true
  | _, _ => false

def track (d : Docket) (op : Op) (r : Res op) : Docket where
  toCase := d.toCase.after op r
  removed := d.removed || clears op r
  stumbled := d.stumbled || trips op r

end Docket

/-- The protocol of the dockets. A task that generated a bounce ends with its
`.msg` file gone, unless that file could not be examined or unlinked. -/
def docket (cfg : Config) : Protocol Op Res Role Docket Response where
  start _ := {}
  allowed role d op := d.DraftMay op ∧ ∀ m, role = .task m → d.TaskMay cfg op
  track _ := Docket.track
  ends role d _ := ∀ m, role = .task m → d.randoms ≠ [] → d.removed = true ∨ d.stumbled = true

def docketAfter (h : History Op Res) : Docket := h.foldl (fun d x => d.track x.1 x.2) {}

/-- The docket of a process, by what the log says it did. -/
def docketOf (pid : Nat) (log : List Happening) : Docket := docketAfter (historyOf pid log)

end ServerWall.Relay
