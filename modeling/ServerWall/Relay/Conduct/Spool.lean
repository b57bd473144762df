import ServerWall.Relay.Protocol

/-!
# The spool keeps to the protocol

One specification per function, on the protocol's record: from what record it may be called and in what
record it returns, whatever the host answers. Here are the host's operations and the spool;
`Conduct.Delivery` has the delivery manager and `Conduct.Roles` the entry points.
-/

namespace ServerWall.Relay

open Protocol Agent Content

variable {role : Role} {a : Agent} {α β : Type}

/-- The program keeps to the relay's protocol. -/
abbrev Keeps (cfg : Config) (role : Role) : Io α → Agent → (Agent → α → Prop) → Prop := (protocol cfg).Follows role

/-! ## Rules for the host's operations -/

theorem follows_op {post : Agent → Res op → Prop} : Keeps cfg role (perform op) a post ↔
      Allowed role a op ∧ ∀ r, post (a.track role op r) r := Iff.rfl

@[simp] theorem follows_now {post : Agent → Instant → Prop} :
    Keeps cfg role now a post ↔ a.handle = none ∧ ∀ t, post a t := by
  refine follows_op.trans (and_congr_right fun _ => forall_congr' fun t => ?_)
  rw [track_of_not_fails rfl]
  rfl

@[simp] theorem follows_uuid {post : Agent → Nat → Prop} :
    Keeps cfg role uuid a post ↔ a.handle = none ∧ ∀ n, post a n := by
  refine follows_op.trans (and_congr_right fun _ => forall_congr' fun n => ?_)
  rw [track_of_not_fails rfl]
  rfl

section

variable {Book : Type} {P : Protocol Op Res Role Book Response} {b : Book}

@[simp] theorem follows_lift :
    P.Follows role (liftM x : Fallible α).run b post ↔ P.Follows role x b fun b' v => post b' (.ok v) :=
  follows_bind

theorem follows_lift_bind {β : Type} {x : Io α} {f : α → Fallible β} {post : Book → Except Failure β → Prop} :
    P.Follows role ((liftM x : Fallible α) >>= f).run b post ↔
      P.Follows role x b fun b' v => P.Follows role (f v).run b' post :=
  follows_exceptT_bind.trans follows_lift

@[simp] theorem follows_withContext {post : Book → Except Failure α → Prop} :
    P.Follows role (withContext message x).run b post ↔ P.Follows role x b fun b' r =>
        match r with
        | .ok v => post b' (.ok v)
        | .error _ => post b' (.error (.context message)) := by
  show P.Follows role (x >>= _) b post ↔ _
  rw [follows_bind]
  constructor
  · intro h
    exact h.mono fun b' r hr => by cases r <;> exact hr
  · intro h
    exact h.mono fun b' r hr => by cases r <;> exact hr

end

/-! ## The spool -/

/-- A function that gave up: the file it had open is closed, nothing else is
done, and a failure in a critical stage is on record. -/
structure GaveUp (a a' : Agent) : Prop where
  handle : a'.handle = none
  enq : ∀ id, a.enq ≠ .saved id → a'.enq ≠ .saved id
  stage : a'.stage = a.stage
  seen : a.seen ⊆ a'.seen
  failed : a.stage.critical = true ∨ a.failed = true → a'.failed = true

theorem gaveUp_track (hh : a.handle = none) (hfa : fails op r)
    (hfr : a.after role op r = a) : GaveUp a (a.track role op r) where
  handle := by simp [Agent.track, hfr, hh]
  enq _ hid := by simpa [Agent.track, hfr] using hid
  stage := by simp [Agent.track, hfr]
  seen := by simp [Agent.track, hfr]
  failed hf := by rcases hf with hf | hf <;> simp [Agent.track, hf, hfa]

theorem writeFile_follows {post : Agent → Except IoError Unit → Prop} (hh : a.handle = none) (ho : MayOpen role a p)
    (hs : ∀ fd, MayStore role (a.opens p fd) p c) (hok : ∀ fd, post ((a.opens p fd).wrote role p) (.ok ()))
    (he : ∀ a' e, GaveUp a a' → post a' (.error e)) : Keeps cfg role (writeFile p c) a post := by
  refine follows_bind.mpr (follows_op.mpr ⟨⟨hh, ho⟩, fun r => ?_⟩)
  cases r with
  | error e => exact he _ e (gaveUp_track hh rfl rfl)
  | ok fd =>
    rw [Agent.track_of_not_fails rfl]
    refine follows_op.mpr ⟨⟨a.opens_handle p fd, hs fd⟩, fun r => ?_⟩
    cases r with
    | ok u =>
      rw [Agent.track_of_not_fails rfl]
      exact hok fd
    | error e =>
      apply he
      constructor
      · rfl
      · intro id hid
        cases p with
        | metaPath _ => exact hid
        | msgPath _ => exact Enqueuing.noConfusion
      · exact a.opens_stage p fd
      · exact (a.opens_seen p fd).symm ▸ List.Subset.refl _
      · intro hf
        rcases hf with hf | hf <;> simp [Agent.track, Agent.after, fails, hf]

theorem readMetadata_follows {id message : Text} {f : QueuedMessage → Fallible β} (hh : a.handle = none)
    (hok : ∀ q, Keeps cfg role (f q).run (a.reads role id q) post)
    (he : ∀ a' e, GaveUp a a' → post a' (.error e)) :
    Keeps cfg role (withContext message (read (.metaPath id)) >>= fun content => parseMetadata id content >>= f).run a post := by
  refine follows_exceptT_bind.mpr (follows_withContext.mpr (follows_op.mpr ⟨hh, fun r => ?_⟩))
  cases r with
  | error e => exact he _ _ (gaveUp_track hh rfl rfl)
  | ok content =>
    cases hp : content.parse with
    | none =>
      have hf : fails (.read (.metaPath id)) (.ok content) = true := by simp [fails, hp]
      have hfr : a.after role (.read (.metaPath id)) (.ok content) = a := by
        cases content <;> simp_all [parse, after]
      show Keeps cfg role (parseMetadata id content >>= f).run _ post
      rw [parseMetadata, hp]
      exact he _ _ (gaveUp_track hh hf hfr)
    | some q =>
      obtain rfl := parse_eq_some.mp hp
      rw [track_of_not_fails rfl]
      exact hok q

variable {id : Text}

theorem MayWrite.mono {a' : Agent} {st : QueueStatus} (h : MayWrite role a id st)
    (hse : a.seen ⊆ a'.seen) (hs : a'.stage = a.stage) (hf : a'.failed = a.failed) : MayWrite role a' id st := by
  unfold MayWrite at h ⊢
  rw [hs, hf]
  rcases h with h | ⟨hfl, hid, hst⟩ | h | h
  · exact .inl h
  · exact .inr (.inl ⟨hfl, hse hid, hst⟩)
  · exact .inr (.inr (.inl h))
  · exact .inr (.inr (.inr h))

structure Rewrote (role : Role) (id : Text) (a a' : Agent) : Prop where
  handle : a'.handle = none
  enq : a'.enq = a.enq
  updated : a'.updated = true
  seen : a.seen ⊆ a'.seen
  failed : a'.failed = a.failed
  stage : a'.stage = if role = .task id then a.stage.rewritten else a.stage

theorem seen_reads (id : Text) (q : QueuedMessage) : a.seen ⊆ (a.reads role id q).seen := by
  show a.seen ⊆ if _ then _ else _
  split
  · exact List.subset_cons_self _ _
  · exact List.Subset.refl _

theorem GaveUp.of_reads {q : QueuedMessage} (h : GaveUp (a.reads role id q) a') : GaveUp a a' :=
  ⟨h.handle, h.enq, h.stage, List.Subset.trans (seen_reads id q) h.seen, h.failed⟩

theorem updateMetadata_follows {metadata : MessageMetadata} (hh : a.handle = none) (henq : a.enq ≠ .saved id)
    (hmay : MayWrite role a id metadata.status) :
    Keeps cfg role (updateMetadata id metadata).run a fun a' r => match r with
      | .ok _ => Rewrote role id a a' | .error _ => GaveUp a a' := by
  refine readMetadata_follows hh (fun q => ?_) fun a' e h => h
  have hmay' : MayWrite role (a.reads role id q) id metadata.status := hmay.mono (seen_reads id q) rfl rfl
  refine follows_withContext.mpr ?_
  apply writeFile_follows
  · exact hh
  · exact .inr ⟨⟨q, rfl⟩, _, hmay'⟩
  · intro fd
    exact ⟨_, rfl, (if_neg henq).mpr ⟨⟨q, rfl, rfl, rfl⟩, hmay'⟩⟩
  · intro fd
    rw [wrote_of_not_saved (a := (a.reads role id q).opens (.metaPath id) fd) henq]
    exact ⟨rfl, rfl, rfl, seen_reads id q, rfl, rfl⟩
  · intro a' e h
    exact h.of_reads

theorem dequeue_follows (hh : a.handle = none) : Keeps cfg role (dequeue id).run a fun a' r =>
      match r with | .ok _ => a'.handle = none ∧ a'.enq = a.enq ∧ a'.failed = a.failed ∧
          a'.stage = if role = .task id ∧ a.stage = .fresh then .loaded else a.stage | .error _ => GaveUp a a' := by
  refine readMetadata_follows hh (fun q => ?_) fun a' e h => h
  refine follows_exceptT_bind.mpr (follows_withContext.mpr ?_)
  refine follows_op.mpr ⟨hh, fun r => ?_⟩
  cases r with
  | error e =>
    have h : GaveUp (a.reads role id q) ((a.reads role id q).track role (.read (.msgPath id)) (.error e)) :=
      gaveUp_track (a := a.reads role id q) hh rfl rfl
    exact h.of_reads
  | ok content =>
    rw [track_of_not_fails rfl]
    by_cases hf : role = .task id ∧ a.stage = .fresh
    · simp [orElse, after, hf, hh]
    · simp [orElse, after, hf, hh]

structure Removed (role : Role) (id : Text) (a a' : Agent) : Prop where
  handle : a'.handle = none
  enq : a'.enq = a.enq
  seen : a'.seen = a.seen
  failed : a.failed = true → a'.failed = true
  other : ¬ (role = .task id ∧ a.stage = .delivered) → a'.stage = a.stage
  delivered : role = .task id → a.stage = .delivered → a'.stage = .removed ∨ (a'.stage = .delivered ∧ a'.failed = true)

theorem MayRemove.mono {a' : Agent} (h : MayRemove role a id)
    (hse : a'.seen = a.seen) (hs : a'.stage = a.stage) (hf : a.failed → a'.failed) : MayRemove role a' id := by
  unfold MayRemove at h ⊢
  rw [hse, hs]
  rcases h with h | h | ⟨hr, h | h | h | h⟩
  · exact .inl h
  · exact .inr (.inl h)
  · exact .inr (.inr ⟨hr, .inl h⟩)
  · exact .inr (.inr ⟨hr, .inr (.inl h)⟩)
  · exact .inr (.inr ⟨hr, .inr (.inr (.inl h))⟩)
  · exact .inr (.inr ⟨hr, .inr (.inr (.inr (hf h)))⟩)

structure Steady (a a' : Agent) : Prop where
  handle : a'.handle = none
  enq : a'.enq = a.enq
  seen : a'.seen = a.seen
  stage : a'.stage = a.stage
  failed : a.failed = true → a'.failed = true

theorem steady_track (hh : a.handle = none) (hfr : a.after role op r = a) : Steady a (a.track role op r) := by
  constructor
  · simp [Agent.track, hfr, hh]
  · simp [Agent.track, hfr]
  · simp [Agent.track, hfr]
  · simp [Agent.track, hfr]
  · intro hf
    simp [Agent.track, hf]

theorem failed_track (hf : fails op r) (hc : a.stage.critical) : (a.track role op r).failed := by
  simp [Agent.track, hf, hc]

theorem removeMetaFile_follows {id message : Text} (hh : a.handle = none) (hmay : MayRemove role a id) :
    Keeps cfg role (removeFile (.metaPath id) message).run a fun a' r =>
      Steady a a' ∧ (r.toBool = false → a.stage.critical → a'.failed) := by
  refine follows_lift_bind.mpr (follows_bind.mpr (follows_op.mpr ⟨hh, fun r => ?_⟩))
  have hs : Steady a (a.track role (.stat (.metaPath id)) r) := steady_track hh rfl
  cases r with
  | error e => exact ⟨hs, fun h => Bool.noConfusion h⟩
  | ok there =>
    cases there with
    | false => exact ⟨hs, fun h => Bool.noConfusion h⟩
    | true =>
      rw [track_of_not_fails rfl]
      refine follows_withContext.mpr (follows_op.mpr ⟨⟨hh, hmay⟩, fun r => ?_⟩)
      have hu : Steady a (a.track role (.unlink (.metaPath id)) r) := steady_track hh (by cases r <;> rfl)
      cases r with
      | error e => exact ⟨hu, fun _ hc => failed_track rfl hc⟩
      | ok u => exact ⟨hu, fun h => Bool.noConfusion h⟩

theorem removeMsgFile_follows {id message : Text} (hh : a.handle = none) (hmay : MayRemove role a id) :
    Keeps cfg role (removeFile (.msgPath id) message).run a fun a' _ =>
      Removed role id a a' := by
  -- a file found or made absent; anything else leaves a delivered task with a failure
  have hg : Removed role id a (if role = .task id ∧ a.stage = .delivered then { a with stage := .removed } else a) := by
    by_cases hd : role = .task id ∧ a.stage = .delivered
    · rw [if_pos hd]
      exact ⟨hh, rfl, rfl, fun h => h, fun h => absurd hd h, fun _ _ => .inl rfl⟩
    · rw [if_neg hd]
      exact ⟨hh, rfl, rfl, fun h => h, fun _ => rfl, fun hr hst => absurd ⟨hr, hst⟩ hd⟩
  have hf : ∀ (op : Op) (r : Res op), fails op r = true → a.after role op r = a →
      Removed role id a (a.track role op r) := by
    intro op r hfa hfr
    have h : Steady a (a.track role op r) := steady_track hh hfr
    refine ⟨h.handle, h.enq, h.seen, h.failed, fun _ => h.stage, fun _ hst => .inr ⟨?_, ?_⟩⟩
    · rw [h.stage, hst]
    · exact failed_track hfa (by rw [hst]; rfl)
  refine follows_lift_bind.mpr (follows_bind.mpr (follows_op.mpr ⟨hh, fun r => ?_⟩))
  cases r with
  | error e => exact hf _ _ rfl rfl
  | ok there =>
    rw [track_of_not_fails rfl]
    cases there with
    | false => exact hg
    | true =>
      refine follows_withContext.mpr (follows_op.mpr ⟨⟨hh, hmay⟩, fun r => ?_⟩)
      cases r with
      | error e => exact hf _ _ rfl rfl
      | ok u => rwa [track_of_not_fails rfl]

@[simp] theorem follows_trace {post : Agent → Unit → Prop} : Keeps cfg role (trace line) a post ↔
      a.handle = none ∧ post (a.after role (.trace line) ()) () := by
  refine follows_op.trans (and_congr_right fun _ => ?_)
  constructor
  · intro h
    have hp := h ()
    rwa [track_of_not_fails rfl] at hp
  · intro h u
    rwa [track_of_not_fails rfl]

theorem remove_follows (hh : a.handle = none) (hmay : MayRemove role a id) :
    Keeps cfg role (remove id).run a fun a' _ => Removed role id a a' := by
  refine follows_exceptT_bind.mpr ((removeMetaFile_follows hh hmay).mono ?_)
  intro a₁ r hr
  obtain ⟨h₁, hfa⟩ := hr
  cases r with
  | error e =>
    refine ⟨h₁.handle, h₁.enq, h₁.seen, h₁.failed, fun _ => h₁.stage, fun _ hst => .inr ⟨?_, ?_⟩⟩
    · rw [h₁.stage, hst]
    · exact hfa rfl (by rw [hst]; rfl)
  | ok u =>
    have hmay₁ : MayRemove role a₁ id := hmay.mono h₁.seen h₁.stage h₁.failed
    refine follows_exceptT_bind.mpr ((removeMsgFile_follows h₁.handle hmay₁).mono ?_)
    intro a₂ r h₂
    have h₂' : Removed role id a a₂ := by
      refine ⟨h₂.handle, h₂.enq.trans h₁.enq, h₂.seen.trans h₁.seen,
        fun hf => h₂.failed (h₁.failed hf), fun hne => ?_, fun hro hst => ?_⟩
      · rw [← h₁.stage]
        exact h₂.other (by rwa [h₁.stage])
      · exact h₂.delivered hro (h₁.stage.trans hst)
    cases r with
    | error e => exact h₂'
    | ok u => exact follows_lift.mpr (follows_trace.mpr ⟨h₂'.handle, h₂'⟩)

structure Listed (role : Role) (a a' : Agent) (messages : List QueuedMessage) : Prop where
  handle : a'.handle = none
  enq : a'.enq = a.enq
  shown : ∀ q ∈ messages, role.picks q.metadata.status = true → q.id ∈ a'.seen

theorem listEntries_follows {a₀ : Agent} (entries : List (Except IoError Path)) :
    ∀ (messages : List QueuedMessage) (a : Agent), Listed role a₀ a messages →
      Keeps cfg role (listEntries entries messages).run a fun a' r =>
        match r with
        | .ok shown => Listed role a₀ a' shown
        | .error _ => a'.handle = none ∧ a'.enq = a₀.enq := by
  induction entries with
  | nil => exact fun messages a h => h
  | cons entry entries ih =>
    intro messages a h
    match entry with
    | .error e => exact ⟨h.handle, h.enq⟩
    | .ok (.msgPath _) => exact ih messages a h
    | .ok (.metaPath id) =>
      have hst : ∀ r : Except IoError Content, a.after role (.read (.metaPath id)) r = a →
          Listed role a₀ (a.track role (.read (.metaPath id)) r) messages := by
        intro r hf
        have hs : Steady a (a.track role (.read (.metaPath id)) r) := steady_track h.handle hf
        exact ⟨hs.handle, hs.enq.trans h.enq, fun q hq hp => by rw [hs.seen]; exact h.shown q hq hp⟩
      refine follows_lift_bind.mpr (follows_op.mpr ⟨h.handle, fun r => ?_⟩)
      cases r with
      | error e =>
        have hl := hst (.error e) rfl
        exact follows_lift_bind.mpr (follows_trace.mpr ⟨hl.handle, ih messages _ hl⟩)
      | ok content =>
        cases hpa : content.parse with
        | none =>
          have hf : a.after role (.read (.metaPath id)) (.ok content) = a := by
            cases content <;> simp_all [parse, after]
          have hl := hst (.ok content) hf
          simp only [hpa]
          exact follows_lift_bind.mpr (follows_trace.mpr ⟨hl.handle, ih messages _ hl⟩)
        | some q =>
          obtain rfl := parse_eq_some.mp hpa
          rw [track_of_not_fails rfl]
          simp only [hpa]
          apply ih
          refine ⟨h.handle, h.enq, ?_⟩
          intro q' hq' hpi
          rcases List.mem_append.mp hq' with hq' | hq'
          · exact seen_reads id q (h.shown q' hq' hpi)
          · obtain rfl := List.mem_singleton.mp hq'
            show q'.id ∈ if role.picks q'.metadata.status then _ else _
            rw [if_pos hpi]
            exact List.mem_cons_self

theorem list_follows (hh : a.handle = none) : Keeps cfg role (list dir).run a fun a' r =>
      match r with
      | .ok shown => Listed role a a' shown
      | .error _ => a'.handle = none ∧ a'.enq = a.enq := by
  refine follows_exceptT_bind.mpr (follows_withContext.mpr (follows_op.mpr ⟨hh, fun r => ?_⟩))
  rw [track_of_not_fails (by cases r <;> rfl)]
  cases r with
  | error e => exact ⟨hh, rfl⟩
  | ok entries => exact listEntries_follows entries [] a ⟨hh, rfl, fun q hq => by cases hq⟩

theorem listOrEmpty_follows (hh : a.handle = none) :
    Keeps cfg role (listOrEmpty cfg) a fun a' shown => Listed role a a' shown := by
  refine follows_bind.mpr ((list_follows hh).mono fun a' r hr => ?_)
  cases r with
  | ok shown => exact hr
  | error e => exact ⟨hr.1, hr.2, fun q hq => by cases hq⟩

theorem enqueue_follows {envelope : Envelope} {message : Bytes} (hh : a.handle = none) (henq : a.enq = .idle)
    (hwho : role.receives ∨ ((∃ m, role = .task m) ∧ a.stage = .marked))
    (hd : ∀ env msg, role = .receive env msg → envelope = env ∧ message = msg) :
    Keeps cfg role (enqueue envelope message).run a fun a' r =>
      match r with
      | .ok id => a'.handle = none ∧ a'.enq = .stored id ∧ a'.stage = if a.stage = .marked then .bounced else a.stage
      | .error _ => a'.handle = none ∧ a'.stage = a.stage ∧ (a.stage.critical → a'.failed) := by
  have hid : Keeps cfg role generateQueueId a fun a' _ => a' = a :=
    follows_bind.mpr (follows_now.mpr ⟨hh, fun _ => follows_bind.mpr (follows_uuid.mpr ⟨hh, fun _ => rfl⟩)⟩)
  refine follows_lift_bind.mpr (hid.mono fun a' id ha' => ?_)
  subst ha'
  refine follows_lift_bind.mpr (follows_now.mpr ⟨hh, fun now => ?_⟩)
  refine follows_exceptT_bind.mpr (follows_withContext.mpr ?_)
  refine writeFile_follows hh ⟨henq, hwho⟩ (fun fd => ?_) (fun fd => ?_) ?_
  · exact ⟨rfl, message, rfl, fun env msg hr => (hd env msg hr).2⟩
  · refine follows_exceptT_bind.mpr (follows_withContext.mpr ?_)
    refine writeFile_follows rfl (.inl rfl) (fun fd' => ?_) (fun fd' => ?_) ?_
    · exact ⟨_, rfl, (if_pos rfl).mpr ⟨rfl, rfl, fun env msg hr => (hd env msg hr).1⟩⟩
    · rw [wrote_of_saved rfl]
      refine follows_lift_bind.mpr (follows_trace.mpr ⟨rfl, ?_⟩)
      by_cases hm : a'.stage = .marked
      · simp [after, hm, wrote, opens]
      · simp [after, hm, wrote, opens]
    · intro a₂ e h
      exact ⟨h.handle, h.stage, fun hc => h.failed (.inl hc)⟩
  · intro a₁ e h
    exact ⟨h.handle, h.stage, fun hc => h.failed (.inl hc)⟩

end ServerWall.Relay
