import ServerWall.Relay.Docket
import ServerWall.Relay.Writers

/-!
# What a delivery task goes about

A third record of a process: whether it has rewritten the metadata of its message, whether a file
operation failed, how often it drew random bits, and the id it stores under. The protocol `errand` is read
off the log (`errandOf`).
-/

namespace ServerWall.Relay

open Protocol

/-! ## The record -/

structure Errand where
  /-- Whether the metadata of its message was rewritten. -/
  marked : Bool := false
  /-- Whether a file operation failed, or metadata did not parse. -/
  failed : Bool := false
  bits : Nat := 0
  draft : Option Text := none

def marks (role : Role) : (op : Op) → Res op → Bool
  | .write (.metaPath id) _ _, .ok _ => role = .task id
  | _, _ => false

def Op.bits : Op → Nat
  | .uuid => 1
  | _ => 0

def Errand.track (role : Role) (e : Errand) (op : Op) (r : Res op) : Errand where
  marked := e.marked || marks role op r
  failed := e.failed || fails op r
  bits := e.bits + op.bits
  draft := (Case.taken op r).or e.draft

def Role.delivers : Role → Bool
  | .task _ => true
  | _ => false

def Errand.Starts (e : Errand) : Op → Prop
  | .write (.metaPath id) _ content => e.draft = some id → ∃ q, content = .record q ∧ q.metadata.attempts = 0
  | _ => True

def Errand.May (m : Text) (e : Errand) : Op → Prop
  | .read p => p.id = m
  | .stat p => p.id = m
  | .unlink p => p.id = m
  | .uuid => e.bits < 2
  | _ => True

/-- The end of a task: the metadata was rewritten, or something failed. -/
def Errand.Over (e : Errand) : Prop := e.marked = true ∨ e.failed = true

def errand : Protocol Op Res Role Errand Response where
  start _ := {}
  allowed role e op := e.Starts op ∧ ∀ m, role = .task m → e.May m op
  track := Errand.track
  ends role e _ := ∀ m, role = .task m → e.Over

/-- The errand of a process, by what the log says it did. -/
def errandOf (pid : Nat) (role : Role) (log : List Happening) : Errand := errand.recorded role {} (historyOf pid log)

/-! ## The functions -/

variable {role : Role} {e : Errand}

/-- What every function keeps: marks and failures stay. -/
structure Errand.Onward (e e' : Errand) : Prop where
  marked : e.marked = true → e'.marked = true
  failed : e.failed = true → e'.failed = true

/-- What a function keeps that draws no bits and stores no message. -/
structure Errand.Calm (e e' : Errand) : Prop extends Errand.Onward e e' where
  bits : e'.bits = e.bits
  draft : e'.draft = e.draft

theorem Errand.Calm.trans (h : e.Calm e') (h' : e'.Calm e'') : e.Calm e'' where
  marked hm := h'.marked (h.marked hm)
  failed hf := h'.failed (h.failed hf)
  bits := h'.bits.trans h.bits
  draft := h'.draft.trans h.draft

theorem Errand.over_track (e : Errand) (op : Op) (r : Res op) (h : e.Over) : (e.track role op r).Over :=
  h.imp (fun hm => by simp [Errand.track, hm]) fun hf => by simp [Errand.track, hf]

theorem Errand.calm_track (hb : op.bits = 0) (ht : Case.taken op r = none) : e.Calm (e.track role op r) where
  marked h := by simp [Errand.track, h]
  failed h := by simp [Errand.track, h]
  bits := by simp [Errand.track, hb]
  draft := by simp [Errand.track, ht]

/-- A task that has neither drawn bits nor stored anything. -/
structure Errand.Idle (e : Errand) : Prop where
  bits : e.bits = 0
  draft : e.draft = none

theorem Errand.Idle.calm (h : e.Idle) (hc : e.Calm e') : e'.Idle := ⟨hc.bits.trans h.bits, hc.draft.trans h.draft⟩

theorem errand_op (hs : e.Starts op)
    (hmay : ∀ m, role = .task m → e.May m op) (hp : ∀ r, post (e.track role op r) r) :
    errand.Follows role (perform op) e post :=
  ⟨⟨hs, hmay⟩, hp⟩

theorem errand_task (hs : e.Starts op) (hmay : e.May m op) (hp : ∀ r, post (e.track (.task m) op r) r) :
    errand.Follows (.task m) (perform op) e post := by
  refine errand_op hs (fun m' hm => ?_) hp
  obtain rfl := Role.task.inj hm
  exact hmay

theorem errand_next (hs : e.Starts op) (hmay : e.May m op) (hb : op.bits = 0) (ht : ∀ r, Case.taken op r = none)
    (hp : ∀ e' r, e.Calm e' → post e' r) : errand.Follows (.task m) (perform op) e post :=
  errand_task hs hmay fun r => hp _ r (Errand.calm_track hb (ht r))

theorem errand_trace (hp : ∀ e', e.Calm e' → post e' ()) : errand.Follows role (trace line) e post :=
  errand_op trivial (fun _ _ => trivial) fun _ => hp _ (Errand.calm_track rfl rfl)

/-! ### The spool -/

theorem removeFile_errand (hp : p.id = m) : errand.Follows (.task m) (removeFile p message).run e fun _ _ => True := by
  refine follows_lift_bind.mpr (follows_bind.mpr (errand_task trivial hp fun r => ?_))
  rcases r with err | _ | _
  · trivial
  · trivial
  · exact follows_withContext.mpr (errand_task trivial hp fun r => by cases r <;> trivial)

theorem remove_errand : errand.Follows (.task m) (remove m).run e fun _ _ => True := by
  refine follows_exceptT_bind.mpr ((removeFile_errand (p := .metaPath m) rfl).mono fun e₁ r _ => ?_)
  cases r with
  | error err => trivial
  | ok u =>
    refine follows_exceptT_bind.mpr ((removeFile_errand (p := .msgPath m) rfl).mono fun e₂ r _ => ?_)
    cases r with
    | error err => trivial
    | ok u => exact follows_lift.mpr (errand_trace fun _ _ => trivial)

theorem writeFile_errand (hs : ∀ fd, (e.track role (.create p) (.ok fd)).Starts (.write p fd content))
    (hok : ∀ e', (∀ id, p = .metaPath id → e.Calm e' ∧ (role = .task id → e'.marked)) → post e' (.ok ()))
    (he : ∀ e' err, (∀ id, p = .metaPath id → e.Calm e') → e'.failed → post e' (.error err)) :
    errand.Follows role (writeFile p content) e post := by
  refine follows_bind.mpr (errand_op trivial (fun _ _ => trivial) fun r => ?_)
  have hc : ∀ id, p = .metaPath id → e.Calm (e.track role (.create p) r) := by
    intro id hp
    subst hp
    exact Errand.calm_track rfl rfl
  cases r with
  | error err => exact he _ err hc (by simp [Errand.track, fails])
  | ok fd =>
    refine errand_op (hs fd) (fun _ _ => trivial) fun r => ?_
    have hc' : ∀ id, p = .metaPath id → e.Calm
        ((e.track role (.create p) (.ok fd)).track role (.write p fd content) r) := fun id hp =>
      (hc id hp).trans (Errand.calm_track rfl rfl)
    cases r with
    | error err => exact he _ err hc' (by simp [Errand.track, fails])
    | ok u =>
      refine hok _ fun id hp => ⟨hc' id hp, fun hr => ?_⟩
      subst hp
      simp [Errand.track, marks, hr]

theorem enqueue_errand (hb : ∀ m, role = .task m → e.bits < 2) :
    errand.Follows role (enqueue envelope message).run e fun _ _ => True := by
  refine follows_lift_bind.mpr ?_
  rw [generateQueueId_eq]
  refine follows_bind.mpr (errand_op trivial (fun _ _ => trivial) fun ts => ?_)
  refine follows_bind.mpr (errand_op trivial hb fun random => ?_)
  refine follows_lift_bind.mpr (errand_op trivial (fun _ _ => trivial) fun t => ?_)
  refine follows_exceptT_bind.mpr (follows_withContext.mpr (writeFile_errand (fun _ => trivial) (fun e₁ _ => ?_) fun _ _ _ _ => trivial))
  refine follows_exceptT_bind.mpr (follows_withContext.mpr (writeFile_errand (fun fd _ => ⟨_, rfl, rfl⟩) (fun e₂ _ => ?_) fun _ _ _ _ => trivial))
  exact follows_lift_bind.mpr (errand_trace fun _ _ => trivial)

theorem updateMetadata_errand (hd : e.draft = none) :
    errand.Follows (.task m) (updateMetadata m metadata).run e fun e' r =>
      e.Calm e' ∧ (r.toBool = false → e'.failed) ∧ (r.toBool → e'.marked) := by
  refine follows_exceptT_bind.mpr (follows_withContext.mpr (errand_task trivial rfl fun r => ?_))
  have hr : e.Calm (e.track (.task m) (.read (.metaPath m)) r) := Errand.calm_track rfl rfl
  cases r with
  | error err =>
    refine ⟨hr, fun _ => ?_, fun h => Bool.noConfusion h⟩
    simp [Errand.track, fails]
  | ok content =>
    refine follows_exceptT_bind.mpr ?_
    unfold parseMetadata
    cases hp : content.parse with
    | none =>
      refine ⟨hr, fun _ => ?_, fun h => Bool.noConfusion h⟩
      simp [Errand.track, fails, hp]
    | some q =>
      refine follows_withContext.mpr (writeFile_errand (fun fd hid => ?_) ?_ ?_)
      · -- nothing is being stored, so this is no new message
        have hn : e.draft = some m := hr.draft ▸ hid
        cases hd.symm.trans hn
      · intro e₁ hc
        exact ⟨hr.trans (hc m rfl).1, fun h => Bool.noConfusion h, fun _ => (hc m rfl).2 rfl⟩
      · intro e₁ err hc hf
        exact ⟨hr.trans (hc m rfl), fun _ => hf, fun h => Bool.noConfusion h⟩

/-! ### Delivering -/

theorem bounce_errand (hi : e.Idle) :
    errand.Follows (.task m) (bounce cfg original error message) e fun _ _ => True := by
  refine follows_bind.mpr ?_
  unfold BounceGenerator.generate
  split
  · exact follows_bind.mpr (errand_trace fun _ _ => trivial)
  · refine follows_bind.mpr (errand_next trivial trivial rfl (fun _ => rfl) fun e₁ t h₁ => ?_)
    have hf : e₁.bits = 0 := (hi.calm h₁).bits
    have hmay : e₁.May m .uuid := by
      show e₁.bits < 2
      omega
    refine follows_bind.mpr (errand_task trivial hmay fun u => ?_)
    have hs : (e₁.track (.task m) .uuid u).bits < 2 := by
      show e₁.bits + 1 < 2
      omega
    exact follows_bind.mpr ((enqueue_errand fun _ _ => hs).mono fun _ _ _ => trivial)

theorem bounceRemove_errand (hi : e.Idle) : errand.Follows (.task m) ((do
      (bounce cfg original error message : Fallible Unit)
      remove m) : Fallible Unit).run e fun _ _ => True := by
  refine follows_lift_bind.mpr ((bounce_errand hi).mono ?_)
  intro e₁ _ _
  exact remove_errand

theorem handleTempFail_errand (hi : e.Idle) :
    errand.Follows (.task m) (handleTempFail cfg m error queued).run e fun _ _ => True := by
  refine follows_lift_bind.mpr (follows_bind.mpr (errand_next trivial trivial rfl (fun _ => rfl) fun e₁ t h₁ => ?_))
  -- both reasons to give up go on alike
  have hg : ∀ (line : TraceLine), errand.Follows (.task m) ((do
      (trace line : Fallible Unit)
      (bounce cfg queued.envelope error [] : Fallible Unit)
      remove m) : Fallible Unit).run e₁ fun _ _ => True := by
    intro line
    exact follows_lift_bind.mpr (errand_trace fun e₂ h₂ => bounceRemove_errand (hi.calm (h₁.trans h₂)))
  show errand.Follows (.task m) (ExceptT.run (if _ then _ else _)) e₁ _
  split
  · exact hg _
  · refine follows_exceptT_bind.mpr ?_
    unfold RetryScheduler.nextRetryTime
    split
    · exact hg _
    · refine follows_lift_bind.mpr (errand_next trivial trivial rfl (fun _ => rfl) fun e₂ t' h₂ => ?_)
      split
      · refine follows_exceptT_bind.mpr ((updateMetadata_errand (hi.calm (h₁.trans h₂)).draft).mono fun e₃ r _ => ?_)
        cases r with
        | error err => trivial
        | ok u => exact follows_lift.mpr (errand_trace fun _ _ => trivial)
      · trivial

theorem tryTargets_errand : ∀ (rest : List (MxHost × IpAddr)) (e : Errand) (queued : QueuedMessage), e.Idle →
      errand.Follows (.task m) (tryTargets cfg m message rest queued).run e fun _ _ => True := by
  intro rest
  induction rest with
  | nil =>
    intro e queued hi
    exact handleTempFail_errand hi
  | cons target rest ih =>
    obtain ⟨host, addr⟩ := target
    intro e queued hi
    refine follows_lift_bind.mpr (follows_bind.mpr (errand_next trivial trivial rfl (fun _ => rfl) fun e₁ _ h₁ =>
        errand_next trivial trivial rfl (fun _ => rfl) fun e₂ r h₂ => ?_))
    cases r with
    | success resp => exact follows_lift_bind.mpr (errand_trace fun e₃ _ => remove_errand)
    | permFail err =>
      refine follows_lift_bind.mpr (errand_trace fun e₃ h₃ => ?_)
      exact bounceRemove_errand (hi.calm ((h₁.trans h₂).trans h₃))
    | tempFail err =>
      refine follows_lift_bind.mpr (errand_trace fun e₃ h₃ => ?_)
      exact ih _ _ (hi.calm ((h₁.trans h₂).trans h₃))

theorem deliverMessage_errand : errand.Follows (.task m) (deliverMessage cfg m).run {} fun e' _ => e'.Over := by
  refine follows_exceptT_bind.mpr (follows_exceptT_bind.mpr (follows_withContext.mpr (errand_task trivial rfl fun r => ?_)))
  cases r with
  | error err => exact .inr rfl
  | ok content =>
    refine follows_exceptT_bind.mpr ?_
    unfold parseMetadata
    cases hp : content.parse with
    | none => exact .inr (by simp [Errand.track, fails, hp])
    | some q =>
      refine follows_exceptT_bind.mpr (follows_withContext.mpr (errand_task trivial rfl fun r => ?_))
      cases r with
      | error err => exact .inr (by simp [Errand.track, fails])
      | ok text =>
        refine follows_exceptT_bind.mpr ((updateMetadata_errand rfl).mono ?_)
        rintro e₁ r ⟨h₁, hf, hm⟩
        cases r with
        | error err => exact .inr (hf rfl)
        | ok u =>
          have hi : e₁.Idle := ⟨h₁.bits, h₁.draft⟩
          -- from here on the metadata is rewritten, and stays so
          refine Follows.keeping Errand.over_track ?_ (.inl (hm rfl))
          refine follows_lift_bind.mpr (errand_next trivial trivial rfl (fun _ => rfl) fun e₂ r h₂ => ?_)
          cases r with
          | ok hosts => exact tryTargets_errand _ _ _ (hi.calm h₂)
          | error err =>
            exact follows_lift_bind.mpr (errand_trace fun e₃ h₃ => handleTempFail_errand (hi.calm (h₂.trans h₃)))

/-- **A delivery task goes about its errand.** -/
theorem task_errand (m : Text) : errand.Follows (.task m) (task cfg m) {} (errand.ends (.task m)) := by
  refine follows_bind.mpr (deliverMessage_errand.mono fun e r ho => ?_)
  have hr : ∀ (e : Errand) (x : Response), e.Over →
      errand.Follows (.task m) (do release; pure x) e (errand.ends (.task m)) := by
    intro e x ho
    refine follows_bind.mpr (errand_next trivial trivial rfl (fun _ => rfl) fun e' _ h' => ?_)
    exact fun _ _ => ho.imp h'.marked h'.failed
  have hf : errand.Follows (.task m)
      (do trace (.taskFailed m); release; pure Response.none) e (errand.ends (.task m)) :=
    follows_bind.mpr (errand_trace fun e' h' => hr e' _ (ho.imp h'.marked h'.failed))
  cases r with
  | ok u => exact hr e _ ho
  | error failure =>
    cases failure with
    | panic => exact hr e _ ho
    | context message | io err => exact hf

/-- **So does a receiver session.** -/
theorem receiveMessage_errand (envelope) (message : Bytes) :
    errand.Follows (.receive envelope message) (receiveMessage envelope message) {}
      (errand.ends (.receive envelope message)) := by
  refine follows_bind.mpr ((enqueue_errand fun _ hm => by cases hm).mono fun e r _ => ?_)
  cases r with
  | ok id => exact follows_bind.mpr (errand_op trivial (fun _ _ => trivial) fun _ _ hm => by cases hm)
  | error err => exact follows_bind.mpr (errand_op trivial (fun _ _ => trivial) fun _ _ hm => by cases hm)

/-! ## Errands by the log -/

section

variable {log : List Happening} {pid q : Nat} {op : Op} {r : Res op}

theorem errandOf_self : errandOf pid role (log ++ [.did pid role' op r]) = (errandOf pid role log).track role op r := by
  unfold errandOf Protocol.recorded
  rw [historyOf_did_self, List.foldl_append]
  rfl

theorem errandOf_concat (hx : x.part pid = none) : errandOf pid role (log ++ [x]) = errandOf pid role log := by
  unfold errandOf
  rw [historyOf_concat hx]

theorem errandOf_other (hq : q ≠ pid) : errandOf pid role (log ++ [.did q role' op r]) = errandOf pid role log :=
  errandOf_concat (if_neg hq)

theorem draft_errandOf (log : List Happening) : (errandOf pid role log).draft = (docketOf pid log).draft.id := by
  induction log using List.reverseRecOn with
  | nil => rfl
  | append_singleton log x ih =>
    by_cases hpa : x.part pid = none
    · rwa [errandOf_concat hpa, docketOf, historyOf_concat hpa]
    · cases x with
      | did p role' op r =>
        obtain rfl : p = pid := by
          by_contra hp
          exact hpa (if_neg hp)
        rw [errandOf_self, docketOf, historyOf_did_self, docketAfter, List.foldl_append]
        show (Case.taken op r).or (errandOf p role log).draft = ((docketOf p log).toCase.after op r).draft.id
        rw [Case.after_id, ih]
      | _ => exact absurd rfl hpa

theorem told_may (ht : Told (relay cfg) log (.did pid (.task m) op r)) : (errandOf pid (.task m) log).May m op :=
  (ht.allowed (Q := errand) (task_errand m)).2 m rfl

theorem told_starts (ht : Told (relay cfg) log (.did pid role op r))
    (hr : (∃ m, role = .task m) ∨ ∃ envelope message, role = .receive envelope message) :
    (errandOf pid role log).Starts op := by
  rcases hr with ⟨m, rfl⟩ | ⟨envelope, message, rfl⟩
  · exact (ht.allowed (Q := errand) (task_errand m)).1
  · exact (ht.allowed (Q := errand) (receiveMessage_errand envelope message)).1

end

end ServerWall.Relay
