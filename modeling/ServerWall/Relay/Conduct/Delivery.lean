import ServerWall.Relay.Conduct.Spool

/-!
# The delivery manager keeps to the protocol

The specifications of the functions a delivery task consists of. A task that is
through leaves its message deferred, bounced, dropped or removed, and only a
failed operation, or a retry outside the calendar, makes it end with the message
still marked active (`TaskDone`).
-/

namespace ServerWall.Relay

open Protocol Agent Instant

variable {cfg : Config} {role : Role} {a : Agent}

/-! ## Delivery -/

structure TaskDone (cfg : Config) (a : Agent) : Prop where
  handle : a.handle = none
  sending : a.stage ≠ .sending
  delivered : a.stage = .delivered → a.failed = true
  marked : a.stage = .marked → a.failed = true ∨ ¬ cfg.scheduler.Fits

theorem bounce_follows (hro : role = .task m) (hha : a.handle = none) (henq : a.enq = .idle) (hs : a.stage = .marked) :
    Keeps cfg role (bounce cfg envelope error message) a fun a' _ =>
      a'.handle = none ∧ (a'.stage = .bounced ∨ a'.stage = .dropped ∨ (a'.stage = .marked ∧ a'.failed)) := by
  refine follows_bind.mpr ?_
  unfold BounceGenerator.generate
  split
  · -- the null sender: no bounce
    refine follows_bind.mpr (follows_trace.mpr ⟨hha, ?_⟩)
    have hd : a.after role (.trace .nullSender) () = { a with stage := .dropped } := if_pos hs
    rw [hd]
    exact ⟨hha, .inr (.inl rfl)⟩
  · refine follows_bind.mpr (follows_now.mpr ⟨hha, fun now => ?_⟩)
    refine follows_bind.mpr (follows_uuid.mpr ⟨hha, fun uuid => ?_⟩)
    have hda : ∀ (env : Envelope) (msg : Bytes) (b : Envelope) (c : Bytes),
        role = .receive env msg → b = env ∧ c = msg := by
      intro env msg b c h
      cases hro.symm.trans h
    refine follows_bind.mpr ((enqueue_follows hha henq (.inr ⟨⟨m, hro⟩, hs⟩) fun env msg h => hda env msg _ _ h).mono fun a' r hr => ?_)
    cases r with
    | ok id =>
      obtain ⟨hh, -, hst⟩ := hr
      rw [if_pos hs] at hst
      exact ⟨hh, .inl hst⟩
    | error e =>
      obtain ⟨hh, hst, hf⟩ := hr
      exact ⟨hh, .inr (.inr ⟨hst.trans hs, hf (by rw [hs]; rfl)⟩)⟩

theorem bounceRemove_follows (hr : role = .task m) (hha : a.handle = none) (henq : a.enq = .idle)
    (hs : a.stage = .marked) :
    Keeps cfg role ((do
      (bounce cfg envelope error message : Fallible Unit)
      remove m) : Fallible Unit).run a fun a' _ => TaskDone cfg a' := by
  refine follows_lift_bind.mpr ((bounce_follows hr hha henq hs).mono fun a₁ _ h₁ => ?_)
  obtain ⟨hh, hst⟩ := h₁
  have hnot : ¬ (role = .task m ∧ a₁.stage = .delivered) := by
    intro h
    rcases hst with hst | hst | hst <;> simp [h.2] at hst
  have hmay : MayRemove role a₁ m := by
    refine .inr (.inr ⟨hr, ?_⟩)
    rcases hst with hst | hst | hst
    · exact .inr (.inl hst)
    · exact .inr (.inr (.inl hst))
    · exact .inr (.inr (.inr hst.2))
  refine (remove_follows hh hmay).mono fun a₂ _ h₂ => ?_
  have hst₂ := h₂.other hnot
  constructor
  · exact h₂.handle
  · rcases hst with hst | hst | hst <;> simp [hst₂, hst]
  · rcases hst with hst | hst | hst <;> simp [hst₂, hst]
  · intro hm
    rcases hst with hst | hst | hst
    · simp [hst₂, hst] at hm
    · simp [hst₂, hst] at hm
    · exact .inl (h₂.failed hst.2)

theorem RetryScheduler.Fits.delay {s : RetryScheduler} (h : s.Fits) (attempt : UInt32) :
    -calendarReach ≤ s.delay attempt ∧ s.delay attempt ≤ calendarReach := by
  unfold RetryScheduler.delay
  split
  · rename_i d hd
    exact h d (List.mem_of_getElem? hd)
  · cases hl : s.intervals.getLast? with
    | none => exact ⟨by decide, by decide⟩
    | some d => exact h d (List.mem_of_getLast? hl)

theorem nextRetryTime_follows {s : RetryScheduler} {attempt : UInt32} (hh : a.handle = none) :
    Keeps cfg role (s.nextRetryTime attempt).run a fun a' r =>
      a' = a ∧ (r.toBool = false → ¬ s.Fits) := by
  unfold RetryScheduler.nextRetryTime
  split
  · exact ⟨rfl, fun h => Bool.noConfusion h⟩
  · refine follows_lift_bind.mpr (follows_now.mpr ⟨hh, fun now => ?_⟩)
    have hadd : now.toDateTime.add (s.delay attempt) = none → ¬ s.Fits := by
      intro hn hf
      have hs := add_isSome (t := now) (hf.delay attempt).1 (hf.delay attempt).2
      rw [hn] at hs
      cases hs
    split
    · exact ⟨rfl, fun h => Bool.noConfusion h⟩
    · rename_i hn
      exact ⟨rfl, fun _ => hadd hn⟩

theorem handleTempFail_follows (hr : role = .task m) {error : Text} (hh : a.handle = none) (henq : a.enq = .idle)
    (hs : a.stage = .marked) (hf : a.failed = false) :
    Keeps cfg role (handleTempFail cfg m error queued).run a fun a' _ => TaskDone cfg a' := by
  refine follows_lift_bind.mpr (follows_bind.mpr (follows_now.mpr ⟨hh, fun now => ?_⟩))
  show Keeps cfg role (ExceptT.run (if _ then _ else _)) a _
  split
  · refine follows_lift_bind.mpr (follows_trace.mpr ⟨hh, ?_⟩)
    exact bounceRemove_follows hr hh henq hs
  · refine follows_exceptT_bind.mpr ((nextRetryTime_follows hh).mono fun a₁ r h₁ => ?_)
    obtain ⟨rfl, hp⟩ := h₁
    cases r with
    | error e => exact ⟨hh, by simp [hs], by simp [hs], fun _ => .inr (hp rfl)⟩
    | ok next =>
      cases next with
      | none =>
        refine follows_lift_bind.mpr (follows_trace.mpr ⟨hh, ?_⟩)
        exact bounceRemove_follows hr hh henq hs
      | some next =>
        refine follows_exceptT_bind.mpr ((updateMetadata_follows hh (by simp [henq])
          (.inr (.inr (.inr ⟨hr, hs, hf, rfl⟩)))).mono fun a₂ r h₂ => ?_)
        cases r with
        | error e =>
          refine ⟨h₂.handle, by simp [h₂.stage, hs], by simp [h₂.stage, hs], fun _ => ?_⟩
          exact .inl (h₂.failed (.inl (by rw [hs]; rfl)))
        | ok u =>
          have hst : a₂.stage = .rescheduled := by
            rw [h₂.stage, if_pos hr, hs]
            rfl
          exact follows_lift.mpr (follows_trace.mpr ⟨h₂.handle, h₂.handle, by simp [after, hst],
            by simp [after, hst], by simp [after, hst]⟩)

structure Trying (a : Agent) : Prop where
  handle : a.handle = none
  enq : a.enq = .idle
  stage : a.stage = .marked
  failed : a.failed = false

variable (hr : role = .task m)
include hr

theorem send_follows (h : Trying a) :
    Keeps cfg role (send addr hostname mailFrom rcptTo message) a fun a' r => match r with
      | .success _ => a' = { a with stage := .delivered } | _ => a' = a := by
  refine follows_bind.mpr (follows_op.mpr ⟨⟨h.handle, ⟨m, hr⟩, h.stage, h.failed⟩, fun _ => ?_⟩)
  rw [track_of_not_fails rfl]
  refine follows_op.mpr ⟨⟨h.handle, rfl⟩, fun r => ?_⟩
  rw [track_of_not_fails rfl]
  have hb : { a with stage := .marked } = a := by rw [← h.stage]
  cases r with
  | success resp => rfl
  | tempFail err | permFail err => exact hb

theorem tryTargets_follows (targets : List (MxHost × IpAddr)) : ∀ (queued : QueuedMessage), Trying a →
      Keeps cfg role (tryTargets cfg m message targets queued).run a fun a' _ => TaskDone cfg a' := by
  induction targets with
  | nil =>
    intro queued h
    exact handleTempFail_follows hr h.handle h.enq h.stage h.failed
  | cons target rest ih =>
    obtain ⟨host, addr⟩ := target
    intro queued h
    refine follows_lift_bind.mpr ((send_follows hr h).mono fun a₁ r h₁ => ?_)
    cases r with
    | success resp =>
      obtain rfl : a₁ = { a with stage := .delivered } := h₁
      refine follows_lift_bind.mpr (follows_trace.mpr ⟨h.handle, ?_⟩)
      have hmay : MayRemove role { a with stage := .delivered } m := .inr (.inr ⟨hr, .inl rfl⟩)
      refine (remove_follows (a := { a with stage := .delivered }) h.handle hmay).mono fun a₂ _ h₂ => ?_
      rcases h₂.delivered hr rfl with hst | ⟨hst, hf⟩
      · exact ⟨h₂.handle, by simp [hst], by simp [hst], by simp [hst]⟩
      · exact ⟨h₂.handle, by simp [hst], fun _ => hf, by simp [hst]⟩
    | permFail err =>
      obtain rfl : a₁ = a := h₁
      refine follows_lift_bind.mpr (follows_trace.mpr ⟨h.handle, ?_⟩)
      exact bounceRemove_follows hr h.handle h.enq h.stage
    | tempFail err =>
      obtain rfl : a₁ = a := h₁
      refine follows_lift_bind.mpr (follows_trace.mpr ⟨h.handle, ?_⟩)
      exact ih _ h

theorem deliverMessage_follows :
    Keeps cfg role (deliverMessage cfg m).run {} fun a' _ => TaskDone cfg a' := by
  have he : ∀ a' : Agent, a'.handle = none → a'.stage = .fresh ∨ a'.stage = .loaded → TaskDone cfg a' := by
    intro a' hh hst
    rcases hst with hst | hst
    · exact ⟨hh, by simp [hst], by simp [hst], by simp [hst]⟩
    · exact ⟨hh, by simp [hst], by simp [hst], by simp [hst]⟩
  refine follows_exceptT_bind.mpr ((dequeue_follows rfl).mono fun a₁ r h₁ => ?_)
  cases r with
  | error e => exact he a₁ h₁.handle (.inl h₁.stage)
  | ok loaded =>
    obtain ⟨queued, message⟩ := loaded
    obtain ⟨hh, henq, hf, hst⟩ := h₁
    rw [if_pos ⟨hr, rfl⟩] at hst
    refine follows_exceptT_bind.mpr ((updateMetadata_follows hh (by simp [henq])
      (.inr (.inr (.inl ⟨hr, hst, rfl⟩)))).mono fun a₂ r h₂ => ?_)
    cases r with
    | error e => exact he a₂ h₂.handle (.inr (h₂.stage.trans hst))
    | ok u =>
      have ht : Trying a₂ := by
        refine ⟨h₂.handle, h₂.enq.trans henq, ?_, h₂.failed.trans hf⟩
        rw [h₂.stage, if_pos hr, hst]
        rfl
      refine follows_lift_bind.mpr (follows_op.mpr ⟨ht.handle, fun r => ?_⟩)
      rw [track_of_not_fails rfl]
      cases r with
      | ok mxHosts => exact tryTargets_follows hr _ _ ht
      | error e =>
        refine follows_lift_bind.mpr (follows_trace.mpr ⟨ht.handle, ?_⟩)
        exact handleTempFail_follows hr ht.handle ht.enq ht.stage ht.failed

omit hr

theorem TaskDone.ends (h : TaskDone cfg a) (x : Response) : Ends cfg (.task m) a x := by
  refine ⟨h.handle, fun _ _ => ⟨h.sending, h.delivered, h.marked⟩, ?_⟩
  intro hr
  obtain ⟨_, _, hr⟩ := hr
  cases hr

@[simp] theorem follows_release : Keeps cfg role release a post ↔ a.handle = none ∧ post a () := by
  refine follows_op.trans (and_congr_right fun _ => ?_)
  constructor
  · intro h
    have hp := h ()
    rwa [track_of_not_fails rfl] at hp
  · intro h u
    rwa [track_of_not_fails rfl]

theorem task_follows (m : Text) : Keeps cfg (.task m) (task cfg m) {} (Ends cfg (.task m)) := by
  refine follows_bind.mpr ((deliverMessage_follows rfl).mono fun a r h => ?_)
  cases r with
  | ok u => exact follows_bind.mpr (follows_release.mpr ⟨h.handle, h.ends _⟩)
  | error e =>
    cases e with
    | panic => exact follows_bind.mpr (follows_release.mpr ⟨h.handle, h.ends _⟩)
    | context message | io e =>
      exact follows_bind.mpr (follows_trace.mpr ⟨h.handle, follows_bind.mpr (follows_release.mpr ⟨h.handle, h.ends _⟩)⟩)

end ServerWall.Relay
