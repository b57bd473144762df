import ServerWall.Relay.Conduct.Delivery

/-!
# Every process keeps to the protocol

The specifications of the receiver session, the scan and the commands of the
administrators, and the main result of the three modules: the code of every role
keeps to the protocol, whatever the host answers (`code_follows`).
-/

namespace ServerWall.Relay

open Protocol List

variable {role : Role} {a : Agent}

/-- A process that is neither a task nor a command on one message may end with
any record, its file closed. -/
theorem ends_of_plain (ht : ∀ m, role ≠ .task m) (hr : role.rewrite = none)
    (hh : a.handle = none) (x : Response) : Ends cfg role a x := by
  refine ⟨hh, fun m hm => absurd hm (ht m), ?_⟩
  intro h
  obtain ⟨_, _, h⟩ := h
  cases hr.symm.trans h

theorem receiveMessage_follows (envelope) (message : Bytes) :
    Keeps cfg (.receive envelope message) (receiveMessage envelope message) {}
      (Ends cfg (.receive envelope message)) := by
  have he : ∀ a : Agent, a.handle = none → Ends cfg (.receive envelope message) a .none :=
    fun a hh => ends_of_plain (fun _ => Role.noConfusion) rfl hh _
  have hd : ∀ env msg, Role.receive envelope message = .receive env msg →
      envelope = env ∧ message = msg := fun env msg h => Role.receive.inj h
  refine follows_bind.mpr ((enqueue_follows rfl rfl (.inl rfl) hd).mono fun a r h => ?_)
  cases r with
  | ok id =>
    refine follows_bind.mpr (follows_op.mpr ⟨⟨h.1, h.2.1, rfl⟩, fun _ => ?_⟩)
    rw [Agent.track_of_not_fails rfl]
    exact he a h.1
  | error e =>
    refine follows_bind.mpr (follows_op.mpr ⟨h.1, fun _ => ?_⟩)
    rw [Agent.track_of_not_fails rfl]
    exact he a h.1

theorem spawnDue_follows {now : Instant} (hr : role = .scan) : ∀ (messages : List QueuedMessage), a.handle = none →
      (∀ q ∈ messages, role.picks q.metadata.status → q.id ∈ a.seen) →
      Keeps cfg role (spawnDue now messages) a fun a' _ => a'.handle = none := by
  intro messages hh
  induction messages with
  | nil => exact fun _ => hh
  | cons msg rest ih =>
    intro hs
    have hre := ih fun q hq => hs q (mem_cons_of_mem _ hq)
    show Keeps cfg role (if _ then _ else _) a _
    split
    · rename_i hdue
      have hp : role.picks msg.metadata.status = true := by
        rw [QueuedMessage.isDue, Bool.and_eq_true] at hdue
        rw [hr]
        exact hdue.1
      refine follows_bind.mpr (follows_op.mpr ⟨hh, fun acquired => ?_⟩)
      rw [Agent.track_of_not_fails rfl]
      cases acquired with
      | false => exact hh
      | true =>
        refine follows_bind.mpr (follows_op.mpr ⟨⟨hh, hr, hs msg mem_cons_self hp⟩, fun _ => ?_⟩)
        rwa [Agent.track_of_not_fails rfl]
    · exact hre

theorem scan_follows : Keeps cfg .scan (scan cfg) {} (Ends cfg .scan) := by
  have he : ∀ a : Agent, a.handle = none → Ends cfg .scan a .none :=
    fun a hh => ends_of_plain (fun _ => Role.noConfusion) rfl hh _
  have hs : Keeps cfg .scan (processQueue cfg).run {} fun a' _ =>
      a'.handle = none := by
    refine follows_exceptT_bind.mpr ((list_follows rfl).mono fun a r h => ?_)
    cases r with
    | error e => exact h.1
    | ok messages =>
      refine follows_lift_bind.mpr (follows_now.mpr ⟨h.handle, fun now => ?_⟩)
      exact follows_lift.mpr (spawnDue_follows rfl messages h.handle h.shown)
  refine follows_bind.mpr (hs.mono fun a r h => ?_)
  cases r with
  | ok u => exact he a h
  | error e => exact follows_bind.mpr (follows_trace.mpr ⟨h, he a h⟩)

theorem flushEntries_follows (hf : role.flushes) (hpi : ∀ st, picks st → role.picks st) :
    ∀ (messages : List QueuedMessage) (n : Nat) (a : Agent), a.handle = none → (∀ id, a.enq ≠ .saved id) →
      (∀ q ∈ messages, role.picks q.metadata.status → q.id ∈ a.seen) →
      Keeps cfg role (flushEntries picks counts messages n) a fun a' _ =>
        a'.handle = none := by
  intro messages
  induction messages with
  | nil => exact fun n a hh _ _ => hh
  | cons msg rest ih =>
    intro n a hh henq hs
    have hr : ∀ q ∈ rest, role.picks q.metadata.status = true → q.id ∈ a.seen := fun q hq => hs q (mem_cons_of_mem _ hq)
    show Keeps cfg role (if _ then _ else _) a _
    split
    · rename_i hpic
      have hse : msg.id ∈ a.seen := hs msg mem_cons_self (hpi _ hpic)
      refine follows_bind.mpr (follows_bind.mpr (follows_now.mpr ⟨hh, fun now => ?_⟩))
      refine follows_bind.mpr ((updateMetadata_follows hh (henq msg.id) (.inr (.inl ⟨hf, hse, rfl⟩))).mono fun a₁ r h₁ => ?_)
      -- an update that failed does not stop the loop
      cases r with
      | ok u => exact ih _ a₁ h₁.handle (fun id => by rw [h₁.enq]; exact henq id) fun q hq hp => h₁.seen (hr q hq hp)
      | error e => exact ih _ a₁ h₁.handle (fun id => h₁.enq id (henq id)) fun q hq hp => h₁.seen (hr q hq hp)
    · exact ih n a hh henq hr

theorem purgeEntries_follows (hpu : role.purges) (hpi : ∀ st, role.picks st) :
    ∀ (messages : List QueuedMessage) (n : Nat) (a : Agent), a.handle = none →
      (∀ q ∈ messages, role.picks q.metadata.status → q.id ∈ a.seen) →
      Keeps cfg role (purgeEntries cutoff messages n) a fun a' _ =>
        a'.handle = none := by
  intro messages
  induction messages with
  | nil => exact fun n a hh _ => hh
  | cons msg rest ih =>
    intro n a hh hs
    have hr : ∀ q ∈ rest, role.picks q.metadata.status = true → q.id ∈ a.seen := fun q hq => hs q (mem_cons_of_mem _ hq)
    show Keeps cfg role (if _ then _ else _) a _
    split
    · have hse : msg.id ∈ a.seen := hs msg mem_cons_self (hpi _)
      refine follows_bind.mpr ((remove_follows hh (.inr (.inl ⟨hpu, hse⟩))).mono fun a₁ r h₁ => ?_)
      exact ih _ a₁ h₁.handle fun q hq hp => by rw [h₁.seen]; exact hr q hq hp
    · exact ih n a hh hr

/-- The commands that rewrite one message: `change` reads at most the clock and gives the status the role
calls for, and success is reported only after the update. -/
theorem rewrite_follows {id : Text} {st : QueueStatus} (hr : role.rewrite = some (id, st))
    {change : MessageMetadata → Io MessageMetadata}
    (hc : ∀ (m : MessageMetadata) (a : Agent), a.handle = none →
      Keeps cfg role (change m) a fun a' m' => a' = a ∧ m'.status = st)
    {ok : Response} {failedUpdate failedLoad : Failure → Response}
    (hu : ∀ e, (failedUpdate e).isOk = false) (hl : ∀ e, (failedLoad e).isOk = false) :
    Keeps cfg role ((dequeue id).run >>= fun loaded =>
        match loaded with
        | .ok (msg, _) => change msg.metadata >>= fun metadata =>
          (updateMetadata id metadata).run >>= fun result =>
            match result with
            | .ok _ => pure ok
            | .error e => pure (failedUpdate e)
        | .error e => pure (failedLoad e)) {} (Ends cfg role) := by
  have ht : ∀ m, role ≠ .task m := by
    intro m hm
    rw [hm] at hr
    cases hr
  have hf : ∀ (a : Agent) (x : Response), a.handle = none → x.isOk = false → Ends cfg role a x := by
    intro a x hh hx
    refine ⟨hh, fun m hm => absurd hm (ht m), fun _ hok => ?_⟩
    cases hx.symm.trans hok
  refine follows_bind.mpr ((dequeue_follows rfl).mono fun a r h => ?_)
  cases r with
  | error e => exact hf a _ h.handle (hl e)
  | ok loaded =>
    obtain ⟨msg, message⟩ := loaded
    obtain ⟨hh, henq, -, -⟩ := h
    refine follows_bind.mpr ((hc msg.metadata a hh).mono fun a₁ metadata h₁ => ?_)
    obtain ⟨rfl, hst⟩ := h₁
    refine follows_bind.mpr ((updateMetadata_follows hh (by simp [henq])
      (.inl (by rw [hst]; exact hr))).mono fun a₂ r h₂ => ?_)
    cases r with
    | error e => exact hf a₂ _ h₂.handle (hu e)
    | ok u => exact ⟨h₂.handle, fun m hm => absurd hm (ht m), fun _ _ => h₂.updated⟩

variable (m : MessageMetadata)
include m

theorem toPendingNow_follows (hh : a.handle = none) :
    Keeps cfg role (toPendingNow m) a fun a' m' => a' = a ∧ m'.status = .pending :=
  follows_bind.mpr (follows_now.mpr ⟨hh, fun _ => ⟨rfl, rfl⟩⟩)

theorem toHeld_follows : Keeps cfg role (toHeld m) a fun a' m' => a' = a ∧ m'.status = .held := ⟨rfl, rfl⟩

theorem toPending_follows : Keeps cfg role (toPending m) a fun a' m' => a' = a ∧ m'.status = .pending :=
  ⟨rfl, rfl⟩

omit m

theorem delete_follows {id : Text} (hd : role.deletes = some id)
    {ok : Response} {failed : Failure → Response} (he : ∀ a x, a.handle = none → Ends cfg role a x) :
    Keeps cfg role ((remove id).run >>= fun result =>
        match result with
        | .ok _ => pure ok
        | .error e => pure (failed e)) {} (Ends cfg role) := by
  refine follows_bind.mpr ((remove_follows rfl (.inl hd)).mono fun a r h => ?_)
  cases r with
  | ok u | error e => exact he a _ h.handle

/-- **The code of every role keeps to the protocol.** -/
theorem code_follows (role) : Keeps cfg role (code cfg role) ((protocol cfg).start role)
      ((protocol cfg).ends role) := by
  cases role with
  | receive envelope message => exact receiveMessage_follows envelope message
  | scan => exact scan_follows
  | task id => exact task_follows id
  | web route =>
    cases route with
    | delete id => exact delete_follows rfl fun a x hh => ends_of_plain (fun _ => Role.noConfusion) rfl hh x
    | retry id | release id =>
      exact rewrite_follows rfl (fun m a => toPendingNow_follows m) (fun _ => rfl) fun _ => rfl
    | hold id => exact rewrite_follows rfl (fun m a _ => toHeld_follows m) (fun _ => rfl) fun _ => rfl
    | flush =>
      refine follows_bind.mpr ((listOrEmpty_follows rfl).mono fun a shown h => ?_)
      refine follows_bind.mpr ((flushEntries_follows rfl ?_ shown 0 a h.handle
        (fun id => by simp [h.enq, protocol]) h.shown).mono fun a' n h' => ?_)
      · intro st hst
        rw [Bool.or_comm] at hst
        exact hst
      · exact ends_of_plain (fun _ => Role.noConfusion) rfl h' _
    | purge days =>
      refine follows_bind.mpr (follows_now.mpr ⟨rfl, fun now => ?_⟩)
      cases hcut : purgeCutoff now (days.getD 7) with
      | none => exact ends_of_plain (fun _ => Role.noConfusion) rfl rfl _
      | some cutoff =>
        refine follows_bind.mpr ((listOrEmpty_follows rfl).mono fun a shown h => ?_)
        refine follows_bind.mpr ((purgeEntries_follows rfl (fun _ => rfl) shown 0 a h.handle h.shown).mono fun a' n h' => ?_)
        exact ends_of_plain (fun _ => Role.noConfusion) rfl h' _
  | cli action =>
    cases action with
    | delete id => exact delete_follows rfl fun a x hh => ends_of_plain (fun _ => Role.noConfusion) rfl hh x
    | retry id => exact rewrite_follows rfl (fun m a => toPendingNow_follows m) (fun _ => rfl) fun _ => rfl
    | hold id => exact rewrite_follows rfl (fun m a _ => toHeld_follows m) (fun _ => rfl) fun _ => rfl
    | release id => exact rewrite_follows rfl (fun m a _ => toPending_follows m) (fun _ => rfl) fun _ => rfl
    | flush =>
      refine follows_bind.mpr ((listOrEmpty_follows rfl).mono fun a shown h => ?_)
      refine follows_bind.mpr ((flushEntries_follows rfl ?_ shown 0 a h.handle
        (fun id => by simp [h.enq, protocol]) h.shown).mono fun a' n h' => ?_)
      · intro st hst
        show (decide (st = .pending) || decide (st = .deferred)) = true
        rw [hst, Bool.or_true]
      · exact ends_of_plain (fun _ => Role.noConfusion) rfl h' _

end ServerWall.Relay
