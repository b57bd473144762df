import ServerWall.Relay.Protocol

/-!
# What one operation does

`Deed` lists everything an operation of a process can do to the files of the spool and to its record,
with what the protocol guarantees of the record before it. The invariants of runs are case analyses
over it. An operation that is not `noted` leaves no trace that any property of the log looks at.
-/

namespace ServerWall.Relay

open Function

open Agent

open Option

open Content

def noted : (op : Op) → Res op → Bool
  | .read (.metaPath _), .ok (.record _) => true
  | .create _, .ok _ => true
  | .write _ _ _, _ => true
  | .unlink _, .ok _ => true
  | .sendStart _ _ _ _ _, _ => true
  | .sendWait, _ => true
  | .spawn _, _ => true
  | .reply _, _ => true
  | .trace .nullSender, _ => true
  | .trace (.enqueued _ _), _ => true
  | _, _ => false

/-- What a write through a descriptor does: it touches one path, while that leads to the file that was
opened. A write that is `whole` fills a file that was left blank. -/
structure Lands (w w' : World) (p : Path) (fd : Nat) (c : Content) (whole : Bool) : Prop where
  other : ∀ p', p' ≠ p → w'.files p' = w.files p'
  absent : w'.files p = none ↔ w.files p = none
  blank : whole = true → w.files p = some ⟨fd, .blank⟩ → w'.files p = some ⟨fd, c⟩
  record : ∀ f q, w'.files p = some f → f.content = .record q → w.files p = some f ∨ (whole = true ∧ c = .record q)

/-- The operations that take a delivery task to another stage, files aside. -/
inductive Turn (role : Role) (a : Agent) (w : World) : (op : Op) → Res op → Stage → Prop
  | loaded (id : Text) (f : File) (hrole : role = .task id) (hstage : a.stage = .fresh)
      (hfile : w.files (.msgPath id) = some f) :
      Turn role a w (.read (.msgPath id)) (.ok f.content) .loaded
  | absent (id : Text) (hrole : role = .task id) (hstage : a.stage = .delivered)
      (hfile : w.files (.msgPath id) = none) :
      Turn role a w (.stat (.msgPath id)) (.ok false) .removed
  | handed (addr : IpAddr) (hostname mailFrom : Text) (rcptTo : List Text) (message : Bytes)
      (hrole : ∃ m, role = .task m) (hstage : a.stage = .marked) (hfailed : a.failed = false) :
      Turn role a w (.sendStart addr hostname mailFrom rcptTo message) () .sending
  | succeeded (response : Text) (hstage : a.stage = .sending) : Turn role a w .sendWait (.success response) .delivered
  | refused (r : DeliveryResult) (hr : ∀ response, r ≠ .success response) (hstage : a.stage = .sending) :
      Turn role a w .sendWait r .marked
  | dropped (hstage : a.stage = .marked) : Turn role a w (.trace .nullSender) () .dropped
  | bounced (id : Text) (size : Nat) (hstage : a.stage = .marked) :
      Turn role a w (.trace (.enqueued id size)) () .bounced

/-- What an operation did: from the record `a` and the host `w` to a record and
a host. -/
inductive Deed (role : Role) (a : Agent) (w w' : World) : (op : Op) → Res op → Agent → Prop
  | quiet {op : Op} {r : Res op} (hnoted : noted op r = false) (hhandle : a.handle = none)
      (hfiles : w'.files = w.files) :
      Deed role a w w' op r { a with failed := a.failed || (a.stage.critical && fails op r) }
  | turned {op : Op} {r : Res op} (stage : Stage) (hturn : Turn role a w op r stage)
      (hhandle : a.handle = none) (hfiles : w'.files = w.files) :
      Deed role a w w' op r { a with stage }
  | readMeta (id : Text) (q : QueuedMessage) (ino : Nat) (hhandle : a.handle = none)
      (hfile : w.files (.metaPath id) = some ⟨ino, .record q⟩) (hfiles : w'.files = w.files) :
      Deed role a w w' (.read (.metaPath id)) (.ok (.record q)) (a.reads role id q)
  | opened (p : Path) (fd : Nat) (hhandle : a.handle = none) (hmay : MayOpen role a p)
      (hfiles : w'.files = Function.update w.files p (some ⟨fd, .blank⟩)) :
      Deed role a w w' (.create p) (.ok fd) (a.opens p fd)
  | wrote (p : Path) (fd : Nat) (c : Content) (hhandle : a.handle = some (p, fd))
      (hmay : MayStore role a p c) (hlands : Lands w w' p fd c true) :
      Deed role a w w' (.write p fd c) (.ok ()) (a.wrote role p)
  | botched (p : Path) (fd : Nat) (c : Content) (e : IoError) (hhandle : a.handle = some (p, fd))
      (hmay : MayStore role a p c) (hlands : Lands w w' p fd c false) :
      Deed role a w w' (.write p fd c) (.error e) { a with handle := none, failed := a.failed || a.stage.critical }
  | unlinkedMeta (id : Text) (hhandle : a.handle = none) (hmay : MayRemove role a id)
      (hfiles : w'.files = Function.update w.files (.metaPath id) none)
      (hfile : w.files (.metaPath id) ≠ none) :
      Deed role a w w' (.unlink (.metaPath id)) (.ok ()) a
  | unlinkedMsg (id : Text) (hhandle : a.handle = none) (hmay : MayRemove role a id)
      (hfiles : w'.files = Function.update w.files (.msgPath id) none)
      (hfile : w.files (.msgPath id) ≠ none) :
      Deed role a w w' (.unlink (.msgPath id)) (.ok ())
        { a with stage := if role = .task id ∧ a.stage = .delivered then .removed else a.stage }
  | spawned (id : Text) (hhandle : a.handle = none) (hrole : role = .scan) (hseen : id ∈ a.seen)
      (hfiles : w'.files = w.files) :
      Deed role a w w' (.spawn id) () a
  | replied (reply : Reply) (hhandle : a.handle = none)
      (hstored : ∀ id, reply = .queued id → a.enq = .stored id ∧ role.receives = true)
      (hfiles : w'.files = w.files) :
      Deed role a w w' (.reply reply) () a
  | remarked (line : TraceLine) (hhandle : a.handle = none) (hstage : a.stage ≠ .marked) (hfiles : w'.files = w.files) :
      Deed role a w w' (.trace line) () a

variable {role : Role} {a : Agent} {w w' : World}

theorem lands_writeInode (hb : whole = true → f .blank = c)
    (hr : ∀ old q, f old = .record q → whole = true ∧ c = .record q) :
    Lands w (w.writeInode p fd f) p fd c whole := by
  unfold World.writeInode
  cases hf : w.files p with
  | none =>
    refine ⟨fun _ _ => rfl, Iff.rfl, fun _ h => ?_, fun _ _ h _ => .inl h⟩
    cases hf.symm.trans h
  | some file =>
    dsimp only
    by_cases hino : file.ino = fd
    · rw [if_pos hino]
      refine ⟨fun p' hp' => ?_, ?_, fun hw h => ?_, fun g q hg hq => ?_⟩
      · exact update_of_ne hp' _ _
      · show update w.files p _ p = none ↔ _
        rw [update_self, hf]
        exact iff_of_false (some_ne_none _) (some_ne_none _)
      · rw [hf] at h
        obtain rfl := some.inj h
        show update w.files p _ p = _
        rw [update_self, hb hw]
      · have hg' : update w.files p (some ⟨fd, f file.content⟩) p = some g := hg
        rw [update_self] at hg'
        obtain rfl := some.inj hg'
        exact .inr (hr _ q hq)
    · rw [if_neg hino]
      refine ⟨fun _ _ => rfl, Iff.rfl, fun _ h => ?_, fun _ _ h _ => .inl h⟩
      rw [hf] at h
      obtain rfl := some.inj h
      exact absurd rfl hino

theorem Content.land_eq_record {old c : Content} {q : QueuedMessage}
    (h : old.land c covers = .record q) : c = .record q := by
  unfold land at h
  split at h
  · exact h
  · cases h
  · split at h
    · exact h
    · cases h

theorem Content.cut_ne_record {c c' : Content} {q : QueuedMessage} (h : c.cut c' = true) : c' ≠ .record q := by
  intro hc'
  subst hc'
  cases c <;> simp [cut] at h

/-! ## What the host does -/

def Op.sparesFiles : Op → Bool
  | .create _ => false
  | .write _ _ _ => false
  | .unlink _ => false
  | _ => true

theorem exec_frame (hop : op.sparesFiles = true) (he : exec op out w = some (r, w')) : w'.files = w.files := by
  cases op <;> unfold exec at he <;> dsimp only at he <;> first
    | exact Bool.noConfusion hop
    -- each answer that is given is given with the files as they are
    | (split at he <;> first
        | (cases he; done)
        | (cases he; rfl)
        | (split at he <;> first
            | (cases he; done)
            | (cases he; rfl)))

theorem exec_read (he : exec (.read p) out w = some (.ok c, w')) : ∃ ino, w.files p = some ⟨ino, c⟩ := by
  unfold exec at he
  dsimp only at he
  split at he
  · split at he
    · rename_i f hf
      cases he
      exact ⟨f.ino, hf⟩
    · cases he
  · cases he
  · cases he

theorem exec_stat (he : exec (.stat p) out w = some (.ok false, w')) : w.files p = none := by
  unfold exec at he
  dsimp only at he
  split at he
  · have hs := Except.ok.inj (Prod.mk.inj (some.inj he)).1
    exact not_isSome_iff_eq_none.mp (by rw [hs]; exact Bool.false_ne_true)
  · cases he
  · cases he

theorem exec_create (he : exec (.create p) out w = some (.ok fd, w')) :
    w'.files = update w.files p (some ⟨fd, .blank⟩) := by
  unfold exec at he
  dsimp only at he
  split at he
  · obtain ⟨hfd, rfl⟩ := Prod.mk.inj (some.inj he)
    obtain rfl := Except.ok.inj hfd
    unfold World.openFile
    split <;> rfl
  · cases he
  · cases he

theorem exec_create_error (he : exec (.create p) out w = some (.error e, w')) : w'.files = w.files := by
  unfold exec at he
  dsimp only at he
  split at he <;> cases he
  rfl

theorem exec_write (he : exec (.write p fd c) out w = some (.ok (), w')) : Lands w w' p fd c true := by
  have hl : ∀ covers, Lands w (w.writeInode p fd fun old => old.land c covers) p fd c true :=
    fun covers => lands_writeInode (fun _ => rfl) fun _ _ h => ⟨rfl, land_eq_record h⟩
  unfold exec at he
  dsimp only at he
  split at he
  · cases he
    exact hl true
  · cases he
    exact hl false
  · split at he <;> cases he
  · cases he

theorem exec_write_error (he : exec (.write p fd c) out w = some (.error e, w')) : Lands w w' p fd c false := by
  unfold exec at he
  dsimp only at he
  split at he
  · cases he
  · cases he
  · split at he
    · rename_i c' hcut
      cases he
      exact lands_writeInode (fun h => Bool.noConfusion h) fun _ _ h => absurd h (cut_ne_record hcut)
    · cases he
  · cases he

theorem exec_unlink (he : exec (.unlink p) out w = some (.ok (), w')) :
    w'.files = update w.files p none ∧ w.files p ≠ none := by
  unfold exec at he
  dsimp only at he
  split at he
  · split at he <;> cases he
    rename_i f hf
    exact ⟨rfl, by simp [hf]⟩
  · cases he
  · cases he

theorem exec_unlink_error (he : exec (.unlink p) out w = some (.error e, w')) : w'.files = w.files := by
  unfold exec at he
  dsimp only at he
  split at he
  · split at he <;> cases he
    rfl
  · cases he
    rfl
  · cases he

/-- What an answer says of the files, apart from what the operation did. -/
def Seen (w : World) : (op : Op) → Res op → Prop
  | .read p, .ok c => ∃ ino, w.files p = some ⟨ino, c⟩
  | .stat p, .ok there => (w.files p).isSome = there
  | _, _ => True

theorem exec_seen (he : exec op out w = some (r, w')) : Seen w op r := by
  cases op with
  | read p =>
    cases r with
    | ok c => exact exec_read he
    | error e => trivial
  | stat p =>
    cases r with
    | error e => trivial
    | ok there =>
      unfold exec at he
      dsimp only at he
      split at he
      · exact Except.ok.inj (Prod.mk.inj (some.inj he)).1
      · cases he
      · cases he
  | _ => trivial

/-! ## Every operation is a deed -/

theorem deed_of_frame (hn : noted op r = false)
    (hf : a.after role op r = a) (hh : a.handle = none) (hfi : w'.files = w.files) :
    Deed role a w w' op r (a.track role op r) := by
  unfold track
  rw [hf]
  exact .quiet hn hh hfi

theorem read_deed (hh : a.handle = none) (he : exec (.read p) out w = some (r, w')) :
    Deed role a w w' (.read p) r (a.track role (.read p) r) := by
  have hf := exec_frame rfl he
  cases r with
  | error e => exact deed_of_frame (by cases p <;> rfl) (by cases p <;> rfl) hh hf
  | ok c =>
    obtain ⟨ino, hfi⟩ := exec_read he
    cases p with
    | metaPath id =>
      cases c with
      | record q =>
        rw [track_of_not_fails rfl]
        exact .readMeta id q ino hh hfi hf
      | blank | text b | torn => exact deed_of_frame rfl rfl hh hf
    | msgPath id =>
      by_cases hfr : role = .task id ∧ a.stage = .fresh
      · have ha : a.after role (.read (.msgPath id)) (.ok c) = { a with stage := .loaded } := if_pos hfr
        rw [track_of_not_fails rfl, ha]
        exact .turned .loaded (.loaded id ⟨ino, c⟩ hfr.1 hfr.2 hfi) hh hf
      · exact deed_of_frame rfl (if_neg hfr) hh hf

theorem stat_deed (hh : a.handle = none) (he : exec (.stat p) out w = some (r, w')) :
    Deed role a w w' (.stat p) r (a.track role (.stat p) r) := by
  have hf := exec_frame rfl he
  match p, r with
  | .metaPath id, .ok there => exact deed_of_frame rfl rfl hh hf
  | .metaPath id, .error e => exact deed_of_frame rfl rfl hh hf
  | .msgPath id, .error e => exact deed_of_frame rfl rfl hh hf
  | .msgPath id, .ok true => exact deed_of_frame rfl rfl hh hf
  | .msgPath id, .ok false =>
    by_cases hd : role = .task id ∧ a.stage = .delivered
    · have ha : a.after role (.stat (.msgPath id)) (.ok false) = { a with stage := .removed } := if_pos hd
      rw [track_of_not_fails rfl, ha]
      exact .turned .removed (.absent id hd.1 hd.2 (exec_stat he)) hh hf
    · exact deed_of_frame rfl (if_neg hd) hh hf

theorem unlink_deed (ha : Allowed role a (.unlink p)) (he : exec (.unlink p) out w = some (r, w')) :
    Deed role a w w' (.unlink p) r (a.track role (.unlink p) r) := by
  cases r with
  | error e =>
    have hh : a.handle = none := by cases p <;> exact ha.1
    exact deed_of_frame rfl (by cases p <;> rfl) hh (exec_unlink_error he)
  | ok u =>
    rw [track_of_not_fails rfl]
    cases p with
    | metaPath id => exact .unlinkedMeta id ha.1 ha.2 (exec_unlink he).1 (exec_unlink he).2
    | msgPath id =>
      have haf : a.after role (.unlink (.msgPath id)) (.ok u) = { a with
            stage := if role = .task id ∧ a.stage = .delivered then .removed else a.stage } := by
        show (if _ then _ else _) = _
        by_cases hd : role = .task id ∧ a.stage = .delivered
        · rw [if_pos hd, if_pos hd]
        · rw [if_neg hd, if_neg hd]
      rw [haf]
      exact .unlinkedMsg id ha.1 ha.2 (exec_unlink he).1 (exec_unlink he).2

/-- **Everything an operation does**: a permitted operation, as the host
executes it, is one of the deeds. -/
theorem act_deed (ha : Allowed role a op)
    (he : exec op out w = some (r, w')) : Deed role a w w' op r (a.track role op r) := by
  cases op with
  | now | uuid | readDir | resolve domain | acquire | release => exact deed_of_frame rfl rfl ha (exec_frame rfl he)
  | read p => exact read_deed ha he
  | create p =>
    cases r with
    | error e => exact deed_of_frame rfl rfl ha.1 (exec_create_error he)
    | ok fd =>
      rw [track_of_not_fails rfl]
      exact .opened p fd ha.1 ha.2 (exec_create he)
  | write p fd c =>
    cases r with
    | error e =>
      have h := Deed.botched p fd c e ha.1 ha.2 (exec_write_error he)
      simpa [track, after, fails] using h
    | ok u =>
      rw [track_of_not_fails rfl]
      exact .wrote p fd c ha.1 ha.2 (exec_write he)
  | stat p => exact stat_deed ha he
  | unlink p => exact unlink_deed ha he
  | sendStart addr hostname mailFrom rcptTo message =>
    obtain ⟨hh, hr, hs, hfa⟩ := ha
    rw [track_of_not_fails rfl]
    exact .turned .sending (.handed addr hostname mailFrom rcptTo message hr hs hfa) hh (exec_frame rfl he)
  | sendWait =>
    obtain ⟨hh, hs⟩ := ha
    have hf := exec_frame rfl he
    rw [track_of_not_fails rfl]
    cases r with
    | success response => exact .turned .delivered (.succeeded response hs) hh hf
    | tempFail error =>
      exact .turned .marked (.refused (.tempFail error) (fun _ => DeliveryResult.noConfusion) hs) hh hf
    | permFail error =>
      exact .turned .marked (.refused (.permFail error) (fun _ => DeliveryResult.noConfusion) hs) hh hf
  | spawn id =>
    obtain ⟨hh, hr, hse⟩ := ha
    rw [track_of_not_fails rfl]
    exact .spawned id hh hr hse (exec_frame rfl he)
  | trace line =>
    have hf := exec_frame rfl he
    by_cases hm : a.stage = .marked
    · cases line with
      | nullSender =>
        have haf : a.after role (.trace .nullSender) r = { a with stage := .dropped } := if_pos hm
        rw [track_of_not_fails rfl, haf]
        exact .turned .dropped (.dropped hm) ha hf
      | enqueued id size =>
        have haf : a.after role (.trace (.enqueued id size)) r = { a with stage := .bounced } := if_pos hm
        rw [track_of_not_fails rfl, haf]
        exact .turned .bounced (.bounced id size hm) ha hf
      | _ => exact deed_of_frame rfl rfl ha hf
    · have haf : a.after role (.trace line) r = a := by
        cases line <;> first
          | rfl
          | exact if_neg hm
      rw [track_of_not_fails rfl, haf]
      exact .remarked line ha hm hf
  | reply rep =>
    have hf := exec_frame rfl he
    rw [track_of_not_fails rfl]
    cases rep with
    | queued id =>
      refine .replied (.queued id) ha.1 (fun id' h => ?_) hf
      obtain rfl := Reply.queued.inj h
      exact ⟨ha.2.1, ha.2.2⟩
    | internalError => exact .replied .internalError ha (fun _ => Reply.noConfusion) hf

/-! ## Stages -/

inductive Progress (role : Role) (a : Agent) (w w' : World) (op : Op) (r : Res op) (a' : Agent) : Prop
  | stays (hstage : a'.stage = a.stage) (hfailed : a'.failed = (a.failed || (a.stage.critical && fails op r)))
  | turns (hturn : Turn role a w op r a'.stage) (hfailed : a'.failed = a.failed) (hfiles : w'.files = w.files)
  | rewrites (id : Text) (hrole : role = .task id) (hstage : a'.stage = a.stage.rewritten)
      (hfailed : a'.failed = a.failed) (hopen : ∃ fd, a.handle = some (.metaPath id, fd))
  | removes (id : Text) (hrole : role = .task id) (hstage : a.stage = .delivered)
      (hstage' : a'.stage = .removed) (hfile : w'.files (.msgPath id) = none)
      (hfailed : a'.failed = a.failed)

theorem Deed.progress (h : Deed role a w w' op r a') : Progress role a w w' op r a' := by
  have hf : ∀ b : Bool, (a.failed || (b && false)) = a.failed := by simp
  cases h with
  | quiet => exact .stays rfl rfl
  | turned stage ht _ hfi => exact .turns ht rfl hfi
  | readMeta id q | unlinkedMeta id | spawned id | replied reply | remarked line => exact .stays rfl (hf _).symm
  | opened p fd => exact .stays (a.opens_stage p fd) ((a.opens_failed p fd).trans (hf _).symm)
  | wrote p fd c hh =>
    cases p with
    | msgPath id => exact .stays rfl (hf _).symm
    | metaPath id =>
      by_cases hs : a.enq = .saved id
      · rw [wrote_of_saved hs]
        exact .stays rfl (hf _).symm
      · rw [wrote_of_not_saved hs]
        by_cases hr : role = .task id
        · exact .rewrites id hr (if_pos hr) rfl ⟨fd, hh⟩
        · exact .stays (if_neg hr) (hf _).symm
  | botched p fd c e => exact .stays rfl (by simp [fails])
  | unlinkedMsg id _ _ hfi =>
    by_cases hd : role = .task id ∧ a.stage = .delivered
    · refine .removes id hd.1 hd.2 (if_pos hd) ?_ rfl
      rw [hfi, update_self]
    · exact .stays (if_neg hd) (hf _).symm

/-! ## What files are worth -/

theorem Lands.metadata (h : Lands w w' p fd c whole) (hf : w'.files (.metaPath m) = some ⟨ino, .record q⟩) :
    w.files (.metaPath m) = some ⟨ino, .record q⟩ ∨ (whole = true ∧ p = .metaPath m ∧ c = .record q) := by
  by_cases hp : .metaPath m = p
  · subst hp
    rcases h.record _ q hf rfl with hold | ⟨hw, hc⟩
    · exact .inl hold
    · exact .inr ⟨hw, rfl, hc⟩
  · rw [h.other _ hp] at hf
    exact .inl hf

theorem Deed.metadata (h : Deed role a w w' op r a') (hfi : w'.files (.metaPath m) = some ⟨ino, .record q⟩) :
    w.files (.metaPath m) = some ⟨ino, .record q⟩ ∨ ∃ fd, op = .write (.metaPath m) fd (.record q) := by
  cases h with
  | wrote p fd c _ _ hl =>
    rcases hl.metadata hfi with hold | ⟨-, rfl, rfl⟩
    · exact .inl hold
    · exact .inr ⟨fd, rfl⟩
  | botched p fd c _ _ _ hl =>
    rcases hl.metadata hfi with hold | ⟨hw, -⟩
    · exact .inl hold
    · cases hw
  | opened p fd _ _ hf =>
    rw [hf] at hfi
    by_cases hp : .metaPath m = p
    · subst hp
      rw [update_self] at hfi
      cases hfi
    · rw [update_of_ne hp] at hfi
      exact .inl hfi
  | unlinkedMeta id _ _ hf =>
    rw [hf] at hfi
    by_cases hp : Path.metaPath m = .metaPath id
    · rw [hp, update_self] at hfi
      cases hfi
    · rw [update_of_ne hp] at hfi
      exact .inl hfi
  | unlinkedMsg id _ _ hf =>
    rw [hf, update_of_ne Path.noConfusion] at hfi
    exact .inl hfi
  | quiet _ _ hf | turned _ _ _ hf | readMeta _ _ _ _ _ hf | spawned _ _ _ _ hf | replied _ _ _ hf
  | remarked _ _ _ hf => exact .inl (hf ▸ hfi)

end ServerWall.Relay
