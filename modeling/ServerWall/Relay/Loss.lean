import ServerWall.Relay.Writers

/-!
# No lost and no stuck mail

A message the receiver answered for must stay in the spool, readable and to be picked up, until it is
delivered, bounced, deleted or dropped (`NotLost`). A crash leaves an active message active
(`crash_strands`). It holds of runs with fresh ids and one writer for a file, where no failure or crash
hits a process with a message active or open, and intervals fit the calendar (`notLost_of_orderly`).
-/

namespace ServerWall.Relay

open List Bool Option

/-! ## The property -/

def accepts (m : Text) (env : Envelope) (msg : Bytes) : Happening → Bool
  | .did _ (.receive env' msg') (.reply (.queued id)) _ => id = m && env' = env && msg' = msg
  | _ => false

/-- The message is delivered, bounced, dropped for its null sender, or deleted
by an administrator. -/
def settles (m : Text) : Happening → Bool
  | .did _ (.task id) .sendWait (.success _) => id = m
  | .did _ (.task id) (.trace (.enqueued _ _)) _ => id = m
  | .did _ (.task id) (.trace .nullSender) _ => id = m
  | .did _ role (.unlink p) (.ok _) => p.id = m && (role.deletes = some m || role.purges)
  | _ => false

def settled (log : List Happening) (m : Text) : Bool := log.any (settles m)

/-- A message that a scan takes from its next retry on. -/
def QueuedMessage.Eligible (q : QueuedMessage) : Prop := q.metadata.status = .pending ∨ q.metadata.status = .deferred

def HasText (w : World) (m : Text) (msg : Bytes) : Prop := ∃ ino, w.files (.msgPath m) = some ⟨ino, .text msg⟩

/-- The metadata of the message is readable, and the message is held or some
later scan takes it. -/
def Waiting (w : World) (m : Text) (env : Envelope) : Prop :=
  ∃ ino q, w.files (.metaPath m) = some ⟨ino, .record q⟩ ∧ q.id = m ∧ q.envelope = env ∧
    (q.metadata.status = .held ∨ q.Eligible)

/-- A process is at work on the message: a task that has it active, or one that
has its metadata open for writing. -/
def attends (m : Text) (role : Role) (a : Agent) : Bool :=
  (role = .task m && (a.stage = .marked || a.stage = .sending)) || a.handle.any fun h => h.1 = .metaPath m

/-- Every accepted message that is not settled is in the spool, and it waits
unless a process is at work on it. -/
def NotLost (v : Scene) : Prop :=
  ∀ m env msg, v.log.any (accepts m env msg) = true → settled v.log m = false → HasText v.world m msg ∧
      (Waiting v.world m env ∨ ∃ pid role a, v.Live pid role a ∧ attends m role a = true)

/-! ## The condition -/

/-- A process that would strand an unsettled message if it stopped now: it has
the message active, or the metadata open to rewrite it. -/
def atRisk (log : List Happening) (role : Role) (a : Agent) : Bool := (match role with
    | .task m => (a.stage = .marked || a.stage = .sending) && !settled log m
    | _ => false) ||
  (match a.handle with
    | some (.metaPath m, _) => a.enq ≠ .saved m && !settled log m
    | _ => false)

/-- No operation fails for, and no crash takes, a process that puts a message at
risk. -/
def undisturbed (v : Scene) : Happening → Bool
  | .did pid _ op r => !fails op r || (v.parties pid).all fun p => !atRisk v.log p.role p.agent
  | .crashed lost => !v.exists? fun pid p => lost pid p.role && atRisk v.log p.role p.agent
  | _ => true

def orderly (v : Scene) (e : Happening) : Bool := freshIds v e && soleWriter v e && undisturbed v e

/-! ## Stages of a task -/

def Stage.closed : Stage → Bool
  | .delivered => true
  | .removed => true
  | .bounced => true
  | .dropped => true
  | _ => false

section

variable {role : Role} {a a' : Agent} {op : Op} {r : Res op}

theorem settled_append_left (h : settled log m) (e : Happening) : settled (log ++ [e]) m := by
  rw [settled, any_append, or_eq_true]
  exact .inl h

theorem settled_append_right (h : settles m e) : settled (log ++ [e]) m := by
  simp [settled, h]

theorem not_settled_before (h : settled (log ++ [e]) m = false) : settled log m = false ∧ settles m e = false := by
  simpa [settled] using h

theorem Deed.marked (h : Deed (.task m) a w w' op r a') (hs : a.stage = .marked ∨ a.stage = .sending) (pid : Nat) :
    (a'.stage = .marked ∨ a'.stage = .sending) ∨ settles m (.did pid (.task m) op r) ∨
      ∃ fd, a.handle = some (.metaPath m, fd) := by
  cases h.progress with
  | stays hsa => exact .inl (hsa ▸ hs)
  | turns ht =>
    generalize a'.stage = s at ht
    cases ht with
    | loaded _ _ _ hf => simp [hf] at hs
    | absent _ _ hd => simp [hd] at hs
    | handed => exact .inl (.inr rfl)
    | succeeded | dropped | bounced => exact .inr (.inl (decide_eq_true rfl))
    | refused => exact .inl (.inl rfl)
  | rewrites id hr _ _ ho =>
    obtain rfl := Role.task.inj hr
    exact .inr (.inr ho)
  | removes _ _ hd => simp [hd] at hs

theorem Stage.closed_of_rewritten {s : Stage} (h : s.rewritten.closed) : s.closed := by
  cases s <;> first
    | rfl
    | cases h

theorem Deed.closed (h : Deed (.task m) a w w' op r a') (hc : a'.stage.closed)
    (pid : Nat) : a.stage.closed ∨ settles m (.did pid (.task m) op r) := by
  cases h.progress with
  | stays hs => exact .inl (hs ▸ hc)
  | turns ht =>
    generalize a'.stage = s at ht hc
    cases ht with
    | loaded | handed | refused => cases hc
    | absent _ _ hd => exact .inl (by rw [hd]; rfl)
    | succeeded | dropped | bounced => exact .inr (decide_eq_true rfl)
  | rewrites _ _ hs => exact .inl (Stage.closed_of_rewritten (hs ▸ hc))
  | removes _ _ hd => exact .inl (by rw [hd]; rfl)

theorem Role.rewrite_ne_active (h : role.rewrite = some (m, st)) : st ≠ .active := by
  intro hst
  subst hst
  unfold Role.rewrite at h
  split at h <;> cases h

theorem MayWrite.active (h : MayWrite role a m .active) : role = .task m ∧ a.stage = .loaded := by
  rcases h with hr | ⟨-, -, hst⟩ | ⟨hro, hs, -⟩ | ⟨-, -, -, hst⟩
  · exact absurd rfl (Role.rewrite_ne_active hr)
  · cases hst
  · exact ⟨hro, hs⟩
  · cases hst

theorem Deed.failed (h : Deed role a w w' op r a') (hf : a'.failed) : a.failed ∨ (a.stage.critical ∧ fails op r) := by
  cases h.progress with
  | stays _ heq =>
    rw [heq, or_eq_true, and_eq_true] at hf
    exact hf
  | turns _ heq | rewrites _ _ _ heq | removes _ _ _ _ _ heq => exact .inl (heq ▸ hf)

end

/-! ## The invariant -/

/-- The message is stored: the client was told, or is about to be. -/
def Committed (v : Scene) (m : Text) (env : Envelope) (msg : Bytes) : Prop :=
  v.log.any (accepts m env msg) = true ∨ ∃ pid a, v.Live pid (.receive env msg) a ∧ a.enq = .stored m

/-- The metadata of the message is readable, active only for a task that has it,
or blank for a process that will write it. -/
def Described (v : Scene) (m : Text) (env : Envelope) : Prop :=
  (∃ ino q, v.world.files (.metaPath m) = some ⟨ino, .record q⟩ ∧ q.envelope = env ∧
    (q.metadata.status = .active → ∃ t a, v.Live t (.task m) a ∧ (a.stage = .marked ∨ a.stage = .sending))) ∨
  ∃ pid role a fd q, v.Live pid role a ∧ a.handle = some (.metaPath m, fd) ∧
    a.copy = some (m, q) ∧ v.world.files (.metaPath m) = some ⟨fd, .blank⟩

structure Safe (v : Scene) : Prop where
  ids : Ids v
  writers : Writers v
  /-- An open file of an unsettled message is there, and blank. -/
  opened : ∀ {pid role a p fd}, v.Live pid role a → a.handle = some (p, fd) →
    settled v.log p.id = false → v.world.files p = some ⟨fd, .blank⟩
  /-- A task is through with its message, or failed with it, only when the
  message is settled. -/
  closed : ∀ {pid m a}, v.Live pid (.task m) a → a.stage.closed = true ∨ a.failed = true → settled v.log m = true
  saved : ∀ {pid env msg a m}, v.Live pid (.receive env msg) a → a.enq = .saved m →
    settled v.log m = false → HasText v.world m msg
  text : ∀ {m env msg}, Committed v m env msg → settled v.log m = false → HasText v.world m msg
  described : ∀ {m env msg}, Committed v m env msg → settled v.log m = false → Described v m env
  copies : ∀ {m env msg pid role a q}, Committed v m env msg → settled v.log m = false →
    v.Live pid role a → a.copy = some (m, q) → q.envelope = env

variable {cfg : Config} {v : Scene} {e : Happening}

theorem Described.known (h : Described v m env) : Known v m := by
  rcases h with ⟨ino, q, hf, -⟩ | ⟨pid, role, a, fd, q, hlive, -, hc, -⟩
  · exact .inl ⟨ino, q, hf⟩
  · exact .inr ⟨pid, role, a, hlive, .inl ⟨q, hc⟩⟩

theorem Described.present (h : Described v m env) : v.world.files (.metaPath m) ≠ none := by
  rcases h with ⟨ino, q, hf, -⟩ | ⟨pid, role, a, fd, q, -, -, -, hf⟩
  · rw [hf]
    exact some_ne_none _
  · rw [hf]
    exact some_ne_none _

section

variable {pid : Nat} {role : Role} {a a' : Agent} {w' : World} {op : Op} {r : Res op}
   {msg : Bytes}

theorem calm_of_undisturbed (hc : undisturbed v (.did pid role op r))
    (hlive : v.Live pid role a) (hf : fails op r) : atRisk v.log role a = false := by
  have hp : v.parties pid = some ⟨role, a⟩ := hlive
  simpa [undisturbed, hp, hf] using hc

theorem atRisk_of_marked (hs : a.stage = .marked ∨ a.stage = .sending) (hun : settled log m = false) :
    atRisk log (.task m) a := by
  rcases hs with hs | hs <;> simp [atRisk, hs, hun]

theorem atRisk_of_handle (hh : a.handle = some (.metaPath m, fd)) (henq : a.enq ≠ .saved m)
    (hun : settled log m = false) : atRisk log role a := by
  simp [atRisk, hh, henq, hun]

variable (hlive : v.Live pid role a) (hdeed : Deed role a v.world w' op r a')
include hlive hdeed

theorem Safe.kept (h : Safe v) (ht : v.world.files p ≠ none)
    (hun : settled (v.log ++ [.did pid role op r]) p.id = false) : w'.files p ≠ none := by
  intro hg
  suffices hse : settled (v.log ++ [.did pid role op r]) p.id = true by
    cases hse.symm.trans hun
  cases hdeed.impact p with
  | spared hf => exact absurd (hf ▸ hg) ht
  | opened fd _ _ hf => cases hf.symm.trans hg
  | wrote fd c _ _ hl | botched fd c err _ _ hl => exact absurd (hl.absent.mp hg) ht
  | unlinked _ _ hmay =>
    rcases hmay with hd | ⟨hp, -⟩ | ⟨rfl, hs⟩
    · exact settled_append_right (by simp [settles, hd])
    · exact settled_append_right (by simp [settles, hp])
    · refine settled_append_left (h.closed hlive ?_) _
      rcases hs with hs | hs | hs | hfa
      · exact .inl (by rw [hs]; rfl)
      · exact .inl (by rw [hs]; rfl)
      · exact .inl (by rw [hs]; rfl)
      · exact .inr hfa

theorem Safe.opened_deed (h : Safe v) (hs : soleWriter v (.did pid role op r))
    (hb : (v.did pid role op r a' w').Live q role' b)
    (hfd : b.handle = some (p, fd)) (hun : settled (v.log ++ [.did pid role op r]) p.id = false) :
    w'.files p = some ⟨fd, .blank⟩ := by
  rcases h.writers.writer hs hlive hdeed hb hfd with ⟨-, hf, -⟩ | ⟨b₀, hb₀, hfd₀, hf⟩
  · exact hf
  · have hold := h.opened hb₀ hfd₀ (not_settled_before hun).1
    rcases hf with hg | hsa
    · exact absurd hg (h.kept hlive hdeed (by rw [hold]; exact some_ne_none _) hun)
    · rw [hsa, hold]

theorem Safe.closed_deed (h : Safe v) (hca : undisturbed v (.did pid role op r)) (hb : (v.did pid role op r a' w').Live t (.task m) b)
    (hc : b.stage.closed ∨ b.failed) : settled (v.log ++ [.did pid role op r]) m := by
  rcases hb.of_advance with ⟨rfl, rfl, rfl⟩ | ⟨ht, hb₀⟩
  · rcases hc with hc | hf
    · rcases hdeed.closed hc t with hc' | hse
      · exact settled_append_left (h.closed hlive (.inl hc')) _
      · exact settled_append_right hse
    · rcases hdeed.failed hf with hf' | ⟨hcr, hfa⟩
      · exact settled_append_left (h.closed hlive (.inr hf')) _
      · -- the failure is new: the message was delivered, or not at risk
        refine settled_append_left ?_ _
        cases hun : settled v.log m with
        | true => rfl
        | false =>
          have hr := calm_of_undisturbed hca hlive hfa
          cases hs : a.stage <;> rw [hs] at hcr <;> try cases hcr
          · cases (atRisk_of_marked (.inl hs) hun).symm.trans hr
          · rw [h.closed hlive (.inl (by rw [hs]; rfl))] at hun
            cases hun
  · exact settled_append_left (h.closed hb₀ hc) _

omit hdeed in
theorem Safe.unknown (h : Safe v) (hd : Described v m env) : a.enq ≠ .drawn m ∧ a.enq ≠ .saved m :=
  (h.ids.known hd.known).2 pid role a hlive

theorem Safe.saved_deed (h : Safe v) (hf : freshIds v (.did pid role op r)) (hb : (v.did pid role op r a' w').Live q (.receive env msg) b)
    (henq : b.enq = .saved m) (hun : settled (v.log ++ [.did pid role op r]) m = false) : HasText w' m msg := by
  have hc := hb.of_advance
  have hu := (not_settled_before hun).1
  -- the process had stored the text before, unless its own operation stores it
  have hbe : (a'.enq = .saved m → a.enq = .saved m) → ∃ b₀, v.Live q (.receive env msg) b₀ ∧ b₀.enq = .saved m := by
    intro hk
    rcases hc with ⟨rfl, rfl, rfl⟩ | ⟨-, hb₀⟩
    · exact ⟨a, hlive, hk henq⟩
    · exact ⟨b, hb₀, henq⟩
  -- another process that has drawn the id is this one
  have hs : q ≠ pid → v.Live q (.receive env msg) b → a.enq = .drawn m → False :=
    fun hq hb₀ hd =>
      hq (h.ids.sole hb₀ hlive (by rw [henq]; rfl) (by rw [hd]; rfl))
  cases hdeed.impact (.msgPath m) with
  | spared hfi _ _ hk =>
    obtain ⟨b₀, hb₀, henq₀⟩ := hbe hk
    obtain ⟨ino, ht⟩ := h.saved hb₀ henq₀ hu
    exact ⟨ino, by rw [hfi, ht]⟩
  | opened fd =>
    rcases hc with ⟨rfl, rfl, rfl⟩ | ⟨-, hb₀⟩
    · cases henq
    · have hd := h.ids.owner hb₀ (m := m) (by rw [henq]; rfl)
      rw [freshIds, hd] at hf
      cases hf
  | wrote fd c hh hmay hl =>
    obtain ⟨hd, text, rfl, ht⟩ := hmay
    rcases hc with ⟨rfl, rfl, rfl⟩ | ⟨hq, hb₀⟩
    · obtain rfl := ht env msg rfl
      exact ⟨fd, hl.blank rfl (h.opened hlive hh hu)⟩
    · exact (hs hq hb₀ hd).elim
  | botched fd c err hh hmay =>
    have hd : a.enq = .drawn m := hmay.1
    rcases hc with ⟨rfl, rfl, rfl⟩ | ⟨hq, hb₀⟩
    · cases (show a.enq = .saved m from henq).symm.trans hd
    · exact (hs hq hb₀ hd).elim
  | unlinked _ hk _ hg =>
    obtain ⟨b₀, hb₀, henq₀⟩ := hbe fun henq => hk ▸ henq
    obtain ⟨ino, ht⟩ := h.saved hb₀ henq₀ hu
    exact absurd hg (h.kept hlive hdeed (by rw [ht]; exact some_ne_none _) hun)

theorem Committed.back (h : Committed (v.did pid role op r a' w') m env msg) :
    Committed v m env msg ∨ (role = .receive env msg ∧ a.enq = .saved m ∧ ∃ fd c,
      a.handle = some (.metaPath m, fd) ∧ MayStore role a (.metaPath m) c ∧ Lands v.world w' (.metaPath m) fd c true) := by
  rcases h with hlog | ⟨q, b, hb, henq⟩
  · have hlog' : List.any (v.log ++ [.did pid role op r]) (accepts m env msg) = true := hlog
    rw [any_append, Bool.or_eq_true] at hlog'
    rcases hlog' with hold | hnew
    · exact .inl (.inl hold)
    · -- the reply comes from the process that stored the message
      rw [any_cons, any_nil, Bool.or_false] at hnew
      unfold accepts at hnew
      split at hnew
      · rename_i heq
        cases heq
        simp only [Bool.and_eq_true, decide_eq_true_eq] at hnew
        obtain ⟨⟨rfl, rfl⟩, rfl⟩ := hnew
        cases hdeed with
        | quiet hn => cases hn
        | turned _ ht => cases ht
        | replied _ _ hst => exact .inl (.inr ⟨pid, _, hlive, (hst _ rfl).1⟩)
      · cases hnew
  · rcases hb.of_advance with ⟨rfl, rfl, rfl⟩ | ⟨hq, hb₀⟩
    · have hold : a.enq = .stored m → Committed v m env msg := fun h => .inr ⟨q, a, hlive, h⟩
      cases hdeed.impact (.metaPath m) with
      | spared _ _ _ hk => exact .inl (hold (hk henq))
      | opened fd | botched => exact .inl (hold henq)
      | wrote fd c hh hmay hl =>
        by_cases hs : a.enq = .saved m
        · exact .inr ⟨rfl, hs, fd, c, hh, hmay, hl⟩
        · rw [Agent.wrote_of_not_saved hs] at henq
          exact .inl (hold henq)
      | unlinked _ hk => exact .inl (hold (hk ▸ henq))
    · exact .inl (.inr ⟨q, b, hb₀, henq⟩)

theorem Safe.text_deed (h : Safe v) (hf : freshIds v (.did pid role op r))
    (hd : Described v m env) (ht : HasText v.world m msg)
    (hun : settled (v.log ++ [.did pid role op r]) m = false) : HasText w' m msg := by
  obtain ⟨ino, ht⟩ := ht
  cases hdeed.impact (.msgPath m) with
  | spared hfi => exact ⟨ino, by rw [hfi, ht]⟩
  | opened fd =>
    rw [freshIds, (h.ids.known hd.known).1] at hf
    cases hf
  | wrote fd c _ hmay | botched fd c err _ hmay => exact absurd hmay.1 (h.unknown hlive hd).1
  | unlinked _ _ _ hg => exact absurd hg (h.kept hlive hdeed (by rw [ht]; exact some_ne_none _) hun)

theorem Safe.described_deed (h : Safe v) (hcon : orderly v (.did pid role op r))
    (hc : Committed v m env msg) (hun : settled (v.log ++ [.did pid role op r]) m = false) :
    Described (v.did pid role op r a' w') m env := by
  obtain ⟨hu, huns⟩ := not_settled_before hun
  have hd := h.described hc hu
  have hs := (h.unknown hlive hd).2
  cases hdeed.impact (.metaPath m) with
  | spared hf hbe =>
    rcases hd with ⟨ino, q, hre, henv, ha⟩ | ⟨t, role', b, fd, q, hb, hfd, hr⟩
    · refine .inl ⟨ino, q, hf.trans hre, henv, fun hst => ?_⟩
      obtain ⟨t, b, hb, hsta⟩ := ha hst
      by_cases ht : t = pid
      · subst ht
        obtain ⟨rfl, rfl⟩ := hlive.unique hb
        rcases hdeed.marked hsta t with hsta' | hse | ⟨fd, hfd⟩
        · exact ⟨t, a', View.live_self, hsta'⟩
        · cases hse.symm.trans huns
        · exact absurd hfd (hbe fd)
      · exact ⟨t, b, View.live_other ht hb, hsta⟩
    · have ht : t ≠ pid := by
        intro ht
        subst ht
        obtain ⟨rfl, rfl⟩ := hlive.unique hb
        exact hbe fd hfd
      exact .inr ⟨t, role', b, fd, q, View.live_other ht hb, hfd, hr.1, hf.trans hr.2⟩
  | opened fd _ hmay hf =>
    rcases hmay with hsa | ⟨⟨q, hco⟩, -⟩
    · exact absurd hsa hs
    · exact .inr ⟨pid, role, _, fd, q, View.live_self, rfl, hco, hf⟩
  | wrote fd c hh hmay hla =>
    obtain ⟨q, rfl, hmay⟩ := hmay
    rw [if_neg hs] at hmay
    obtain ⟨⟨q₀, hco, -, henv⟩, hmay⟩ := hmay
    have hf := hla.blank rfl (h.opened hlive hh hu)
    refine .inl ⟨fd, q, hf, henv.trans (h.copies hc hu hlive hco), ?_⟩
    intro hst
    rw [hst] at hmay
    obtain ⟨rfl, hl⟩ := hmay.active
    refine ⟨pid, _, View.live_self, .inl ?_⟩
    rw [Agent.wrote_of_not_saved hs]
    show (if Role.task m = .task m then a.stage.rewritten else a.stage) = .marked
    rw [if_pos rfl, hl]
    rfl
  | botched fd c err hh =>
    have hri := calm_of_undisturbed (and_eq_true_iff.mp hcon).2 hlive rfl
    cases (atRisk_of_handle hh hs hu).symm.trans hri
  | unlinked _ _ _ hg => exact absurd hg (h.kept hlive hdeed hd.present hun)

omit hlive hdeed in
theorem Safe.commit (h : Safe v) (hlive : v.Live pid (.receive env msg) a)
    (hs : a.enq = .saved m) (hun : settled v.log m = false) (hh : a.handle = some (.metaPath m, fd))
    (hmay : MayStore (.receive env msg) a (.metaPath m) c) (hl : Lands v.world w' (.metaPath m) fd c true) :
    Described (v.advance pid (.receive env msg) a' e w') m env := by
  obtain ⟨q, rfl, hmay⟩ := hmay
  rw [if_pos hs] at hmay
  obtain ⟨-, hp, henv⟩ := hmay
  refine .inl ⟨fd, q, hl.blank rfl (h.opened hlive hh hun), henv env msg rfl, ?_⟩
  intro hst
  cases hp.symm.trans hst

theorem Safe.copies_deed (h : Safe v) (hco : Committed (v.did pid role op r a' w') m env msg)
    (hun : settled v.log m = false) (hb : (v.did pid role op r a' w').Live t role' b)
    (hc : b.copy = some (m, q)) : q.envelope = env := by
  have hs : (∃ b₀, v.Live t role' b₀ ∧ b₀.copy = some (m, q)) ∨
      ∃ ino, v.world.files (.metaPath m) = some ⟨ino, .record q⟩ := by
    rcases hb.of_advance with ⟨rfl, rfl, rfl⟩ | ⟨-, hb₀⟩
    · exact (hdeed.copied hc).imp_left fun hc₀ => ⟨a, hlive, hc₀⟩
    · exact .inl ⟨b, hb₀, hc⟩
  rcases hco.back hlive hdeed with hold | ⟨-, hsa, -⟩
  · rcases hs with ⟨b₀, hb₀, hc₀⟩ | ⟨ino, hf⟩
    · exact h.copies hold hun hb₀ hc₀
    · rcases h.described hold hun with ⟨ino', q', hf', henv, -⟩ | ⟨_, _, _, fd, _, -, -, -, hf'⟩
      · rw [hf] at hf'
        cases hf'
        exact henv
      · rw [hf] at hf'
        cases hf'
  · -- the message is new: nobody has a copy of its metadata
    have hk : Known v m := by
      rcases hs with ⟨b₀, hb₀, hc₀⟩ | ⟨ino, hf⟩
      · exact .inr ⟨t, role', b₀, hb₀, .inl ⟨q, hc₀⟩⟩
      · exact .inl ⟨ino, q, hf⟩
    exact absurd hsa ((h.ids.known hk).2 pid role a hlive).2

theorem Safe.deed (h : Safe v) (hco : orderly v (.did pid role op r)) : Safe (v.did pid role op r a' w') := by
  have hp := hco
  rw [orderly, and_eq_true, and_eq_true] at hp
  obtain ⟨⟨hf, hso⟩, hca⟩ := hp
  constructor
  · exact h.ids.deed hlive hdeed hf
  · exact h.writers.deed hlive hdeed hso
  · exact fun hb hfd hun => h.opened_deed hlive hdeed hso hb hfd hun
  · exact fun hb hcl => h.closed_deed hlive hdeed hca hb hcl
  · exact fun hb henq hun => h.saved_deed hlive hdeed hf hb henq hun
  · intro m env msg hc hun
    have hu := (not_settled_before hun).1
    rcases hc.back hlive hdeed with hold | ⟨rfl, hs, fd, c, hh, hmay, hl⟩
    · exact h.text_deed hlive hdeed hf (h.described hold hu) (h.text hold hu) hun
    · obtain ⟨ino, ht⟩ := h.saved hlive hs hu
      exact ⟨ino, (hl.other _ Path.noConfusion).trans ht⟩
  · intro m env msg hc hun
    have hu := (not_settled_before hun).1
    rcases hc.back hlive hdeed with hold | ⟨rfl, hs, fd, c, hh, hmay, hl⟩
    · exact h.described_deed hlive hdeed hco hold hun
    · exact h.commit hlive hs hu hh hmay hl
  · exact fun hc hun hb hcop =>
      h.copies_deed hlive hdeed hc (not_settled_before hun).1 hb hcop

end

/-! ## The other steps -/

theorem Safe.keep (h : Safe v) (hids : Ids v') (hw : Writers v')
    (hf : v'.world.files = v.world.files) (hlog : v'.log = v.log ++ [e])
    (hse : ∀ m, settles m e = false) (hac : ∀ m env msg, accepts m env msg e = false)
    (hb : ∀ {pid role a}, v'.Live pid role a → v.Live pid role a ∨ a = {})
    (hk : ∀ {pid role a}, v.Live pid role a → atRisk v.log role a → v'.Live pid role a) : Safe v' := by
  have hs : ∀ m, settled v'.log m = settled v.log m := by
    intro m
    simp [hlog, settled, hse]
  have hco : ∀ {m env msg}, Committed v' m env msg → Committed v m env msg := by
    intro m env msg hc
    rcases hc with hc | ⟨pid, a, ha, henq⟩
    · rw [hlog, any_append] at hc
      exact .inl (by simpa [hac] using hc)
    · rcases hb ha with ha | rfl
      · exact .inr ⟨pid, a, ha, henq⟩
      · cases henq
  refine ⟨hids, hw, ?_, ?_, ?_, ?_, ?_, ?_⟩
  · intro pid role a p fd ha hfd hun
    rw [hs] at hun
    rcases hb ha with ha | rfl
    · exact hf ▸ h.opened ha hfd hun
    · cases hfd
  · intro pid m a ha hcl
    rw [hs]
    rcases hb ha with ha | rfl
    · exact h.closed ha hcl
    · rcases hcl with hcl | hcl <;> cases hcl
  · intro pid env msg a m ha henq hun
    rw [hs] at hun
    rcases hb ha with ha | rfl
    · obtain ⟨ino, ht⟩ := h.saved ha henq hun
      exact ⟨ino, hf ▸ ht⟩
    · cases henq
  · intro m env msg hc hun
    rw [hs] at hun
    obtain ⟨ino, ht⟩ := h.text (hco hc) hun
    exact ⟨ino, hf ▸ ht⟩
  · intro m env msg hc hun
    rw [hs] at hun
    have hd := h.described (hco hc) hun
    rcases hd with ⟨ino, q, hre, henv, hact⟩ | ⟨pid, role, a, fd, q, ha, hfd, hr⟩
    · refine .inl ⟨ino, q, hf ▸ hre, henv, fun hst => ?_⟩
      obtain ⟨t, a, ha, hsta⟩ := hact hst
      exact ⟨t, a, hk ha (atRisk_of_marked hsta hun), hsta⟩
    · have hsto := ((h.ids.known (.inr ⟨pid, role, a, ha, .inl ⟨q, hr.1⟩⟩)).2 pid role a ha).2
      exact .inr ⟨pid, role, a, fd, q, hk ha (atRisk_of_handle hfd hsto hun), hfd, hr.1, hf ▸ hr.2⟩
  · intro m env msg pid role a q hc hun ha hcop
    rw [hs] at hun
    rcases hb ha with ha | rfl
    · exact h.copies (hco hc) hun ha hcop
    · cases hcop

theorem Safe.launch (h : Safe v) (hr : ∀ m, role = .task m → Known v m) : Safe (v.launch (protocol cfg) role) := by
  refine h.keep (h.ids.launch hr) h.writers.launch rfl rfl (fun _ => rfl) (fun _ _ _ => rfl) ?_
    fun ha _ => ha.launch h.ids.bounded
  intro pid role' a ha
  rcases ha.of_launch with ha | ⟨-, -, rfl⟩
  · exact .inl ha
  · exact .inr rfl

theorem Safe.ends (h : Safe v) (hfi : cfg.scheduler.Fits) (hlive : v.Live pid role a) (he : Ends cfg role a x) :
    atRisk v.log role a = false := by
  obtain ⟨hh, ht, -⟩ := he
  cases role with
  | task m =>
    obtain ⟨hse, -, hm⟩ := ht m rfl
    cases hs : a.stage with
    | marked =>
      rcases hm hs with hf | hu
      · simp [atRisk, hh, h.closed hlive (.inr hf)]
      · exact absurd hfi hu
    | sending => exact absurd hs hse
    | _ => simp [atRisk, hh, hs]
  | _ => simp [atRisk, hh]

theorem Safe.step (hfi : cfg.scheduler.Fits) (h : Safe v) (hc : orderly v e) (hs : Step cfg v e v') : Safe v' := by
  have hp := hc
  rw [orderly, and_eq_true, and_eq_true] at hp
  obtain ⟨⟨hfr, hso⟩, hca⟩ := hp
  have hids := h.ids.step hfr hs
  have hw := h.writers.step hso hs
  cases hs with
  | began role hro => exact h.launch fun m hm => absurd hm (hro m)
  | did pid role a op r a' w' hlive hdeed => exact h.deed hlive hdeed hc
  | spawned pid a id w' hlive hh hse hf =>
    refine (h.deed hlive (.spawned id hh rfl hse hf) hc).launch fun m hm => ?_
    obtain rfl := Role.task.inj hm
    exact .inr ⟨pid, .scan, a, View.live_self, .inr (.inl hse)⟩
  | ended pid role a x hlive he =>
    refine h.keep hids hw rfl rfl (fun _ => rfl) (fun _ _ _ => rfl) (fun ha => .inl ha.of_retire) ?_
    intro q role' b hb hr
    refine View.live_retire.mpr ⟨fun hq => ?_, hb⟩
    subst hq
    obtain ⟨rfl, rfl⟩ := hlive.unique hb
    cases (h.ends hfi hb he).symm.trans hr
  | crashed lost w' hf =>
    refine h.keep hids hw hf rfl (fun _ => rfl) (fun _ _ _ => rfl) (fun ha => .inl ha.of_restart) ?_
    intro q role b hb hr
    rw [undisturbed, not_eq_true', View.exists?_eq_false h.ids.bounded] at hca
    exact View.live_restart.mpr ⟨hb, by simpa [hr] using hca q role b hb⟩

theorem safe_plant : Safe (plant cfg).view := by
  have hu : ∀ {m env msg}, ¬ Committed (plant cfg).view m env msg := by
    intro m env msg h
    rcases h with h | ⟨pid, a, ha, -⟩
    · cases h
    · exact of_live_plant ha
  refine ⟨ids_plant, writers_plant, ?_, ?_, ?_, ?_, ?_, ?_⟩
  · exact of_live_plant
  · exact of_live_plant
  · exact of_live_plant
  · exact fun h => absurd h hu
  · exact fun h => absurd h hu
  · exact fun h => absurd h hu

theorem Described.waiting (hids : Ids v) (h : Described v m env) :
    Waiting v.world m env ∨ ∃ pid role a, v.Live pid role a ∧ attends m role a := by
  rcases h with ⟨ino, q, hf, henv, hac⟩ | ⟨pid, role, a, fd, q, hlive, hh, -⟩
  · by_cases hst : q.metadata.status = .active
    · obtain ⟨t, a, ha, hsta⟩ := hac hst
      exact .inr ⟨t, .task m, a, ha, by simpa [attends] using .inl hsta⟩
    · refine .inl ⟨ino, q, hf, hids.record hf, henv, ?_⟩
      cases hs : q.metadata.status with
      | active => exact absurd hs hst
      | held => exact .inl rfl
      | pending => exact .inr (.inl hs)
      | deferred => exact .inr (.inr hs)
  · exact .inr ⟨pid, role, a, hlive, by simp [attends, hh]⟩

/-- **No mail is lost or stuck in orderly runs.** -/
theorem notLost_of_orderly {labels : Schedule} {s : Plant}
    (hfits : cfg.scheduler.Fits) (hrun : runRelay cfg labels = some s)
    (hmeets : runMeets cfg orderly labels = true) : NotLost s.view := by
  have hsafe := run_invariant Safe safe_plant (Safe.step hfits) hrun hmeets
  intro m env msg haccepted hun
  have hcommitted : Committed s.view m env msg := .inl haccepted
  exact ⟨hsafe.text hcommitted hun, (hsafe.described hcommitted hun).waiting hsafe.ids⟩

def deferredDelivery : Schedule :=
  receiving 0 ++ .crash .host :: scanning 1 ++ loading 2 ++ marking 2 ++ handing 2 ++ deferring 2

theorem smallRelay_fits : smallRelay.scheduler.Fits := by
  intro d hd
  rw [mem_singleton.mp hd]
  decide

theorem notLost_deferredDelivery : ∃ s, runRelay smallRelay deferredDelivery = some s ∧
      (s.log.any (accepts firstId letter [72, 105]) = true ∧ settled s.log firstId = false) ∧ NotLost s.view := by
  obtain ⟨s, hs, hcheck⟩ : ∃ s, runRelay smallRelay deferredDelivery = some s ∧
      s.log.any (accepts firstId letter [72, 105]) ∧ settled s.log firstId = false := exists_of_any (by decide +kernel)
  exact ⟨s, hs, hcheck, notLost_of_orderly smallRelay_fits hs (by decide +kernel)⟩

/-! ## The relay as it is -/

theorem not_notLost_of_active (hb : v.Bounded) (hac : v.log.any (accepts m env msg)) (hun : settled v.log m = false)
    (ha : v.world.status m = some .active) (hn : v.exists? (fun _ _ => true) = false) : ¬ NotLost v := by
  intro h
  rcases (h m env msg hac hun).2 with ⟨ino, q, hf, -, -, hst⟩ | ⟨pid, role, a, hlive, -⟩
  · rw [World.status_of_record hf, some.injEq] at ha
    rcases hst with hst | hst | hst <;> rw [hst] at ha <;> cases ha
  · have hd := (View.exists?_eq_false hb).mp hn pid role a hlive
    cases hd

def crashDuringDelivery : Schedule := receiving 0 ++ scanning 1 ++ loading 2 ++ marking 2 ++ [.crash .daemon]

/-- **A crash during a delivery strands the message**: it was accepted, it is not
settled, and it is active with no task to deliver it. -/
theorem crash_strands : ∃ s, runRelay smallRelay crashDuringDelivery = some s ∧ ¬ NotLost s.view := by
  obtain ⟨s, hs, haccepted, hun, hactive, hnobody⟩ : ∃ s, runRelay smallRelay crashDuringDelivery = some s ∧
      s.log.any (accepts firstId letter [72, 105]) ∧ settled s.log firstId = false ∧
      s.world.status firstId = some .active ∧ s.view.exists? (fun _ _ => true) = false := exists_of_any (by decide +kernel)
  have hids : Ids s.view := run_invariant Ids ids_plant Ids.step hs (by decide +kernel)
  exact ⟨s, hs, not_notLost_of_active hids.bounded haccepted hun hactive hnobody⟩

end ServerWall.Relay
