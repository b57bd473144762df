import ServerWall.Relay.Writers

/-!
# A hold is respected

After a hold no delivery of the message may start until it is lifted (`HoldRespected`). But a scan and a
task go by what they read before (`task_overrides_hold`); it holds of runs in which a hold finds the
message untouched (`holdRespected_of_untouched`).
-/

namespace ServerWall.Relay

open Role

open Bool

/-! ## The property -/

def Role.holds (m : Text) (role : Role) : Bool := role.rewrite = some (m, .held)

/-- A retry, a release or a delete of the message; a purge deletes as well. -/
def Role.lifts (m : Text) (role : Role) : Bool :=
  role.rewrite = some (m, .pending) || role.deletes = some m || role.purges

/-- Whether a hold is in force after an event, given that it was before. -/
def inForceAfter (m : Text) (b : Bool) : Happening → Bool
  | .ended _ role x => b || (role.holds m && x.isOk)
  | .began _ role => b && !role.lifts m
  | _ => b

/-- A hold on the message has returned success, and none has been lifted since. -/
def inForce (m : Text) (log : List Happening) : Bool := log.foldl (inForceAfter m) false

/-- A delivery of the message starts: a scan starts a task, or a task hands the
message to the sender. -/
def starts (m : Text) : Happening → Bool
  | .did _ _ (.spawn id) _ => id = m
  | .did _ (.task id) (.sendStart _ _ _ _ _) _ => id = m
  | _ => false

def NoStart (m : Text) (log : List Happening) : Prop :=
  ∀ before e after, log = before ++ e :: after → inForce m before = true → starts m e = false

/-- The message is held, or a hold is writing that it is. -/
def HeldNow (v : Scene) (m : Text) : Prop :=
  v.world.status m = some .held ∨ ∃ pid role a, v.Live pid role a ∧ role.holds m = true ∧
    (a.handle.any fun h => h.1 = .metaPath m) = true

def HoldRespected (v : Scene) : Prop := ∀ m, NoStart m v.log ∧ (inForce m v.log = true → HeldNow v m)

/-! ## The condition -/

/-- A process that has the message in hand: its task, a command that lifts a hold
on it, or a scan or flush that has listed it. -/
def touches (m : Text) (role : Role) (a : Agent) : Bool :=
  role = .task m || role.lifts m || ((role = .scan || role.flushes) && m ∈ a.seen)

/-- A hold writes, and writes in full, only to a message that is there and that
nobody has in hand; what lifts it comes after it has returned; and no crash
takes it while it writes. -/
def untouched (v : Scene) : Happening → Bool
  | .did _ role (.write (.metaPath m) _ _) (.ok _) => !role.holds m ||
      ((v.world.files (.metaPath m)).isSome && !v.exists? fun _ p => touches m p.role p.agent)
  | .did _ role (.write (.metaPath m) _ _) (.error _) => !role.holds m
  | .began _ role => !v.exists? fun _ p => p.agent.updated && p.role.rewrite.any fun x => x.2 = .held && role.lifts x.1
  | .crashed lost => !v.exists? fun pid p => lost pid p.role && p.agent.handle.any fun h => p.role.holds h.1.id
  | _ => true

def holdsUntouched (v : Scene) (e : Happening) : Bool := freshIds v e && soleWriter v e && untouched v e

/-! ## What holds and lifts exclude -/

section

variable {role : Role} {a a' : Agent} {op : Op} {r : Res op}

theorem Role.holds_iff : role.holds m ↔ role.rewrite = some (m, .held) := by
  rw [holds, decide_eq_true_eq]

theorem touches_of_holds (h : role.holds m) (m' : Text) : touches m' role a = false := by
  rw [holds_iff] at h
  unfold rewrite at h
  split at h <;> first
    | (cases h; done)
    | simp [touches, lifts, rewrite, deletes, purges, flushes]

theorem MayWrite.holds (h : MayWrite role a m st) (hf : touches m role a = false) : role.holds m ∧ st = .held := by
  simp only [touches, lifts, or_eq_false_iff, decide_eq_false_iff_not] at hf
  obtain ⟨⟨ht, ⟨hp, -⟩, -⟩, hl⟩ := hf
  rcases h with hr | ⟨hfl, hs, -⟩ | ⟨hro, -⟩ | ⟨hro, -⟩
  · cases st with
    | held => exact ⟨holds_iff.mpr hr, rfl⟩
    | pending => exact absurd hr hp
    | active | deferred =>
      unfold rewrite at hr
      split at hr <;> cases hr
  · simp [hfl, hs] at hl
  · exact absurd hro ht
  · exact absurd hro ht

theorem MayRemove.touches (h : MayRemove role a m) : touches m role a := by
  rcases h with hd | ⟨hp, -⟩ | ⟨hr, -⟩
  · simp [ServerWall.Relay.touches, lifts, hd]
  · simp [ServerWall.Relay.touches, lifts, hp]
  · simp [ServerWall.Relay.touches, hr]

theorem Deed.updated (h : Deed role a w w' op r a') (hu : a'.updated) :
    a.updated ∨ ∃ id fd st, a.handle = some (.metaPath id, fd) ∧ a.enq ≠ .saved id ∧ MayWrite role a id st := by
  cases h with
  | wrote p fd c hh hmay =>
    cases p with
    | msgPath id => exact .inl hu
    | metaPath id =>
      obtain ⟨q, -, hmay⟩ := hmay
      by_cases hs : a.enq = .saved id
      · rw [Agent.wrote_of_saved hs] at hu
        exact .inl hu
      · rw [if_neg hs] at hmay
        exact .inr ⟨id, fd, _, hh, hs, hmay.2⟩
  | opened p fd =>
    cases p with
    | msgPath id | metaPath id => exact .inl hu
  | _ => exact .inl hu

theorem Deed.listed (h : Deed role a w w' op r a') (hs : m ∈ a'.seen) :
    m ∈ a.seen ∨ ∃ id ino q, w.files (.metaPath id) = some ⟨ino, .record q⟩ ∧ q.id = m ∧
      role.picks q.metadata.status := by
  cases h with
  | readMeta id q ino _ hf =>
    have hs' : m ∈ if role.picks q.metadata.status then q.id :: a.seen else a.seen := hs
    split at hs'
    · rename_i hp
      rcases List.mem_cons.mp hs' with rfl | hold
      · exact .inr ⟨id, ino, q, hf, rfl, hp⟩
      · exact .inl hold
    · exact .inl hs'
  | opened p fd =>
    rw [Agent.opens_seen] at hs
    exact .inl hs
  | wrote p fd c =>
    rw [Agent.wrote_seen] at hs
    exact .inl hs
  | _ => exact .inl hs

theorem Role.not_picks_held (h : (role = .scan || role.flushes) = true) : role.picks .held = false := by
  cases role with
  | scan => rfl
  | web route => cases route <;> first
    | rfl
    | simp [flushes] at h
  | cli action => cases action <;> rfl
  | receive | task => simp [flushes] at h

end

theorem inForce_append (m : Text) (log : List Happening) (e : Happening) :
    inForce m (log ++ [e]) = inForceAfter m (inForce m log) e := by
  rw [inForce, List.foldl_append]
  rfl

theorem NoStart.append (h : NoStart m log) (he : inForce m log → starts m e = false) : NoStart m (log ++ [e]) := by
  intro before x after hlog hf
  rcases append_eq_cut hlog with ⟨-, rfl, rfl⟩ | ⟨after', -, hlog'⟩
  · exact he hf
  · exact h before x after' hlog' hf

/-! ## The invariant -/

/-- A hold on the message is in force, or has written and not returned yet. -/
def Protected (v : Scene) (m : Text) : Prop :=
  inForce m v.log = true ∨ ∃ pid role a, v.Live pid role a ∧ role.holds m = true ∧ a.updated = true

/-- The metadata says held, or is blank for a hold that will write it. -/
def Sealed (v : Scene) (m : Text) : Prop :=
  (∃ ino q, v.world.files (.metaPath m) = some ⟨ino, .record q⟩ ∧ q.metadata.status = .held) ∨
  ∃ pid role a fd q, v.Live pid role a ∧ role.holds m = true ∧
    a.handle = some (.metaPath m, fd) ∧ a.copy = some (m, q) ∧
    v.world.files (.metaPath m) = some ⟨fd, .blank⟩

structure Guarded (v : Scene) : Prop where
  ids : Ids v
  writers : Writers v
  free : ∀ {m pid role a}, Protected v m → v.Live pid role a → touches m role a = false
  sealed : ∀ {m}, Protected v m → Sealed v m
  noStart : ∀ m, NoStart m v.log

variable {cfg : Config} {v : Scene} {e : Happening}

theorem Sealed.known (h : Sealed v m) : Known v m := by
  rcases h with ⟨ino, q, hf, -⟩ | ⟨pid, role, a, fd, q, hlive, -, -, hc, -⟩
  · exact .inl ⟨ino, q, hf⟩
  · exact .inr ⟨pid, role, a, hlive, .inl ⟨q, hc⟩⟩

theorem Sealed.present (h : Sealed v m) : v.world.files (.metaPath m) ≠ none := by
  rcases h with ⟨ino, q, hf, -⟩ | ⟨pid, role, a, fd, q, -, -, -, -, hf⟩
  · rw [hf]
    exact Option.some_ne_none _
  · rw [hf]
    exact Option.some_ne_none _

theorem Sealed.record (h : Sealed v m)
    (hf : v.world.files (.metaPath m) = some ⟨ino, .record q⟩) : q.metadata.status = .held := by
  rcases h with ⟨ino', q', hf', hst⟩ | ⟨pid, role, a, fd, q', -, -, -, -, hf'⟩
  · rw [hf] at hf'
    cases hf'
    exact hst
  · rw [hf] at hf'
    cases hf'

section

variable {pid : Nat} {role : Role} {a a' : Agent} {w' : World} {op : Op} {r : Res op}

variable (hlive : v.Live pid role a) (hdeed : Deed role a v.world w' op r a')
include hlive hdeed

theorem Protected.back (h : Protected (v.did pid role op r a' w') m) : Protected v m ∨
      (role.holds m ∧ a.enq ≠ .saved m ∧ ∃ fd, a.handle = some (.metaPath m, fd)) := by
  rcases h with hf | ⟨q, role', b, hb, hh, hu⟩
  · have hf' : inForce m (v.log ++ [.did pid role op r]) = true := hf
    rw [inForce_append] at hf'
    exact .inl (.inl hf')
  · rcases hb.of_advance with ⟨rfl, rfl, rfl⟩ | ⟨hq, hb₀⟩
    · rcases hdeed.updated hu with hold | ⟨id, fd, st, hha, hs, hmay⟩
      · exact .inl (.inr ⟨q, role', a, hlive, hh, hold⟩)
      · -- a hold writes the metadata of its own message only
        obtain ⟨hown, -⟩ := hmay.holds (touches_of_holds hh id)
        rw [holds_iff] at hh hown
        rw [hh] at hown
        obtain rfl := (Prod.mk.inj (Option.some.inj hown)).1
        exact .inr ⟨holds_iff.mpr hh, hs, fd, hha⟩
    · exact .inl (.inr ⟨q, role', b, hb₀, hh, hu⟩)

variable (h : Guarded v)
include h

theorem Guarded.sealed_deed (hc : untouched v (.did pid role op r))
    (hp : Protected v m) : Sealed (v.did pid role op r a' w') m := by
  have hs := h.sealed hp
  have hf := h.free hp hlive
  have hsto := ((h.ids.known hs.known).2 pid role a hlive).2
  cases hdeed.impact (.metaPath m) with
  | spared hfi hbe =>
    rcases hs with ⟨ino, q, hre, hst⟩ | ⟨t, role', b, fd, q, hb, hho, hfd, hr⟩
    · exact .inl ⟨ino, q, hfi.trans hre, hst⟩
    · have ht : t ≠ pid := by
        intro ht
        subst ht
        obtain ⟨rfl, rfl⟩ := hlive.unique hb
        exact hbe fd hfd
      exact .inr ⟨t, role', b, fd, q, View.live_other ht hb, hho, hfd, hr.1, hfi.trans hr.2⟩
  | opened fd _ hmay hfi =>
    rcases hmay with hsa | ⟨⟨q, hco⟩, st, hmay⟩
    · exact absurd hsa hsto
    · exact .inr ⟨pid, role, _, fd, q, View.live_self, (hmay.holds hf).1, rfl, hco, hfi⟩
  | wrote fd c hh hmay hl =>
    obtain ⟨q, rfl, hmay⟩ := hmay
    rw [if_neg hsto] at hmay
    rcases h.writers.blank hlive hh with hn | hbl
    · exact absurd hn hs.present
    · exact .inl ⟨fd, q, hl.blank rfl hbl, (hmay.2.holds hf).2⟩
  | botched fd c err hh hmay =>
    obtain ⟨q, rfl, hmay⟩ := hmay
    rw [if_neg hsto] at hmay
    rw [untouched, (hmay.2.holds hf).1] at hc
    cases hc
  | unlinked _ _ hmay => cases (show touches m role a = true from hmay.touches).symm.trans hf

theorem Guarded.seals (hc : untouched v (.did pid role op r))
    (hp : Protected (v.did pid role op r a' w') m) (hnew : ¬ Protected v m) :
    (∀ t role' b, v.Live t role' b → touches m role' b = false) ∧ Sealed (v.did pid role op r a' w') m := by
  rcases hp.back hlive hdeed with hold | ⟨hho, hst, fd, hh⟩
  · exact absurd hold hnew
  · cases hdeed.impact (.metaPath m) with
    | spared _ hbe => exact absurd hh (hbe fd)
    | opened _ hs | unlinked _ _ _ _ hs => cases hs.symm.trans hh
    | wrote fd' c hh' hmay hl =>
      rw [untouched, hho, Bool.not_true, Bool.false_or, Bool.and_eq_true, Bool.not_eq_true',
        View.exists?_eq_false h.ids.bounded] at hc
      obtain ⟨ht, hf⟩ := hc
      refine ⟨hf, ?_⟩
      have hb : v.world.files (.metaPath m) = some ⟨fd', .blank⟩ := by
        rcases h.writers.blank hlive hh' with hn | hb
        · rw [hn] at ht
          cases ht
        · exact hb
      obtain ⟨q, rfl, hmay⟩ := hmay
      rw [if_neg hst] at hmay
      exact .inl ⟨fd', q, hl.blank rfl hb, (hmay.2.holds (touches_of_holds hho m)).2⟩
    | botched =>
      rw [untouched, hho] at hc
      cases hc

theorem Guarded.free_deed (hp : Protected v m) (hb : (v.advance pid role a' e w').Live t role' b) : touches m role' b = false := by
  rcases hb.of_advance with ⟨rfl, rfl, rfl⟩ | ⟨-, hb₀⟩
  · have hf := h.free hp hlive
    unfold touches at hf ⊢
    rw [Bool.or_eq_false_iff] at hf ⊢
    refine ⟨hf.1, ?_⟩
    cases hl : (role' = .scan || role'.flushes : Bool) with
    | false => rfl
    | true =>
      rw [hl, Bool.true_and, decide_eq_false_iff_not] at hf
      rw [Bool.true_and, decide_eq_false_iff_not]
      -- the listing grows by what is read as pending or deferred, and the message is held
      intro hs
      rcases hdeed.listed hs with hold | ⟨id, ino, q, hfi, hid, hpi⟩
      · exact hf.2 hold
      · obtain rfl := (h.ids.record hfi).symm.trans hid
        rw [(h.sealed hp).record hfi, not_picks_held hl] at hpi
        cases hpi
  · exact h.free hp hb₀

theorem Guarded.not_starts (hp : Protected v m) : starts m (.did pid role op r) = false := by
  have hf := h.free hp hlive
  cases hs : starts m (.did pid role op r) with
  | false => rfl
  | true =>
    exfalso
    unfold starts at hs
    split at hs
    · rename_i heq
      cases heq
      rw [decide_eq_true_eq] at hs
      subst hs
      cases hdeed with
      | quiet hn => cases hn
      | turned _ ht => cases ht
      | spawned _ _ hr hse =>
        subst hr
        simp [touches, hse] at hf
    · rename_i heq
      cases heq
      rw [decide_eq_true_eq] at hs
      subst hs
      simp [touches] at hf
    · cases hs

theorem Guarded.deed (hco : holdsUntouched v (.did pid role op r)) : Guarded (v.did pid role op r a' w') := by
  rw [holdsUntouched, and_eq_true, and_eq_true] at hco
  obtain ⟨⟨hf, hs⟩, hc⟩ := hco
  refine ⟨h.ids.deed hlive hdeed hf, h.writers.deed hlive hdeed hs, ?_, ?_, ?_⟩
  · intro m t role' b hp hb
    by_cases hold : Protected v m
    · exact h.free_deed hlive hdeed hold hb
    · have hfr := (h.seals hlive hdeed hc hp hold).1
      rcases hp.back hlive hdeed with hold' | ⟨hh, -⟩
      · exact absurd hold' hold
      · rcases hb.of_advance with ⟨rfl, rfl, rfl⟩ | ⟨ht, hb₀⟩
        · exact touches_of_holds hh m
        · exact hfr t role' b hb₀
  · intro m hp
    by_cases hold : Protected v m
    · exact h.sealed_deed hlive hdeed hc hold
    · exact (h.seals hlive hdeed hc hp hold).2
  · exact fun m => (h.noStart m).append fun hfo => h.not_starts hlive hdeed (.inl hfo)

end

/-! ## The other steps -/

theorem Guarded.launch (h : Guarded v) (hk : ∀ m, role = .task m → Known v m)
    (hro : ∀ m, Protected (v.launch (protocol cfg) role) m → Protected v m → role ≠ .task m ∧ role.lifts m = false) :
    Guarded (v.launch (protocol cfg) role) := by
  have hb : ∀ {m}, Protected (v.launch (protocol cfg) role) m → Protected v m := by
    intro m hp
    rcases hp with hf | ⟨pid, role', a, ha, hh, hu⟩
    · have hf' : inForce m (v.log ++ [.began v.next role]) = true := hf
      rw [inForce_append, inForceAfter, and_eq_true] at hf'
      exact .inl hf'.1
    · rcases ha.of_launch with ha | ⟨-, -, rfl⟩
      · exact .inr ⟨pid, role', a, ha, hh, hu⟩
      · cases hu
  refine ⟨h.ids.launch hk, h.writers.launch, ?_, ?_, ?_⟩
  · intro m pid role' a hp ha
    have hold := hb hp
    rcases ha.of_launch with ha | ⟨-, rfl, rfl⟩
    · exact h.free hold ha
    · obtain ⟨ht, hl⟩ := hro m hp hold
      show touches m role' {} = false
      simp [touches, ht, hl]
  · intro m hp
    rcases h.sealed (hb hp) with hr | ⟨pid, role', a, fd, q, ha, hre⟩
    · exact .inl hr
    · exact .inr ⟨pid, role', a, fd, q, ha.launch h.ids.bounded, hre⟩
  · exact fun m => (h.noStart m).append fun _ => rfl

theorem lifts_of_untouched (hb : v.Bounded) (hc : untouched v (.began v.next role))
    (hp : Protected (v.launch (protocol cfg) role) m) : role.lifts m = false := by
  rcases hp with hf | ⟨pid, role', a, ha, hh, hu⟩
  · have hf' : inForce m (v.log ++ [.began v.next role]) = true := hf
    rw [inForce_append, inForceAfter, and_eq_true, not_eq_true'] at hf'
    exact hf'.2
  · rcases ha.of_launch with ha | ⟨-, -, rfl⟩
    · rw [untouched, not_eq_true', View.exists?_eq_false hb] at hc
      have hr := hc pid role' a ha
      simpa [hu, holds_iff.mp hh] using hr
    · cases hu

theorem Guarded.retire (h : Guarded v) (hlive : v.Live pid role a) (he : Ends cfg role a x) :
    Guarded (v.retire pid (.ended pid role x)) := by
  obtain ⟨hha, -, hr⟩ := he
  have hba : ∀ {m}, Protected (v.retire pid (.ended pid role x)) m → Protected v m := by
    intro m hp
    rcases hp with hf | ⟨t, role', b, hb, hh, hu⟩
    · have hf' : inForce m (v.log ++ [.ended pid role x]) = true := hf
      rw [inForce_append, inForceAfter, or_eq_true, and_eq_true] at hf'
      rcases hf' with hf | ⟨hh, hok⟩
      · exact .inl hf
      · -- a hold that returns success has written
        have hu := hr ⟨m, .held, holds_iff.mp hh⟩ hok
        exact .inr ⟨pid, role, a, hlive, hh, hu⟩
    · exact .inr ⟨t, role', b, hb.of_retire, hh, hu⟩
  refine ⟨h.ids.retire pid, ?_, ?_, ?_, ?_⟩
  · exact h.writers.retire pid
  · exact fun hp hb => h.free (hba hp) hb.of_retire
  · intro m hp
    rcases h.sealed (hba hp) with hre | ⟨t, role', b, fd, q, hb, hh, hfd, hres⟩
    · exact .inl hre
    · have ht : t ≠ pid := by
        intro ht
        subst ht
        obtain ⟨rfl, rfl⟩ := hlive.unique hb
        cases hha.symm.trans hfd
      exact .inr ⟨t, role', b, fd, q, View.live_retire.mpr ⟨ht, hb⟩, hh, hfd, hres⟩
  · exact fun m => (h.noStart m).append fun _ => rfl

theorem Guarded.restart (h : Guarded v) {lost : Nat → Role → Bool}
    (hc : untouched v (.crashed lost)) (hf : w'.files = v.world.files) : Guarded (v.restart lost w') := by
  have hba : ∀ {m}, Protected (v.restart lost w') m → Protected v m := by
    intro m hp
    rcases hp with hfo | ⟨t, role, b, hb, hre⟩
    · have hfo' : inForce m (v.log ++ [.crashed lost]) = true := hfo
      rw [inForce_append] at hfo'
      exact .inl hfo'
    · exact .inr ⟨t, role, b, hb.of_restart, hre⟩
  refine ⟨h.ids.restart hf, h.writers.restart hf, ?_, ?_, ?_⟩
  · exact fun hp hb => h.free (hba hp) hb.of_restart
  · intro m hp
    rcases h.sealed (hba hp) with ⟨ino, q, hr, hst⟩ | ⟨t, role, b, fd, q, hb, hh, hfd, hco, hbl⟩
    · exact .inl ⟨ino, q, hf ▸ hr, hst⟩
    · rw [untouched, not_eq_true', View.exists?_eq_false h.ids.bounded] at hc
      have hk : lost t role = false := by simpa [hfd, Path.id, hh] using hc t role b hb
      exact .inr ⟨t, role, b, fd, q, View.live_restart.mpr ⟨hb, hk⟩, hh, hfd, hco, hf ▸ hbl⟩
  · exact fun m => (h.noStart m).append fun _ => rfl

theorem Guarded.step (h : Guarded v) (hc : holdsUntouched v e) (hst : Step cfg v e v') : Guarded v' := by
  have hu : untouched v e = true := by
    rw [holdsUntouched, and_eq_true] at hc
    exact hc.2
  cases hst with
  | began role hr =>
    exact h.launch (fun m hm => absurd hm (hr m)) fun m hp _ =>
      ⟨hr m, lifts_of_untouched h.ids.bounded hu hp⟩
  | did pid role a op r a' w' hlive hdeed => exact h.deed hlive hdeed hc
  | spawned pid a id w' hlive hh hs hf =>
    have h' := h.deed hlive (.spawned id hh rfl hs hf) hc
    refine h'.launch (fun m hm => ?_) fun m _ hp => ⟨fun hm => ?_, rfl⟩
    · obtain rfl := task.inj hm
      exact .inr ⟨pid, .scan, a, View.live_self, .inr (.inl hs)⟩
    · obtain rfl := task.inj hm
      have hfr := h'.free hp View.live_self
      simp [touches, hs] at hfr
  | ended pid role a x hlive he => exact h.retire hlive he
  | crashed lost w' hf => exact h.restart hu hf

theorem guarded_plant : Guarded (plant cfg).view := by
  refine ⟨ids_plant, writers_plant, ?_, ?_, ?_⟩
  · exact fun _ => of_live_plant
  · intro m hp
    rcases hp with hf | ⟨pid, role, a, ha, -⟩
    · cases hf
    · exact of_live_plant ha
  · intro m before x after hlog
    have hlen := congrArg List.length hlog
    simp [plant, System.view] at hlen

/-- **A hold is respected where it finds its message untouched.** -/
theorem holdRespected_of_untouched {labels : Schedule} {s : Plant}
    (hrun : runRelay cfg labels = some s) (hmeets : runMeets cfg holdsUntouched labels = true) :
    HoldRespected s.view := by
  have hguarded := run_invariant Guarded guarded_plant Guarded.step hrun hmeets
  intro m
  refine ⟨hguarded.noStart m, fun hforce => ?_⟩
  rcases hguarded.sealed (.inl hforce) with ⟨ino, q, hfile, hst⟩ | ⟨pid, role, a, fd, q, hlive, hholds, hhandle, -⟩
  · exact .inl ((World.status_of_record hfile).trans (by rw [hst]))
  · exact .inr ⟨pid, role, a, hlive, hholds, by simp [hhandle]⟩

def holding (pid : Nat) : Schedule :=
  .launch (.web (.hold firstId)) :: (acts pid [.ok, .ok, .ok, .ok, .ok] ++ [.finish pid])

def holdThenScan : Schedule := receiving 0 ++ holding 1 ++ .launch .scan ::
    (acts 2 [.listing [.ok (.metaPath firstId), .ok (.msgPath firstId)], .ok, .clock noon] ++ [.finish 2])

theorem holdRespected_holdThenScan : ∃ s, runRelay smallRelay holdThenScan = some s ∧
      inForce firstId s.log = true ∧ HoldRespected s.view := by
  obtain ⟨s, hs, hcheck⟩ : ∃ s, runRelay smallRelay holdThenScan = some s ∧ inForce firstId s.log :=
    exists_of_any (by decide +kernel)
  exact ⟨s, hs, hcheck, holdRespected_of_untouched hs (by decide +kernel)⟩

/-! ## The relay as it is -/

/-- A delivery starts at this place of the log while a hold is in force. -/
def startsAt (m : Text) (i : Nat) (log : List Happening) : Bool :=
  match log.drop i with
  | [] => false
  | e :: _ => inForce m (log.take i) && starts m e

theorem not_holdRespected_of_startsAt (h : startsAt m i v.log) : ¬ HoldRespected v := by
  intro hr
  unfold startsAt at h
  split at h
  · cases h
  · rename_i x after hd
    rw [and_eq_true] at h
    have hlog : v.log = v.log.take i ++ x :: after := by rw [← hd, List.take_append_drop]
    have hq := (hr m).1 _ _ _ hlog h.1
    cases h.2.symm.trans hq

/-- A task has loaded the message when the hold comes, and goes on. -/
def holdDuringDelivery : Schedule := receiving 0 ++ scanning 1 ++ loading 2 ++ holding 3 ++ marking 2 ++ handing 2

/-- **A task overrides a hold**: the hold has returned success, nothing has
lifted it, and the task marks the message active and hands it over. -/
theorem task_overrides_hold : ∃ s, runRelay smallRelay holdDuringDelivery = some s ∧ ¬ HoldRespected s.view := by
  obtain ⟨s, hs, hcheck⟩ : ∃ s, runRelay smallRelay holdDuringDelivery = some s ∧ startsAt firstId 32 s.view.log :=
    exists_of_any (by decide +kernel)
  exact ⟨s, hs, not_holdRespected_of_startsAt hcheck⟩

end ServerWall.Relay
