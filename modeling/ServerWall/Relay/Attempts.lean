import ServerWall.Relay.Conduct.Errand
import ServerWall.Relay.Freshness

/-!
# A message is tried so many times

A message may have `max 1 max_attempts` tasks, each counted in its metadata (`Limited`), and one that is
too old is not put off again (`defersYoung`). A scan goes by an old listing (`stale_scan_exceeds`); without
administrators, with one task at a time for messages that still wait, and no failure before a task has
marked its message, the limit holds (`limited_of_punctual`).
-/

namespace ServerWall.Relay

open Bool Option

open Role

open Content

/-! ## The property -/

def spawnsTask (m : Text) : Happening → Bool
  | .did _ _ (.spawn id) _ => id = m
  | _ => false

def tasksOf (m : Text) (log : List Happening) : Nat := log.countP (spawnsTask m)

def Unmarked (v : Scene) (m : Text) : Prop := ∃ t a, v.Live t (.task m) a ∧ (errandOf t (.task m) v.log).marked = false

/-- A message has so many tasks, and its metadata counts those that marked it. -/
structure Limited (cfg : Config) (v : Scene) : Prop where
  tasks : ∀ m, tasksOf m v.log ≤ max 1 cfg.scheduler.maxAttempts.toNat
  attempts : ∀ m ino q, v.world.files (.metaPath m) = some ⟨ino, .record q⟩ →
    (Unmarked v m → q.metadata.attempts.toNat + 1 = tasksOf m v.log) ∧
      (¬ Unmarked v m → q.metadata.attempts.toNat = tasksOf m v.log)

/-- A task that puts its message off found it young enough at the failure. -/
def defersYoung (cfg : Config) (v : Scene) : Happening → Bool
  | .did pid (.task _) (.write (.metaPath _) _ (.record q)) _ =>
    q.metadata.status ≠ .deferred || (docketOf pid v.log).readings.head?.any fun t =>
      decide (t.toDateTime.ns - q.metadata.created.ns ≤ cfg.scheduler.maxAge)
  | _ => true

/-! ## The condition -/

def Role.administers : Role → Bool
  | .web _ => true
  | .cli _ => true
  | _ => false

theorem Role.administers_of_rewrite {role : Role} {x : Text × QueueStatus}
    (h : role.rewrite = some x) : role.administers := by
  cases role with
  | web command | cli command => rfl
  | _ => cases h

theorem Role.administers_of_flushes {role : Role} (h : role.flushes) : role.administers := by
  cases role with
  | web command | cli command => rfl
  | _ => cases h

/-- The message is in the spool as one that a scan takes. -/
def World.waits (w : World) (m : Text) : Bool := w.status m = some .pending || w.status m = some .deferred

/-- No administrator comes; a task is started only for a message that has none and still
waits; and what has not marked its message neither fails nor is lost in a crash. -/
def punctual (v : Scene) : Happening → Bool
  | .began _ role => !role.administers
  | .did _ _ (.spawn m) _ => (!v.exists? fun _ p => p.role = .task m) && v.world.waits m
  | .did pid role op r => !(role.delivers && (!(errandOf pid role v.log).marked && fails op r))
  | .crashed lost => !v.exists? fun pid p => lost pid p.role && (p.role.delivers && !(errandOf pid p.role v.log).marked)
  | _ => true

def timely (v : Scene) (e : Happening) : Bool := freshIds v e && punctual v e

/-! ## The invariant -/

variable {cfg : Config} {v v' : Scene} {e : Happening}

theorem tasksOf_append (m : Text) (log : List Happening) (e : Happening) :
    tasksOf m (log ++ [e]) = tasksOf m log + if spawnsTask m e then 1 else 0 := by
  rw [tasksOf, List.countP_append, List.countP_singleton]
  rfl

theorem tasksOf_quiet (h : spawnsTask m e = false) : tasksOf m (log ++ [e]) = tasksOf m log := by
  rw [tasksOf_append, h]
  rfl

/-- What metadata says that nobody is about to count up. -/
structure Settled (cfg : Config) (q : QueuedMessage) (tasks : Nat) : Prop where
  attempts : q.metadata.attempts.toNat = tasks
  pending : q.metadata.status = .pending → tasks = 0
  deferred : q.metadata.status = .deferred → tasks < cfg.scheduler.maxAttempts.toNat

structure Tally (cfg : Config) (v : Scene) : Prop where
  ids : Ids v
  single : ∀ {t a t' a' m}, v.Live t (.task m) a → v.Live t' (.task m) a' → t = t'
  unattended : ∀ {pid role a}, v.Live pid role a → role.administers = false
  storer : ∀ {pid role a m}, v.Live pid role a → a.enq.id? = some m → role.enqueues = true
  filed : ∀ {pid role a}, v.Live pid role a → (docketOf pid v.log).draft.id = a.enq.id?
  /-- A task does not store its own message, and nobody stores one that has had a task. -/
  foreign : ∀ {t m a}, v.Live t (.task m) a → a.enq.id? ≠ some m
  begun : ∀ {m}, 0 < tasksOf m v.log → drawn v.log m = true ∧
    ∀ pid role a, v.Live pid role a → a.enq ≠ .drawn m ∧ a.enq ≠ .saved m
  /-- Metadata that its task has open holds nothing. -/
  opened : ∀ {t m a fd}, v.Live t (.task m) a → a.handle = some (.metaPath m, fd) →
    ∀ ino q, v.world.files (.metaPath m) ≠ some ⟨ino, .record q⟩
  fine : ∀ {t m a}, v.Live t (.task m) a → (errandOf t (.task m) v.log).marked = false →
    (errandOf t (.task m) v.log).failed = false
  learnt : ∀ {t m a}, v.Live t (.task m) a → (errandOf t (.task m) v.log).marked = true →
    (docketOf t v.log).loaded ≠ none
  loaded : ∀ {t m a q}, v.Live t (.task m) a → (docketOf t v.log).loaded = some q →
    q.metadata.attempts.toNat + 1 = tasksOf m v.log
  record : ∀ {m ino q}, v.world.files (.metaPath m) = some ⟨ino, .record q⟩ →
    (Unmarked v m → q.metadata.attempts.toNat + 1 = tasksOf m v.log) ∧
      (¬ Unmarked v m → Settled cfg q (tasksOf m v.log))
  limit : ∀ m, tasksOf m v.log ≤ max 1 cfg.scheduler.maxAttempts.toNat

theorem Tally.limited (h : Tally cfg v) : Limited cfg v :=
  ⟨h.limit, fun _ _ _ hf => ⟨(h.record hf).1, fun hn => ((h.record hf).2 hn).attempts⟩⟩

theorem attempts_succ {n : UInt32} {tasks : Nat} (h : n.toNat + 1 = tasks)
    (hl : tasks ≤ max 1 cfg.scheduler.maxAttempts.toNat) : (n + 1).toNat = tasks := by
  have hs : cfg.scheduler.maxAttempts.toNat < 2 ^ 32 := cfg.scheduler.maxAttempts.toNat_lt
  rw [UInt32.toNat_add]
  show (n.toNat + 1) % 2 ^ 32 = tasks
  omega

section

variable {pid : Nat} {role : Role} {a a' : Agent} {w' : World} {op : Op} {r : Res op}

theorem spawnsTask_did (hop : ∀ id, op ≠ .spawn id) (m : Text) : spawnsTask m (.did pid role op r) = false := by
  cases op with
  | spawn id => exact absurd rfl (hop id)
  | _ => rfl

theorem Tally.unsaved (h : Tally cfg v) (hb : v.Live t (.task m) b) (hl : v.Live pid role a) : a.enq ≠ .saved m :=
  ((h.ids.known (.inr ⟨t, .task m, b, hb, .inr (.inr rfl)⟩)).2 pid role a hl).2

/-- **Who writes metadata**: a process that stores a new message, with no attempts, or
the task of the message, which counts up what it loaded. -/
theorem Tally.written (h : Tally cfg v) (ht : Told (relay cfg) v.log (.did pid role op r))
    (hl : v.Live pid role a) {c : Content}
    (hop : op = .write (.metaPath m) fd c) (hmay : MayStore role a (.metaPath m) c) :
    ∃ q, c = .record q ∧ ((a.enq = .saved m ∧ q.metadata.status = .pending ∧ q.metadata.attempts = 0) ∨
        (a.enq ≠ .saved m ∧ role = .task m ∧ ∃ q₀, (docketOf pid v.log).loaded = some q₀ ∧
          (docketOf pid v.log).Rewrite cfg q₀ q)) := by
  subst hop
  obtain ⟨q, rfl, hmay⟩ := hmay
  refine ⟨q, rfl, ?_⟩
  by_cases hs : a.enq = .saved m
  · rw [if_pos hs] at hmay
    have hid : a.enq.id? = some m := by rw [hs]; rfl
    have hr : (∃ m, role = .task m) ∨ ∃ envelope message, role = .receive envelope message := by
      have he := h.storer hl hid
      cases role with
      | task m' => exact .inl ⟨m', rfl⟩
      | receive envelope message => exact .inr ⟨envelope, message, rfl⟩
      | _ => cases he
    have hd : (errandOf pid role v.log).draft = some m := by rw [draft_errandOf, h.filed hl, hid]
    obtain ⟨q', hq', ha⟩ := told_starts ht hr hd
    obtain rfl := record.inj hq'
    exact .inl ⟨hs, hmay.2.1, ha⟩
  · rw [if_neg hs] at hmay
    have hn := h.unattended hl
    have hr : role = .task m := by
      rcases hmay.2 with hre | ⟨hf, -⟩ | ⟨hr, -⟩ | ⟨hr, -⟩
      · cases (administers_of_rewrite hre).symm.trans hn
      · cases (administers_of_flushes hf).symm.trans hn
      · exact hr
      · exact hr
    subst hr
    obtain ⟨q₀, q', hlo, hq', hc⟩ := (told_task ht).2
    obtain rfl := record.inj hq'
    have hd : (docketOf pid v.log).draft.id ≠ some m := by
      rw [h.filed hl]
      exact h.foreign hl
    rw [if_neg hd] at hc
    exact .inr ⟨hs, rfl, q₀, hlo, hc⟩

theorem marks_eq (h : marks (.task m) op r) :
    ∃ fd c u, (⟨op, r⟩ : Σ op, Res op) = ⟨.write (.metaPath m) fd c, .ok u⟩ := by
  unfold marks at h
  split at h
  · rename_i id fd c u
    obtain rfl := task.inj (of_decide_eq_true h)
    exact ⟨fd, c, u, rfl⟩
  · cases h

theorem unmarked_deed (hl : v.Live pid role a) (hq : role = .task m → marks (.task m) op r = false) :
    Unmarked (v.did pid role op r a' w') m ↔ Unmarked v m := by
  have hs : role = .task m → (errandOf pid (.task m) (v.log ++ [.did pid role op r])).marked =
      (errandOf pid (.task m) v.log).marked := by
    intro hr
    rw [errandOf_self]
    show (_ || marks (.task m) op r) = _
    rw [hq hr, Bool.or_false]
  constructor
  · rintro ⟨t, b, hb, hm⟩
    have hm' : (errandOf t (.task m) (v.log ++ [.did pid role op r])).marked = false := hm
    rcases hb.of_advance with ⟨rfl, rfl, rfl⟩ | ⟨ht, hb₀⟩
    · exact ⟨t, a, hl, hs rfl ▸ hm'⟩
    · rw [errandOf_other (Ne.symm ht)] at hm'
      exact ⟨t, b, hb₀, hm'⟩
  · rintro ⟨t, b, hb, hm⟩
    by_cases ht : t = pid
    · subst ht
      obtain ⟨rfl, rfl⟩ := hl.unique hb
      refine ⟨t, a', View.live_self, ?_⟩
      exact (hs rfl).trans hm
    · refine ⟨t, b, View.live_other ht hb, ?_⟩
      show (errandOf t (.task m) (v.log ++ [.did pid role op r])).marked = false
      rwa [errandOf_other (Ne.symm ht)]

theorem Tally.marked_deed (h : Tally cfg v) (hl : v.Live pid (.task m) a) (hma : marks (.task m) op r) :
    ¬ Unmarked (v.did pid (.task m) op r a' w') m := by
  rintro ⟨t, b, hb, hm⟩
  obtain ⟨b₀, hb₀⟩ := View.live_back hl hb
  obtain rfl := h.single hb₀ hl
  have hm' : (errandOf t (.task m) (v.log ++ [.did t (.task m) op r])).marked = false := hm
  rw [errandOf_self] at hm'
  have hbo : ((errandOf t (.task m) v.log).marked || marks (.task m) op r) = false := hm'
  rw [hma, Bool.or_true] at hbo
  cases hbo

theorem Tally.settled_rewrite (h : Tally cfg v) (hli : v.Live pid (.task m) a) (hl : (docketOf pid v.log).loaded = some q₀)
    (hr : (docketOf pid v.log).Rewrite cfg q₀ q) : Settled cfg q (tasksOf m v.log) := by
  have hc := h.loaded hli hl
  have hsu := attempts_succ hc (h.limit m)
  rcases hr with ⟨-, hm⟩ | ⟨-, hd⟩
  · have hs : q.metadata.status = .active := by rw [hm]; rfl
    constructor
    · rwa [hm]
    · intro hp
      cases hs.symm.trans hp
    · intro hde
      cases hs.symm.trans hde
  · constructor
    · rwa [hd.attempts]
    · intro hp
      cases hd.status.symm.trans hp
    · intro _
      rw [← hsu]
      exact UInt32.lt_iff_toNat_lt.mp hd.fewer

variable (hf : freshIds v (.did pid role op r)) (hop : ∀ id, op ≠ .spawn id)
  (hto : Told (relay cfg) v.log (.did pid role op r)) (hl : v.Live pid role a) (hd : Deed role a v.world w' op r a')
  (hs : Seen v.world op r) (hb : (v.did pid role op r a' w').Live t (.task m) b)

include hop hto hl hd in
theorem Tally.record_deed (h : Tally cfg v) (hf : w'.files (.metaPath m) = some ⟨ino, .record q⟩) :
    (Unmarked (v.did pid role op r a' w') m →
        q.metadata.attempts.toNat + 1 = tasksOf m (v.log ++ [.did pid role op r])) ∧
      (¬ Unmarked (v.did pid role op r a' w') m → Settled cfg q (tasksOf m (v.log ++ [.did pid role op r]))) := by
  rw [tasksOf_quiet (spawnsTask_did hop m)]
  -- metadata that was there before was not being rewritten by its task
  have hold : v.world.files (.metaPath m) = some ⟨ino, .record q⟩ → (role = .task m → marks (.task m) op r = false) →
      (Unmarked (v.did pid role op r a' w') m → q.metadata.attempts.toNat + 1 = tasksOf m v.log) ∧
      (¬ Unmarked (v.did pid role op r a' w') m → Settled cfg q (tasksOf m v.log)) := by
    intro hf₀ hqu
    rw [unmarked_deed hl hqu]
    exact h.record hf₀
  cases hd.impact (.metaPath m) with
  | spared hsa hbe =>
    rw [hsa] at hf
    refine hold hf fun hro => ?_
    subst hro
    cases hm : marks (.task m) op r with
    | false => rfl
    | true =>
      obtain ⟨fd, c, u, heq⟩ := marks_eq hm
      cases heq
      cases hd with
      | quiet hno => cases hno
      | turned stage htu => cases htu
      | wrote _ _ _ hh => exact absurd hh (hbe fd)
  | opened fd _ _ hbl => cases hbl.symm.trans hf
  | unlinked _ _ _ hn => cases hn.symm.trans hf
  | botched fd c err _ _ hla =>
    rcases hla.metadata hf with hf₀ | ⟨hw, -⟩
    · exact hold hf₀ fun _ => rfl
    · cases hw
  | wrote fd c hh hmay hla =>
    obtain ⟨q', rfl, hc⟩ := h.written hto hl rfl hmay
    rcases hc with ⟨hs, hst, ha⟩ | ⟨-, rfl, q₀, hlo, hre⟩
    · -- a new message: it has no task, and has had none
      have hn : ∀ t b, ¬ v.Live t (.task m) b := fun t b hb => h.unsaved hb hl hs
      have hz : tasksOf m v.log = 0 := by
        by_contra hne
        exact ((h.begun (Nat.pos_of_ne_zero hne)).2 pid role a hl).2 hs
      have hro : role ≠ .task m := fun hro => hn pid a (hro ▸ hl)
      rcases hla.metadata hf with hf₀ | ⟨-, -, hq⟩
      · exact hold hf₀ fun hr => absurd hr hro
      · obtain rfl := record.inj hq
        refine ⟨?_, fun _ => ⟨?_, fun _ => hz, fun hd => ?_⟩⟩
        · rw [unmarked_deed hl fun hr => absurd hr hro]
          rintro ⟨t, b, hb, -⟩
          exact absurd hb (hn t b)
        · rw [ha, hz]
          rfl
        · cases hst.symm.trans hd
    · have hm : marks (.task m) (.write (.metaPath m) fd (.record q')) (.ok ()) = true := decide_eq_true rfl
      rcases hla.metadata hf with hf₀ | ⟨-, -, hq⟩
      · exact absurd hf₀ (h.opened hl hh ino q)
      · obtain rfl := record.inj hq
        refine ⟨fun hu => absurd hu (h.marked_deed hl hm), fun _ => ?_⟩
        exact h.settled_rewrite hl hlo hre

include hto hl hd hb in
theorem Tally.opened_deed (h : Tally cfg v) (hh : b.handle = some (.metaPath m, fd)) (ino : Nat) (q : QueuedMessage) :
    w'.files (.metaPath m) ≠ some ⟨ino, .record q⟩ := by
  intro hf
  -- a write closes the file, so it is another process that writes
  have hc : a'.handle = none → t ≠ pid ∧ v.Live t (.task m) b := by
    intro hsh
    rcases hb.of_advance with ⟨rfl, rfl, rfl⟩ | ho
    · cases hsh.symm.trans hh
    · exact ho
  cases hd.impact (.metaPath m) with
  | spared hsa hbe ha =>
    rw [hsa] at hf
    rcases hb.of_advance with ⟨rfl, rfl, rfl⟩ | ⟨-, hb₀⟩
    · exact ha fd hh
    · exact h.opened hb₀ hh ino q hf
  | opened fd' _ _ hbl => cases hbl.symm.trans hf
  | unlinked _ _ _ hn => cases hn.symm.trans hf
  | botched fd' c err _ _ hla =>
    obtain ⟨-, hb₀⟩ := hc rfl
    rcases hla.metadata hf with hf₀ | ⟨hw, -⟩
    · exact h.opened hb₀ hh ino q hf₀
    · cases hw
  | wrote fd' c _ hmay =>
    obtain ⟨ht, hb₀⟩ := hc (Agent.wrote_handle _)
    obtain ⟨q', -, hca⟩ := h.written hto hl rfl hmay
    rcases hca with ⟨hs, -⟩ | ⟨-, rfl, -⟩
    · exact h.unsaved hb₀ hl hs
    · exact ht (h.single hb₀ hl)

include hl hb in
theorem Tally.fine_deed (h : Tally cfg v) (hp : punctual v (.did pid role op r))
    (hm : (errandOf t (.task m) (v.log ++ [.did pid role op r])).marked = false) :
    (errandOf t (.task m) (v.log ++ [.did pid role op r])).failed = false := by
  rcases hb.of_advance with ⟨rfl, rfl, rfl⟩ | ⟨ht, hb₀⟩
  · rw [errandOf_self] at hm ⊢
    have hbe : (errandOf t (.task m) v.log).marked = false := (or_eq_false_iff.mp hm).1
    have hf : fails op r = false := by
      cases op with
      | spawn id => rfl
      | _ => simpa [punctual, delivers, hbe] using hp
    show ((errandOf t (.task m) v.log).failed || fails op r) = false
    rw [h.fine hl hbe, hf]
    rfl
  · rw [errandOf_other (Ne.symm ht)] at hm ⊢
    exact h.fine hb₀ hm

include hto hl hb in
theorem Tally.learnt_deed (h : Tally cfg v) (hm : (errandOf t (.task m) (v.log ++ [.did pid role op r])).marked) :
    (docketOf t (v.log ++ [.did pid role op r])).loaded ≠ none := by
  rcases hb.of_advance with ⟨rfl, rfl, rfl⟩ | ⟨ht, hb₀⟩
  · rw [errandOf_self] at hm
    rw [docketOf_self]
    have hlo : ∃ q, (docketOf t v.log).loaded = some q := by
      rcases or_eq_true _ _ ▸ hm with hbe | hma
      · exact ne_none_iff_exists'.mp (h.learnt hl hbe)
      · obtain ⟨fd, c, u, heq⟩ := marks_eq hma
        cases heq
        obtain ⟨q, -, hlo, -⟩ := (told_task hto).2
        exact ⟨q, hlo⟩
    obtain ⟨q, hlo⟩ := hlo
    exact ne_none_iff_exists'.mpr ⟨q, Case.after_loaded hlo op r⟩
  · rw [errandOf_other (Ne.symm ht)] at hm
    rw [docketOf_other (Ne.symm ht)]
    exact h.learnt hb₀ hm

include hop hto hl hs hb in
theorem Tally.loaded_deed (h : Tally cfg v) (hlo : (docketOf t (v.log ++ [.did pid role op r])).loaded = some q) :
    q.metadata.attempts.toNat + 1 = tasksOf m (v.log ++ [.did pid role op r]) := by
  rw [tasksOf_quiet (spawnsTask_did hop m)]
  rcases hb.of_advance with ⟨rfl, rfl, rfl⟩ | ⟨ht, hb₀⟩
  · rw [docketOf_self] at hlo
    rcases Case.loaded_of_after hlo with hold | ⟨hn, id, heq⟩
    · exact h.loaded hl hold
    · -- the first reading comes before the mark
      cases heq
      obtain rfl : id = m := told_may hto
      obtain ⟨ino, hf⟩ := hs
      refine (h.record hf).1 ⟨t, a, hl, ?_⟩
      cases hm : (errandOf t (.task id) v.log).marked with
      | false => rfl
      | true => exact absurd hn (h.learnt hl hm)
  · rw [docketOf_other (Ne.symm ht)] at hlo
    exact h.loaded hb₀ hlo

theorem filed_deed (hf : ∀ {q role' b}, v.Live q role' b → (docketOf q v.log).draft.id = b.enq.id?)
    (hl : v.Live pid role a) (hd : Deed role a v.world w' op r a') (hb : (v.did pid role op r a' w').Live q role' b) :
    (docketOf q (v.log ++ [.did pid role op r])).draft.id = b.enq.id? := by
  rcases hb.of_advance with ⟨rfl, rfl, rfl⟩ | ⟨hq, hb₀⟩
  · rw [docketOf_self, hd.enq_id, ← hf hl]
    exact Case.after_id op r
  · rw [docketOf_other (Ne.symm hq)]
    exact hf hb₀

include hf hl hd hb in
theorem Tally.foreign_deed (h : Tally cfg v) : b.enq.id? ≠ some m := by
  rcases hb.of_advance with ⟨rfl, rfl, rfl⟩ | ⟨ht, hb₀⟩
  · rw [hd.enq_id]
    cases hta : Case.taken op r with
    | none => exact h.foreign hl
    | some id =>
      intro hid
      obtain rfl := some.inj hid
      obtain ⟨fd, heq⟩ := taken_eq_some hta
      cases heq
      have hnew := not_drawn_of_draws hf (m := id) (decide_eq_true rfl)
      rw [(h.ids.known (.inr ⟨t, .task id, a, hl, .inr (.inr rfl)⟩)).1] at hnew
      cases hnew
  · exact h.foreign hb₀

include hf hop hl hd in
theorem Tally.begun_deed (h : Tally cfg v) (hpos : 0 < tasksOf m (v.log ++ [.did pid role op r])) :
    drawn (v.log ++ [.did pid role op r]) m ∧ ∀ q role' b, (v.did pid role op r a' w').Live q role' b →
        b.enq ≠ .drawn m ∧ b.enq ≠ .saved m := by
  rw [tasksOf_quiet (spawnsTask_did hop m)] at hpos
  obtain ⟨hdr, hn⟩ := h.begun hpos
  refine ⟨drawn_append hdr _, fun q role' b hb => ?_⟩
  rcases hb.of_advance with ⟨rfl, rfl, rfl⟩ | ⟨hq, hb₀⟩
  · have hne : ¬ (b.enq = .drawn m ∨ b.enq = .saved m) := by
      intro hs
      rcases hd.storing hs with hbe | ⟨fd, heq⟩
      · rcases hbe with hbe | hbe
        · exact (hn q role' a hl).1 hbe
        · exact (hn q role' a hl).2 hbe
      · cases heq
        cases (not_drawn_of_draws hf (m := m) (decide_eq_true rfl)).symm.trans hdr
    exact ⟨fun hb => hne (.inl hb), fun hb => hne (.inr hb)⟩
  · exact hn q role' b hb₀

include hop hto hl hd hs in
theorem Tally.deed (h : Tally cfg v) (hc : timely v (.did pid role op r)) : Tally cfg (v.did pid role op r a' w') := by
  obtain ⟨hf, hp⟩ := and_eq_true_iff.mp hc
  constructor
  · exact h.ids.deed hl hd hf
  · exact fun hb hb' => single_advance h.single hl hb hb'
  · intro q role' b hb
    obtain ⟨b₀, hb₀⟩ := View.live_back hl hb
    exact h.unattended hb₀
  · exact fun hb hm => storer_deed hl hd h.storer hb hm
  · exact fun hb => filed_deed h.filed hl hd hb
  · exact fun hb => h.foreign_deed hf hl hd hb
  · exact fun hpos => h.begun_deed hf hop hl hd hpos
  · exact fun hb hh => h.opened_deed hto hl hd hb hh
  · exact fun hb hma => h.fine_deed hl hb hp hma
  · exact fun hb hma => h.learnt_deed hto hl hb hma
  · exact fun hb hlo => h.loaded_deed hop hto hl hs hb hlo
  · exact fun hfi => h.record_deed hop hto hl hd hfi
  · intro m
    show tasksOf m (v.log ++ [.did pid role op r]) ≤ _
    rw [tasksOf_quiet (spawnsTask_did hop m)]
    exact h.limit m

include hto hl hd in
theorem Tally.young (h : Tally cfg v) : defersYoung cfg v (.did pid role op r) := by
  have hwr : ∀ {m fd q} {u : Except IoError Unit},
      Told (relay cfg) v.log (.did pid role (.write (.metaPath m) fd (.record q)) u) →
      MayStore role a (.metaPath m) (.record q) →
      defersYoung cfg v (.did pid role (.write (.metaPath m) fd (.record q)) u) = true := by
    intro m fd q u ht hmay
    cases role with
    | task m' =>
      simp only [defersYoung, or_eq_true, decide_eq_true_eq]
      by_cases hd : q.metadata.status = .deferred
      · refine .inr ?_
        obtain ⟨q', hq', hc⟩ := h.written ht hl rfl hmay
        obtain rfl := record.inj hq'
        rcases hc with ⟨-, hs, -⟩ | ⟨-, -, q₀, -, ⟨-, hm⟩ | ⟨-, hde⟩⟩
        · cases hs.symm.trans hd
        · rw [hm] at hd
          cases hd
        · obtain ⟨t, rest, hr, hy⟩ := hde.young
          rw [hr, hde.created]
          exact decide_eq_true hy
      · exact .inl hd
    | _ => rfl
  have hw : ∀ {p fd c} {u : Except IoError Unit},
      Told (relay cfg) v.log (.did pid role (.write p fd c) u) → MayStore role a p c →
      defersYoung cfg v (.did pid role (.write p fd c) u) = true := by
    intro p fd c u ht hmay
    cases p with
    | msgPath id => cases role <;> rfl
    | metaPath id =>
      have hre := hmay
      obtain ⟨q, rfl, -⟩ := hre
      exact hwr ht hmay
  cases hd with
  | wrote p fd c _ hmay | botched p fd c err _ hmay => exact hw hto hmay
  | quiet hn =>
    unfold defersYoung
    split
    · rename_i heq
      cases heq
      cases hn
    · rfl
  | turned stage htu => cases htu <;> (cases role <;> rfl)
  | _ => cases role <;> rfl

end

/-! ## The other steps -/

theorem Tally.frame (h : Tally cfg v) (hids : Ids v') (hlog : v'.log = v.log ++ [e])
    (hp : ∀ pid, e.part pid = none) (hs : ∀ m, spawnsTask m e = false) (hf : v'.world.files = v.world.files)
    (hba : ∀ {q role b}, v'.Live q role b → v.Live q role b ∨
      (b = {} ∧ docketOf q v.log = {} ∧ role.administers = false ∧ ∀ m, role ≠ .task m))
    (hk : ∀ {t m b}, v.Live t (.task m) b → (errandOf t (.task m) v.log).marked = false →
      v'.Live t (.task m) b) : Tally cfg v' := by
  have hta : ∀ m, tasksOf m v'.log = tasksOf m v.log := by
    intro m
    rw [hlog, tasksOf_quiet (hs m)]
  have hd : ∀ pid, docketOf pid v'.log = docketOf pid v.log := by
    intro pid
    rw [hlog, docketOf_concat (hp pid)]
  have he : ∀ pid role, errandOf pid role v'.log = errandOf pid role v.log := by
    intro pid role
    rw [hlog, errandOf_concat (hp pid)]
  have ht : ∀ {t m b}, v'.Live t (.task m) b → v.Live t (.task m) b := by
    intro t m b hb
    rcases hba hb with hb | ⟨-, -, -, hr⟩
    · exact hb
    · exact absurd rfl (hr m)
  have hu : ∀ m, Unmarked v' m ↔ Unmarked v m := by
    intro m
    constructor
    · rintro ⟨t, b, hb, hma⟩
      exact ⟨t, b, ht hb, by rwa [he] at hma⟩
    · rintro ⟨t, b, hb, hma⟩
      exact ⟨t, b, hk hb hma, by rwa [he]⟩
  constructor
  · exact hids
  · exact fun hb hb' => h.single (ht hb) (ht hb')
  · intro pid role b hb
    rcases hba hb with hb | ⟨-, -, hr, -⟩
    · exact h.unattended hb
    · exact hr
  · intro pid role b m hb hm
    rcases hba hb with hb | ⟨rfl, -⟩
    · exact h.storer hb hm
    · cases hm
  · intro pid role b hb
    rw [hd]
    rcases hba hb with hb | ⟨rfl, hem, -⟩
    · exact h.filed hb
    · rw [hem]
      rfl
  · exact fun hb => h.foreign (ht hb)
  · intro m hpos
    rw [hta] at hpos
    obtain ⟨hdr, hn⟩ := h.begun hpos
    refine ⟨by rw [hlog]; exact drawn_append hdr e, fun pid role b hb => ?_⟩
    rcases hba hb with hb | ⟨rfl, -⟩
    · exact hn pid role b hb
    · exact ⟨Enqueuing.noConfusion, Enqueuing.noConfusion⟩
  · intro t m b fd hb hh
    rw [hf]
    exact h.opened (ht hb) hh
  · intro t m b hb
    rw [he]
    exact h.fine (ht hb)
  · intro t m b hb
    rw [he, hd]
    exact h.learnt (ht hb)
  · intro t m b q hb
    rw [hd, hta]
    exact h.loaded (ht hb)
  · intro m ino q hfi
    rw [hu, hta]
    rw [hf] at hfi
    exact h.record hfi
  · intro m
    rw [hta]
    exact h.limit m

section

variable {pid : Nat} {a : Agent} {id m : Text}

/-- What is different once the scan `pid` has started a task for a message that had none. -/
structure Started (v v' : Scene) (pid : Nat) (id : Text) : Prop where
  back : ∀ {q role b}, v'.Live q role b → v.Live q role b ∨ (q = v.next ∧ role = .task id ∧ b = {})
  keep : ∀ {q role b}, v.Live q role b → v'.Live q role b
  launched : v'.Live v.next (.task id) {}
  /-- A task from before is for another message, and is not the scan. -/
  other : ∀ {t m b}, v.Live t (.task m) b → id ≠ m ∧ t ≠ pid
  draft : ∀ q, (docketOf q v'.log).draft = (docketOf q v.log).draft
  docket : ∀ q, q ≠ pid → docketOf q v'.log = docketOf q v.log
  errand : ∀ q role, q ≠ pid → errandOf q role v'.log = errandOf q role v.log
  unborn : docketOf v.next v'.log = {} ∧ errandOf v.next (.task id) v'.log = {}
  tasks : ∀ m, tasksOf m v'.log = tasksOf m v.log + if id = m then 1 else 0
  drawn : ∀ m, drawn v.log m = true → drawn v'.log m = true
  files : v'.world.files = v.world.files

theorem started_spawn (hbo : v.Bounded) (hbor : v.Unborn) (hl : v.Live pid .scan a)
    (hn : ∀ t b, ¬ v.Live t (.task id) b) (hf : w'.files = v.world.files) :
    Started v ((v.advance pid .scan a (.did pid .scan (.spawn id) ()) w').launch (protocol cfg) (.task id)) pid id := by
  set e : Happening := .did pid .scan (.spawn id) () with he
  set v' := (v.advance pid .scan a e w').launch (protocol cfg) (.task id) with hv'
  have hpid : pid ≠ v.next := Nat.ne_of_lt (hbo pid _ a hl)
  have hlog : v'.log = v.log ++ [e] ++ [.began v.next (.task id)] := rfl
  have hd : ∀ q, q ≠ pid → docketOf q v'.log = docketOf q v.log := by
    intro q hq
    rw [hlog, docketOf_began, docketOf_other (Ne.symm hq)]
  have her : ∀ q role, q ≠ pid → errandOf q role v'.log = errandOf q role v.log := by
    intro q role hq
    rw [hlog, errandOf_concat rfl, errandOf_other (Ne.symm hq)]
  constructor
  · intro q role b hb
    rcases hb.of_launch with hb | ⟨hq, hr, hb⟩
    · rcases hb.of_advance with ⟨rfl, rfl, rfl⟩ | ⟨hq, hb₀⟩
      · exact .inl hl
      · exact .inl (hb₀)
    · exact .inr ⟨hq, hr, hb⟩
  · intro q role b hb
    have hbo' : (v.advance pid .scan a e w').Bounded := hbo.advance hl
    by_cases hq : q = pid
    · subst hq
      obtain ⟨rfl, rfl⟩ := hl.unique hb
      exact View.live_self.launch hbo'
    · exact (View.live_other hq hb).launch hbo'
  · rw [hv', View.live_launch]
    exact if_pos rfl ▸ ⟨rfl, rfl⟩
  · intro t m b hb
    refine ⟨fun hm => hn t b (hm ▸ hb), fun ht => ?_⟩
    subst ht
    cases (hl.unique hb).1
  · intro q
    by_cases hq : q = pid
    · rw [hq, hlog, docketOf_began, he, docketOf_self]
      rfl
    · rw [hd q hq]
  · exact hd
  · exact her
  · rw [hd _ (Ne.symm hpid), her _ _ (Ne.symm hpid)]
    have hh : historyOf v.next v.log = [] := hbor v.next (Nat.le_refl _)
    constructor
    · unfold docketOf
      rw [hh]
      rfl
    · unfold errandOf
      rw [hh]
      rfl
  · intro m
    rw [hlog, tasksOf_quiet rfl, tasksOf_append]
    simp [he, spawnsTask]
  · intro m hdr
    rw [hlog]
    exact drawn_append (drawn_append hdr _) _
  · exact hf

section

variable (hs : Started v v' pid id)

include hs

theorem Started.tasks_other (hm : id ≠ m) : tasksOf m v'.log = tasksOf m v.log := by
  rw [hs.tasks, if_neg hm]
  rfl

theorem Started.unmarked_iff (hm : id ≠ m) : Unmarked v' m ↔ Unmarked v m := by
  constructor
  · rintro ⟨t, b, hb, hma⟩
    rcases hs.back hb with hb | ⟨-, hr, -⟩
    · exact ⟨t, b, hb, by rwa [hs.errand _ _ (hs.other hb).2] at hma⟩
    · exact absurd (task.inj hr).symm hm
  · rintro ⟨t, b, hb, hma⟩
    exact ⟨t, b, hs.keep hb, by rwa [hs.errand _ _ (hs.other hb).2]⟩

theorem Started.unmarked : Unmarked v' id := ⟨v.next, {}, hs.launched, by rw [hs.unborn.2]⟩

variable (h : Tally cfg v)
include h

theorem Tally.settled_spawn (hf : v.world.files (.metaPath id) = some ⟨ino, .record q⟩) :
    Settled cfg q (tasksOf id v.log) :=
  (h.record hf).2 fun ⟨_, _, hb, _⟩ => (hs.other hb).1 rfl

theorem Tally.single_spawn (hb : v'.Live t (.task m) b) (hb' : v'.Live t' (.task m) b') : t = t' := by
  rcases hs.back hb with hb | ⟨ht, hm, -⟩ <;> rcases hs.back hb' with hb' | ⟨ht', hm', -⟩
  · exact h.single hb hb'
  · exact absurd (task.inj hm').symm (hs.other hb).1
  · exact absurd (task.inj hm).symm (hs.other hb').1
  · exact ht.trans ht'.symm

theorem Tally.filed_spawn (hb : v'.Live q role b) : (docketOf q v'.log).draft.id = b.enq.id? := by
  rcases hs.back hb with hb | ⟨rfl, -, rfl⟩
  · rw [hs.draft]
    exact h.filed hb
  · rw [hs.unborn.1]
    rfl

theorem Tally.begun_spawn (hli : v.Live pid .scan a) (hl : id ∈ a.seen) (hpos : 0 < tasksOf m v'.log) :
    drawn v'.log m ∧ ∀ q role b, v'.Live q role b → b.enq ≠ .drawn m ∧ b.enq ≠ .saved m := by
  have hbo : drawn v.log m = true ∧ ∀ q role b, v.Live q role b → b.enq ≠ .drawn m ∧ b.enq ≠ .saved m := by
    by_cases hm : id = m
    · subst hm
      exact h.ids.known (.inr ⟨pid, .scan, a, hli, .inr (.inl hl)⟩)
    · exact h.begun (hs.tasks_other hm ▸ hpos)
  refine ⟨hs.drawn m hbo.1, fun q role b hb => ?_⟩
  rcases hs.back hb with hb | ⟨-, -, rfl⟩
  · exact hbo.2 q role b hb
  · exact ⟨Enqueuing.noConfusion, Enqueuing.noConfusion⟩

theorem Tally.record_spawn (hf : v'.world.files (.metaPath m) = some ⟨ino, .record q⟩) :
    (Unmarked v' m → q.metadata.attempts.toNat + 1 = tasksOf m v'.log) ∧
      (¬ Unmarked v' m → Settled cfg q (tasksOf m v'.log)) := by
  rw [hs.files] at hf
  by_cases hm : id = m
  · subst hm
    refine ⟨fun _ => ?_, fun hnot => absurd hs.unmarked hnot⟩
    rw [hs.tasks, if_pos rfl, (h.settled_spawn hs hf).attempts]
  · rw [hs.unmarked_iff hm, hs.tasks_other hm]
    exact h.record hf

theorem Tally.limit_spawn (hw : v.world.waits id) (m : Text) :
    tasksOf m v'.log ≤ max 1 cfg.scheduler.maxAttempts.toNat := by
  by_cases hm : id = m
  · subst hm
    rw [hs.tasks, if_pos rfl]
    unfold World.waits World.status at hw
    split at hw
    · rename_i ino q hf
      have hq := h.settled_spawn hs hf
      simp only [some.injEq, or_eq_true, decide_eq_true_eq] at hw
      rcases hw with hp | hd
      · rw [hq.pending hp]
        exact Nat.le_max_left _ _
      · exact Nat.le_trans (hq.deferred hd) (Nat.le_max_right _ _)
    · cases hw
  · rw [hs.tasks_other hm]
    exact h.limit m

/-- **A scan starts a task** for a message that has none and still waits: one attempt
more, which the task has yet to count. -/
theorem Tally.spawn (hids : Ids v')
    (hw : v.world.waits id) (hliv : v.Live pid .scan a) (hli : id ∈ a.seen) : Tally cfg v' := by
  constructor
  · exact hids
  · exact fun hb hb' => h.single_spawn hs hb hb'
  · intro q role b hb
    rcases hs.back hb with hb | ⟨-, rfl, -⟩
    · exact h.unattended hb
    · rfl
  · intro q role b m hb hm
    rcases hs.back hb with hb | ⟨-, -, rfl⟩
    · exact h.storer hb hm
    · cases hm
  · exact fun hb => h.filed_spawn hs hb
  · intro t m b hb
    rcases hs.back hb with hb | ⟨-, -, rfl⟩
    · exact h.foreign hb
    · exact nofun
  · exact fun hpos => h.begun_spawn hs hliv hli hpos
  · intro t m b fd hb hh
    rw [hs.files]
    rcases hs.back hb with hb | ⟨-, -, rfl⟩
    · exact h.opened hb hh
    · cases hh
  · intro t m b hb hma
    rcases hs.back hb with hb | ⟨rfl, hr, -⟩
    · rw [hs.errand _ _ (hs.other hb).2] at hma ⊢
      exact h.fine hb hma
    · obtain rfl := task.inj hr
      rw [hs.unborn.2]
  · intro t m b hb hma
    rcases hs.back hb with hb | ⟨rfl, hr, -⟩
    · rw [hs.errand _ _ (hs.other hb).2] at hma
      rw [hs.docket _ (hs.other hb).2]
      exact h.learnt hb hma
    · obtain rfl := task.inj hr
      rw [hs.unborn.2] at hma
      cases hma
  · intro t m b q hb hl
    rcases hs.back hb with hb | ⟨rfl, -, -⟩
    · rw [hs.docket _ (hs.other hb).2] at hl
      rw [hs.tasks_other (hs.other hb).1]
      exact h.loaded hb hl
    · rw [hs.unborn.1] at hl
      cases hl
  · exact fun hf => h.record_spawn hs hf
  · exact h.limit_spawn hs hw

end

end

theorem Tally.step (h : Tally cfg v) (hc : timely v e) (hto : Told (relay cfg) v.log e)
    (hbo : v.Unborn) (hs : Step cfg v e v') : Tally cfg v' ∧ defersYoung cfg v e := by
  obtain ⟨hfr, hp⟩ := and_eq_true_iff.mp hc
  have hids : Ids v' := h.ids.step hfr hs
  cases hs with
  | began role hr =>
    refine ⟨h.frame hids rfl (fun _ => rfl) (fun _ => rfl) rfl ?_ fun hb _ => hb.launch h.ids.bounded, rfl⟩
    intro q role' b hb
    rcases hb.of_launch with hb | ⟨rfl, rfl, rfl⟩
    · exact .inl hb
    · refine .inr ⟨rfl, ?_, by simpa [punctual] using hp, hr⟩
      unfold docketOf
      rw [hbo v.next (Nat.le_refl _)]
      rfl
  | did pid role a op r a' w' hl hd hop hse => exact ⟨h.deed hop hto hl hd hse hc, h.young hto hl hd⟩
  | spawned pid a id w' hl _ hli hf =>
    rw [punctual, and_eq_true, not_eq_true', View.exists?_eq_false h.ids.bounded] at hp
    obtain ⟨hfre, hw⟩ := hp
    have hn : ∀ t b, ¬ v.Live t (.task id) b := by
      intro t b hb
      have hb' := hfre t _ b hb
      simp at hb'
    exact ⟨h.spawn (started_spawn h.ids.bounded hbo hl hn hf) hids hw hl hli, rfl⟩
  | ended pid role a x hl =>
    refine ⟨h.frame hids rfl (fun _ => rfl) (fun _ => rfl) rfl
      (fun hb => .inl hb.of_retire) fun {t m b} hb hm => ?_, rfl⟩
    refine View.live_retire.mpr ⟨fun ht => ?_, hb⟩
    -- a task ends with its message marked, since nothing failed before
    subst ht
    obtain ⟨rfl, -⟩ := hl.unique hb
    rcases hto.ends (Q := errand) (task_errand _) _ rfl with ho | ho
    · cases hm.symm.trans ho
    · cases (h.fine hb hm).symm.trans ho
  | crashed lost w' hf =>
    rw [punctual, not_eq_true', View.exists?_eq_false h.ids.bounded] at hp
    refine ⟨h.frame hids rfl (fun _ => rfl) (fun _ => rfl) hf
      (fun hb => .inl hb.of_restart) fun {t m b} hb hm => ?_, rfl⟩
    refine View.live_restart.mpr ⟨hb, ?_⟩
    have hsp := hp t (.task m) b hb
    simpa [delivers, hm] using hsp

theorem tally_plant : Tally cfg (plant cfg).view := by
  constructor
  · exact ids_plant
  · exact of_live_plant
  · exact of_live_plant
  · exact of_live_plant
  · exact of_live_plant
  · exact of_live_plant
  · intro m hpos
    exact absurd hpos (Nat.lt_irrefl 0)
  · exact of_live_plant
  · exact of_live_plant
  · exact of_live_plant
  · exact of_live_plant
  · intro m ino q hf
    cases hf
  · exact fun _ => Nat.zero_le _

/-! ## The result -/

/-- **Attempts are limited** in punctual runs. -/
theorem limited_of_punctual {labels : Schedule} {s : Plant} (hrun : runRelay cfg labels = some s)
    (hmeets : runMeets cfg timely labels = true) :
    Limited cfg s.view ∧ runMeets cfg (defersYoung cfg) labels = true := by
  have hend := run_told (D := defersYoung cfg) (Tally cfg) tally_plant
    (fun h hcond htold hborn hstep => h.step hcond htold hborn hstep) hrun hmeets
  exact ⟨hend.1.limited, hend.2⟩

def oneDeferral : Schedule := receiving 0 ++ scanning 1 ++ loading 2 ++ marking 2 ++ handing 2 ++ deferring 2

theorem limited_oneDeferral : ∃ s, runRelay smallRelay oneDeferral = some s ∧
      (s.world.status firstId = some .deferred ∧ tasksOf firstId s.log = 1) ∧
      Limited smallRelay s.view ∧ runMeets smallRelay (defersYoung smallRelay) oneDeferral = true := by
  obtain ⟨s, hs, hcheck⟩ : ∃ s, runRelay smallRelay oneDeferral = some s ∧ s.world.status firstId = some .deferred ∧
      tasksOf firstId s.log = 1 := exists_of_any (by decide +kernel)
  exact ⟨s, hs, hcheck, limited_of_punctual hs (by decide +kernel)⟩

/-! ## A listing from before -/

def onceRelay : Config := { smallRelay with scheduler := { smallRelay.scheduler with maxAttempts := 1 } }

/-- The remote host puts the message off, the one attempt is used up, and the task
bounces the message, removes it and ends. -/
def givingUp (pid : Nat) : Schedule :=
  acts pid [.sent (.tempFail "451 later"), .ok, .clock noon, .ok, .clock noon, .random 8,
    .clock noon, .random 9, .clock noon, .ok, .ok, .ok, .ok, .ok, .ok, .ok, .ok, .ok, .ok, .ok]
    ++ [.finish pid]

/-- A second scan lists the message before the first task marks it, and starts its task
after the first has ended. -/
def staleScan : Schedule := receiving 0 ++ scanning 1 ++ .launch .scan ::
    acts 3 [.listing [.ok (.metaPath firstId), .ok (.msgPath firstId)], .ok, .clock noon] ++
  loading 2 ++ marking 2 ++ handing 2 ++ givingUp 2 ++ acts 3 [.ok, .ok]

def oneByOne (v : Scene) : Happening → Bool
  | .began _ role => !role.administers
  | .did _ _ (.spawn m) _ => !v.exists? fun _ p => p.role = .task m
  | _ => true

/-- **A scan exceeds the limit** by a listing from before, without an administrator and
with one task at a time. -/
theorem stale_scan_exceeds : ∃ s, runRelay onceRelay staleScan = some s ∧ runMeets onceRelay oneByOne staleScan = true ∧
      ¬ Limited onceRelay s.view := by
  obtain ⟨s, hs, htwo⟩ : ∃ s, runRelay onceRelay staleScan = some s ∧ tasksOf firstId s.view.log = 2 :=
    exists_of_any (by decide +kernel)
  refine ⟨s, hs, by decide +kernel, fun hlimited => ?_⟩
  have hlimit := hlimited.tasks firstId
  rw [htwo] at hlimit
  exact absurd hlimit (by decide)

end ServerWall.Relay
