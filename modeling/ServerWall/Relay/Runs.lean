import ServerWall.Lib.Histories
import ServerWall.Relay.Deeds
import ServerWall.Relay.Conduct.Roles

/-!
# Runs of the relay

What one step of the whole relay can do (`Step`), the rule for invariants of runs (`run_invariant`), and the
invariant of ids, as long as no enqueue draws an id that was drawn before (`freshIds`).
-/

namespace ServerWall.Relay

open Function

open Option

abbrev Scene := View Op Res Role Agent World Response

abbrev Plant := System Op Res Role Agent World Response

def plant (cfg : Config) : Plant := { world := { permits := cfg.deliveryThreads } }

def runRelay (cfg : Config) (labels : Schedule) : Option Plant :=
  (plant cfg).run (relay cfg) (protocol cfg) labels

def runMeets (cfg : Config) (C : Scene → Happening → Bool) (labels : Schedule) : Bool :=
  (plant cfg).along (relay cfg) (protocol cfg) C labels

inductive Step (cfg : Config) (v : Scene) : Happening → Scene → Prop
  | began (role : Role) (hrole : ∀ m, role ≠ .task m) :
      Step cfg v (.began v.next role) (v.launch (protocol cfg) role)
  | did (pid : Nat) (role : Role) (a : Agent) (op : Op) (r : Res op) (a' : Agent) (w' : World)
      (hlive : v.Live pid role a) (hdeed : Deed role a v.world w' op r a')
      (hop : ∀ id, op ≠ .spawn id) (hseen : Seen v.world op r) :
      Step cfg v (.did pid role op r) (v.advance pid role a' (.did pid role op r) w')
  | spawned (pid : Nat) (a : Agent) (id : Text) (w' : World) (hlive : v.Live pid .scan a)
      (hhandle : a.handle = none) (hseen : id ∈ a.seen) (hfiles : w'.files = v.world.files) :
      Step cfg v (.did pid .scan (.spawn id) ())
        ((v.advance pid .scan a (.did pid .scan (.spawn id) ()) w').launch (protocol cfg) (.task id))
  | ended (pid : Nat) (role : Role) (a : Agent) (x : Response) (hlive : v.Live pid role a)
      (hends : Ends cfg role a x) :
      Step cfg v (.ended pid role x) (v.retire pid (.ended pid role x))
  | crashed (lost : Nat → Role → Bool) (w' : World) (hfiles : w'.files = v.world.files) :
      Step cfg v (.crashed lost) (v.restart lost w')

variable {v : Scene} {e : Happening}

theorem moves_step (hmo : Moves (relay cfg) (protocol cfg) v e v') : Step cfg v e v' := by
  cases hmo with
  | launch role had =>
    refine .began role fun m hm => ?_
    subst hm
    cases had
  | act pid role a op out r w hl ha he hs =>
    refine .did pid role a op r _ w hl (act_deed ha he) (fun id hid => ?_) (exec_seen he)
    subst hid
    cases hs
  | spawn pid role a op out r w child hl ha he hs =>
    cases op with
    | spawn id =>
      obtain rfl := some.inj hs
      have he' : exec (.spawn id) out v.world = some (r, w) := he
      have hf := exec_frame rfl he'
      obtain ⟨hh, hr, hse⟩ := ha
      subst hr
      have ht : (protocol cfg).track .scan a (.spawn id) r = a := Agent.track_of_not_fails rfl
      rw [ht]
      exact .spawned pid a id w hl hh hse hf
    | _ => cases hs
  | finish pid role a x hl hen => exact .ended pid role a x hl hen
  | crash fault => exact .crashed _ _ (by cases fault <;> rfl)

theorem exists_of_any {o : Option α} [DecidablePred P] (h : o.any (P ·)) : ∃ a, o = some a ∧ P a := by
  obtain ⟨a, ha, hp⟩ := (any_eq_true _ _).mp h
  exact ⟨a, ha, of_decide_eq_true hp⟩

/-- **Invariants of runs**: what holds at the first start and survives every
step that meets the condition holds wherever a run of such steps leads. -/
theorem run_invariant (I : Scene → Prop) (hi : I (plant cfg).view)
    (hst : ∀ {v v' e}, I v → C v e → Step cfg v e v' → I v')
    (hrun : runRelay cfg labels = some s) (hm : runMeets cfg C labels) : I s.view := by
  have hs : (plant cfg).Sound (protocol cfg) := fun _ _ h => by cases h
  have hr : Reach (relay cfg) (protocol cfg) C (plant cfg).view s.view :=
    System.run_reach code_follows labels (plant cfg) hs .init hrun hm
  exact reach_invariant I hi (fun h hC hmo => hst h hC (moves_step hmo)) hr

def plantOn (w : World) : Plant := { world := w }

theorem chronicled_plantOn : (plantOn w).Chronicled (relay cfg) where
  performs _ _ h := by cases h
  bounded _ _ h := by cases h
  unborn _ _ := rfl

/-- **Invariants of runs, with what the code did**: as `run_invariant`, where every step is what the code of
its process does next and guarantees `D`. The spool may hold anything at the start. -/
theorem run_told (I : Scene → Prop) (hi : I (plantOn w).view)
    (hst : ∀ {v v' e}, I v → C v e → Told (relay cfg) v.log e → v.Unborn → Step cfg v e v' → I v' ∧ D v e)
    (hrun : (plantOn w).run (relay cfg) (protocol cfg) labels = some s)
    (hm : (plantOn w).along (relay cfg) (protocol cfg) C labels) :
    I s.view ∧ (plantOn w).along (relay cfg) (protocol cfg) D labels := by
  have hs : (plantOn w).Sound (protocol cfg) := fun _ _ h => by cases h
  exact System.run_told code_follows I
    (fun h hC ht hb hmo => hst h hC ht hb (moves_step hmo)) labels (plantOn w)
    hs chronicled_plantOn hi hrun hm

theorem log_told (hrun : runRelay cfg labels = some s) (hlog : s.log = before ++ e :: after) :
    Told (relay cfg) before e :=
  System.log_told code_follows (fun _ _ h => by cases h) chronicled_plantOn rfl hrun hlog

theorem of_live_plantOn {p : Prop} (h : (plantOn w).view.Live pid role a) : p := by
  cases h

theorem of_live_plant {p : Prop} : (plant cfg).view.Live pid role a → p := of_live_plantOn

/-! ## Ids -/

def Enqueuing.id? : Enqueuing → Option Text
  | .idle => none
  | .drawn id => some id
  | .saved id => some id
  | .stored id => some id

/-- The event of an enqueue that takes an id: it creates the `.msg` file. -/
def draws (m : Text) : Happening → Bool
  | .did _ _ (.create (.msgPath id)) (.ok _) => id = m
  | _ => false

def drawn (log : List Happening) (m : Text) : Bool := log.any (draws m)

/-- An enqueue takes only ids that no enqueue took before. -/
def freshIds (v : Scene) : Happening → Bool
  | .did _ _ (.create (.msgPath id)) (.ok _) => !drawn v.log id
  | _ => true

theorem drawn_append (h : drawn log m) (e : Happening) : drawn (log ++ [e]) m := by
  rw [drawn, List.any_append, Bool.or_eq_true]
  exact .inl h

theorem not_drawn_of_draws (hf : freshIds v e) (hd : draws m e) : drawn v.log m = false := by
  unfold draws at hd
  split at hd
  · rw [decide_eq_true_eq] at hd
    subst hd
    rwa [freshIds, Bool.not_eq_true'] at hf
  · cases hd

theorem Deed.msg_absent (h : Deed role a w w' op r a') (hn : w.files (.msgPath m) = none) (pid : Nat) :
    w'.files (.msgPath m) = none ∨ draws m (.did pid role op r) := by
  have hw : ∀ {p : Path} {fd : Nat} {c : Content} {whole : Bool}, Lands w w' p fd c whole →
      w'.files (.msgPath m) = none := by
    intro p fd c whole hl
    by_cases hp : .msgPath m = p
    · exact hp ▸ hl.absent.mpr (hp ▸ hn)
    · rw [hl.other _ hp, hn]
  cases h with
  | opened p fd _ _ hf =>
    by_cases hp : .msgPath m = p
    · subst hp
      exact .inr (decide_eq_true rfl)
    · rw [hf, update_of_ne hp]
      exact .inl hn
  | wrote _ _ _ _ _ hl | botched _ _ _ _ _ _ hl => exact .inl (hw hl)
  | unlinkedMeta id _ _ hf =>
    rw [hf, update_of_ne Path.noConfusion]
    exact .inl hn
  | unlinkedMsg id _ _ hf =>
    rw [hf]
    by_cases hp : Path.msgPath m = .msgPath id
    · rw [hp, update_self]
      exact .inl rfl
    · rw [update_of_ne hp]
      exact .inl hn
  | quiet _ _ hf | turned _ _ _ hf | readMeta _ _ _ _ _ hf | spawned _ _ _ _ hf | replied _ _ _ hf
  | remarked _ _ _ hf => exact .inl (by rw [hf, hn])

/-- Someone knows the id: there is metadata under it, or a process has read or
listed it or is a task for it. -/
def Known (v : Scene) (m : Text) : Prop := (∃ ino q, v.world.files (.metaPath m) = some ⟨ino, .record q⟩) ∨
  ∃ pid role a, v.Live pid role a ∧ ((∃ q, a.copy = some (m, q)) ∨ m ∈ a.seen ∨ role = .task m)

/-- What fresh ids give: whoever stores a message has its id to itself, nobody
knows the id before the message is stored, and metadata names the message it is
stored under. -/
structure Ids (v : Scene) : Prop where
  bounded : v.Bounded
  owner : ∀ {pid role a m}, v.Live pid role a → a.enq.id? = some m → drawn v.log m = true
  sole : ∀ {pid role a pid' role' a' m}, v.Live pid role a → v.Live pid' role' a' →
    a.enq.id? = some m → a'.enq.id? = some m → pid = pid'
  known : ∀ {m}, Known v m → drawn v.log m = true ∧
    ∀ pid role a, v.Live pid role a → a.enq ≠ .drawn m ∧ a.enq ≠ .saved m
  record : ∀ {m ino q}, v.world.files (.metaPath m) = some ⟨ino, .record q⟩ → q.id = m
  copy : ∀ {pid role a m q}, v.Live pid role a → a.copy = some (m, q) → q.id = m

theorem known_advance (hl : v.Live pid role a) (hk : Known (v.advance pid role a' e w') m)
    (hr : ∀ ino q, w'.files (.metaPath m) = some ⟨ino, .record q⟩ → Known v m)
    (hc : ∀ q, a'.copy = some (m, q) → Known v m) (hs : m ∈ a'.seen → Known v m) : Known v m := by
  rcases hk with ⟨ino, q, hf⟩ | ⟨q, role', b, hb, hwhy⟩
  · exact hr ino q hf
  · rcases hb.of_advance with ⟨-, rfl, rfl⟩ | ⟨-, hb⟩
    · rcases hwhy with ⟨q, hq⟩ | hq | hq
      · exact hc q hq
      · exact hs hq
      · exact .inr ⟨pid, role', a, hl, .inr (.inr hq)⟩
    · exact .inr ⟨q, role', b, hb, hwhy⟩

/-- What an operation must respect for the ids to stay in order: it draws only a
fresh id, and an id becomes known only when its message is stored. -/
theorem Ids.advance (h : Ids v) (hl : v.Live pid role a) (henq : ∀ m, a'.enq.id? = some m →
      a.enq.id? = some m ∨ (drawn v.log m = false ∧ draws m e))
    (hu : ∀ m, a'.enq = .drawn m ∨ a'.enq = .saved m → (a.enq = .drawn m ∨ a.enq = .saved m) ∨ drawn v.log m = false)
    (hk : ∀ m, Known (v.advance pid role a' e w') m → Known v m ∨ (a.enq = .saved m ∧ a'.enq = .stored m))
    (hr : ∀ {m ino q}, w'.files (.metaPath m) = some ⟨ino, .record q⟩ → q.id = m)
    (hco : ∀ {m q}, a'.copy = some (m, q) → q.id = m) : Ids (v.advance pid role a' e w') := by
  constructor
  · exact h.bounded.advance hl
  · intro q role' b m hb hm
    rcases hb.of_advance with ⟨-, rfl, rfl⟩ | ⟨-, hb⟩
    · rcases henq m hm with hm' | ⟨-, hdr⟩
      · exact drawn_append (h.owner hl hm') e
      · show drawn (v.log ++ [e]) m = true
        simp [drawn, hdr]
    · exact drawn_append (h.owner hb hm) e
  · intro q role' b q' role'' b' m hb hb' hm hm'
    rw [View.live_advance] at hb hb'
    split at hb <;> split at hb'
    · rename_i hq hq'
      exact hq.trans hq'.symm
    · rename_i hq hq'
      obtain ⟨rfl, rfl⟩ := hb
      rcases henq m hm with hold | ⟨hf, -⟩
      · exact hq.trans (h.sole hl hb' hold hm')
      · cases (h.owner hb' hm').symm.trans hf
    · rename_i hq hq'
      obtain ⟨rfl, rfl⟩ := hb'
      rcases henq m hm' with hold | ⟨hf, -⟩
      · exact (h.sole hb hl hm hold).trans hq'.symm
      · cases (h.owner hb hm).symm.trans hf
    · exact h.sole hb hb' hm hm'
  · intro m hm
    rcases hk m hm with hold | ⟨hsa, hs⟩
    · obtain ⟨hd, hn⟩ := h.known hold
      refine ⟨drawn_append hd e, fun q role' b hb => ?_⟩
      rcases hb.of_advance with ⟨-, rfl, rfl⟩ | ⟨-, hb⟩
      · have hbe : ¬ (b.enq = .drawn m ∨ b.enq = .saved m) := by
          intro hb
          rcases hu m hb with (ha | ha) | hf
          · exact (hn pid role' a hl).1 ha
          · exact (hn pid role' a hl).2 ha
          · cases hd.symm.trans hf
        exact ⟨fun hb => hbe (.inl hb), fun hb => hbe (.inr hb)⟩
      · exact hn q role' b hb
    · have hid : a.enq.id? = some m := by rw [hsa]; rfl
      refine ⟨drawn_append (h.owner hl hid) e, fun q role' b hb => ?_⟩
      rcases hb.of_advance with ⟨-, rfl, rfl⟩ | ⟨hq, hb⟩
      · rw [hs]
        exact ⟨Enqueuing.noConfusion, Enqueuing.noConfusion⟩
      · refine ⟨fun hb' => hq (h.sole hb hl ?_ hid), fun hb' => hq (h.sole hb hl ?_ hid)⟩
        · rw [hb']
          rfl
        · rw [hb']
          rfl
  · exact hr
  · intro q role' b m c hb hc
    rcases hb.of_advance with ⟨-, rfl, rfl⟩ | ⟨-, hb⟩
    · exact hco hc
    · exact h.copy hb hc

theorem known_frame (hl : v.Live pid role a) (hk : Known (v.advance pid role a' e w') m)
    (hc : a'.copy = a.copy) (hs : a'.seen = a.seen) (hr : ∀ {ino q}, w'.files (.metaPath m) = some ⟨ino, .record q⟩ →
      v.world.files (.metaPath m) = some ⟨ino, .record q⟩) : Known v m := by
  refine known_advance hl hk ?_ ?_ ?_
  · intro ino q hf
    exact .inl ⟨ino, q, hr hf⟩
  · intro q hq
    exact .inr ⟨pid, role, a, hl, .inl ⟨q, hc ▸ hq⟩⟩
  · intro hm
    exact .inr ⟨pid, role, a, hl, .inr (.inl (hs ▸ hm))⟩

variable (h : Ids v)
include h

theorem Ids.frame (hl : v.Live pid role a) (henq : a'.enq = a.enq) (hc : a'.copy = a.copy)
    (hs : a'.seen = a.seen) (hr : ∀ {m ino q}, w'.files (.metaPath m) = some ⟨ino, .record q⟩ →
      v.world.files (.metaPath m) = some ⟨ino, .record q⟩) : Ids (v.advance pid role a' e w') := by
  refine h.advance hl ?_ ?_ ?_ (fun hf => h.record (hr hf)) ?_
  · intro m hm
    exact .inl (henq ▸ hm)
  · intro m hm
    exact .inl (henq ▸ hm)
  · intro m hm
    exact .inl (known_frame hl hm hc hs hr)
  · intro m q hq
    exact h.copy hl (hc ▸ hq)

theorem Ids.wroteMeta {role : Role} {a : Agent} {id : Text} {c : Content} (hl : v.Live pid role a) (hmay : MayStore role a (.metaPath id) c)
    (hla : Lands v.world w' (.metaPath id) fd c true) : Ids (v.advance pid role (a.wrote role (.metaPath id)) e w') := by
  obtain ⟨q, rfl, hmay⟩ := hmay
  by_cases hs : a.enq = .saved id
  · -- the message is stored under the id its process drew
    rw [if_pos hs] at hmay
    rw [Agent.wrote_of_saved hs]
    refine h.advance hl ?_ ?_ ?_ ?_ fun hc => h.copy hl hc
    · intro m hm
      rw [hs]
      exact .inl hm
    · intro m hm
      rcases hm with hm | hm <;> cases hm
    · intro m hm
      by_cases hid : m = id
      · subst hid
        exact .inr ⟨hs, rfl⟩
      · refine .inl (known_frame hl hm rfl rfl fun hf => ?_)
        rcases hla.metadata hf with hold | ⟨-, hp, -⟩
        · exact hold
        · exact absurd (Path.metaPath.inj hp).symm hid
    · intro m ino q' hf
      rcases hla.metadata hf with hold | ⟨-, hp, hq⟩
      · exact h.record hold
      · obtain rfl := Path.metaPath.inj hp
        obtain rfl := Content.record.inj hq
        exact hmay.1
  · -- the metadata is rewritten from a copy
    rw [if_neg hs] at hmay
    obtain ⟨⟨q₀, hco, hid, -⟩, -⟩ := hmay
    rw [Agent.wrote_of_not_saved hs]
    refine h.advance hl (fun m hm => .inl hm) (fun m hm => .inl hm) ?_ ?_ fun hc => h.copy hl hc
    · intro m hm
      refine .inl (known_advance hl hm ?_ ?_ ?_)
      · intro ino q' hf
        rcases hla.metadata hf with hold | ⟨-, hp, -⟩
        · exact .inl ⟨ino, q', hold⟩
        · obtain rfl := Path.metaPath.inj hp
          exact .inr ⟨pid, role, a, hl, .inl ⟨q₀, hco⟩⟩
      · intro q' hq'
        exact .inr ⟨pid, role, a, hl, .inl ⟨q', hq'⟩⟩
      · intro hm'
        exact .inr ⟨pid, role, a, hl, .inr (.inl hm')⟩
    · intro m ino q' hf
      rcases hla.metadata hf with hold | ⟨-, hp, hq⟩
      · exact h.record hold
      · obtain rfl := Path.metaPath.inj hp
        obtain rfl := Content.record.inj hq
        exact hid.trans (h.copy hl hco)

theorem Ids.readMeta {role : Role} {a : Agent} {id : Text} {ino : Nat} {q : QueuedMessage} (hl : v.Live pid role a)
    (hfi : v.world.files (.metaPath id) = some ⟨ino, .record q⟩) (hfil : w'.files = v.world.files) :
    Ids (v.advance pid role (a.reads role id q) e w') := by
  have hid : q.id = id := h.record hfi
  refine h.advance hl (fun m hm => .inl hm) (fun m hm => .inl hm) ?_ (fun hf => h.record (hfil ▸ hf)) ?_
  · intro m hm
    refine .inl (known_advance hl hm ?_ ?_ ?_)
    · intro ino' q' hf
      exact .inl ⟨ino', q', hfil ▸ hf⟩
    · intro q' hq'
      obtain ⟨rfl, rfl⟩ := Prod.mk.inj (some.inj hq')
      exact .inl ⟨ino, _, hfi⟩
    · intro hm'
      have hold : m ∈ a.seen → Known v m := fun hm'' =>
        .inr ⟨pid, role, a, hl, .inr (.inl hm'')⟩
      have hm'' : m ∈ if role.picks q.metadata.status then q.id :: a.seen else a.seen := hm'
      split at hm''
      · rcases List.mem_cons.mp hm'' with rfl | hm''
        · exact .inl ⟨ino, q, by rw [hid]; exact hfi⟩
        · exact hold hm''
      · exact hold hm''
  · intro m q' hq'
    obtain ⟨rfl, rfl⟩ := Prod.mk.inj (some.inj hq')
    exact hid

theorem Ids.deed (hl : v.Live pid role a) (hde : Deed role a v.world w' op r a')
    (hfr : freshIds v (.did pid role op r)) : Ids (v.did pid role op r a' w') := by
  have hr : ∀ {m ino q}, w'.files (.metaPath m) = some ⟨ino, .record q⟩ →
      (∀ fd, op ≠ .write (.metaPath m) fd (.record q)) →
      v.world.files (.metaPath m) = some ⟨ino, .record q⟩ := by
    intro m ino q hf hop
    rcases hde.metadata hf with hold | ⟨fd, hw⟩
    · exact hold
    · exact absurd hw (hop fd)
  cases hde with
  | quiet hn _ hfi | turned stage _ _ hfi | spawned _ _ _ _ hfi | replied _ _ _ hfi | remarked _ _ _ hfi =>
    exact h.frame hl rfl rfl rfl fun hf => hfi ▸ hf
  | readMeta id q ino _ hfil hfi => exact h.readMeta hl hfil hfi
  | opened p fd =>
    have hs : ∀ {m ino q}, w'.files (.metaPath m) = some ⟨ino, .record q⟩ →
        v.world.files (.metaPath m) = some ⟨ino, .record q⟩ :=
      fun hf => hr hf fun _ => Op.noConfusion
    cases p with
    | metaPath id => exact h.frame hl rfl rfl rfl hs
    | msgPath id =>
      have hnew : drawn v.log id = false := by rwa [freshIds, Bool.not_eq_true'] at hfr
      refine h.advance hl ?_ ?_ ?_ (fun hf => h.record (hs hf)) fun hc => h.copy hl hc
      · intro m hm
        obtain rfl := some.inj hm
        exact .inr ⟨hnew, decide_eq_true rfl⟩
      · intro m hm
        rcases hm with hm | hm
        · obtain rfl := Enqueuing.drawn.inj hm
          exact .inr hnew
        · cases hm
      · intro m hm
        exact .inl (known_frame hl hm rfl rfl hs)
  | wrote p fd c _ hmay hla =>
    cases p with
    | metaPath id => exact h.wroteMeta hl hmay hla
    | msgPath id =>
      have hd : a.enq = .drawn id := hmay.1
      have hs : ∀ {m ino q}, w'.files (.metaPath m) = some ⟨ino, .record q⟩ →
          v.world.files (.metaPath m) = some ⟨ino, .record q⟩ :=
        fun hf => hr hf fun _ hop => by cases hop
      refine h.advance hl ?_ ?_ ?_ (fun hf => h.record (hs hf)) fun hc => h.copy hl hc
      · intro m hm
        rw [hd]
        exact .inl hm
      · intro m hm
        rcases hm with hm | hm
        · cases hm
        · obtain rfl := Enqueuing.saved.inj hm
          exact .inl (.inl hd)
      · intro m hm
        exact .inl (known_frame hl hm rfl rfl hs)
  | botched p fd c err _ hmay hla =>
    refine h.frame hl rfl rfl rfl fun hf => ?_
    rcases hla.metadata hf with hold | ⟨hwh, -⟩
    · exact hold
    · cases hwh
  | unlinkedMeta id | unlinkedMsg id => exact h.frame hl rfl rfl rfl fun hf => hr hf fun _ => Op.noConfusion

theorem Ids.launch (hr : ∀ m, role = .task m → Known v m) : Ids (v.launch (protocol cfg) role) := by
  have hba : ∀ {pid role' b}, (v.launch (protocol cfg) role).Live pid role' b →
      v.Live pid role' b ∨ (role' = role ∧ b = {}) := by
    intro pid role' b hb
    rcases hb.of_launch with hb | ⟨-, hb⟩
    · exact .inl hb
    · exact .inr hb
  constructor
  · exact h.bounded.launch
  · intro pid role' b m hb hm
    rcases hba hb with hb | ⟨-, rfl⟩
    · exact drawn_append (h.owner hb hm) _
    · cases hm
  · intro pid role' b pid' role'' b' m hb hb' hm hm'
    rcases hba hb with hb | ⟨-, rfl⟩
    · rcases hba hb' with hb' | ⟨-, rfl⟩
      · exact h.sole hb hb' hm hm'
      · cases hm'
    · cases hm
  · intro m hm
    have hold : Known v m := by
      rcases hm with hf | ⟨pid, role', b, hb, hwhy⟩
      · exact .inl hf
      · rcases hba hb with hb | ⟨rfl, rfl⟩
        · exact .inr ⟨pid, role', b, hb, hwhy⟩
        · rcases hwhy with ⟨q, hq⟩ | hs | ht
          · cases hq
          · cases hs
          · exact hr m ht
    obtain ⟨hd, hn⟩ := h.known hold
    refine ⟨drawn_append hd _, fun pid role' b hb => ?_⟩
    rcases hba hb with hb | ⟨-, rfl⟩
    · exact hn pid role' b hb
    · exact ⟨Enqueuing.noConfusion, Enqueuing.noConfusion⟩
  · exact h.record
  · intro pid role' b m q hb hq
    rcases hba hb with hb | ⟨-, rfl⟩
    · exact h.copy hb hq
    · cases hq

theorem Ids.fewer (hn : v'.next = v.next) (hfi : v'.world.files = v.world.files) (hlog : v'.log = v.log ++ [e])
    (hba : ∀ {q role b}, v'.Live q role b → v.Live q role b) : Ids v' := by
  have hd : ∀ {m}, drawn v.log m = true → drawn v'.log m = true := by
    intro m hm
    rw [hlog]
    exact drawn_append hm e
  constructor
  · exact h.bounded.fewer hn hba
  · exact fun hb hm => hd (h.owner (hba hb) hm)
  · exact fun hb hb' hm hm' => h.sole (hba hb) (hba hb') hm hm'
  · intro m hm
    have hold : Known v m := by
      rcases hm with ⟨ino, q, hf⟩ | ⟨q, role, b, hb, hwhy⟩
      · exact .inl ⟨ino, q, hfi ▸ hf⟩
      · exact .inr ⟨q, role, b, hba hb, hwhy⟩
    exact ⟨hd (h.known hold).1, fun q role b hb => (h.known hold).2 q role b (hba hb)⟩
  · exact fun hf => h.record (hfi ▸ hf)
  · exact fun hb hq => h.copy (hba hb) hq

theorem Ids.retire (pid : Nat) : Ids (v.retire pid e) :=
  h.fewer rfl rfl rfl fun hb => hb.of_retire

theorem Ids.restart {lost : Nat → Role → Bool} (hf : w'.files = v.world.files) : Ids (v.restart lost w') :=
  h.fewer rfl hf rfl fun hb => hb.of_restart

omit h

/-- **Ids stay in order** along every step, as long as drawn ids are fresh. -/
theorem Ids.step (h : Ids v) (hfr : freshIds v e) (hst : Step cfg v e v') : Ids v' := by
  cases hst with
  | began role hr => exact h.launch fun m hm => absurd hm (hr m)
  | did pid role a op r a' w' hl hd => exact h.deed hl hd hfr
  | spawned pid a id w' hl hh hs hf =>
    refine (h.deed hl (.spawned id hh rfl hs hf) hfr).launch fun m hm => ?_
    obtain rfl := Role.task.inj hm
    exact .inr ⟨pid, .scan, a, View.live_self, .inr (.inl hs)⟩
  | ended pid role a x => exact h.retire pid
  | crashed lost w' hf => exact h.restart hf

theorem ids_plant : Ids (plant cfg).view := by
  constructor
  · exact fun _ _ _ => of_live_plant
  · exact of_live_plant
  · exact of_live_plant
  · intro m hm
    rcases hm with ⟨ino, q, hf⟩ | ⟨pid, role, a, h, -⟩
    · cases hf
    · exact of_live_plant h
  · intro m ino q hf
    cases hf
  · exact of_live_plant

/-! ## One task for one message -/

section

variable {role : Role} {a a' b b' : Agent} {t t' : Nat}

variable (hs : ∀ {t b t' b' m}, v.Live t (.task m) b → v.Live t' (.task m) b' → t = t')
include hs

theorem single_advance (hl : v.Live pid role a) (hb : (v.advance pid role a' e w').Live t (.task m) b)
    (hb' : (v.advance pid role a' e w').Live t' (.task m) b') : t = t' := by
  obtain ⟨b₀, hb₀⟩ := View.live_back hl hb
  obtain ⟨b₀', hb₀'⟩ := View.live_back hl hb'
  exact hs hb₀ hb₀'

theorem single_launch (hn : ∀ m, role = .task m → ∀ t a, ¬ v.Live t (.task m) a)
    (hb : (v.launch (protocol cfg) role).Live t (.task m) b)
    (hb' : (v.launch (protocol cfg) role).Live t' (.task m) b') : t = t' := by
  rcases hb.of_launch with hb | ⟨ht, hm, -⟩ <;>
    rcases hb'.of_launch with hb' | ⟨ht', hm', -⟩
  · exact hs hb hb'
  · exact absurd hb (hn m hm'.symm t b)
  · exact absurd hb' (hn m hm.symm t' b')
  · exact ht.trans ht'.symm

end

/-! ## A small relay

A configuration and the label sequences of whole operations, for runs that are
evaluated. -/

def smallRelay : Config where
  spoolDir := "/var/spool/serverwall"
  scheduler :=
    { intervals := [300 * TimeDelta.second]
      maxAge := 432000 * TimeDelta.second
      maxAttempts := 5 }
  bounceGen := .new none true
  decoder := .ascii
  deliveryThreads := 4

def noon : Instant := ⟨1700000000000000000, by decide⟩

def firstId : Text := "CFE568000007"

def letter : Envelope := ⟨"alice@example.org", ["bob@example.net"]⟩

def acts (pid : Nat) (outs : List Outcome) : Schedule := outs.map (.act pid)

def receiving (pid : Nat) : Schedule := .launch (.receive letter [72, 105]) ::
    (acts pid [.clock noon, .random 7, .clock noon, .ok, .ok, .ok, .ok, .ok, .ok] ++ [.finish pid])

def scanning (pid : Nat) : Schedule := .launch .scan ::
    (acts pid [.listing [.ok (.metaPath firstId), .ok (.msgPath firstId)], .ok, .clock noon, .ok, .ok]
      ++ [.finish pid])

def loading (pid : Nat) : Schedule := acts pid [.ok, .ok]

def marking (pid : Nat) : Schedule := acts pid [.ok, .ok, .ok]

def handing (pid : Nat) : Schedule := acts pid [.hosts (.ok [⟨"mx.example.net", 10, [.v4 192 0 2 1]⟩]), .ok]

def finishing (pid : Nat) : Schedule :=
  acts pid [.sent (.success "250 OK"), .ok, .ok, .ok, .ok, .ok, .ok, .ok] ++ [.finish pid]

def deferring (pid : Nat) : Schedule :=
  acts pid [.sent (.tempFail "451 later"), .ok, .clock noon, .clock noon, .ok, .ok, .ok, .ok, .ok] ++ [.finish pid]

/-- **The code refines the protocol**: where its programs get, in any order, with any answers and crashes, the
protocol gets. -/
theorem code_refines_protocol (hrun : runRelay cfg labels = some s) :
    Reach (relay cfg) (protocol cfg) (fun _ _ => true) (plant cfg).view s.view :=
  System.run_reach code_follows labels (plant cfg) (fun _ _ h => by cases h) .init hrun (System.along_true labels _ hrun)

theorem receiving_refines : ∃ s, runRelay smallRelay (receiving 0) = some s ∧
    Reach (relay smallRelay) (protocol smallRelay) (fun _ _ => true) (plant smallRelay).view s.view := by
  obtain ⟨s, hs⟩ := Option.isSome_iff_exists.mp (by decide +kernel : (runRelay smallRelay (receiving 0)).isSome)
  exact ⟨s, hs, code_refines_protocol hs⟩

end ServerWall.Relay
