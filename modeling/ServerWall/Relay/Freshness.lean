import ServerWall.Relay.Conduct.Docket
import ServerWall.Relay.Writers

/-!
# Ids are not checked against the spool

An enqueue must leave the files of other messages alone (`sparesQueued`) and not return an id in use
(`NoReuse`). An id is 32 bits of the clock and 16 random bits, and nobody asks whether its files are there
(`collision_overwrites`, `fresh_of_unusedIds`).
-/

namespace ServerWall.Relay

open List Bool Option Case Agent

/-! ## The property -/

/-- Whether writing the file is part of an enqueue, for a process with this record:
a `.msg` file always is, metadata once the `.msg` file is complete. -/
def Agent.stores (a : Agent) : Path → Bool
  | .msgPath _ => true
  | .metaPath id => a.enq = .saved id

/-- An enqueue opens only files that are not there, and writes only into what it
opened. -/
def sparesQueued (v : Scene) : Happening → Bool
  | .did pid _ (.create p) (.ok _) =>
    (v.parties pid).all fun party => !party.agent.stores p || (v.world.files p).isNone
  | .did pid _ (.write p fd _) _ =>
    (v.parties pid).all fun party => !party.agent.stores p ||
      (v.world.files p).all fun f => f.ino = fd && f.content = .blank
  | _ => true

def Role.enqueues : Role → Bool
  | .receive _ _ => true
  | .task _ => true
  | _ => false

def returnsId (id : Text) (pid : Nat) : Happening → Bool
  | .did q role (.trace (.enqueued m _)) _ => role.enqueues && (q = pid && m = id)
  | _ => false

def takesId (id : Text) (pid : Nat) : Happening → Bool
  | .did q _ (.create (.msgPath m)) (.ok _) => q = pid && m = id
  | _ => false

/-- Of two enqueues that return one id, one took it after the message of the other was
removed. -/
def NoReuse (log : List Happening) : Prop :=
  ∀ id pid pid', pid ≠ pid' → log.any (returnsId id pid) = true → log.any (returnsId id pid') = true →
    ∃ before first during second after, log = before ++ first :: (during ++ second :: after) ∧
      ((takesId id pid first = true ∧ takesId id pid' second = true) ∨
        (takesId id pid' first = true ∧ takesId id pid second = true)) ∧
      during.any (unlinks (.msgPath id)) = true

/-! ## The condition -/

/-- An enqueue takes only an id that has no file and that no running process has stored
or read something under. -/
def unusedIds (v : Scene) : Happening → Bool
  | .did _ _ (.create (.msgPath id)) (.ok _) =>
    (v.world.files (.msgPath id)).isNone && (v.world.files (.metaPath id)).isNone && !v.exists? fun _ party =>
        party.agent.enq.id? = some id || party.agent.copy.any fun c => c.1 = id
  | _ => true

/-! ## Removals between draws -/

/-- A taken id has its `.msg` file until that is unlinked. -/
def Present (log : List Happening) (w : World) : Prop :=
  ∀ id pid before first during, log = before ++ first :: during → takesId id pid first = true →
    during.any (unlinks (.msgPath id)) = true ∨ (w.files (.msgPath id)).isSome

/-- Between two takings of an id its `.msg` file is unlinked. -/
def Separated (log : List Happening) : Prop := ∀ id pid pid' before first during second after,
    log = before ++ first :: (during ++ second :: after) → takesId id pid first = true →
    takesId id pid' second = true → during.any (unlinks (.msgPath id)) = true

variable {cfg : Config} {v : Scene} {e : Happening}

theorem Separated.append (h : Separated log)
    (hnew : ∀ id pid pid' before first during, log = before ++ first :: during →
      takesId id pid first → takesId id pid' e → during.any (unlinks (.msgPath id))) : Separated (log ++ [e]) := by
  intro id pid pid' before first during second after hlog hf hs
  rcases append_eq_cut hlog with ⟨hnil, -, -⟩ | ⟨rest, hr, hlog'⟩
  · cases during <;> cases hnil
  · rcases append_eq_cut hr.symm with ⟨-, rfl, rfl⟩ | ⟨after', -, rfl⟩
    · exact hnew id pid pid' before first _ hlog' hf hs
    · exact h id pid pid' before first during second after' hlog' hf hs

theorem Present.append (h : Present log w) (ht : ∀ id pid, takesId id pid e → (w'.files (.msgPath id)).isSome)
    (hk : ∀ id, (w.files (.msgPath id)).isSome → (w'.files (.msgPath id)).isSome ∨ unlinks (.msgPath id) e) :
    Present (log ++ [e]) w' := by
  intro id pid before first during hlog hf
  rcases append_eq_cut hlog with ⟨-, -, rfl⟩ | ⟨during', rfl, hlog'⟩
  · exact .inr (ht id pid hf)
  · rw [any_append, or_eq_true]
    rcases h id pid before first during' hlog' hf with hg | hs
    · exact .inl (.inl hg)
    · rcases hk id hs with hs | hu
      · exact .inr hs
      · exact .inl (.inr (by simp [hu]))

variable {id : Text}

theorem takes_of_draft (log : List Happening) : (docketOf pid log).draft.id = some id → log.any (takesId id pid) := by
  induction log using List.reverseRecOn with
  | nil => nofun
  | append_singleton log e ih =>
    intro h
    rw [any_append, or_eq_true]
    cases e with
    | began q role => exact .inl (ih (by rwa [docketOf_began] at h))
    | ended q role x => exact .inl (ih (by rwa [docketOf_ended] at h))
    | crashed lost => exact .inl (ih (by rwa [docketOf_crashed] at h))
    | did q role op r =>
      by_cases hq : q = pid
      · subst hq
        rw [docketOf_self] at h
        have hid : (taken op r).or (docketOf q log).draft.id = some id := by rwa [← after_id]
        rcases or_eq_some_iff.mp hid with ht | ⟨-, hid⟩
        · unfold taken at ht
          split at ht
          · obtain rfl := some.inj ht
            exact .inr (by simp [takesId])
          · cases ht
        · exact .inl (ih hid)
      · rw [docketOf_other hq] at h
        exact .inl (ih h)

/-! ## What an enqueue finds -/

/-- What a process has open is its own: the `.msg` file of the id it took, or metadata
that it stores or has read. -/
def Agent.Holds (a : Agent) : Path → Prop
  | .msgPath m => a.enq = .drawn m
  | .metaPath m => a.enq = .saved m ∨ ∃ q, a.copy = some (m, q)

/-- The metadata of a message that the process `t` is storing: nobody has read any, and
there is no file until `t` opens it. -/
structure Clear (v : Scene) (t : Nat) (m : Text) : Prop where
  unread : ∀ {q role b}, v.Live q role b → ∀ c, b.copy ≠ some (m, c)
  unopened : (docketOf t v.log).draft.opened = false → v.world.files (.metaPath m) = none
  blank : ∀ ino q, v.world.files (.metaPath m) ≠ some ⟨ino, .record q⟩

structure Fresh (v : Scene) : Prop where
  bounded : v.Bounded
  sole : ∀ {pid role a pid' role' a' m}, v.Live pid role a → v.Live pid' role' a' →
    a.enq.id? = some m → a'.enq.id? = some m → pid = pid'
  storer : ∀ {pid role a m}, v.Live pid role a → a.enq.id? = some m → role.enqueues = true
  held : ∀ {pid role a p fd}, v.Live pid role a → a.handle = some (p, fd) → a.Holds p
  linked : ∀ {pid role a m}, v.Live pid role a → a.enq.id? = some m → (docketOf pid v.log).draft.id = some m
  clear : ∀ {pid role a m}, v.Live pid role a → a.enq = .drawn m ∨ a.enq = .saved m → Clear v pid m
  /-- What is open of a message being stored is blank, if it is still there. -/
  own : ∀ {pid role a p fd}, v.Live pid role a → a.enq = .drawn p.id ∨ a.enq = .saved p.id →
    a.handle = some (p, fd) → v.world.files p = none ∨ v.world.files p = some ⟨fd, .blank⟩

section

variable {pid : Nat} {role : Role} {a a' : Agent} {w' : World} {op : Op} {r : Res op}

theorem taken_eq_some (h : taken op r = some id) : ∃ fd, (⟨op, r⟩ : Σ op, Res op) = ⟨.create (.msgPath id), .ok fd⟩ := by
  unfold taken at h
  split at h
  · obtain rfl := some.inj h
    exact ⟨_, rfl⟩
  · cases h

variable (h : Deed role a w w' op r a')
include h

theorem Deed.enq_id : a'.enq.id? = (taken op r).or a.enq.id? := by
  cases h with
  | opened p fd => cases p <;> rfl
  | wrote p fd c _ hmay =>
    cases p with
    | msgPath id =>
      have henq : a.enq = .drawn id := hmay.1
      rw [henq]
      rfl
    | metaPath id =>
      by_cases hs : a.enq = .saved id
      · rw [wrote_of_saved hs, hs]
        rfl
      · rw [wrote_of_not_saved hs]
        rfl
  | quiet hn =>
    cases ht : taken op r with
    | none => rfl
    | some id =>
      obtain ⟨fd, heq⟩ := taken_eq_some ht
      cases heq
      cases hn
  | turned stage htu => cases htu <;> rfl
  | _ => rfl

theorem Deed.id_cases (hm : a'.enq.id? = some m) : taken op r = some m ∨ taken op r = none ∧ a.enq.id? = some m :=
  or_eq_some_iff.mp (h.enq_id.symm.trans hm)

theorem Deed.storer (ht : taken op r = some id) : role.enqueues := by
  obtain ⟨fd, heq⟩ := taken_eq_some ht
  cases heq
  cases h with
  | quiet hn => cases hn
  | turned stage htu => cases htu
  | opened _ _ _ hmay =>
    rcases hmay.2 with hr | ⟨⟨m, rfl⟩, -⟩
    · cases role <;> first | rfl | cases hr
    · rfl

theorem Deed.holds (hh : a'.handle = some (p, fd)) : a'.Holds p := by
  have hs : ∀ {b : Agent}, b.handle = none → b.handle ≠ some (p, fd) := by
    intro b hb h
    cases hb.symm.trans h
  cases h with
  | opened p' fd' _ hmay =>
    rw [opens_handle] at hh
    cases hh
    cases p with
    | msgPath id => rfl
    | metaPath id =>
      rcases hmay with hsa | ⟨hc, -⟩
      · exact .inl hsa
      · exact .inr hc
  | wrote p' fd' c => exact absurd hh (hs (wrote_handle p'))
  | botched p' fd' c err => exact absurd hh (hs rfl)
  | quiet _ hn | turned _ _ hn | readMeta _ _ _ hn | unlinkedMeta _ hn | unlinkedMsg _ hn | spawned _ hn
  | replied _ hn | remarked _ hn => exact absurd hh (hs hn)

omit h

theorem unused_of_taken (hbo : v.Bounded) (hco : unusedIds v (.did pid role (.create (.msgPath id)) (.ok fd))) :
    v.world.files (.msgPath id) = none ∧ v.world.files (.metaPath id) = none ∧
      ∀ {q role' b}, v.Live q role' b → b.enq.id? ≠ some id ∧ ∀ c, b.copy ≠ some (id, c) := by
  simp only [unusedIds, and_eq_true, isNone_iff_eq_none, not_eq_true', View.exists?_eq_false hbo] at hco
  obtain ⟨⟨hmsg, hm⟩, hn⟩ := hco
  refine ⟨hmsg, hm, fun {q role' b} hb => ?_⟩
  have hf := hn q role' b hb
  rw [or_eq_false_iff, decide_eq_false_iff_not] at hf
  refine ⟨hf.1, fun c hc => ?_⟩
  rw [hc] at hf
  simp at hf

theorem absent_of_takes (hb : v.Bounded) {q : Nat} (hc : unusedIds v e) (ht : takesId id q e) :
    v.world.files (.msgPath id) = none := by
  unfold takesId at ht
  split at ht
  · rw [and_eq_true, decide_eq_true_eq, decide_eq_true_eq] at ht
    obtain ⟨rfl, rfl⟩ := ht
    exact (unused_of_taken hb hc).1
  · cases ht

theorem Enqueuing.id_of_storing {enq : Enqueuing} (hm : enq = .drawn m ∨ enq = .saved m) : enq.id? = some m := by
  rcases hm with rfl | rfl <;> rfl

theorem Deed.own (hdeed : Deed role a w w' op r a')
    (hh : a'.handle = some (p, fd)) : w'.files p = none ∨ w'.files p = some ⟨fd, .blank⟩ := by
  cases hdeed.impact p with
  | spared _ _ ha => exact absurd hh (ha fd)
  | opened fd' _ _ hf =>
    rw [opens_handle] at hh
    obtain rfl := (Prod.mk.inj (some.inj hh)).2
    exact .inr hf
  | wrote =>
    rw [wrote_handle] at hh
    cases hh
  | botched => cases hh
  | unlinked hn => cases hn.symm.trans hh

variable (hlive : v.Live pid role a) (hdeed : Deed role a v.world w' op r a')
include hlive hdeed

theorem storer_deed (hs : ∀ {q role' b m}, v.Live q role' b → b.enq.id? = some m → role'.enqueues)
    (hb : (v.did pid role op r a' w').Live q role' b) (hm : b.enq.id? = some m) : role'.enqueues := by
  rcases hb.of_advance with ⟨rfl, rfl, rfl⟩ | ⟨hq, hb₀⟩
  · rcases hdeed.id_cases hm with ht | ⟨-, hm⟩
    · exact hdeed.storer ht
    · exact hs hlive hm
  · exact hs hb₀ hm

theorem linked_deed (hl : ∀ {q role' b m}, v.Live q role' b → b.enq.id? = some m → (docketOf q v.log).draft.id = some m)
    (hb : (v.did pid role op r a' w').Live q role' b)
    (hm : b.enq.id? = some m) : (docketOf q (v.log ++ [.did pid role op r])).draft.id = some m := by
  rcases hb.of_advance with ⟨rfl, rfl, rfl⟩ | ⟨hq, hb₀⟩
  · rw [docketOf_self]
    show ((docketOf q v.log).toCase.after op r).draft.id = some m
    rw [after_id, or_eq_some_iff]
    exact (hdeed.id_cases hm).imp_right fun hold => ⟨hold.1, hl hlive hold.2⟩
  · rw [docketOf_other (Ne.symm hq)]
    exact hl hb₀ hm

omit hdeed in
theorem Fresh.holder (h : Fresh v) (hc : Clear v t m)
    (ha : ∀ {q role b}, v.Live q role b → b.enq.id? = some m → q = t) (hp : p.id = m)
    (hha : a.handle = some (p, fd)) : pid = t := by
  have hh := h.held hlive hha
  cases p with
  | msgPath id =>
    obtain rfl : id = m := hp
    exact ha hlive (by rw [show a.enq = .drawn id from hh]; rfl)
  | metaPath id =>
    obtain rfl : id = m := hp
    rcases hh with hs | ⟨q, hco⟩
    · exact ha hlive (by rw [hs]; rfl)
    · exact absurd hco (hc.unread hlive q)

omit hdeed in
theorem Fresh.opener (hc : Clear v t m)
    (ha : ∀ {q role b}, v.Live q role b → b.enq.id? = some m → q = t) (hp : p = .metaPath m)
    (hmay : MayOpen role a p) : pid = t ∧ a.enq = .saved m := by
  subst hp
  rcases hmay with hs | ⟨⟨q, hco⟩, -⟩
  · exact ⟨ha hlive (by rw [hs]; rfl), hs⟩
  · exact absurd hco (hc.unread hlive q)

theorem Clear.deed (h : Fresh v) (hcl : Clear v t m) (ha : ∀ {q role b}, v.Live q role b → b.enq.id? = some m → q = t)
    (hu : pid = t → a'.enq ≠ .stored m) : Clear (v.did pid role op r a' w') t m := by
  constructor
  · intro q role' b hb c hc
    rcases hb.of_advance with ⟨rfl, rfl, rfl⟩ | ⟨hq, hb₀⟩
    · rcases hdeed.copied hc with hold | ⟨ino, hf⟩
      · exact hcl.unread hlive c hold
      · exact hcl.blank ino c hf
    · exact hcl.unread hb₀ c (hc)
  · intro ho
    show w'.files (.metaPath m) = none
    have hbe : (docketOf t v.log).draft.opened = false := by
      by_cases ht : pid = t
      · subst ht
        have ho' : ((docketOf pid v.log).track op r).draft.opened = false := by
          have hse := ho
          rwa [show View.log (v.advance pid role a' _ w') = v.log ++ [.did pid role op r] from rfl,
            docketOf_self] at hse
        exact after_opened ho'
      · have hot := ho
        rwa [show View.log (v.advance pid role a' _ w') = v.log ++ [.did pid role op r] from rfl,
          docketOf_other ht] at hot
    have hn := hcl.unopened hbe
    cases hdeed.impact (.metaPath m) with
    | spared hf => rw [hf, hn]
    | opened fd _ hmay =>
      obtain ⟨rfl, hs⟩ := Fresh.opener hlive hcl ha rfl hmay
      have hid := h.linked hlive (m := m) (by rw [hs]; rfl)
      have ho' : ((docketOf pid v.log).toCase.opens (.metaPath m)).draft.opened = false := by
        have hse := ho
        rw [show View.log (v.advance pid role _ _ w') = v.log ++ [.did pid role _ _] from rfl, docketOf_self] at hse
        exact hse
      rw [opens_draft hid] at ho'
      cases ho'
    | wrote fd c _ _ hl | botched fd c err _ _ hl => exact hl.absent.mpr hn
    | unlinked _ _ _ hf => exact hf
  · intro ino q hf
    rcases hdeed.metadata hf with hold | ⟨fd, rfl⟩
    · exact hcl.blank ino q hold
    · cases hdeed with
      | quiet hno => cases hno
      | turned stage htu => cases htu
      | wrote _ _ _ hh hmay =>
        obtain rfl := h.holder hlive hcl ha rfl hh
        by_cases hs : a.enq = .saved m
        · exact hu rfl (by rw [wrote_of_saved hs])
        · obtain ⟨q', -, hmay⟩ := hmay
          rw [if_neg hs] at hmay
          obtain ⟨⟨q₀, hco, -⟩, -⟩ := hmay
          exact hcl.unread hlive q₀ hco
      | botched _ _ _ _ _ _ hl =>
        rcases hl.metadata hf with hold | ⟨hw, -⟩
        · exact hcl.blank ino q hold
        · cases hw

theorem Fresh.storing_back (h : Fresh v) (hc : unusedIds v (.did pid role op r))
    (hb : (v.did pid role op r a' w').Live q role' b)
    (hm : b.enq.id? = some m) : (∃ b₀, v.Live q role' b₀ ∧ b₀.enq.id? = some m) ∨
      (q = pid ∧ ∀ {q' role'' b'}, v.Live q' role'' b' → b'.enq.id? ≠ some m) := by
  rcases hb.of_advance with ⟨rfl, rfl, rfl⟩ | ⟨hq, hb₀⟩
  · rcases hdeed.id_cases hm with ht | ⟨-, hm⟩
    · obtain ⟨fd, heq⟩ := taken_eq_some ht
      cases heq
      exact .inr ⟨rfl, fun hb' => ((unused_of_taken h.bounded hc).2.2 hb').1⟩
    · exact .inl ⟨a, hlive, hm⟩
  · exact .inl ⟨b, hb₀, hm⟩

theorem Fresh.sole_deed (h : Fresh v) (hc : unusedIds v (.did pid role op r))
    (hb : (v.did pid role op r a' w').Live q role' b) (hb' : (v.did pid role op r a' w').Live q' role'' b')
    (hm : b.enq.id? = some m) (hm' : b'.enq.id? = some m) : q = q' := by
  rcases h.storing_back hlive hdeed hc hb hm with ⟨b₀, hb₀, hm₀⟩ | ⟨rfl, hn⟩
  · rcases h.storing_back hlive hdeed hc hb' hm' with ⟨b₀', hb₀', hm₀'⟩ | ⟨rfl, hn⟩
    · exact h.sole hb₀ hb₀' hm₀ hm₀'
    · exact absurd hm₀ (hn hb₀)
  · rcases h.storing_back hlive hdeed hc hb' hm' with ⟨b₀', hb₀', hm₀'⟩ | ⟨rfl, -⟩
    · exact absurd hm₀' (hn hb₀')
    · rfl

theorem Fresh.held_deed (h : Fresh v) (hb : (v.did pid role op r a' w').Live q role' b)
    (hh : b.handle = some (p, fd)) : b.Holds p := by
  rcases hb.of_advance with ⟨rfl, rfl, rfl⟩ | ⟨hq, hb₀⟩
  · exact hdeed.holds hh
  · exact h.held hb₀ hh

theorem Fresh.clear_deed (h : Fresh v) (hco : unusedIds v (.did pid role op r))
    (hb : (v.did pid role op r a' w').Live t role' b) (hm : b.enq = .drawn m ∨ b.enq = .saved m) :
    Clear (v.did pid role op r a' w') t m := by
  have hu : pid = t → a'.enq ≠ .stored m := by
    rintro rfl hs
    obtain ⟨-, rfl⟩ := hb.unique View.live_self
    rw [hs] at hm
    rcases hm with hm | hm <;> cases hm
  -- whoever was storing the message before the operation
  have hold : ∀ {b₀ : Agent}, v.Live t role' b₀ → (b₀.enq = .drawn m ∨ b₀.enq = .saved m) →
      Clear (v.did pid role op r a' w') t m := fun hb₀ hm₀ =>
    (h.clear hb₀ hm₀).deed hlive hdeed h (fun hq hqm => h.sole hq hb₀ hqm (Enqueuing.id_of_storing hm₀)) hu
  rcases hb.of_advance with ⟨rfl, rfl, rfl⟩ | ⟨-, hb₀⟩
  · rcases hdeed.storing hm with hm₀ | ⟨fd, heq⟩
    · exact hold hlive hm₀
    · cases heq
      obtain ⟨-, hme, hn⟩ := unused_of_taken h.bounded hco
      have hc : Clear v t m := by
        refine ⟨fun hq => (hn hq).2, fun _ => hme, fun ino q hf => ?_⟩
        cases hme.symm.trans hf
      exact hc.deed hlive hdeed h (fun hq hqm => absurd hqm (hn hq).1) hu
  · exact hold hb₀ hm

theorem Fresh.own_deed (h : Fresh v) (hco : unusedIds v (.did pid role op r))
    (hb : (v.did pid role op r a' w').Live t role' b)
    (hm : b.enq = .drawn p.id ∨ b.enq = .saved p.id) (hh : b.handle = some (p, fd)) :
    w'.files p = none ∨ w'.files p = some ⟨fd, .blank⟩ := by
  rcases hb.of_advance with ⟨rfl, rfl, rfl⟩ | ⟨ht, hb₀⟩
  · exact hdeed.own hh
  · have hc := h.clear hb₀ hm
    have hid : b.enq.id? = some p.id := Enqueuing.id_of_storing hm
    have ha : ∀ {q role c}, v.Live q role c → c.enq.id? = some p.id → q = t := fun hq hqm => h.sole hq hb₀ hqm hid
    have hf : ∀ {fd'}, a.handle ≠ some (p, fd') := fun hfd =>
      ht (h.holder hlive hc ha rfl hfd).symm
    cases hdeed.impact p with
    | spared hfi =>
      rw [hfi]
      exact h.own hb₀ hm hh
    | opened fd' _ hmay =>
      cases p with
      | msgPath id => exact absurd hid ((unused_of_taken h.bounded hco).2.2 hb₀).1
      | metaPath id => exact absurd (Fresh.opener hlive hc ha rfl hmay).1.symm ht
    | wrote fd' c hfd | botched fd' c err hfd => exact absurd hfd hf
    | unlinked _ _ _ hfi => exact .inl hfi

theorem Fresh.deed (h : Fresh v) (hc : unusedIds v (.did pid role op r)) : Fresh (v.did pid role op r a' w') := by
  constructor
  · exact h.bounded.advance hlive
  · exact fun hb hb' hm hm' => h.sole_deed hlive hdeed hc hb hb' hm hm'
  · exact fun hb hm => storer_deed hlive hdeed h.storer hb hm
  · exact fun hb hh => h.held_deed hlive hdeed hb hh
  · exact fun hb hm => linked_deed hlive hdeed h.linked hb hm
  · exact fun hb hm => h.clear_deed hlive hdeed hc hb hm
  · exact fun hb hm hh => h.own_deed hlive hdeed hc hb hm hh

omit hlive in
theorem Present.deed (h : Present log v.world) : Present (log ++ [.did pid role op r]) w' := by
  refine h.append (fun id q ht => ?_) fun id hs => ?_
  · unfold takesId at ht
    split at ht
    · rename_i heq
      cases heq
      rw [and_eq_true, decide_eq_true_eq, decide_eq_true_eq] at ht
      obtain ⟨rfl, rfl⟩ := ht
      cases hdeed with
      | quiet hn => cases hn
      | turned stage htu => cases htu
      | opened _ _ _ _ hf =>
        rw [hf, Function.update_self]
        rfl
    · cases ht
  · exact hdeed.kept hs pid

theorem Fresh.spares (h : Fresh v) (hc : unusedIds v (.did pid role op r))
    (ht : Told (relay cfg) v.log (.did pid role op r)) : sparesQueued v (.did pid role op r) := by
  have hp : v.parties pid = some ⟨role, a⟩ := hlive
  have hw : ∀ p fd c (u : Except IoError Unit), a.handle = some (p, fd) →
      MayStore role a p c → sparesQueued v (.did pid role (.write p fd c) u) = true := by
    intro p fd c u hh hmay
    simp only [sparesQueued, hp, all_some, or_eq_true, not_eq_true']
    have hown : a.enq = .drawn p.id ∨ a.enq = .saved p.id →
        (v.world.files p).all (fun f => f.ino = fd && f.content = .blank) = true := by
      intro henq
      rcases h.own hlive henq hh with hno | hb
      · rw [hno]
        rfl
      · rw [hb]
        simp
    cases p with
    | msgPath id => exact .inr (hown (.inl hmay.1))
    | metaPath id =>
      by_cases hs : a.enq = .saved id
      · exact .inr (hown (.inr hs))
      · exact .inl (decide_eq_false hs)
  cases hdeed with
  | opened p fd _ hmay =>
    simp only [sparesQueued, hp, all_some, or_eq_true, not_eq_true', isNone_iff_eq_none]
    cases p with
    | msgPath id => exact .inr (unused_of_taken h.bounded hc).1
    | metaPath id =>
      by_cases hs : a.enq = .saved id
      · -- the docket says that the file was not opened before
        have hso : a.enq.id? = some id := by rw [hs]; rfl
        have hid := h.linked hlive hso
        have hr := h.storer hlive hso
        have ho : (docketOf pid v.log).draft.opened = false := by
          cases role with
          | receive env msg => exact told_receive ht hid
          | task m => exact (told_task ht).1 hid
          | _ => cases hr
        exact .inr ((h.clear hlive (.inr hs)).unopened ho)
      · exact .inl (decide_eq_false hs)
  | wrote p fd c hh hmay => exact hw p fd c (.ok ()) hh hmay
  | botched p fd c e hh hmay => exact hw p fd c (.error e) hh hmay
  | quiet hn =>
    unfold sparesQueued
    split
    · rename_i heq
      cases heq
      cases hn
    · rename_i heq
      cases heq
      cases hn
    · rfl
  | turned stage htu => cases htu <;> rfl
  | _ => rfl

end

theorem Fresh.frame (h : Fresh v) (hbo : v'.Bounded) (hf : v'.world.files = v.world.files)
    (hd : ∀ pid, docketOf pid v'.log = docketOf pid v.log)
    (hba : ∀ {q role b}, v'.Live q role b → v.Live q role b ∨ b = {}) : Fresh v' := by
  have hcl : ∀ {t m}, Clear v t m → Clear v' t m := by
    intro t m hcl
    constructor
    · intro q role b hb c hc
      rcases hba hb with hb | rfl
      · exact hcl.unread hb c hc
      · cases hc
    · rw [hd, hf]
      exact hcl.unopened
    · rw [hf]
      exact hcl.blank
  constructor
  · exact hbo
  · intro q role b q' role' b' m hb hb' hm hm'
    rcases hba hb with hb | rfl
    · rcases hba hb' with hb' | rfl
      · exact h.sole hb hb' hm hm'
      · cases hm'
    · cases hm
  · intro q role b m hb hm
    rcases hba hb with hb | rfl
    · exact h.storer hb hm
    · cases hm
  · intro q role b p fd hb hh
    rcases hba hb with hb | rfl
    · exact h.held hb hh
    · cases hh
  · intro q role b m hb hm
    rcases hba hb with hb | rfl
    · rw [hd]
      exact h.linked hb hm
    · cases hm
  · intro q role b m hb hm
    rcases hba hb with hb | rfl
    · exact hcl (h.clear hb hm)
    · rcases hm with hm | hm <;> cases hm
  · intro q role b p fd hb hm hh
    rcases hba hb with hb | rfl
    · rw [hf]
      exact h.own hb hm hh
    · cases hh

/-! ## Runs -/

def Returned (log : List Happening) : Prop :=
  ∀ id pid, log.any (returnsId id pid) = true → log.any (takesId id pid) = true

theorem Returned.append (h : Returned log) (hnew : ∀ id pid, returnsId id pid e → log.any (takesId id pid)) :
    Returned (log ++ [e]) := by
  intro id pid hr
  rw [any_append, or_eq_true] at hr ⊢
  rcases hr with hold | hl
  · exact .inl (h id pid hold)
  · exact .inl (hnew id pid (by simpa using hl))

theorem takes_of_returns (ht : Told (relay cfg) v.log e) (hr : returnsId id pid e) : v.log.any (takesId id pid) := by
  unfold returnsId at hr
  split at hr
  · rename_i q role m size _
    rw [and_eq_true, and_eq_true, decide_eq_true_eq, decide_eq_true_eq] at hr
    obtain ⟨hro, rfl, rfl⟩ := hr
    cases role with
    | receive envelope message => exact takes_of_draft v.log (told_receive ht)
    | task m' => exact takes_of_draft v.log (told_task ht).1
    | _ => cases hro
  · cases hr

structure Spared (v : Scene) : Prop extends Fresh v where
  present : Present v.log v.world
  separated : Separated v.log
  returned : Returned v.log

variable (h : Spared v)
include h

theorem Spared.frame (hb : v'.Bounded) (hf : v'.world.files = v.world.files) (hlog : v'.log = v.log ++ [e])
    (he : ∀ pid role op r, e ≠ .did pid role op r)
    (hba : ∀ {q role b}, v'.Live q role b → v.Live q role b ∨ b = {}) : Spared v' := by
  have hd : ∀ pid, docketOf pid v'.log = docketOf pid v.log := by
    intro pid
    rw [hlog]
    cases e with
    | did q role op r => exact absurd rfl (he q role op r)
    | began q role => exact docketOf_began
    | ended q role x => exact docketOf_ended
    | crashed lost => exact docketOf_crashed
  have ht : ∀ id pid, takesId id pid e = false := by
    intro id pid
    cases e with
    | did q role op r => exact absurd rfl (he q role op r)
    | _ => rfl
  have hr : ∀ id pid, returnsId id pid e = false := by
    intro id pid
    cases e with
    | did q role op r => exact absurd rfl (he q role op r)
    | _ => rfl
  refine ⟨h.toFresh.frame hb hf hd hba, ?_, ?_, ?_⟩
  · rw [hlog]
    refine h.present.append (fun id pid ht' => ?_) fun id hs => ?_
    · rw [ht] at ht'
      cases ht'
    · rw [hf]
      exact .inl hs
  · rw [hlog]
    refine h.separated.append fun id pid pid' _ _ _ _ _ ht' => ?_
    rw [ht] at ht'
    cases ht'
  · rw [hlog]
    refine h.returned.append fun id pid hr' => ?_
    rw [hr] at hr'
    cases hr'

theorem Spared.launch (role) : Spared (v.launch (protocol cfg) role) := by
  refine h.frame h.bounded.launch rfl rfl (fun _ _ _ _ h => by cases h) fun hb => ?_
  rcases hb.of_launch with hb | ⟨-, -, hb⟩
  · exact .inl hb
  · exact .inr hb

theorem Spared.deed (hc : unusedIds v (.did pid role op r))
    (ht : Told (relay cfg) v.log (.did pid role op r)) (hlive : v.Live pid role a)
    (hdeed : Deed role a v.world w' op r a') : Spared (v.did pid role op r a' w') := by
  refine ⟨h.toFresh.deed hlive hdeed hc, h.present.deed hdeed, ?_, ?_⟩
  · refine h.separated.append fun id q q' before first during hlog hf hse => ?_
    -- the file is absent when the id is taken again, so it was unlinked
    rcases h.present id q before first during hlog hf with hu | hs
    · exact hu
    · rw [absent_of_takes h.bounded hc hse] at hs
      cases hs
  · exact h.returned.append fun id q hr => takes_of_returns ht hr

theorem Spared.step (hc : unusedIds v e) (ht : Told (relay cfg) v.log e) (hs : Step cfg v e v') :
    Spared v' ∧ sparesQueued v e := by
  cases hs with
  | began role => exact ⟨h.launch role, rfl⟩
  | did pid role a op r a' w' hlive hdeed => exact ⟨h.deed hc ht hlive hdeed, h.toFresh.spares hlive hdeed hc ht⟩
  | spawned pid a id w' hlive hh hse hf =>
    exact ⟨(h.deed hc ht hlive (.spawned id hh rfl hse hf)).launch (.task id), rfl⟩
  | ended pid role a x =>
    refine ⟨h.frame (h.bounded.fewer rfl View.Live.of_retire) rfl rfl (fun _ _ _ _ h => by cases h) ?_, rfl⟩
    exact fun hb => .inl hb.of_retire
  | crashed lost w' hf =>
    refine ⟨h.frame (h.bounded.fewer rfl View.Live.of_restart) hf rfl (fun _ _ _ _ h => by cases h) ?_, rfl⟩
    exact fun hb => .inl hb.of_restart

omit h

theorem spared_plantOn : Spared (plantOn w).view := by
  refine ⟨⟨?_, ?_, ?_, ?_, ?_, ?_, ?_⟩, ?_, ?_, ?_⟩
  · exact fun _ _ _ => of_live_plantOn
  · exact of_live_plantOn
  · exact of_live_plantOn
  · exact of_live_plantOn
  · exact of_live_plantOn
  · exact of_live_plantOn
  · exact of_live_plantOn
  · intro id pid before first during hlog
    cases before <;> cases hlog
  · intro id pid pid' before first during second after hlog
    cases before <;> cases hlog
  · intro id pid hr
    cases hr

theorem two_cuts {α : Type} {log : List α} {e e' : α} (he : e ∈ log) (he' : e' ∈ log) (hne : e ≠ e') :
    (∃ before during after, log = before ++ e :: (during ++ e' :: after)) ∨
      ∃ before during after, log = before ++ e' :: (during ++ e :: after) := by
  obtain ⟨before, after, rfl⟩ := append_of_mem he
  rcases mem_append.mp he' with he' | he'
  · obtain ⟨before', during, rfl⟩ := append_of_mem he'
    exact .inr ⟨before', during, after, by simp⟩
  · rcases mem_cons.mp he' with rfl | he'
    · exact absurd rfl hne
    · obtain ⟨during, after', rfl⟩ := append_of_mem he'
      exact .inl ⟨before, during, after', rfl⟩

theorem takesId_pid (h : takesId id pid e) (h' : takesId id pid' e) : pid = pid' := by
  unfold takesId at h h'
  split at h
  · rw [and_eq_true, decide_eq_true_eq] at h h'
    exact h.1.symm.trans h'.1
  · cases h

theorem Separated.noReuse {log : List Happening} (h : Separated log) (hr : Returned log) : NoReuse log := by
  intro id pid pid' hpid hf hs
  obtain ⟨e, he, ht⟩ := any_eq_true.mp (hr id pid hf)
  obtain ⟨e', he', ht'⟩ := any_eq_true.mp (hr id pid' hs)
  have hne : e ≠ e' := by
    rintro rfl
    exact hpid (takesId_pid ht ht')
  rcases two_cuts he he' hne with ⟨before, during, after, hlog⟩ | ⟨before, during, after, hlog⟩
  · exact ⟨before, e, during, e', after, hlog, .inl ⟨ht, ht'⟩, h id pid pid' before e during e' after hlog ht ht'⟩
  · exact ⟨before, e', during, e, after, hlog, .inr ⟨ht', ht⟩, h id pid' pid before e' during e after hlog ht' ht⟩

/-- **Freshness**, started on any spool. -/
theorem fresh_of_unusedIds {w : World} {labels : Schedule} {s : Plant}
    (hrun : (plantOn w).run (relay cfg) (protocol cfg) labels = some s)
    (hmeets : (plantOn w).along (relay cfg) (protocol cfg) unusedIds labels = true) :
    (plantOn w).along (relay cfg) (protocol cfg) sparesQueued labels = true ∧ NoReuse s.log := by
  have hend := run_told (D := sparesQueued) Spared spared_plantOn
    (fun h hcond htold _ hstep => h.step hcond htold hstep) hrun hmeets
  exact ⟨hend.2, hend.1.separated.noReuse hend.1.returned⟩

def drawnAgain : Schedule :=
  receiving 0 ++ scanning 1 ++ loading 2 ++ marking 2 ++ handing 2 ++ finishing 2 ++ receiving 3

theorem fresh_drawnAgain :
    ∃ s, (plantOn { permits := 4 }).run (relay smallRelay) (protocol smallRelay) drawnAgain = some s ∧
      (s.log.any (returnsId firstId 0) && s.log.any (returnsId firstId 3)) = true ∧
      (plantOn { permits := 4 }).along (relay smallRelay) (protocol smallRelay) sparesQueued
        drawnAgain = true ∧ NoReuse s.log := by
  obtain ⟨s, hs, hcheck⟩ : ∃ s, _ = some s ∧ (s.log.any (returnsId firstId 0) && s.log.any (returnsId firstId 3)) :=
    exists_of_any (o := (plantOn { permits := 4 }).run (relay smallRelay) (protocol smallRelay) drawnAgain)
      (by decide +kernel)
  exact ⟨s, hs, hcheck, fresh_of_unusedIds hs (by decide +kernel)⟩

/-! ## A collision -/

theorem NoReuse.unlinked {log : List Happening} (h : NoReuse log)
    (hpid : pid ≠ pid') (hf : log.any (returnsId id pid)) (hs : log.any (returnsId id pid')) :
    log.any (unlinks (.msgPath id)) := by
  obtain ⟨before, first, during, second, after, rfl, -, hu⟩ := h id pid pid' hpid hf hs
  simp [hu]

def colliding : Schedule := receiving 0 ++ receiving 1

/-- **A collision**: the second session empties and overwrites the files of the first
message, and both return one id with nothing removed in between. -/
theorem collision_overwrites :
    ∃ s, (plantOn { permits := 4 }).run (relay smallRelay) (protocol smallRelay) colliding = some s ∧
      (plantOn { permits := 4 }).along (relay smallRelay) (protocol smallRelay) sparesQueued
        colliding = false ∧ ¬ NoReuse s.log := by
  obtain ⟨s, hs, hfirst, hsecond, hkept⟩ : ∃ s, _ = some s ∧ s.log.any (returnsId firstId 0) ∧
      s.log.any (returnsId firstId 1) ∧ s.log.any (unlinks (.msgPath firstId)) = false :=
    exists_of_any (o := (plantOn { permits := 4 }).run (relay smallRelay) (protocol smallRelay) colliding)
      (by decide +kernel)
  refine ⟨s, hs, by decide +kernel, fun hnoReuse => ?_⟩
  cases (hnoReuse.unlinked (by decide) hfirst hsecond).symm.trans hkept

end ServerWall.Relay
