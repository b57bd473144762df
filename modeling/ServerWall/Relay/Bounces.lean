import ServerWall.Relay.Conduct.Errand
import ServerWall.Relay.Freshness
import ServerWall.Relay.Removal

/-!
# One bounce for one message

At most one bounce may be generated on behalf of a message (`SingleBounce`). The generator does not bounce
a message from the null sender, but bounces have the configured one (`custom_sender_rebounces`); with a
null sender the property holds of runs with one task at a time, each of which gets to remove its message
(`singleBounce_of_nullSender`).
-/

namespace ServerWall.Relay

open BounceGenerator List Bool List Docket

/-! ## The property -/

/-- The task `t` draws random bits for a bounce about the message. -/
def drawsBits (m : Text) (t : Nat) : Happening → Bool
  | .did q (.task id) .uuid _ => q = t && id = m
  | _ => false

/-- A task for the message `m` takes the id `b` for its bounce. -/
def bouncesAs (m b : Text) : Happening → Bool
  | .did _ (.task id) (.create (.msgPath b')) (.ok _) => id = m && b' = b
  | _ => false

/-- The messages that are there because of `m₀`: itself, its bounce, and so on. -/
inductive OnBehalf (log : List Happening) (m₀ : Text) : Text → Prop
  | itself : OnBehalf log m₀ m₀
  | bounce {m b : Text} (hm : OnBehalf log m₀ m) (hb : log.any (bouncesAs m b) = true) : OnBehalf log m₀ b

/-- One task generates a bounce on behalf of a message, and it draws bits twice: for
the `Message-ID` of the bounce and for its queue id. -/
structure SingleBounce (log : List Happening) : Prop where
  bits : ∀ m t, log.countP (drawsBits m t) ≤ 2
  single : ∀ m₀ m m' t t', OnBehalf log m₀ m → OnBehalf log m₀ m' →
    log.any (drawsBits m t) = true → log.any (drawsBits m' t') = true → m = m' ∧ t = t'

/-! ## The condition -/

/-- A task is started only for a message that has none, no file that a task examines or
unlinks fails it, and no crash takes a task between its bounce and its removal. -/
def unbroken (v : Scene) : Happening → Bool
  | .did _ _ (.spawn m) _ => !v.exists? fun _ p => p.role = .task m
  | .did _ role op r => !(role.delivers && trips op r)
  | .crashed lost => !v.exists? fun pid p => lost pid p.role && (p.role.delivers && (!(docketOf pid v.log).randoms.isEmpty && !(docketOf pid v.log).removed))
  | _ => true

def loneBounce (v : Scene) (e : Happening) : Bool := freshIds v e && unbroken v e

/-! ## Logs -/

def ownBounce (b : Text) : Happening → Bool
  | .did _ (.task _) (.create (.msgPath b')) (.ok _) => b' = b
  | _ => false

theorem ownBounce_of_bouncesAs (h : bouncesAs m b e) : ownBounce b e := by
  unfold bouncesAs at h
  split at h
  · rw [and_eq_true, decide_eq_true_eq, decide_eq_true_eq] at h
    exact decide_eq_true h.2
  · cases h

theorem draws_of_ownBounce (h : ownBounce b e) : draws b e := by
  unfold ownBounce at h
  split at h
  · exact h
  · cases h

theorem ownBounce_eq (h : ownBounce b (.did pid role op r)) : (∃ m, role = .task m) ∧ Case.taken op r = some b := by
  unfold ownBounce at h
  split at h
  · rename_i heq
    cases heq
    rw [decide_eq_true_eq] at h
    subst h
    exact ⟨⟨_, rfl⟩, rfl⟩
  · cases h

theorem drawsBits_did (h : drawsBits m t (.did pid role op r)) : pid = t ∧ role = .task m ∧ op = .uuid := by
  unfold drawsBits at h
  split at h
  · rename_i heq
    cases heq
    rw [and_eq_true, decide_eq_true_eq, decide_eq_true_eq] at h
    exact ⟨h.1, by rw [h.2], rfl⟩
  · cases h

theorem randoms_of_drawsBits (log : List Happening) : log.any (drawsBits m t) → (docketOf t log).randoms ≠ [] := by
  induction log using reverseRecOn with
  | nil => nofun
  | append_singleton log e ih =>
    intro h
    rw [any_append, or_eq_true] at h
    cases e with
    | began q role =>
      rw [docketOf_began]
      exact ih (by simpa [drawsBits] using h)
    | ended q role x =>
      rw [docketOf_ended]
      exact ih (by simpa [drawsBits] using h)
    | crashed lost =>
      rw [docketOf_crashed]
      exact ih (by simpa [drawsBits] using h)
    | did q role op r =>
      by_cases hq : q = t
      · subst hq
        rw [docketOf_self]
        rcases h with h | h
        · exact Case.after_randoms (ih h)
        · have hd : drawsBits m q (.did q role op r) = true := by simpa using h
          obtain ⟨-, -, rfl⟩ := drawsBits_did hd
          exact append_ne_nil_of_right_ne_nil _ (cons_ne_nil _ _)
      · rw [docketOf_other hq]
        refine ih ?_
        rcases h with h | h
        · exact h
        · have hd : drawsBits m t (.did q role op r) = true := by simpa using h
          exact absurd (drawsBits_did hd).1 hq

theorem count_drawsBits (log : List Happening) : log.countP (drawsBits m t) ≤ (errandOf t (.task m) log).bits := by
  induction log using reverseRecOn with
  | nil => exact Nat.le_refl _
  | append_singleton log e ih =>
    rw [countP_append, countP_singleton]
    by_cases hp : e.part t = none
    · have hqu : drawsBits m t e = false := by
        cases hd : drawsBits m t e with
        | false => rfl
        | true =>
          cases e with
          | did q role op r =>
            obtain ⟨rfl, -, -⟩ := drawsBits_did hd
            simp [Event.part] at hp
          | _ => cases hd
      rwa [errandOf_concat hp, hqu]
    · cases e with
      | did q role op r =>
        obtain rfl : q = t := by
          by_contra hq
          exact hp (if_neg hq)
        rw [errandOf_self]
        show _ ≤ (errandOf q (.task m) log).bits + op.bits
        split
        · rename_i hd
          obtain ⟨-, -, rfl⟩ := drawsBits_did hd
          exact Nat.add_le_add_right ih 1
        · omega
      | _ => exact absurd rfl hp

variable {cfg : Config} {v : Scene} {e : Happening}

theorem drawn_of_own (h : log.any (ownBounce b)) : drawn log b := by
  obtain ⟨e, he, hown⟩ := any_eq_true.mp h
  exact any_eq_true.mpr ⟨e, he, draws_of_ownBounce hown⟩

theorem own_back (hf : freshIds v e) (hd : drawn v.log b)
    (h : any (v.log ++ [e]) (ownBounce b)) : v.log.any (ownBounce b) := by
  rw [any_append, or_eq_true] at h
  rcases h with h | h
  · exact h
  · have hown : ownBounce b e = true := by simpa using h
    cases (not_drawn_of_draws hf (draws_of_ownBounce hown)).symm.trans hd

/-! ## The invariant -/

/-- The message is gone: no task can learn its octets any more. -/
def Shut (v : Scene) (m : Text) : Prop := v.world.files (.msgPath m) = none ∧
    ∀ t a, v.Live t (.task m) a → (docketOf t v.log).text = none

structure Lone (v : Scene) : Prop where
  ids : Ids v
  single : ∀ {t a t' a' m}, v.Live t (.task m) a → v.Live t' (.task m) a' → t = t'
  linked : ∀ {pid role a m}, v.Live pid role a → a.enq.id? = some m → (docketOf pid v.log).draft.id = some m
  storer : ∀ {pid role a b}, v.log.any (ownBounce b) = true → v.Live pid role a →
    a.enq.id? = some b → ∃ m, role = .task m
  /-- Bounces have the null sender: in the spool, as read, and on the docket. -/
  record : ∀ {b ino q}, v.log.any (ownBounce b) = true →
    v.world.files (.metaPath b) = some ⟨ino, .record q⟩ → isNullSender q.envelope.mailFrom = true
  copy : ∀ {b pid role a q}, v.log.any (ownBounce b) = true → v.Live pid role a →
    a.copy = some (b, q) → isNullSender q.envelope.mailFrom = true
  loaded : ∀ {b t a q}, v.log.any (ownBounce b) = true → v.Live t (.task b) a →
    (docketOf t v.log).loaded = some q → isNullSender q.envelope.mailFrom = true
  /-- What a task removed is gone, and no removal failed. -/
  cleared : ∀ {t m a}, v.Live t (.task m) a → (docketOf t v.log).removed = true → v.world.files (.msgPath m) = none
  smooth : ∀ {t m a}, v.Live t (.task m) a → (docketOf t v.log).stumbled = false
  /-- A message with a bounce still has the task that generated it, or is gone. -/
  generated : ∀ {t m}, v.log.any (drawsBits m t) = true →
    drawn v.log m = true ∧ ((∃ a, v.Live t (.task m) a) ∨ Shut v m)
  original : ∀ {t m}, v.log.any (drawsBits m t) = true → v.log.any (ownBounce m) = false
  once : ∀ {t t' m}, v.log.any (drawsBits m t) = true → v.log.any (drawsBits m t') = true → t = t'
  bits : ∀ m t, v.log.countP (drawsBits m t) ≤ 2

section

variable {pid : Nat} {role : Role} {a a' : Agent} {w' : World} {op : Op} {r : Res op}

variable (hf : freshIds v (.did pid role op r)) (ht : Told (relay cfg) v.log (.did pid role op r)) (hl : v.Live pid role a)
  (hde : Deed role a v.world w' op r a') (hs : Seen v.world op r)

theorem Lone.drawn_task (h : Lone v) (hb : v.Live t (.task m) b) : drawn v.log m :=
  (h.ids.known (.inr ⟨t, .task m, b, hb, .inr (.inr rfl)⟩)).1

include hf hl hde in
theorem Lone.storer_deed (h : Lone v) (hown : any (v.log ++ [.did pid role op r]) (ownBounce m))
    (hb : (v.did pid role op r a' w').Live q role' b) (hm : b.enq.id? = some m) : ∃ m', role' = .task m' := by
  have hold : ∀ {b₀ : Agent}, v.Live q role' b₀ → b₀.enq.id? = some m → ∃ m', role' = .task m' :=
    fun hb₀ hm₀ => h.storer (own_back hf (h.ids.owner hb₀ hm₀) hown) hb₀ hm₀
  rcases hb.of_advance with ⟨rfl, rfl, rfl⟩ | ⟨-, hb₀⟩
  · rcases hde.id_cases hm with ht | ⟨-, hm⟩
    · rw [any_append, or_eq_true] at hown
      rcases hown with hown | hown
      · -- the id was drawn before and is drawn again
        obtain ⟨fd, heq⟩ := taken_eq_some ht
        cases heq
        have hnew := not_drawn_of_draws hf (m := m) (decide_eq_true rfl)
        cases (drawn_of_own hown).symm.trans hnew
      · exact (ownBounce_eq (by simpa using hown)).1
    · exact hold hl hm
  · exact hold hb₀ hm

include hf ht hl hde in
theorem Lone.record_deed (h : Lone v) (hnu : isNullSender cfg.bounceGen.bounceSender)
    (hown : any (v.log ++ [.did pid role op r]) (ownBounce b))
    (hfi : w'.files (.metaPath b) = some ⟨ino, .record q⟩) : isNullSender q.envelope.mailFrom := by
  rcases hde.metadata hfi with hold | ⟨fd, rfl⟩
  · exact h.record (own_back hf (h.ids.known (.inl ⟨ino, q, hold⟩)).1 hown) hold
  · have hown' : v.log.any (ownBounce b) = true := by
      rw [any_append, or_eq_true] at hown
      rcases hown with hown | hown
      · exact hown
      · have ht := (ownBounce_eq (by simpa using hown)).2
        cases ht
    cases hde with
    | quiet hn => cases hn
    | turned stage htu => cases htu
    | botched _ _ _ _ _ _ hla =>
      rcases hla.metadata hfi with hold | ⟨hw, -⟩
      · exact h.record hown' hold
      · cases hw
    | wrote _ _ _ _ hmay =>
      obtain ⟨q', hq', hmay⟩ := hmay
      obtain rfl := Content.record.inj hq'
      by_cases hs : a.enq = .saved b
      · -- the metadata of the bounce itself
        have hid : a.enq.id? = some b := by rw [hs]; rfl
        obtain ⟨m, rfl⟩ := h.storer hown' hl hid
        obtain ⟨q₀, q', -, hq', he⟩ := (told_task ht).2
        obtain rfl := Content.record.inj hq'
        rw [if_pos (h.linked hl hid)] at he
        rwa [he]
      · rw [if_neg hs] at hmay
        obtain ⟨⟨q₀, hc, -, he⟩, -⟩ := hmay
        rw [he]
        exact h.copy hown' hl hc

include hf hl hde in
theorem Lone.copy_deed (h : Lone v) (hown : any (v.log ++ [.did pid role op r]) (ownBounce m))
    (hb : (v.did pid role op r a' w').Live p role' b) (hc : b.copy = some (m, q)) : isNullSender q.envelope.mailFrom := by
  have hold : ∀ {b₀ : Agent}, v.Live p role' b₀ → b₀.copy = some (m, q) → isNullSender q.envelope.mailFrom = true := by
    intro b₀ hb₀ hc₀
    have hk : Known v m := .inr ⟨p, role', b₀, hb₀, .inl ⟨q, hc₀⟩⟩
    exact h.copy (own_back hf (h.ids.known hk).1 hown) hb₀ hc₀
  rcases hb.of_advance with ⟨rfl, rfl, rfl⟩ | ⟨-, hb₀⟩
  · rcases hde.copied hc with hc₀ | ⟨ino, hfi⟩
    · exact hold hl hc₀
    · exact h.record (own_back hf (h.ids.known (.inl ⟨ino, q, hfi⟩)).1 hown) hfi
  · exact hold hb₀ hc

include hf ht hl hs in
theorem Lone.loaded_deed (h : Lone v) (hown : any (v.log ++ [.did pid role op r]) (ownBounce m))
    (hb : (v.did pid role op r a' w').Live t (.task m) b)
    (hlo : (docketOf t (v.log ++ [.did pid role op r])).loaded = some q) : isNullSender q.envelope.mailFrom := by
  obtain ⟨b₀, hb₀⟩ := View.live_back hl hb
  have hown' := own_back hf (h.drawn_task hb₀) hown
  rcases hb.of_advance with ⟨rfl, rfl, -⟩ | ⟨ht, -⟩
  · rw [docketOf_self] at hlo
    rcases Case.loaded_of_after hlo with hold | ⟨-, id, heq⟩
    · exact h.loaded hown' hb₀ hold
    · -- a task reads the metadata of its own message
      cases heq
      obtain rfl : id = m := told_may ht
      obtain ⟨ino, hfi⟩ := hs
      exact h.record hown' hfi
  · rw [docketOf_other (Ne.symm ht)] at hlo
    exact h.loaded hown' hb₀ hlo

include hf hde in
theorem gone_deed (hd : drawn v.log m) (hn : v.world.files (.msgPath m) = none) : w'.files (.msgPath m) = none := by
  rcases hde.msg_absent hn pid with hn' | hdr
  · exact hn'
  · cases (not_drawn_of_draws hf hdr).symm.trans hd

theorem absent_of_clears (ht : Told (relay cfg) v.log (.did pid (.task m) op r))
    (hd : Deed (.task m) a v.world w' op r a') (hs : Seen v.world op r) (hc : clears op r) :
    v.world.files (.msgPath m) = none ∨ w'.files (.msgPath m) = none := by
  unfold clears at hc
  split at hc
  · rename_i id
    obtain rfl : id = m := told_may ht
    exact .inl (Option.not_isSome_iff_eq_none.mp (by
      rw [show (v.world.files (.msgPath id)).isSome = false from hs]
      exact false_ne_true))
  · rename_i id u
    obtain rfl : id = m := told_may ht
    cases hd with
    | quiet hn => cases hn
    | turned stage htu => cases htu
    | unlinkedMsg _ _ _ hf => exact .inr (by rw [hf, Function.update_self])
  · cases hc

include hf ht hl hde hs in
theorem Lone.cleared_deed (h : Lone v) (hb : (v.did pid role op r a' w').Live t (.task m) b)
    (hr : (docketOf t (v.log ++ [.did pid role op r])).removed) : w'.files (.msgPath m) = none := by
  obtain ⟨b₀, hb₀⟩ := View.live_back hl hb
  have hgone := gone_deed hf hde (h.drawn_task hb₀)
  rcases hb.of_advance with ⟨rfl, rfl, -⟩ | ⟨ht, -⟩
  · rw [docketOf_self] at hr
    rcases or_eq_true _ _ ▸ hr with hold | hc
    · exact hgone (h.cleared hb₀ hold)
    · rcases absent_of_clears ht hde hs hc with hn | hn
      · exact hgone hn
      · exact hn
  · rw [docketOf_other (Ne.symm ht)] at hr
    exact hgone (h.cleared hb₀ hr)

include hl in
theorem Lone.smooth_deed (h : Lone v) (hu : unbroken v (.did pid role op r))
    (hb : (v.did pid role op r a' w').Live t (.task m) b) :
    (docketOf t (v.log ++ [.did pid role op r])).stumbled = false := by
  rcases hb.of_advance with ⟨rfl, rfl, rfl⟩ | ⟨ht, hb₀⟩
  · rw [docketOf_self]
    have hf : trips op r = false := by
      cases op with
      | spawn id => rfl
      | _ => simpa [unbroken, Role.delivers] using hu
    show ((docketOf t v.log).stumbled || trips op r) = false
    rw [h.smooth hl, hf]
    rfl
  · rw [docketOf_other (Ne.symm ht)]
    exact h.smooth hb₀

include hf ht hl hde hs in
theorem Shut.deed (h : Shut v m) (hd : drawn v.log m) : Shut (v.did pid role op r a' w') m := by
  refine ⟨gone_deed hf hde hd h.1, fun t b hb => ?_⟩
  show (docketOf t (v.log ++ [.did pid role op r])).text = none
  rcases hb.of_advance with ⟨rfl, rfl, rfl⟩ | ⟨ht, hb₀⟩
  · rw [docketOf_self]
    rcases Case.text_of_after (h.2 t a hl) with hn | ⟨id, content, heq⟩
    · exact hn
    · cases heq
      obtain rfl : id = m := told_may ht
      obtain ⟨ino, hfi⟩ := hs
      cases h.1.symm.trans hfi
  · rw [docketOf_other (Ne.symm ht)]
    exact h.2 t b hb₀

include ht in
theorem drawsBits_cases (h : any (v.log ++ [.did pid role op r]) (drawsBits m t)) :
    v.log.any (drawsBits m t) ∨ (pid = t ∧ role = .task m ∧
      ∃ q, (docketOf pid v.log).loaded = some q ∧ (docketOf pid v.log).text.isSome ∧
        isNullSender q.envelope.mailFrom = false) := by
  rw [any_append, or_eq_true] at h
  rcases h with h | h
  · exact .inl h
  · obtain ⟨rfl, rfl, rfl⟩ := drawsBits_did (by simpa using h)
    exact .inr ⟨rfl, rfl, (told_task ht).2⟩

include hf ht hl hde hs in
theorem Lone.generated_deed (h : Lone v) (hdr : any (v.log ++ [.did pid role op r]) (drawsBits m t)) :
    drawn (v.log ++ [.did pid role op r]) m ∧
      ((∃ b, (v.did pid role op r a' w').Live t (.task m) b) ∨ Shut (v.did pid role op r a' w') m) := by
  rcases drawsBits_cases ht hdr with hold | ⟨rfl, rfl, -⟩
  · obtain ⟨hd, hc⟩ := h.generated hold
    refine ⟨drawn_append hd _, ?_⟩
    rcases hc with ⟨b, hb⟩ | hsh
    · by_cases ht : t = pid
      · subst ht
        obtain ⟨rfl, -⟩ := hl.unique hb
        exact .inl ⟨a', View.live_self⟩
      · exact .inl ⟨b, View.live_other ht hb⟩
    · exact .inr (hsh.deed hf ht hl hde hs hd)
  · exact ⟨drawn_append (h.drawn_task hl) _, .inl ⟨a', View.live_self⟩⟩

include hf ht hl in
theorem Lone.original_deed (h : Lone v) (hd : any (v.log ++ [.did pid role op r]) (drawsBits m t)) :
    any (v.log ++ [.did pid role op r]) (ownBounce m) = false := by
  by_contra hown
  rw [not_eq_false] at hown
  rcases drawsBits_cases ht hd with hold | ⟨rfl, rfl, q, hlo, -, hs⟩
  · have hown' := own_back hf (h.generated hold).1 hown
    rw [h.original hold] at hown'
    cases hown'
  · have hown' := own_back hf (h.drawn_task hl) hown
    cases (h.loaded hown' hl hlo).symm.trans hs

theorem Lone.same (h : Lone v) (hl : v.Live pid (.task m) a)
    (hold : v.log.any (drawsBits m t)) (ht : (docketOf pid v.log).text.isSome) : pid = t := by
  rcases (h.generated hold).2 with ⟨b, hb⟩ | hs
  · exact h.single hl hb
  · rw [hs.2 pid a hl] at ht
    cases ht

include ht hl in
theorem Lone.once_deed (h : Lone v) (hd : any (v.log ++ [.did pid role op r]) (drawsBits m t))
    (hd' : any (v.log ++ [.did pid role op r]) (drawsBits m t')) : t = t' := by
  rcases drawsBits_cases ht hd with hold | ⟨rfl, rfl, q, -, hte, -⟩
  · rcases drawsBits_cases ht hd' with hold' | ⟨rfl, rfl, q, -, hte, -⟩
    · exact h.once hold hold'
    · exact (h.same hl hold hte).symm
  · rcases drawsBits_cases ht hd' with hold' | ⟨rfl, -⟩
    · exact h.same hl hold' hte
    · rfl

include ht in
theorem Lone.bits_deed (h : Lone v) (m : Text) (t : Nat) :
    countP (drawsBits m t) (v.log ++ [.did pid role op r]) ≤ 2 := by
  rw [countP_append, countP_singleton]
  split
  · rename_i hd
    obtain ⟨rfl, rfl, rfl⟩ := drawsBits_did hd
    have hf : (errandOf pid (.task m) v.log).bits < 2 := told_may ht
    have hc := count_drawsBits (m := m) (t := pid) v.log
    omega
  · exact h.bits m t

include ht hl hde hs in
theorem Lone.deed (h : Lone v) (hn : isNullSender cfg.bounceGen.bounceSender) (hc : loneBounce v (.did pid role op r)) :
    Lone (v.did pid role op r a' w') := by
  obtain ⟨hf, hu⟩ := and_eq_true_iff.mp hc
  constructor
  · exact h.ids.deed hl hde hf
  · exact fun hb hb' => single_advance h.single hl hb hb'
  · exact fun hb hm => linked_deed hl hde h.linked hb hm
  · exact fun hown hb hm => h.storer_deed hf hl hde hown hb hm
  · exact fun hown hfi => h.record_deed hf ht hl hde hn hown hfi
  · exact fun hown hb hco => h.copy_deed hf hl hde hown hb hco
  · exact fun hown hb hlo => h.loaded_deed hf ht hl hs hown hb hlo
  · exact fun hb hr => h.cleared_deed hf ht hl hde hs hb hr
  · exact fun hb => h.smooth_deed hl hu hb
  · exact fun hd => h.generated_deed hf ht hl hde hs hd
  · exact fun hd => h.original_deed hf ht hl hd
  · exact fun hd hd' => h.once_deed ht hl hd hd'
  · exact h.bits_deed ht

end

/-! ## The other steps -/

/-- What an event that is no operation leaves as it was. -/
structure Quiet (e : Happening) : Prop where
  own : ∀ b, ownBounce b e = false
  bits : ∀ m t, drawsBits m t e = false
  docket : ∀ pid log, docketOf pid (log ++ [e]) = docketOf pid log

theorem quiet_began (q : Nat) (role) : Quiet (.began q role) :=
  ⟨fun _ => rfl, fun _ _ => rfl, fun _ _ => docketOf_began⟩

theorem quiet_ended (q : Nat) (role) (x : Response) : Quiet (.ended q role x) :=
  ⟨fun _ => rfl, fun _ _ => rfl, fun _ _ => docketOf_ended⟩

theorem quiet_crashed (lost : Nat → Role → Bool) : Quiet (.crashed lost) :=
  ⟨fun _ => rfl, fun _ _ => rfl, fun _ _ => docketOf_crashed⟩

variable (h : Lone v)
include h

/-- Processes begin, end or are lost: what is left is to say who still runs, that a new
one starts with nothing, and that whoever generated a bounce runs on or is done. -/
theorem Lone.frame (hids : Ids v') (hq : Quiet e) (hlog : v'.log = v.log ++ [e])
    (hf : v'.world.files = v.world.files)
    (hba : ∀ {q role b}, v'.Live q role b → v.Live q role b ∨ (b = {} ∧ docketOf q v.log = {}))
    (hsi : ∀ {t b t' b' m}, v'.Live t (.task m) b → v'.Live t' (.task m) b' → t = t')
    (hg : ∀ {t m b}, v.log.any (drawsBits m t) → v.Live t (.task m) b →
      (∃ b', v'.Live t (.task m) b') ∨ Shut v' m) : Lone v' := by
  have hown : ∀ {b}, v'.log.any (ownBounce b) = v.log.any (ownBounce b) := by
    intro b
    rw [hlog, any_append]
    simp [hq.own]
  have hdr : ∀ {m t}, v'.log.any (drawsBits m t) = v.log.any (drawsBits m t) := by
    intro m t
    rw [hlog, any_append]
    simp [hq.bits]
  have hd : ∀ pid, docketOf pid v'.log = docketOf pid v.log := by
    intro pid
    rw [hlog, hq.docket]
  constructor
  · exact hids
  · exact hsi
  · intro pid role b m hb hm
    rcases hba hb with hb | ⟨rfl, -⟩
    · rw [hd]
      exact h.linked hb hm
    · cases hm
  · intro pid role b m hm hb henq
    rcases hba hb with hb | ⟨rfl, -⟩
    · exact h.storer (hown ▸ hm) hb henq
    · cases henq
  · intro b ino q hm hfi
    exact h.record (hown ▸ hm) (hf ▸ hfi)
  · intro b pid role a q hm hb hc
    rcases hba hb with hb | ⟨rfl, -⟩
    · exact h.copy (hown ▸ hm) hb hc
    · cases hc
  · intro b t a q hm hb hl
    rw [hd] at hl
    rcases hba hb with hb | ⟨-, he⟩
    · exact h.loaded (hown ▸ hm) hb hl
    · rw [he] at hl
      cases hl
  · intro t m a hb hr
    rw [hd] at hr
    rw [hf]
    rcases hba hb with hb | ⟨-, he⟩
    · exact h.cleared hb hr
    · rw [he] at hr
      cases hr
  · intro t m a hb
    rw [hd]
    rcases hba hb with hb | ⟨-, he⟩
    · exact h.smooth hb
    · rw [he]
  · intro t m hm
    rw [hdr] at hm
    obtain ⟨hdra, hca⟩ := h.generated hm
    refine ⟨by rw [hlog]; exact drawn_append hdra e, ?_⟩
    rcases hca with ⟨b, hb⟩ | hs
    · exact hg hm hb
    · refine .inr ⟨by rw [hf]; exact hs.1, fun t' b hb => ?_⟩
      rw [hd]
      rcases hba hb with hb | ⟨-, he⟩
      · exact hs.2 t' b hb
      · rw [he]
  · intro t m hm
    rw [hown]
    exact h.original (hdr ▸ hm)
  · intro t t' m hm hm'
    exact h.once (hdr ▸ hm) (hdr ▸ hm')
  · intro m t
    rw [hlog, countP_append, countP_singleton, hq.bits]
    exact h.bits m t

theorem Lone.launch (hbo : docketOf v.next v.log = {})
    (hr : ∀ m, role = .task m → Known v m ∧ ∀ t a, ¬ v.Live t (.task m) a) : Lone (v.launch (protocol cfg) role) := by
  have hba : ∀ {q role' b}, (v.launch (protocol cfg) role).Live q role' b →
      v.Live q role' b ∨ (q = v.next ∧ role = role' ∧ b = {}) := by
    intro q role' b hb
    rcases hb.of_launch with hb | ⟨hq, hm, hb⟩
    · exact .inl hb
    · exact .inr ⟨hq, hm.symm, hb⟩
  refine h.frame (h.ids.launch fun m hm => (hr m hm).1) (quiet_began v.next role) rfl rfl ?_ ?_ ?_
  · intro q role' b hb
    rcases hba hb with hb | ⟨rfl, -, rfl⟩
    · exact .inl hb
    · exact .inr ⟨rfl, hbo⟩
  · exact fun hb hb' => single_launch h.single (fun m hm => (hr m hm).2) hb hb'
  · intro t m b _ hb
    exact .inl ⟨b, hb.launch h.ids.bounded⟩

theorem Lone.shut (hf : v'.world.files = v.world.files) (hba : ∀ {q role b}, v'.Live q role b → v.Live q role b)
    (hb : v.Live t (.task m) b) (hr : (docketOf t v.log).removed) (hl : ∀ b', ¬ v'.Live t (.task m) b') : Shut v' m := by
  refine ⟨by rw [hf]; exact h.cleared hb hr, fun t' b' hb' => ?_⟩
  obtain rfl := h.single (hba hb') hb
  exact absurd hb' (hl b')

theorem Lone.retire (hto : Told (relay cfg) v.log (.ended pid role x)) (hl : v.Live pid role a) :
    Lone (v.retire pid (.ended pid role x)) := by
  have hids : Ids (v.retire pid (.ended pid role x)) := h.ids.retire pid
  refine h.frame hids (quiet_ended pid role x) rfl rfl (fun hb => .inl hb.of_retire)
    (fun hb hb' => h.single hb.of_retire hb'.of_retire) ?_
  intro t m b hdr hb
  by_cases ht : t = pid
  · -- the end of the task: its bounce is out, so its message is removed
    subst ht
    obtain ⟨rfl, -⟩ := hl.unique hb
    have hdone : (docketOf t v.log).Done := hto.ends (Q := docket cfg) (task_docket m) m rfl
    have hd := hdone (randoms_of_drawsBits v.log hdr)
    rw [h.smooth hb] at hd
    have hr := hd.resolve_right false_ne_true
    have hf : (v.retire t (.ended t (.task m) x)).world.files = v.world.files := rfl
    refine .inr (h.shut hf View.Live.of_retire hb hr fun b' hb' => ?_)
    exact (View.live_retire.mp hb').1 rfl
  · exact .inl ⟨b, View.live_retire.mpr ⟨ht, hb⟩⟩

theorem Lone.restart {lost : Nat → Role → Bool}
    (hu : unbroken v (.crashed lost)) (hf : w'.files = v.world.files) : Lone (v.restart lost w') := by
  have hids : Ids (v.restart lost w') := h.ids.restart hf
  rw [unbroken, not_eq_true', View.exists?_eq_false h.ids.bounded] at hu
  refine h.frame hids (quiet_crashed lost) rfl hf (fun hb => .inl hb.of_restart)
    (fun hb hb' => h.single hb.of_restart hb'.of_restart) ?_
  intro t m b hd hb
  cases hl : lost t (.task m) with
  | false => exact .inl ⟨b, View.live_restart.mpr ⟨hb, hl⟩⟩
  | true =>
    have hr := randoms_of_drawsBits v.log hd
    have hre : (docketOf t v.log).removed = true := by
      have hs := hu t (.task m) b hb
      simpa [hl, Role.delivers, hr] using hs
    refine .inr (h.shut hf View.Live.of_restart hb hre fun b' hb' => ?_)
    have hk := (View.live_restart.mp hb').2
    cases hl.symm.trans hk

omit h

theorem docketOf_unborn (hb : v.Unborn) : docketOf v.next v.log = {} := by
  unfold docketOf
  rw [hb v.next (Nat.le_refl _)]
  rfl

theorem Lone.step (h : Lone v) (hn : isNullSender cfg.bounceGen.bounceSender)
    (hc : loneBounce v e) (ht : Told (relay cfg) v.log e) (hbo : v.Unborn) (hs : Step cfg v e v') : Lone v' := by
  obtain ⟨hfre, hu⟩ := and_eq_true_iff.mp hc
  cases hs with
  | began role hr => exact h.launch (docketOf_unborn hbo) fun m hm => absurd hm (hr m)
  | did pid role a op r a' w' hl hd _ hse => exact h.deed ht hl hd hse hn hc
  | spawned pid a id w' hl hh hli hf =>
    have hpid : pid ≠ v.next := Nat.ne_of_lt (h.ids.bounded pid _ a hl)
    refine (h.deed ht hl (.spawned id hh rfl hli hf) trivial hn hc).launch ?_ fun m hm => ?_
    · show docketOf v.next (v.log ++ [.did pid .scan (.spawn id) ()]) = {}
      rw [docketOf_other hpid]
      exact docketOf_unborn hbo
    · obtain rfl := Role.task.inj hm
      refine ⟨.inr ⟨pid, .scan, a, View.live_self, .inr (.inl hli)⟩, fun t b hb => ?_⟩
      obtain ⟨b₀, hb₀⟩ := View.live_back hl hb
      have hfr : v.exists? (fun _ p => p.role = .task id) = false := by simpa [unbroken] using hu
      have hb' := (View.exists?_eq_false h.ids.bounded).mp hfr t _ b₀ hb₀
      simp at hb'
  | ended pid role a x hl => exact h.retire ht hl
  | crashed lost w' hf => exact h.restart hu hf

theorem lone_plant : Lone (plant cfg).view := by
  constructor
  · exact ids_plant
  · exact of_live_plant
  · exact of_live_plant
  · exact fun _ => of_live_plant
  · intro b ino q h
    cases h
  · exact fun _ => of_live_plant
  · exact fun _ => of_live_plant
  · exact of_live_plant
  · exact of_live_plant
  · intro t m h
    cases h
  · intro t m h
    cases h
  · intro t t' m h
    cases h
  · exact fun _ _ => Nat.zero_le 2

/-! ## The result -/

theorem Lone.origin (h : Lone v) (hbe : OnBehalf v.log m₀ m) (hd : v.log.any (drawsBits m t)) : m = m₀ := by
  cases hbe with
  | itself => rfl
  | bounce _ hb =>
    obtain ⟨e, he, hbo⟩ := any_eq_true.mp hb
    have hown : v.log.any (ownBounce m) = true := any_eq_true.mpr ⟨e, he, ownBounce_of_bouncesAs hbo⟩
    cases (h.original hd).symm.trans hown

theorem Lone.singleBounce (h : Lone v) : SingleBounce v.log := by
  refine ⟨h.bits, fun m₀ m m' t t' hb hb' hd hd' => ?_⟩
  obtain rfl := h.origin hb hd
  obtain rfl := h.origin hb' hd'
  exact ⟨rfl, h.once hd hd'⟩

/-- **One bounce for one message**, with a null sender configured. -/
theorem singleBounce_of_nullSender {labels : Schedule} {s : Plant}
    (hnull : isNullSender cfg.bounceGen.bounceSender = true)
    (hrun : runRelay cfg labels = some s) (hmeets : runMeets cfg loneBounce labels = true) : SingleBounce s.log := by
  have hend := run_told (D := fun _ _ => true) Lone lone_plant
    (fun h hcond htold hborn hstep => ⟨h.step hnull hcond htold hborn hstep, rfl⟩) hrun hmeets
  exact hend.1.singleBounce

def bounceId : Text := "CFE568000009"

def scanningBounce (pid : Nat) : Schedule := .launch .scan ::
    (acts pid [.listing [.ok (.metaPath bounceId), .ok (.msgPath bounceId)], .ok, .clock noon, .ok,
      .ok] ++ [.finish pid])

def bounced (pid : Nat) : Schedule := acts pid [.ok, .ok, .ok, .ok, .ok, .ok, .ok, .ok, .ok, .ok, .ok] ++ [.finish pid]

def bounceSent : Schedule :=
  receiving 0 ++ scanning 1 ++ loading 2 ++ marking 2 ++ handing 2 ++ refusing 2 ++ bounced 2 ++
    scanningBounce 3 ++ loading 4 ++ marking 4 ++ handing 4

def bounceRefused : Schedule := bounceSent ++ acts 4 [.sent (.permFail "550 no such user"), .ok, .ok]

theorem singleBounce_bounceRefused : ∃ s, runRelay smallRelay bounceRefused = some s ∧
      (s.log.any (drawsBits firstId 2) = true ∧ s.log.any (bouncesAs firstId bounceId) = true) ∧
      SingleBounce s.log := by
  obtain ⟨s, hs, hcheck⟩ : ∃ s, runRelay smallRelay bounceRefused = some s ∧ s.log.any (drawsBits firstId 2) ∧
      s.log.any (bouncesAs firstId bounceId) := exists_of_any (by decide +kernel)
  exact ⟨s, hs, hcheck, singleBounce_of_nullSender (by decide +kernel) hs (by decide +kernel)⟩

/-! ## A sender of one's own -/

def customRelay : Config := { smallRelay with bounceGen := .new (some "postmaster@example.org") true }

def reboundBounce : Schedule := bounceSent ++ acts 4 [.sent (.permFail "550 no such user"), .ok, .clock noon, .random 8]

/-- **A bounce is bounced**: with an address of its own for bounces the relay generates a
second bounce on behalf of one message, in a run that meets the condition. -/
theorem custom_sender_rebounces : ∃ s, runRelay customRelay reboundBounce = some s ∧
      runMeets customRelay loneBounce reboundBounce = true ∧ ¬ SingleBounce s.log := by
  obtain ⟨s, hs, hfirst, hbounces, hsecond⟩ : ∃ s, runRelay customRelay reboundBounce = some s ∧
      s.log.any (drawsBits firstId 2) ∧ s.log.any (bouncesAs firstId bounceId) ∧ s.log.any (drawsBits bounceId 4) :=
    exists_of_any (by decide +kernel)
  refine ⟨s, hs, by decide +kernel, fun hsingle => ?_⟩
  have hsame := hsingle.single firstId firstId bounceId 2 4 .itself (.bounce .itself hbounces) hfirst hsecond
  cases hsame.2

end ServerWall.Relay
