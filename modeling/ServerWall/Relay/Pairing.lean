import ServerWall.Relay.Writers

/-!
# The two files of a message

A `.meta` file that nobody is writing should have its `.msg` file, and that of a removed message be gone
(`Paired`, `unlisted`). An update that opens it after the removal brings it back (`update_resurrects`).
Pairing holds of runs without such races (`paired_of_unraced`).
-/

namespace ServerWall.Relay

open Bool

open View

/-! ## The property -/

/-- Metadata that nobody is writing is complete and has its text, and metadata that was
unlinked is gone. -/
structure Paired (v : Scene) : Prop where
  complete : ∀ {m f}, v.world.files (.metaPath m) = some f →
    (∀ pid role a fd, v.Live pid role a → a.handle ≠ some (.metaPath m, fd)) →
    (v.world.files (.msgPath m)).isSome ∧ ∃ q, f.content = .record q ∧ q.id = m
  gone : ∀ {m}, v.log.any (unlinks (.metaPath m)) = true → v.world.files (.metaPath m) = none

/-- No metadata of a removed message is read: a listing returns what it reads. -/
def unlisted (v : Scene) : Happening → Bool
  | .did _ _ (.read (.metaPath _)) (.ok (.record q)) => !v.log.any (unlinks (.metaPath q.id))
  | _ => true

/-! ## The condition -/

def Path.isMeta : Path → Bool
  | .metaPath _ => true
  | .msgPath _ => false

/-- Nobody acts too late: metadata is opened to be updated only while it is there, a text unlinked only
while it has no metadata and is not being stored, and whoever has metadata open comes to write it. -/
def unraced (v : Scene) : Happening → Bool
  | .did pid _ (.create (.metaPath id)) (.ok _) => (v.parties pid).all fun party =>
    party.agent.enq = .saved id || (v.world.files (.metaPath id)).isSome
  | .did _ _ (.write (.metaPath _) _ _) (.error _) => false
  | .did _ _ (.unlink (.msgPath id)) (.ok _) =>
    (v.world.files (.metaPath id)).isNone &&
      !v.exists? fun _ party => party.agent.enq = .drawn id || party.agent.enq = .saved id
  | .crashed lost => !v.exists? fun pid party => lost pid party.role && party.agent.handle.any fun h => h.1.isMeta
  | _ => true

def pairing (v : Scene) (e : Happening) : Bool := freshIds v e && (soleWriter v e && unraced v e)

/-! ## The invariant -/

/-- With the ids and the writers in order: metadata belongs to a drawn id, has its text,
and is complete or open; a message that is being stored has its text, and no metadata
but what its process has open. -/
structure Pairs (v : Scene) : Prop where
  ids : Ids v
  writers : Writers v
  text : ∀ {m}, v.world.files (.metaPath m) ≠ none → (v.world.files (.msgPath m)).isSome
  whole : ∀ {m f}, v.world.files (.metaPath m) = some f → (∃ q, f.content = .record q) ∨
    ∃ pid role a fd, v.Live pid role a ∧ a.handle = some (.metaPath m, fd)
  taken : ∀ {m}, v.world.files (.metaPath m) ≠ none → drawn v.log m = true
  store : ∀ {pid role a m}, v.Live pid role a → a.enq = .drawn m ∨ a.enq = .saved m →
    (v.world.files (.msgPath m)).isSome ∧
      (v.world.files (.metaPath m) = none ∨ ∃ fd, a.handle = some (.metaPath m, fd))
  gone : ∀ {m}, v.log.any (unlinks (.metaPath m)) = true → drawn v.log m = true ∧
    v.world.files (.metaPath m) = none ∧ ∀ {pid role a}, v.Live pid role a →
      a.enq = .drawn m ∨ a.enq = .saved m → ∃ fd, a.handle = some (.metaPath m, fd)

theorem Pairs.paired (h : Pairs v) : Paired v := by
  refine ⟨fun {m f} hf hfr => ?_, fun hg => (h.gone hg).2.1⟩
  have ht : v.world.files (.metaPath m) ≠ none := by simp [hf]
  rcases h.whole hf with ⟨q, hq⟩ | ⟨pid, role, a, fd, hlive, hfd⟩
  · refine ⟨h.text ht, q, hq, ?_⟩
    have hr : v.world.files (.metaPath m) = some ⟨f.ino, .record q⟩ := by rw [hf, ← hq]
    exact h.ids.record hr
  · exact absurd hfd (hfr pid role a fd hlive)

variable {cfg : Config} {v : Scene} {e : Happening}

section

variable {pid : Nat} {role : Role} {a a' : Agent} {w' : World} {op : Op} {r : Res op}

theorem open_of_unraced (hlive : v.Live pid role a)
    (hc : unraced v (.did pid role (.create (.metaPath m)) (.ok fd))) :
    a.enq = .saved m ∨ v.world.files (.metaPath m) ≠ none := by
  have hp : v.parties pid = some ⟨role, a⟩ := hlive
  simpa [unraced, hp, Option.isSome_iff_ne_none] using hc

variable (h : Pairs v)
include h

theorem unlink_of_unraced (hu : unlinks (.msgPath m) (.did p role op r))
    (hc : unraced v (.did p role op r)) : v.world.files (.metaPath m) = none ∧ ∀ {q role' b}, v.Live q role' b →
      ¬ (b.enq = .drawn m ∨ b.enq = .saved m) := by
  unfold unlinks at hu
  split at hu
  · rename_i heq
    cases heq
    obtain rfl := of_decide_eq_true hu
    simp only [unraced, and_eq_true, Option.isNone_iff_eq_none, not_eq_true', exists?_eq_false h.ids.bounded] at hc
    refine ⟨hc.1, fun {q role' b} hb hs => ?_⟩
    have hf := hc.2 q role' b hb
    rcases hs with hb | hb <;> simp [hb] at hf
  · cases hu

theorem Pairs.not_storing_of_copy (hlive : v.Live pid role a) (hc : a.copy = some (m, q))
    (hb : v.Live t role' b) : ¬ (b.enq = .drawn m ∨ b.enq = .saved m) := by
  have hk := (h.ids.known (.inr ⟨pid, role, a, hlive, .inl ⟨q, hc⟩⟩)).2 t role' b hb
  rintro (hd | hs)
  · exact hk.1 hd
  · exact hk.2 hs

theorem Pairs.stored_of_wrote (hlive : v.Live pid role a) (hmay : MayStore role a (.metaPath m) c) :
    ¬ ((a.wrote role (.metaPath m)).enq = .drawn m ∨ (a.wrote role (.metaPath m)).enq = .saved m) := by
  by_cases hs : a.enq = .saved m
  · rw [Agent.wrote_of_saved hs]
    rintro (hm | hm) <;> cases hm
  · obtain ⟨q, -, hmay⟩ := hmay
    rw [if_neg hs] at hmay
    obtain ⟨⟨q₀, hc, -⟩, -⟩ := hmay
    rw [Agent.wrote_of_not_saved hs]
    show ¬ (a.enq = .drawn m ∨ a.enq = .saved m)
    exact h.not_storing_of_copy hlive hc hlive

theorem Pairs.text_kept (hc : unraced v (.did pid role op r)) (hdeed : Deed role a v.world w' op r a')
    (hs : (v.world.files (.msgPath m)).isSome) (hn : v.world.files (.metaPath m) ≠ none ∨
      ∃ t role' b, v.Live t role' b ∧ (b.enq = .drawn m ∨ b.enq = .saved m)) : (w'.files (.msgPath m)).isSome := by
  rcases hdeed.kept hs pid with hs' | hu
  · exact hs'
  · obtain ⟨hno, hf⟩ := unlink_of_unraced h hu hc
    rcases hn with ht | ⟨t, role', b, hb, hst⟩
    · exact absurd hno ht
    · exact absurd hst (hf hb)

omit h

variable (hlive : v.Live pid role a) (hdeed : Deed role a v.world w' op r a')
include hlive hdeed

/-- Metadata is there after an operation because it was before, or because the process
that stores its message opened it. -/
theorem meta_appears (hc : unraced v (.did pid role op r)) (ht : w'.files (.metaPath m) ≠ none) :
    v.world.files (.metaPath m) ≠ none ∨ (a.enq = .saved m ∧ a.handle = none ∧
      ∃ fd, (⟨op, r⟩ : Σ op, Res op) = ⟨.create (.metaPath m), .ok fd⟩) := by
  by_cases hb : v.world.files (.metaPath m) = none
  · rcases hdeed.appears hb with hn | ⟨-, hh, fd, heq⟩
    · exact absurd hn ht
    · cases heq
      rcases open_of_unraced hlive hc with hs | hso
      · exact .inr ⟨hs, hh, fd, rfl⟩
      · exact .inl hso
  · exact .inl hb

variable (h : Pairs v)
include h

variable (hc : unraced v (.did pid role op r))
include hc

theorem Pairs.text_deed (ht : w'.files (.metaPath m) ≠ none) : (w'.files (.msgPath m)).isSome := by
  rcases meta_appears hlive hdeed hc ht with hb | ⟨hs, -⟩
  · exact h.text_kept hc hdeed (h.text hb) (.inl hb)
  · exact h.text_kept hc hdeed (h.store hlive (.inr hs)).1 (.inr ⟨pid, role, a, hlive, .inr hs⟩)

theorem Pairs.whole_deed (hf : w'.files (.metaPath m) = some f) :
    (∃ q, f.content = .record q) ∨ ∃ t role' b fd, (v.advance pid role a' e w').Live t role' b ∧
      b.handle = some (.metaPath m, fd) := by
  cases hdeed.impact (.metaPath m) with
  | spared hs hbe =>
    rw [hs] at hf
    rcases h.whole hf with hr | ⟨t, role', b, fd, hb, hfd⟩
    · exact .inl hr
    · refine .inr ⟨t, role', b, fd, live_other ?_ hb, hfd⟩
      rintro rfl
      obtain ⟨-, rfl⟩ := hlive.unique hb
      exact hbe fd hfd
  | opened fd => exact .inr ⟨pid, role, _, fd, live_self, a.opens_handle _ fd⟩
  | wrote fd c hh hmay hl =>
    rcases h.writers.blank hlive hh with hn | hbl
    · cases (hl.absent.mpr hn).symm.trans hf
    · rw [hl.blank rfl hbl] at hf
      obtain rfl := Option.some.inj hf
      obtain ⟨q, hq, -⟩ := hmay
      exact .inl ⟨q, hq⟩
  | botched => cases hc
  | unlinked _ _ _ hn => cases hn.symm.trans hf

theorem Pairs.taken_deed (ht : w'.files (.metaPath m) ≠ none) : drawn (v.log ++ [e]) m := by
  rcases meta_appears hlive hdeed hc ht with hb | ⟨hs, -⟩
  · exact drawn_append (h.taken hb) e
  · exact drawn_append (h.ids.owner hlive (by rw [hs]; rfl)) e

theorem Pairs.holds_on (hh : a.handle = some (.metaPath m, fd)) : ¬ (a'.enq = .drawn m ∨ a'.enq = .saved m) := by
  have hs : a.handle ≠ none := by simp [hh]
  cases hdeed.impact (.metaPath m) with
  | spared _ hb => exact absurd hh (hb fd)
  | opened _ hn | unlinked _ _ _ _ hn => exact absurd hn hs
  | wrote fd' c _ hmay => exact h.stored_of_wrote hlive hmay
  | botched => cases hc

omit hc

theorem Pairs.store_deed (hf : freshIds v (.did pid role op r)) (hc : unraced v (.did pid role op r))
    (hb : (v.advance pid role a' e w').Live t role' b) (hs : b.enq = .drawn m ∨ b.enq = .saved m) :
    (w'.files (.msgPath m)).isSome ∧ (w'.files (.metaPath m) = none ∨ ∃ fd, b.handle = some (.metaPath m, fd)) := by
  rcases hb.of_advance with ⟨rfl, rfl, rfl⟩ | ⟨ht, hb₀⟩
  · rcases hdeed.storing hs with hold | ⟨fd, heq⟩
    · obtain ⟨hso, hme⟩ := h.store hlive hold
      refine ⟨h.text_kept hc hdeed hso (.inr ⟨_, _, _, hlive, hold⟩), ?_⟩
      rcases hme with hn | ⟨fd, hh⟩
      · rcases hdeed.appears hn with hn' | ⟨-, -, fd, heq⟩
        · exact .inl hn'
        · cases heq
          cases hdeed with
          | quiet hno => cases hno
          | turned stage htu => cases htu
          | opened => exact .inr ⟨fd, rfl⟩
      · exact absurd hs (h.holds_on hlive hdeed hc hh)
    · -- the id is drawn now, so it had no metadata
      cases heq
      have hnew : drawn v.log m = false := by rwa [freshIds, not_eq_true'] at hf
      have hn : v.world.files (.metaPath m) = none := by
        by_contra hth
        cases (h.taken hth).symm.trans hnew
      cases hdeed with
      | quiet hno => cases hno
      | turned stage htu => cases htu
      | opened _ _ _ _ hfi =>
        rw [hfi, Function.update_self, Function.update_of_ne Path.noConfusion]
        exact ⟨rfl, .inl hn⟩
  · obtain ⟨hso, hme⟩ := h.store hb₀ hs
    refine ⟨h.text_kept hc hdeed hso (.inr ⟨t, _, _, hb₀, hs⟩), ?_⟩
    rcases hme with hn | hh
    · rcases hdeed.appears hn with hn' | ⟨-, -, fd, heq⟩
      · exact .inl hn'
      · cases heq
        rcases open_of_unraced hlive hc with hsa | hth
        · refine absurd (h.ids.sole hb₀ hlive ?_ (by rw [hsa]; rfl)) ht
          rcases hs with hm | hm <;> rw [hm] <;> rfl
        · exact absurd hn hth
    · exact .inr hh

theorem Pairs.gone_deed (hf : freshIds v (.did pid role op r)) (hc : unraced v (.did pid role op r))
    (hg : (v.log ++ [Event.did pid role op r]).any (unlinks (.metaPath m))) :
    drawn (v.log ++ [.did pid role op r]) m ∧ w'.files (.metaPath m) = none ∧ ∀ {t role' b},
    (v.did pid role op r a' w').Live t role' b → b.enq = .drawn m ∨ b.enq =
    .saved m → ∃ fd, b.handle = some (.metaPath m, fd) := by
  rw [List.any_append, or_eq_true] at hg
  rcases hg with hold | hnow
  · obtain ⟨hd, hno, ho⟩ := h.gone hold
    refine ⟨drawn_append hd _, ?_, fun {t role' b} hb hs => ?_⟩
    · by_contra hth
      rcases meta_appears hlive hdeed hc hth with hbe | ⟨hsa, hh, -⟩
      · exact hbe hno
      · obtain ⟨fd, hfd⟩ := ho hlive (.inr hsa)
        cases hh.symm.trans hfd
    · rcases hb.of_advance with ⟨rfl, rfl, rfl⟩ | ⟨ht, hb₀⟩
      · rcases hdeed.storing hs with hbe | ⟨fd, heq⟩
        · obtain ⟨fd, hfd⟩ := ho hlive hbe
          exact absurd hs (h.holds_on hlive hdeed hc hfd)
        · cases heq
          rw [freshIds, hd] at hf
          cases hf
      · exact ho hb₀ hs
  · have hu : unlinks (.metaPath m) (.did pid role op r) = true := by simpa using hnow
    unfold unlinks at hu
    split at hu
    · rename_i heq
      cases heq
      obtain rfl := of_decide_eq_true hu
      cases hdeed with
      | quiet hn => cases hn
      | turned stage htu => cases htu
      | unlinkedMeta _ hh _ hfil hfi =>
        refine ⟨drawn_append (h.taken hfi) _, by rw [hfil, Function.update_self], ?_⟩
        intro t role' b hb hs
        have hb₀ : v.Live t role' b := by
          rcases hb.of_advance with ⟨rfl, rfl, rfl⟩ | ⟨-, hb₀⟩
          · exact hlive
          · exact hb₀
        exact (h.store hb₀ hs).2.resolve_left hfi
    · cases hu

theorem Pairs.deed (hc : pairing v (.did pid role op r)) : Pairs (v.did pid role op r a' w') := by
  rw [pairing, and_eq_true, and_eq_true] at hc
  obtain ⟨hf, hs, hu⟩ := hc
  exact
    { ids := h.ids.deed hlive hdeed hf
      writers := h.writers.deed hlive hdeed hs
      text := h.text_deed hlive hdeed hu
      whole := h.whole_deed hlive hdeed hu
      taken := h.taken_deed hlive hdeed hu
      store := h.store_deed hlive hdeed hf hu
      gone := h.gone_deed hlive hdeed hf hu }

omit h

omit hlive in
theorem Pairs.unlisted (h : Pairs v) : unlisted v (.did pid role op r) := by
  unfold Relay.unlisted
  split
  · rename_i heq
    cases heq
    cases hdeed with
    | turned stage ht => cases ht
    | quiet hn => cases hn
    | readMeta id q ino _ hf =>
      rw [not_eq_true', ← not_eq_true]
      intro hg
      rw [h.ids.record hf] at hg
      rw [(h.gone hg).2.1] at hf
      cases hf
  · rfl

end

/-! ## Runs -/

theorem Pairs.frame (h : Pairs v) (hids : Ids v') (hw : Writers v')
    (hf : v'.world.files = v.world.files) (hlog : v'.log = v.log ++ [e]) (he : ∀ m, unlinks (.metaPath m) e = false)
    (hba : ∀ {q role b}, v'.Live q role b → v.Live q role b ∨ b = {})
    (ho : ∀ {q role b m fd}, v.Live q role b → b.handle = some (.metaPath m, fd) → v'.Live q role b) : Pairs v' := by
  have hd : ∀ {m}, drawn v.log m = true → drawn v'.log m = true := by
    intro m hm
    rw [hlog]
    exact drawn_append hm e
  refine ⟨hids, hw, ?_, ?_, ?_, ?_, ?_⟩
  · rw [hf]
    exact h.text
  · rw [hf]
    intro m f hfi
    rcases h.whole hfi with hr | ⟨q, role, b, fd, hb, hfd⟩
    · exact .inl hr
    · exact .inr ⟨q, role, b, fd, ho hb hfd, hfd⟩
  · rw [hf]
    exact fun ht => hd (h.taken ht)
  · rw [hf]
    intro q role b m hb hs
    rcases hba hb with hb | rfl
    · exact h.store hb hs
    · rcases hs with hm | hm <;> cases hm
  · rw [hf]
    intro m hg
    have hbe : v.log.any (unlinks (.metaPath m)) = true := by
      rw [hlog, List.any_append] at hg
      simpa [he m] using hg
    obtain ⟨hm, hn, hst⟩ := h.gone hbe
    refine ⟨hd hm, hn, fun {q role b} hb hs => ?_⟩
    rcases hba hb with hb | rfl
    · exact hst hb hs
    · rcases hs with hm | hm <;> cases hm

theorem Pairs.launch (h : Pairs v) (hids : Ids (v.launch (protocol cfg) role)) :
    Pairs (v.launch (protocol cfg) role) := by
  refine h.frame hids h.writers.launch rfl rfl (fun _ => rfl) (fun hb => ?_) fun hb _ => ?_
  · rcases hb.of_launch with hb | ⟨-, -, hb⟩
    · exact .inl hb
    · exact .inr hb
  · exact hb.launch h.ids.bounded

theorem Pairs.step (h : Pairs v) (hc : pairing v e) (hs : Step cfg v e v') : Pairs v' ∧ Relay.unlisted v e := by
  have hfr : freshIds v e = true := by
    rw [pairing, and_eq_true] at hc
    exact hc.1
  have hids := h.ids.step hfr hs
  cases hs with
  | began role => exact ⟨h.launch hids, rfl⟩
  | did pid role a op r a' w' hlive hdeed => exact ⟨h.deed hlive hdeed hc, h.unlisted hdeed⟩
  | spawned pid a id w' hlive hh hse hf => exact ⟨(h.deed hlive (.spawned id hh rfl hse hf) hc).launch hids, rfl⟩
  | ended pid role a x hlive he =>
    refine ⟨h.frame hids (h.writers.retire pid) rfl rfl (fun _ => rfl) (fun hb => ?_) ?_, rfl⟩
    · exact .inl hb.of_retire
    · intro q role' b m fd hb hfd
      refine live_retire.mpr ⟨?_, hb⟩
      rintro rfl
      obtain ⟨-, rfl⟩ := hlive.unique hb
      cases he.1.symm.trans hfd
  | crashed lost w' hf =>
    refine ⟨h.frame hids (h.writers.restart hf) hf rfl (fun _ => rfl) (fun hb => ?_) ?_, rfl⟩
    · exact .inl hb.of_restart
    · intro q role b m fd hb hfd
      simp only [pairing, unraced, and_eq_true, not_eq_true', exists?_eq_false h.ids.bounded] at hc
      have hk := hc.2.2 q role b hb
      rw [hfd] at hk
      exact live_restart.mpr ⟨hb, by simpa [Path.isMeta] using hk⟩

theorem pairs_plant : Pairs (plant cfg).view := by
  refine ⟨ids_plant, writers_plant, ?_, ?_, ?_, ?_, ?_⟩
  · exact fun ht => absurd rfl ht
  · exact nofun
  · exact fun ht => absurd rfl ht
  · exact of_live_plant
  · exact nofun

/-- **Pairing**, where neither an update nor a removal acts too late. -/
theorem paired_of_unraced {labels : Schedule} {s : Plant} (hrun : runRelay cfg labels = some s)
    (hmeets : runMeets cfg pairing labels = true) : Paired s.view ∧ runMeets cfg unlisted labels = true := by
  have hend := run_told (D := unlisted) Pairs pairs_plant (fun h hcond _ _ hstep => h.step hcond hstep) hrun hmeets
  exact ⟨hend.1.paired, hend.2⟩

def retryThenDelete : Schedule := receiving 0 ++
    .launch (.web (.retry firstId)) :: (acts 1 [.ok, .ok, .clock noon, .ok, .ok, .ok] ++ [.finish 1]) ++
    .launch (.web (.delete firstId)) :: (acts 2 [.ok, .ok, .ok, .ok, .ok] ++ [.finish 2])

theorem paired_retryThenDelete : ∃ s, runRelay smallRelay retryThenDelete = some s ∧
      s.log.any (unlinks (.metaPath firstId)) = true ∧
      Paired s.view ∧ runMeets smallRelay unlisted retryThenDelete = true := by
  obtain ⟨s, hs, hcheck⟩ : ∃ s, runRelay smallRelay retryThenDelete = some s ∧ s.log.any (unlinks (.metaPath firstId)) :=
    exists_of_any (by decide +kernel)
  exact ⟨s, hs, hcheck, paired_of_unraced hs (by decide +kernel)⟩

/-! ## A removed message that comes back -/

/-- A retry has read the metadata when the message is deleted, and goes on; a scan
lists the spool after that. -/
def deleteDuringRetry : Schedule :=
  receiving 0 ++ .launch (.web (.retry firstId)) :: acts 1 [.ok, .ok, .clock noon, .ok] ++
    .launch (.web (.delete firstId)) :: (acts 2 [.ok, .ok, .ok, .ok, .ok] ++ [.finish 2]) ++
    acts 1 [.ok, .ok] ++ [.finish 1] ++
    .launch .scan :: acts 3 [.listing [.ok (.metaPath firstId)], .ok]

/-- **An update brings a removed message back**: with the retry and the deletion done,
the metadata of the message is there without its text, and a listing returns it. -/
theorem update_resurrects : ∃ s, runRelay smallRelay deleteDuringRetry = some s ∧
      (s.world.files (.metaPath firstId)).isSome = true ∧
      (s.world.files (.msgPath firstId)).isSome = false ∧ ¬ Paired s.view ∧
      runMeets smallRelay unlisted deleteDuringRetry = false := by
  obtain ⟨s, hs, hremoved, hmeta, hmsg⟩ : ∃ s, runRelay smallRelay deleteDuringRetry = some s ∧
      s.log.any (unlinks (.metaPath firstId)) ∧ (s.world.files (.metaPath firstId)).isSome ∧
      (s.world.files (.msgPath firstId)).isSome = false := exists_of_any (by decide +kernel)
  refine ⟨s, hs, hmeta, hmsg, fun hpaired => ?_, by decide +kernel⟩
  have hnone : s.world.files (.metaPath firstId) = none := hpaired.gone hremoved
  rw [hnone] at hmeta
  cases hmeta

end ServerWall.Relay
