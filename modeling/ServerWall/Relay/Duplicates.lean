import ServerWall.Relay.Runs

/-!
# No duplicate delivery

A message that one task got accepted must not be handed over by another (`NoDuplicate`). The mark that it
is being delivered is overwritten by a retry, a release or a flush (`retry_duplicates`). It holds of runs
with one task for a message, and without a failure or a crash at its removal (`noDuplicate_of_oneTask`).
-/

namespace ServerWall.Relay

open List Bool Stage

/-! ## The property -/

def hands (m : Text) (pid : Nat) : Happening → Bool
  | .did t (.task id) (.sendStart _ _ _ _ _) _ => t = pid && id = m
  | _ => false

def succeeds (m : Text) (pid : Nat) : Happening → Bool
  | .did t (.task id) .sendWait (.success _) => t = pid && id = m
  | _ => false

def returns (m : Text) (pid : Nat) : Happening → Bool
  | .did t _ .sendWait _ => t = pid
  | .crashed lost => lost pid (.task m)
  | _ => false

def withSender (m : Text) (pid : Nat) (log : List Happening) : Bool :=
  log.foldl (fun b e => if hands m pid e then true else if returns m pid e then false else b) false

/-- No other task hands a message over from the moment a task hands it over
that will succeed, and none has it with the sender at that moment. -/
def NoDuplicate (log : List Happening) : Prop := ∀ m t before during after start success,
    log = before ++ start :: (during ++ success :: after) →
    hands m t start = true → succeeds m t success = true →
    (∀ e ∈ during, hands m t e = false) →
    ∀ t', t' ≠ t → withSender m t' before = false ∧ ∀ e ∈ during ++ after, hands m t' e = false

/-! ## The condition -/

/-- A task is started only for a message that has none, and the removal of a
delivered message is neither interrupted by a crash nor hit by a failing
operation. -/
def soleTask (v : Scene) : Happening → Bool
  | .did _ _ (.spawn m) _ => !v.exists? fun _ p => p.role = .task m
  | .did pid _ op r => (v.parties pid).all fun p => !(p.agent.stage = .delivered && fails op r)
  | .crashed lost => !v.exists? fun pid p => lost pid p.role && p.agent.stage = .delivered
  | _ => true

def oneTask (v : Scene) (e : Happening) : Bool := freshIds v e && soleTask v e

/-! ## Logs -/

theorem withSender_append (m : Text) (pid : Nat) (log : List Happening) (e : Happening) :
    withSender m pid (log ++ [e]) =
      if hands m pid e then true else if returns m pid e then false else withSender m pid log := by
  simp [withSender, foldl_append]

/-- The task `t` has had the message to itself since it handed it over last. -/
def Alone (m : Text) (t : Nat) (log : List Happening) : Prop :=
  ∀ before start during, log = before ++ start :: during → hands m t start = true →
    (∀ e ∈ during, hands m t e = false) →
    ∀ t', t' ≠ t → withSender m t' before = false ∧ ∀ e ∈ during, hands m t' e = false

/-- One event more: it hands over nothing another task has delivered, and if it
is a success then of a task that had the message to itself. -/
theorem NoDuplicate.append (h : NoDuplicate log) (hh : ∀ m t t', log.any (succeeds m t) → hands m t' e → t' = t)
    (hsu : ∀ m t, succeeds m t e → Alone m t log) : NoDuplicate (log ++ [e]) := by
  intro m t before during after start success hlog hst hs hd t' ht'
  rcases append_eq_cut hlog with ⟨hnil, -, -⟩ | ⟨rest, hr, hlog'⟩
  · cases during <;> cases hnil
  · rcases append_eq_cut hr.symm with ⟨rfl, rfl, rfl⟩ | ⟨after', rfl, rfl⟩
    · -- the success is the new event
      have ha := hsu m t hs before start _ hlog' hst hd t' ht'
      rwa [append_nil]
    · have hold := h m t before during after' start success hlog' hst hs hd t' ht'
      refine ⟨hold.1, fun x hx => ?_⟩
      rw [← append_assoc, mem_append, mem_singleton] at hx
      rcases hx with hx | rfl
      · exact hold.2 x hx
      · have hany : log.any (succeeds m t) = true := by
          rw [hlog']
          simp [hs]
        cases hx : hands m t' x with
        | false => rfl
        | true => exact absurd (hh m t t' hany hx) ht'

theorem hands_did (h : hands m t (.did pid role op r)) : pid = t ∧ role = .task m ∧
      ∃ addr hostname mailFrom rcptTo message, op = .sendStart addr hostname mailFrom rcptTo message := by
  unfold hands at h
  split at h
  · rename_i heq
    cases heq
    rw [and_eq_true, decide_eq_true_eq, decide_eq_true_eq] at h
    exact ⟨h.1, by rw [h.2], _, _, _, _, _, rfl⟩
  · cases h

theorem succeeds_did (h : succeeds m t (.did pid role op r)) : pid = t ∧ role = .task m ∧ op = .sendWait ∧
      returns m t (.did pid role op r) := by
  unfold succeeds at h
  split at h
  · rename_i heq
    cases heq
    rw [and_eq_true, decide_eq_true_eq, decide_eq_true_eq] at h
    exact ⟨h.1, by rw [h.2], rfl, decide_eq_true h.1⟩
  · cases h

variable {cfg : Config} {v : Scene} {e : Happening}

/-! ## The invariant -/

/-- The stages of a task that neither holds its message nor delivered it. -/
def Stage.idle : Stage → Bool
  | .loaded => false
  | .marked => false
  | .sending => false
  | .delivered => false
  | _ => true

/-- The message is gone for good: it has no `.msg` file and no task holds it. -/
def Gone (v : Scene) (m : Text) : Prop := v.world.files (.msgPath m) = none ∧
    ∀ t a, v.Live t (.task m) a → a.stage.idle = true

structure Once (v : Scene) : Prop where
  ids : Ids v
  single : ∀ {t a t' a' m}, v.Live t (.task m) a → v.Live t' (.task m) a' → t = t'
  /-- No operation failed on the way to a delivery or after it. -/
  clean : ∀ {t m a}, v.Live t (.task m) a → a.stage = .sending ∨ a.stage = .delivered → a.failed = false
  /-- What the sender has, it has from a task that waits for it. -/
  flight : ∀ {t m}, withSender m t v.log = true → ∃ a, v.Live t (.task m) a ∧ a.stage = .sending
  alone : ∀ {t m a}, v.Live t (.task m) a → a.stage = .sending → Alone m t v.log
  /-- A delivered message is being removed, or gone. -/
  done : ∀ {t m}, v.log.any (succeeds m t) = true → drawn v.log m = true ∧
    ((∃ t' a, v.Live t' (.task m) a ∧ a.stage = .delivered) ∨ Gone v m)
  once : NoDuplicate v.log

section

variable {pid : Nat} {role : Role} {a a' : Agent} {w' : World} {op : Op} {r : Res op}

theorem Deed.of_sendStart {addr : IpAddr} {hostname mailFrom : Text}
    {rcptTo : List Text} {message : Bytes} {r : Res (.sendStart addr hostname mailFrom rcptTo message)}
    (h : Deed role a w w' (.sendStart addr hostname mailFrom rcptTo message) r a') :
    a.stage = .marked ∧ a'.stage = .sending := by
  cases h with
  | quiet hn => cases hn
  | turned stage ht =>
    cases ht with
    | handed _ _ _ _ _ _ hs => exact ⟨hs, rfl⟩

theorem Deed.of_sendWait {r : DeliveryResult} (h : Deed role a w w' .sendWait r a') :
    a.stage = .sending ∧ ((∃ response, r = .success response) → a'.stage = .delivered) := by
  cases h with
  | quiet hn => cases hn
  | turned stage ht =>
    cases ht with
    | succeeded response hs => exact ⟨hs, fun _ => rfl⟩
    | refused _ hr hs =>
      refine ⟨hs, fun h => ?_⟩
      obtain ⟨response, h⟩ := h
      exact absurd h (hr response)

variable (h : Progress role a w w' op r a')
include h

theorem Progress.of_sending (hst : a.stage = .sending) : a'.stage = .sending ∨ op = .sendWait := by
  cases h with
  | stays hsa => exact .inl (hsa.trans hst)
  | turns ht =>
    generalize hs : a'.stage = s at ht
    cases ht <;> simp_all
  | rewrites id _ hsa => exact .inl (by rw [hsa, hst]; rfl)
  | removes id _ hd => simp [hst] at hd

theorem Progress.to_sending (hst : a'.stage = .sending) : (a.stage = .sending ∧ a'.failed = a.failed) ∨
      (a'.failed = false ∧ (∃ m, role = .task m) ∧ ∃ addr hostname mailFrom rcptTo message,
        op = .sendStart addr hostname mailFrom rcptTo message) := by
  cases h with
  | stays hsa hf =>
    rw [← hsa, hst] at hf
    exact .inl ⟨hsa ▸ hst, by simpa [critical] using hf⟩
  | turns ht hf =>
    rw [hst] at ht
    cases ht with
    | handed addr hostname mailFrom rcptTo message hro _ hc => exact .inr ⟨hf.trans hc, hro, _, _, _, _, _, rfl⟩
  | rewrites id _ hsa hf =>
    rw [hsa] at hst
    refine .inl ⟨?_, hf⟩
    cases hs : a.stage <;> simp [hs, rewritten] at hst
    rfl
  | removes id _ _ hr => simp [hr] at hst

theorem Progress.of_delivered (hst : a.stage = .delivered) : a'.stage = .delivered ∨
      (a'.stage = .removed ∧ ∃ id, role = .task id ∧ w'.files (.msgPath id) = none) := by
  cases h with
  | stays hsa => exact .inl (hsa.trans hst)
  | turns ht _ hfi =>
    generalize hs : a'.stage = s at ht
    cases ht with
    | absent id hr _ hf => exact .inr ⟨rfl, id, hr, by rw [hfi, hf]⟩
    | _ => simp_all
  | rewrites id _ hsa => exact .inl (by rw [hsa, hst]; rfl)
  | removes id hr _ hre hf => exact .inr ⟨hre, id, hr, hf⟩

theorem Progress.to_delivered (hst : a'.stage = .delivered) : (a.stage = .sending ∧ a'.failed = a.failed) ∨
      (a.stage = .delivered ∧ (fails op r = false → a'.failed = a.failed)) := by
  cases h with
  | stays hsa hf =>
    refine .inr ⟨hsa ▸ hst, fun hfi => ?_⟩
    rw [hf, hfi, Bool.and_false, Bool.or_false]
  | turns ht hf =>
    rw [hst] at ht
    cases ht with
    | succeeded response hse => exact .inl ⟨hse, hf⟩
  | rewrites id _ hsa hf =>
    rw [hsa] at hst
    refine .inr ⟨?_, fun _ => hf⟩
    cases hs : a.stage <;> simp [hs, rewritten] at hst
    rfl
  | removes id _ _ hr => simp [hr] at hst

theorem Progress.of_idle (hi : a.stage.idle) : a'.stage.idle ∨
      ∃ id f, role = .task id ∧ w.files (.msgPath id) = some f := by
  cases h with
  | stays hsa => exact .inl (by rw [hsa, hi])
  | turns ht =>
    generalize hs : a'.stage = s at ht
    cases ht with
    | loaded id f hr _ hf => exact .inr ⟨id, f, hr, hf⟩
    | _ => simp_all [idle]
  | rewrites id _ hsa => cases hs : a.stage <;> simp_all [idle, rewritten]
  | removes id _ hd => simp [hd, idle] at hi

omit h

theorem fine_of_oneTask (hc : oneTask v (.did pid role op r))
    (hlive : v.Live pid role a) (hs : a.stage = .delivered) : fails op r = false := by
  rw [oneTask, and_eq_true] at hc
  obtain ⟨-, hc⟩ := hc
  have hp : v.parties pid = some ⟨role, a⟩ := hlive
  cases op with
  | spawn id => rfl
  | _ => simpa [soleTask, hp, hs] using hc

theorem Once.clean_deed (h : Once v) (hc : oneTask v (.did pid role op r))
    (hlive : v.Live pid role a) (hp : Progress role a v.world w' op r a') (hb : (v.advance pid role a' e w').Live t (.task m) b)
    (hs : b.stage = .sending ∨ b.stage = .delivered) : b.failed = false := by
  rcases hb.of_advance with ⟨rfl, rfl, rfl⟩ | ⟨-, hb₀⟩
  · rcases hs with hs | hs
    · rcases hp.to_sending hs with ⟨hse, hf⟩ | ⟨hf, -⟩
      · exact hf.trans (h.clean hlive (.inl hse))
      · exact hf
    · rcases hp.to_delivered hs with ⟨hse, hf⟩ | ⟨hd, hf⟩
      · exact hf.trans (h.clean hlive (.inl hse))
      · exact (hf (fine_of_oneTask hc hlive hd)).trans (h.clean hlive (.inr hd))
  · exact h.clean hb₀ hs

variable (hlive : v.Live pid role a) (hdeed : Deed role a v.world w' op r a')
include hlive hdeed

theorem Once.flight_deed (h : Once v) (hw : withSender m t (v.log ++ [.did pid role op r])) :
    ∃ b, (v.did pid role op r a' w').Live t (.task m) b ∧ b.stage = .sending := by
  rw [withSender_append] at hw
  split at hw
  · rename_i hh
    obtain ⟨rfl, rfl, _, _, _, _, _, rfl⟩ := hands_did hh
    exact ⟨a', View.live_self, hdeed.of_sendStart.2⟩
  · split at hw
    · cases hw
    · rename_i hr
      obtain ⟨b, hb, hs⟩ := h.flight hw
      by_cases ht : t = pid
      · subst ht
        obtain ⟨rfl, rfl⟩ := hb.unique hlive
        refine ⟨a', View.live_self, ?_⟩
        rcases hdeed.progress.of_sending hs with hse | rfl
        · exact hse
        · exact absurd (decide_eq_true rfl) hr
      · exact ⟨b, View.live_other ht hb, hs⟩

theorem Once.alone_deed (h : Once v) (hb : (v.did pid role op r a' w').Live t (.task m) b)
    (hs : b.stage = .sending) : Alone m t (v.log ++ [.did pid role op r]) := by
  intro before start during hlog hst hd t' ht'
  rcases append_eq_cut hlog with ⟨rfl, rfl, rfl⟩ | ⟨during', rfl, hlog'⟩
  · -- the message is being handed over now: nobody else has a task for it
    refine ⟨?_, fun x hx => by cases hx⟩
    cases hwi : withSender m t' v.log with
    | false => rfl
    | true =>
      obtain ⟨c, hc, -⟩ := h.flight hwi
      obtain ⟨b₀, hb₀⟩ := View.live_back hlive hb
      exact absurd (h.single hc hb₀) ht'
  · -- it was handed over before
    have hsi : hands m t (.did pid role op r) = false := hd _ (mem_append.mpr (.inr (mem_singleton.mpr rfl)))
    obtain ⟨b₀, hb₀, hw⟩ : ∃ b₀, v.Live t (.task m) b₀ ∧ b₀.stage = .sending := by
      rcases hb.of_advance with ⟨rfl, rfl, rfl⟩ | ⟨-, hb₀⟩
      · rcases hdeed.progress.to_sending hs with ⟨hse, -⟩ | ⟨-, -, _, _, _, _, _, rfl⟩
        · exact ⟨a, hlive, hse⟩
        · simp [hands] at hsi
      · exact ⟨b, hb₀, hs⟩
    have hold := h.alone hb₀ hw before start during' hlog' hst (fun x hx => hd x (mem_append.mpr (.inl hx))) t' ht'
    refine ⟨hold.1, fun x hx => ?_⟩
    rcases mem_append.mp hx with hx | hx
    · exact hold.2 x hx
    · obtain rfl := mem_singleton.mp hx
      cases hh : hands m t' (.did pid role op r) with
      | false => rfl
      | true =>
        obtain ⟨rfl, rfl, -⟩ := hands_did hh
        exact absurd (h.single hlive hb₀) ht'

theorem Gone.deed (h : Gone v m) (hf : freshIds v (.did pid role op r))
    (hd : drawn v.log m) : Gone (v.did pid role op r a' w') m := by
  refine ⟨?_, fun t b hb => ?_⟩
  · rcases hdeed.msg_absent h.1 pid with hn | hdr
    · exact hn
    · cases (not_drawn_of_draws hf hdr).symm.trans hd
  · rcases hb.of_advance with ⟨rfl, rfl, rfl⟩ | ⟨-, hb₀⟩
    · rcases hdeed.progress.of_idle (h.2 t a hlive) with hi | ⟨id, f, hr, hfi⟩
      · exact hi
      · obtain rfl := Role.task.inj hr
        cases h.1.symm.trans hfi
    · exact h.2 t b hb₀

theorem Once.done_deed (h : Once v) (hf : freshIds v (.did pid role op r)) (hany : List.any (v.log ++ [.did pid role op r]) (succeeds m t)) :
    drawn (v.log ++ [.did pid role op r]) m ∧ ((∃ t' b, (v.did pid role op r a' w').Live t' (.task m) b ∧
        b.stage = .delivered) ∨ Gone (v.did pid role op r a' w') m) := by
  rw [any_append, or_eq_true] at hany
  rcases hany with hany | hany
  · obtain ⟨hd, hca⟩ := h.done hany
    refine ⟨drawn_append hd _, ?_⟩
    rcases hca with ⟨t', b, hb, hst⟩ | hg
    · by_cases ht : t' = pid
      · subst ht
        obtain ⟨rfl, rfl⟩ := hlive.unique hb
        rcases hdeed.progress.of_delivered hst with hsta | ⟨hr, id, hro, hfi⟩
        · exact .inl ⟨t', a', View.live_self, hsta⟩
        · obtain rfl := Role.task.inj hro
          refine .inr ⟨hfi, fun t'' c hc => ?_⟩
          rcases hc.of_advance with ⟨rfl, -, rfl⟩ | ⟨ht'', hc₀⟩
          · rw [hr]
            rfl
          · exact absurd (h.single hc₀ hlive) ht''
      · exact .inl ⟨t', b, View.live_other ht hb, hst⟩
    · exact .inr (hg.deed hlive hdeed hf hd)
  · -- the success is the new event
    have hs : succeeds m t (.did pid role op r) = true := by simpa using hany
    obtain ⟨rfl, rfl, rfl, -⟩ := succeeds_did hs
    have hk : Known v m := .inr ⟨pid, .task m, a, hlive, .inr (.inr rfl)⟩
    refine ⟨drawn_append (h.ids.known hk).1 _, .inl ⟨pid, a', View.live_self, ?_⟩⟩
    cases r with
    | success response => exact hdeed.of_sendWait.2 ⟨response, rfl⟩
    | tempFail error | permFail error => cases hs

theorem Once.deed (h : Once v) (hc : oneTask v (.did pid role op r)) : Once (v.did pid role op r a' w') := by
  have hf : freshIds v (.did pid role op r) = true := by
    rw [oneTask, and_eq_true] at hc
    exact hc.1
  constructor
  · exact h.ids.deed hlive hdeed hf
  · exact fun hb hb' => single_advance h.single hlive hb hb'
  · exact fun hb hs => h.clean_deed hc hlive hdeed.progress hb hs
  · exact fun hw => h.flight_deed hlive hdeed hw
  · exact fun hb hs => h.alone_deed hlive hdeed hb hs
  · exact fun hany => h.done_deed hlive hdeed hf hany
  · refine h.once.append (fun m t t' hany hh => ?_) fun m t hsu => ?_
    · -- a task that hands over is marked: its message was not delivered before
      obtain ⟨rfl, rfl, _, _, _, _, _, rfl⟩ := hands_did hh
      have hm := hdeed.of_sendStart.1
      rcases (h.done hany).2 with ⟨t'', b, hb, hs⟩ | hg
      · obtain rfl := h.single hb hlive
        obtain ⟨-, rfl⟩ := hb.unique hlive
        simp [hs] at hm
      · have hi := hg.2 pid a hlive
        simp [hm, idle] at hi
    · obtain ⟨rfl, rfl, rfl, -⟩ := succeeds_did hsu
      exact h.alone hlive hdeed.of_sendWait.1

end

/-! ## The other steps -/

theorem Alone.append (h : Alone m t log) (hq : ∀ t', hands m t' e = false) : Alone m t (log ++ [e]) := by
  intro before start during hlog hs hd t' ht'
  rcases append_eq_cut hlog with ⟨rfl, rfl, rfl⟩ | ⟨during', rfl, hlog'⟩
  · cases (hq t).symm.trans hs
  · have hold := h before start during' hlog' hs (fun x hx => hd x (mem_append.mpr (.inl hx))) t' ht'
    refine ⟨hold.1, fun x hx => ?_⟩
    rcases mem_append.mp hx with hx | hx
    · exact hold.2 x hx
    · rw [mem_singleton.mp hx]
      exact hq t'

theorem Once.frame (h : Once v) (hids : Ids v') (hlog : v'.log = v.log ++ [e]) (hfi : v'.world.files = v.world.files)
    (hh : ∀ m t, hands m t e = false) (hsu : ∀ m t, succeeds m t e = false)
    (hba : ∀ {q role b}, v'.Live q role b → v.Live q role b ∨ b = {})
    (hsi : ∀ {t b t' b' m}, v'.Live t (.task m) b → v'.Live t' (.task m) b' → t = t')
    (hf : ∀ {t m b}, returns m t e = false → v.Live t (.task m) b → b.stage = .sending → v'.Live t (.task m) b)
    (hk : ∀ {t m b}, v.Live t (.task m) b → b.stage = .delivered → v'.Live t (.task m) b) : Once v' := by
  constructor
  · exact hids
  · exact hsi
  · intro t m b hb hs
    rcases hba hb with hb | rfl
    · exact h.clean hb hs
    · rcases hs with hs | hs <;> cases hs
  · intro t m hw
    rw [hlog, withSender_append, hh, if_neg Bool.false_ne_true] at hw
    split at hw
    · cases hw
    · rename_i hr
      obtain ⟨b, hb, hs⟩ := h.flight hw
      exact ⟨b, hf (Bool.not_eq_true _ ▸ hr) hb hs, hs⟩
  · intro t m b hb hs
    rcases hba hb with hb | rfl
    · rw [hlog]
      exact (h.alone hb hs).append fun _ => hh _ _
    · cases hs
  · intro t m hany
    rw [hlog] at hany ⊢
    obtain ⟨hd, hc⟩ := h.done (by simpa [hsu m t] using hany)
    refine ⟨drawn_append hd _, ?_⟩
    rcases hc with ⟨t', b, hb, hs⟩ | ⟨hfil, hi⟩
    · exact .inl ⟨t', b, hk hb hs, hs⟩
    · refine .inr ⟨hfi ▸ hfil, fun t' b hb => ?_⟩
      rcases hba hb with hb | rfl
      · exact hi t' b hb
      · rfl
  · rw [hlog]
    refine h.once.append (fun m t t' _ hx => ?_) fun m t hx => ?_
    · rw [hh] at hx
      cases hx
    · rw [hsu] at hx
      cases hx

theorem Once.launch (h : Once v) (hr : ∀ m, role = .task m → Known v m ∧ ∀ t a, ¬ v.Live t (.task m) a) :
    Once (v.launch (protocol cfg) role) := by
  refine h.frame (h.ids.launch fun m hm => (hr m hm).1) rfl rfl (fun _ _ => rfl) (fun _ _ => rfl) (fun hb => ?_)
    (fun hb hb' => single_launch h.single (fun m hm => (hr m hm).2) hb hb')
    (fun _ hb _ => hb.launch h.ids.bounded) fun hb _ => hb.launch h.ids.bounded
  exact (hb.of_launch).imp_right fun hnew => hnew.2.2

theorem Once.retire (h : Once v) (hlive : v.Live pid role a) (he : Ends cfg role a x) :
    Once (v.retire pid (.ended pid role x)) := by
  -- the process that ends is neither with the sender nor done with a delivery
  have hk : ∀ {t m b}, v.Live t (.task m) b → b.stage = .sending ∨ b.stage = .delivered →
      (v.retire pid (.ended pid role x)).Live t (.task m) b := by
    intro t m b hb hst
    refine View.live_retire.mpr ⟨fun ht => ?_, hb⟩
    subst ht
    obtain ⟨rfl, rfl⟩ := hlive.unique hb
    obtain ⟨hse, hd, -⟩ := he.2.1 m rfl
    rcases hst with hs | hs
    · exact hse hs
    · have hf := hd hs
      cases (h.clean hb (.inr hs)).symm.trans hf
  exact h.frame (h.ids.retire pid) rfl rfl (fun _ _ => rfl) (fun _ _ => rfl)
    (fun hb => .inl hb.of_retire) (fun hb hb' => h.single hb.of_retire hb'.of_retire)
    (fun _ hb hst => hk hb (.inl hst)) fun hb hst => hk hb (.inr hst)

theorem Once.restart (h : Once v) {lost : Nat → Role → Bool}
    (hc : oneTask v (.crashed lost)) (hf : w'.files = v.world.files) : Once (v.restart lost w') := by
  refine h.frame (h.ids.restart hf) rfl hf (fun _ _ => rfl) (fun _ _ => rfl)
    (fun hb => .inl hb.of_restart) (fun hb hb' => h.single hb.of_restart hb'.of_restart)
    (fun hk hb _ => View.live_restart.mpr ⟨hb, hk⟩) fun {t m b} hb hs => ?_
  rw [oneTask, and_eq_true, soleTask, not_eq_true', View.exists?_eq_false h.ids.bounded] at hc
  have hk : lost t (.task m) = false := by simpa [hs] using hc.2 t (.task m) b hb
  exact View.live_restart.mpr ⟨hb, hk⟩

theorem Once.step (h : Once v) (hc : oneTask v e) (hst : Step cfg v e v') : Once v' := by
  cases hst with
  | began role hr => exact h.launch fun m hm => absurd hm (hr m)
  | did pid role a op r a' w' hlive hdeed => exact h.deed hlive hdeed hc
  | spawned pid a id w' hlive hh hs hf =>
    refine (h.deed hlive (.spawned id hh rfl hs hf) hc).launch fun m hm => ?_
    obtain rfl := Role.task.inj hm
    refine ⟨.inr ⟨pid, .scan, a, View.live_self, .inr (.inl hs)⟩, fun t b hb => ?_⟩
    obtain ⟨b₀, hb₀⟩ := View.live_back hlive hb
    rw [oneTask, and_eq_true] at hc
    have hfr : v.exists? (fun _ p => p.role = .task id) = false := by simpa [soleTask] using hc.2
    have hb' := (View.exists?_eq_false h.ids.bounded).mp hfr t _ b₀ hb₀
    simp at hb'
  | ended pid role a x hlive he => exact h.retire hlive he
  | crashed lost w' hf => exact h.restart hc hf

theorem once_plant : Once (plant cfg).view := by
  constructor
  · exact ids_plant
  · exact of_live_plant
  · exact of_live_plant
  · intro t m h
    cases h
  · exact of_live_plant
  · intro t m h
    cases h
  · intro m t before during after start success hlog
    have hlen := congrArg List.length hlog
    simp [plant, System.view] at hlen

/-- **No duplicate delivery with one task per message.** -/
theorem noDuplicate_of_oneTask {labels : Schedule} {s : Plant}
    (hrun : runRelay cfg labels = some s) (hmeets : runMeets cfg oneTask labels = true) : NoDuplicate s.log :=
  (run_invariant Once once_plant Once.step hrun hmeets).once

def oneDelivery : Schedule := receiving 0 ++ scanning 1 ++ loading 2 ++ marking 2 ++ handing 2 ++ finishing 2

theorem noDuplicate_oneDelivery : ∃ s, runRelay smallRelay oneDelivery = some s ∧
      (s.log.any (succeeds firstId 2) = true ∧ NoDuplicate s.log) := by
  obtain ⟨s, hs, hcheck⟩ : ∃ s, runRelay smallRelay oneDelivery = some s ∧ s.log.any (succeeds firstId 2) :=
    exists_of_any (by decide +kernel)
  exact ⟨s, hs, hcheck, noDuplicate_of_oneTask hs (by decide +kernel)⟩

/-! ## The relay as it is -/

/-- At these places of the log the task `t` hands the message over and succeeds,
and another task hands it over in between or later. -/
def clashAt (m : Text) (t t' i j : Nat) (log : List Happening) : Bool :=
  match log.drop i with
  | [] => false
  | start :: rest => match rest.drop j with
    | [] => false
    | success :: after =>
      hands m t start && succeeds m t success && (rest.take j).all (fun e => !hands m t e) &&
        (rest.take j ++ after).any (hands m t')

theorem not_noDuplicate_of_clashAt (ht : t' ≠ t) (h : clashAt m t t' i j log) : ¬ NoDuplicate log := by
  intro hno
  unfold clashAt at h
  split at h
  · cases h
  · rename_i start rest hdr
    split at h
    · cases h
    · rename_i success after hr
      simp only [and_eq_true, all_eq_true, any_eq_true, not_eq_true'] at h
      obtain ⟨⟨⟨hst, hs⟩, hd⟩, e, he, hh⟩ := h
      have hlog : log = log.take i ++ start :: (rest.take j ++ success :: after) := by
        rw [← hr, take_append_drop, ← hdr, take_append_drop]
      have hq := (hno m t _ _ _ start success hlog hst hs hd t' ht).2 e he
      cases hh.symm.trans hq

/-- While the first task waits for the remote host an administrator asks for a
retry; the next scan starts a second task, which hands the message over too. -/
def retryDuringDelivery : Schedule := receiving 0 ++ scanning 1 ++ loading 2 ++ marking 2 ++ handing 2 ++
  .launch (.web (.retry firstId)) :: acts 3 [.ok, .ok, .clock noon, .ok, .ok, .ok] ++
  .finish 3 :: scanning 4 ++ loading 5 ++ marking 5 ++ handing 5 ++ finishing 2

/-- **A retry during a delivery duplicates the message.** -/
theorem retry_duplicates : ∃ s, runRelay smallRelay retryDuringDelivery = some s ∧ ¬ NoDuplicate s.log := by
  obtain ⟨s, hs, hcheck⟩ : ∃ s, runRelay smallRelay retryDuringDelivery = some s ∧ clashAt firstId 2 5 25 23 s.log :=
    exists_of_any (by decide +kernel)
  exact ⟨s, hs, not_noDuplicate_of_clashAt (by decide) hcheck⟩

end ServerWall.Relay
