import ServerWall.Relay.Docket

/-!
# The code keeps to the docket

The specifications of the functions a delivery task consists of, on the docket: what each may assume
of it and what it leaves there (`task_docket`, `receiveMessage_docket`). Most end in `Quiet`: no
random bits were drawn, so no bounce is due.
-/

namespace ServerWall.Relay

open Protocol BounceGenerator List Case

variable {role : Role} {d : Docket}

theorem docket_op (op : Op) {post : Docket → Res op → Prop} (hd : d.DraftMay op)
    (ht : ∀ m, role = .task m → d.TaskMay cfg op) (hp : ∀ r, post (d.track op r) r) :
    (docket cfg).Follows role (perform op) d post :=
  ⟨⟨hd, ht⟩, hp⟩

theorem docket_free {post : Docket → Res op → Prop} (hd : d.DraftMay op)
    (ht : d.TaskMay cfg op) (hp : ∀ r, post (d.track op r) r) : (docket cfg).Follows role (perform op) d post :=
  docket_op op hd (fun _ _ => ht) hp

theorem docket_trace (hd : d.DraftMay (.trace line)) (hp : post d ()) :
    (docket cfg).Follows role (trace line) d post := by
  refine docket_free hd trivial fun _ => ?_
  have hs : d.track (.trace line) () = d := by simp [Docket.track, Case.after, Docket.clears, Docket.trips]
  rwa [hs]

/-! ## Removing -/

variable (he : ∀ m, role = .task m → d.Exit cfg)
include he

theorem removeFile_docket : (docket cfg).Follows role (removeFile p message).run d fun d' r =>
      d'.toCase = d.toCase ∧ (r.toBool = false → d'.stumbled) ∧ ((∃ id, p = .msgPath id) → d'.removed ∨ d'.stumbled) := by
  refine follows_lift_bind.mpr (follows_bind.mpr (docket_free trivial trivial fun r => ?_))
  cases r with
  | error e =>
    have hs : (d.track (.stat p) (.error e)).stumbled = true := by simp [Docket.track, Docket.trips]
    exact ⟨rfl, fun _ => hs, fun _ => .inr hs⟩
  | ok there =>
    cases there with
    | false =>
      refine ⟨rfl, fun h => Bool.noConfusion h, fun h => ?_⟩
      obtain ⟨id, rfl⟩ := h
      simp [Docket.track, Docket.clears]
    | true =>
      refine follows_withContext.mpr (docket_op _ trivial he fun r => ?_)
      cases r with
      | error e =>
        have hs : ((d.track (.stat p) (.ok true)).track (.unlink p) (.error e)).stumbled = true := by
          simp [Docket.track, Docket.trips]
        exact ⟨rfl, fun _ => hs, fun _ => .inr hs⟩
      | ok u =>
        refine ⟨rfl, fun h => Bool.noConfusion h, fun h => ?_⟩
        obtain ⟨id, rfl⟩ := h
        simp [Docket.track, Docket.clears]

theorem remove_docket : (docket cfg).Follows role (remove m).run d fun d' _ => d'.removed ∨ d'.stumbled := by
  refine follows_exceptT_bind.mpr ((removeFile_docket he).mono fun d₁ r h₁ => ?_)
  obtain ⟨hc, hf, -⟩ := h₁
  cases r with
  | error e => exact .inr (hf rfl)
  | ok u =>
    have he₁ : ∀ m, role = .task m → d₁.Exit cfg := fun m hm => hc ▸ he m hm
    refine follows_exceptT_bind.mpr ((removeFile_docket he₁).mono fun d₂ r h₂ => ?_)
    obtain ⟨-, -, hg⟩ := h₂
    cases r with
    | error e => exact hg ⟨m, rfl⟩
    | ok u => exact follows_lift.mpr (docket_trace trivial (hg ⟨m, rfl⟩))

omit he

/-! ## Storing -/

/-- What was learnt of a message, and the moment of its bounce, stay on the
docket. -/
structure Case.Kept (c c' : Case) : Prop where
  loaded : c'.loaded = c.loaded
  text : c'.text = c.text
  resolved : c'.resolved = c.resolved
  verdict : c'.verdict = c.verdict
  stamp : c.randoms ≠ [] → c'.stamp = c.stamp
  randoms : c.randoms <+: c'.randoms

theorem Case.Kept.trans {c c' c'' : Case} (h : c.Kept c') (h' : c'.Kept c'') : c.Kept c'' where
  loaded := h'.loaded.trans h.loaded
  text := h'.text.trans h.text
  resolved := h'.resolved.trans h.resolved
  verdict := h'.verdict.trans h.verdict
  stamp hne := by
    have hne' : c'.randoms ≠ [] := fun hnil => hne (prefix_nil.mp (hnil ▸ h.randoms))
    exact (h'.stamp hne').trans (h.stamp hne)
  randoms := h.randoms.trans h'.randoms

theorem Case.Kept.headers {c c' : Case} (h : c.Kept c') (cfg : Config) :
    c'.headers cfg = c.headers cfg ∧ c'.error = c.error := by
  constructor
  · rw [Case.headers, Case.returned, h.verdict, h.text]
    rfl
  · rw [Case.error, h.verdict, h.resolved, h.loaded]
    rfl

theorem Case.kept_opens (c : Case) (p : Path) : c.Kept (c.opens p) := by
  cases p with
  | msgPath id => exact ⟨rfl, rfl, rfl, rfl, fun _ => rfl, prefix_rfl⟩
  | metaPath id =>
    unfold opens
    dsimp only
    split <;> exact ⟨rfl, rfl, rfl, rfl, fun _ => rfl, prefix_rfl⟩

theorem Case.opens_record {c : Case} (p : Path) : (c.opens p).draft.record = c.draft.record := by
  cases p with
  | msgPath id => rfl
  | metaPath id =>
    unfold opens
    dsimp only
    split <;> rfl

theorem Case.kept_misses (c : Case) : c.Kept c.misses := ⟨rfl, rfl, rfl, rfl, fun _ => rfl, prefix_rfl⟩

theorem writeFile_docket {p : Path} {content : Content} (hc : d.DraftMay (.create p))
    (hw : ∀ m, role = .task m → ∀ fd, (d.opens p).TaskMay cfg (.write p fd content))
    (hok : ∀ d' : Docket, d'.toCase = (d.opens p).writes p content → post d' (.ok ()))
    (he : ∀ (d' : Docket) e, d.toCase.Kept d'.toCase → d'.randoms = d.randoms →
      d'.draft.failed → d'.draft.record = d.draft.record → post d' (.error e)) :
    (docket cfg).Follows role (writeFile p content) d post := by
  refine follows_bind.mpr (docket_free hc trivial fun r => ?_)
  cases r with
  | error e => exact he _ e d.kept_misses rfl rfl rfl
  | ok fd =>
    refine docket_op (.write p fd content) trivial (fun m hm => hw m hm fd) fun r => ?_
    cases r with
    | ok u => exact hok _ rfl
    | error e =>
      exact he _ e ((d.kept_opens p).trans (kept_misses _)) (opens_fields p).2.2.2 rfl (opens_record p)

structure Case.MayBounce (c : Case) (q : QueuedMessage) : Prop where
  loaded : c.loaded = some q
  text : c.text.isSome
  sender : isNullSender q.envelope.mailFrom = false

theorem enqueue_docket {envelope : Envelope} {message : Bytes} (hdr : d.draft = {})
    (ht : ∀ m, role = .task m → ∃ q, d.MayBounce q ∧ envelope = bounceEnvelope cfg q) :
    (docket cfg).Follows role (enqueue envelope message).run d fun d' _ =>
      d.toCase.Kept d'.toCase ∧ (d'.draft.failed → d'.draft.record = none) ∧
        (d'.draft.failed = false → d'.draft.text = some message ∧
          ∃ q', d'.draft.record = some q' ∧ q'.envelope = envelope) := by
  refine follows_lift_bind.mpr ?_
  rw [generateQueueId_eq]
  refine follows_bind.mpr (docket_free trivial trivial fun ts => ?_)
  have hu : ∀ m, role = .task m → (d.track .now ts).TaskMay cfg .uuid := by
    intro m hm
    obtain ⟨q, hq, -⟩ := ht m hm
    exact ⟨q, hq.loaded, hq.text, hq.sender⟩
  refine follows_bind.mpr (docket_op _ trivial hu fun random => ?_)
  refine follows_lift_bind.mpr (docket_free trivial trivial fun now => ?_)
  -- the draft is empty up to here, and what was learnt is kept
  set d₁ := ((d.track .now ts).track .uuid random).track .now now with hd₁
  have hdr₁ : d₁.draft = {} := hdr
  have hk₁ : d.toCase.Kept d₁.toCase := by
    refine ⟨rfl, rfl, rfl, rfl, fun hne => ?_, prefix_append _ _⟩
    exact if_neg hne
  refine follows_exceptT_bind.mpr (follows_withContext.mpr (writeFile_docket ?_ ?_ ?_ ?_))
  · exact ⟨by rw [hdr₁], ts, random, rfl⟩
  · intro m _ fd
    trivial
  · intro d₂ hd₂
    have hid₂ : d₂.draft.id = some (queueId ts random) := by rw [hd₂]; rfl
    have ho₂ : d₂.draft.opened = false := by
      rw [hd₂]
      exact congrArg Draft.opened hdr₁
    have ht₂ : d₂.draft.text = some message := by rw [hd₂]; rfl
    have hn₂ : d₂.draft.record = none ∧ d₂.draft.failed = false := by
      rw [hd₂]
      exact ⟨congrArg Draft.record hdr₁, congrArg Draft.failed hdr₁⟩
    have hk₂ : d.toCase.Kept d₂.toCase := by
      rw [hd₂]
      exact hk₁.trans ⟨rfl, rfl, rfl, rfl, fun _ => rfl, prefix_rfl⟩
    refine follows_exceptT_bind.mpr (follows_withContext.mpr (writeFile_docket ?_ ?_ ?_ ?_))
    · exact fun _ => ho₂
    · intro m hm fd
      obtain ⟨q, hq, henv⟩ := ht m hm
      rw [opens_draft hid₂]
      refine ⟨q, _, ?_, rfl, ?_⟩
      · exact hk₂.loaded.trans hq.loaded
      · rwa [if_pos hid₂]
    · intro d₃ hd₃
      rw [opens_draft hid₂,
        writes_draft (c := { d₂.toCase with draft := { d₂.draft with opened := true } }) hid₂]
        at hd₃
      have hid₃ : d₃.draft.id = some (queueId ts random) := by rw [hd₃]; exact hid₂
      refine follows_lift_bind.mpr (docket_trace hid₃ ⟨?_, fun hf => ?_, fun _ => ⟨?_, ?_⟩⟩)
      · rw [hd₃]
        exact hk₂.trans ⟨rfl, rfl, rfl, rfl, fun _ => rfl, prefix_rfl⟩
      · rw [hd₃] at hf
        rw [show d₂.draft.failed = true from hf] at hn₂
        cases hn₂.2
      · rwa [hd₃]
      · rw [hd₃]
        exact ⟨_, rfl, rfl⟩
    · intro d₃ e hk _ hf hr
      exact ⟨hk₂.trans hk, fun _ => hr.trans hn₂.1, fun hfi => by rw [hf] at hfi; cases hfi⟩
  · intro d₂ e hk _ hf hr
    exact ⟨hk₁.trans hk, fun _ => hr.trans (congrArg Draft.record hdr₁), fun hfi => by rw [hf] at hfi; cases hfi⟩

/-! ## Giving up -/

/-- The docket of a task that has marked its message and has nothing stored. -/
structure Case.Working (c : Case) (q : QueuedMessage) : Prop where
  loaded : c.loaded = some q
  text : c.text.isSome
  marked : c.marked = true
  randoms : c.randoms = []
  draft : c.draft = {}

theorem Case.Working.read {c : Case} {q : QueuedMessage} (h : c.Working q) (t : Instant) :
    Working { c with readings := c.readings ++ [t] } q :=
  ⟨h.loaded, h.text, h.marked, h.randoms, h.draft⟩

theorem bounce_docket {q : QueuedMessage} (hw : d.Working q) :
    (docket cfg).Follows (.task m) (bounce cfg q.envelope d.error d.returned) d fun d' _ =>
      d'.Exit cfg := by
  refine follows_bind.mpr ?_
  unfold BounceGenerator.generate
  split
  · rename_i hn
    exact follows_bind.mpr (docket_trace trivial (.dropped q hw.loaded hn))
  · rename_i hs
    rw [Bool.not_eq_true] at hs
    refine follows_bind.mpr (docket_free trivial trivial fun t => ?_)
    have hu : (d.track .now t).TaskMay cfg .uuid := ⟨q, hw.loaded, hw.text, hs⟩
    refine follows_bind.mpr (docket_free trivial hu fun u => ?_)
    set d₁ := (d.track .now t).track .uuid u with hd₁
    have hsta : d₁.stamp = some t := by
      show (if d.randoms = [] then (d.readings ++ [t]).getLast? else d.stamp) = some t
      rw [if_pos hw.randoms, getLast?_concat]
    have hra : d₁.randoms = [u] := by
      show d.randoms ++ [u] = [u]
      rw [hw.randoms, nil_append]
    refine follows_bind.mpr ((enqueue_docket (d := d₁) hw.draft fun m' _ => ⟨q, ⟨hw.loaded, hw.text, hs⟩, rfl⟩).mono fun d' r hr => ?_)
    obtain ⟨hk, hl, hst⟩ := hr
    obtain ⟨hh, he⟩ := hk.headers cfg
    refine .bounced q (hk.loaded.trans hw.loaded) ⟨hs, hl, t, u, ?_, ?_, fun hf => ?_⟩
    · exact (hk.stamp (by rw [hra]; exact cons_ne_nil _ _)).trans hsta
    · obtain ⟨rest, hres⟩ := hk.randoms
      rw [← hres, hra]
      rfl
    · obtain ⟨ht, q', hre, henv⟩ := hst hf
      rw [hh, he]
      exact ⟨ht, q', hre, henv⟩

/-- A task that is through: whoever generated a bounce has removed its message. -/
def Docket.Done (d : Docket) : Prop := d.randoms ≠ [] → d.removed = true ∨ d.stumbled = true

theorem bounceRemove_docket (hw : d.Working q) : (docket cfg).Follows (.task m) ((do
      (bounce cfg q.envelope d.error d.returned : Fallible Unit)
      remove m) : Fallible Unit).run d fun d' _ => d'.Done := by
  refine follows_lift_bind.mpr ((bounce_docket hw).mono fun d₁ _ he => ?_)
  refine (remove_docket fun _ _ => he).mono ?_
  intro d' _ hg _
  exact hg

/-! ## Rewriting -/

theorem track_reread {id : Text} {r : Except IoError Content} (h : d.loaded.isSome) :
    d.track (.read (.metaPath id)) r = d := by
  obtain ⟨q, hq⟩ := Option.isSome_iff_exists.mp h
  cases r with
  | error e => simp [Docket.track, Case.after, Docket.clears, Docket.trips]
  | ok content =>
    cases content with
    | record q' =>
      have hs : d.toCase.after (.read (.metaPath id)) (.ok (.record q')) = d.toCase := by
        show { d.toCase with loaded := some (d.loaded.getD q') } = d.toCase
        rw [hq, Option.getD_some, ← hq]
      simp [Docket.track, hs, Docket.clears, Docket.trips]
    | blank | text b | torn => simp [Docket.track, Case.after, Docket.clears, Docket.trips]

theorem updateMetadata_docket (hl : d.loaded = some q) (hd : d.draft = {}) (hr : d.randoms = [])
    (hre : ∀ q', q'.metadata = metadata → d.Rewrite cfg q q') :
    (docket cfg).Follows (.task m) (updateMetadata m metadata).run d fun d' r =>
      d'.randoms = [] ∧ (r.toBool → d'.toCase = { d.toCase with marked := true }) := by
  refine follows_exceptT_bind.mpr (follows_withContext.mpr (docket_free trivial trivial fun r => ?_))
  rw [track_reread (by rw [hl]; rfl)]
  cases r with
  | error e => exact ⟨hr, fun h => Bool.noConfusion h⟩
  | ok content =>
    refine follows_exceptT_bind.mpr ?_
    unfold parseMetadata
    cases content.parse with
    | none => exact ⟨hr, fun h => Bool.noConfusion h⟩
    | some q₀ =>
      have hid : d.draft.id ≠ some m := by
        rw [hd]
        exact Option.some_ne_none _ |>.symm
      refine follows_withContext.mpr (writeFile_docket ?_ ?_ ?_ ?_)
      · exact fun h => absurd h hid
      · intro _ _ fd
        rw [opens_other hid]
        refine ⟨q, _, hl, rfl, ?_⟩
        rw [if_neg hid]
        exact hre _ rfl
      · intro d' hd'
        rw [opens_other hid, writes_other hid] at hd'
        exact ⟨by rw [hd']; exact hr, fun _ => hd'⟩
      · intro d' e _ hs _ _
        exact ⟨hs.trans hr, fun h => Bool.noConfusion h⟩

/-! ## Delivering -/

structure Attempted (q queued : QueuedMessage) : Prop where
  envelope : queued.envelope = q.envelope
  attempts : queued.metadata.attempts = q.metadata.attempts + 1
  created : queued.metadata.created = q.metadata.created

theorem handleTempFail_docket {q queued : QueuedMessage} (hw : d.Working q)
    (hr : d.readings = []) (hre : d.returned = []) (hq : Attempted q queued) :
    (docket cfg).Follows (.task m) (handleTempFail cfg m d.error queued).run d fun d' _ =>
      d'.Done := by
  refine follows_lift_bind.mpr (follows_bind.mpr (docket_free trivial trivial fun t => ?_))
  set d₁ := d.track .now t with hd₁
  have hw₁ : d₁.Working q := hw.read t
  have hb : (docket cfg).Follows (.task m) ((do
      (bounce cfg queued.envelope d.error [] : Fallible Unit)
      remove m) : Fallible Unit).run d₁ fun d' _ => d'.Done := by
    rw [hq.envelope, ← hre]
    exact bounceRemove_docket hw₁
  show (docket cfg).Follows (.task m) (ExceptT.run (if _ then _ else _)) d₁ _
  split
  · exact follows_lift_bind.mpr (docket_trace trivial hb)
  · rename_i hy
    rw [decide_eq_true_eq, hq.created] at hy
    refine follows_exceptT_bind.mpr ?_
    unfold RetryScheduler.nextRetryTime
    split
    · exact follows_lift_bind.mpr (docket_trace trivial hb)
    · rename_i hf
      refine follows_lift_bind.mpr (docket_free trivial trivial fun t' => ?_)
      set d₂ := d₁.track .now t' with hd₂
      have hw₂ : d₂.Working q := hw₁.read t'
      have hi : d₂.Done := fun h => absurd hw₂.randoms h
      split
      · rename_i next hnext
        refine follows_exceptT_bind.mpr ((updateMetadata_docket hw₂.loaded hw₂.draft hw₂.randoms ?_).mono fun d' r h => ?_)
        · intro q' hq'
          refine .inr ⟨hw₂.marked, ?_⟩
          constructor
          · rw [hq']
          · rw [hq', ← hq.attempts]
          · rw [← hq.attempts]
            exact UInt32.not_le.mp hf
          · rw [hq', ← hq.created]
          · refine ⟨t, [t'], ?_, by omega⟩
            show (d.readings ++ [t]) ++ [t'] = _
            rw [hr]
            rfl
          · refine ⟨t', getLast?_concat, ?_⟩
            rwa [hq']
        · have hd : d'.Done := fun hne => absurd h.1 hne
          cases r with
          | error e => exact hd
          | ok u => exact follows_lift.mpr (docket_trace trivial hd)
      · exact hi

structure Case.Trying (c : Case) (q queued : QueuedMessage) (message : Bytes)
    (hosts : List MxHost) : Prop where
  working : c.Working q
  message : c.text = some message
  resolved : c.resolved = some (recipientDomain q.envelope, .ok hosts)
  readings : c.readings = []
  attempted : Attempted q queued
  error : queued.metadata.lastError.getD [] = c.error
  verdict : c.verdict = none ∨ ∃ e, c.verdict = some (.tempFail e)

theorem Case.Trying.returned {c : Case} {q queued : QueuedMessage} {message : Bytes}
    {hosts : List MxHost} (h : c.Trying q queued message hosts) : c.returned = [] := by
  unfold Case.returned
  rcases h.verdict with hv | ⟨e, hv⟩ <;> rw [hv]

theorem tryTargets_docket : ∀ (rest : List (MxHost × IpAddr)), rest ⊆ targets hosts → ∀ (d : Docket) queued,
      d.Trying q queued message hosts →
      (docket cfg).Follows (.task m) (tryTargets cfg m message rest queued).run d fun d' _ =>
        d'.Done := by
  intro rest
  induction rest with
  | nil =>
    intro _ d queued h
    show (docket cfg).Follows (.task m) (handleTempFail cfg m _ queued).run d _
    rw [h.error]
    exact handleTempFail_docket h.working h.readings h.returned h.attempted
  | cons target rest ih =>
    obtain ⟨host, addr⟩ := target
    intro hsub d queued h
    obtain ⟨ht, hr⟩ := cons_subset.mp hsub
    have hs : d.TaskMay cfg (.sendStart addr host.hostname queued.envelope.mailFrom queued.envelope.rcptTo message) :=
      ⟨q, hosts, host, h.working.loaded, h.resolved, ht, rfl, by rw [h.attempted.envelope],
        by rw [h.attempted.envelope], h.message⟩
    refine follows_lift_bind.mpr (follows_bind.mpr (docket_free trivial hs fun _ => docket_free trivial trivial fun r => ?_))
    have hw : ∀ r, Working { d.toCase with verdict := some r } q := fun r =>
      ⟨h.working.loaded, h.working.text, h.working.marked, h.working.randoms, h.working.draft⟩
    cases r with
    | success resp =>
      refine follows_lift_bind.mpr (docket_trace trivial ?_)
      refine (remove_docket fun _ _ => .delivered resp rfl).mono ?_
      intro d' _ hg _
      exact hg
    | permFail err =>
      refine follows_lift_bind.mpr (docket_trace trivial ?_)
      have hb : (docket cfg).Follows _ _ _ _ := bounceRemove_docket (m := m)
        (d := (d.track (.sendStart addr host.hostname queued.envelope.mailFrom
          queued.envelope.rcptTo message) ()).track .sendWait (.permFail err)) (hw _)
      have hm : d.text.getD [] = message := by rw [h.message]; rfl
      rwa [h.attempted.envelope, ← hm]
    | tempFail err =>
      refine follows_lift_bind.mpr (docket_trace trivial ?_)
      refine ih hr _ _ ?_
      exact ⟨hw _, h.message, h.resolved, h.readings,
        ⟨h.attempted.envelope, h.attempted.attempts, h.attempted.created⟩, rfl, .inr ⟨err, rfl⟩⟩

theorem deliverMessage_docket : (docket cfg).Follows (.task m) (deliverMessage cfg m).run {} fun d' _ => d'.Done := by
  have hi : ∀ d' : Docket, d'.randoms = [] → d'.Done := fun _ h hne => absurd h hne
  refine follows_exceptT_bind.mpr (follows_exceptT_bind.mpr (follows_withContext.mpr (docket_free trivial trivial fun r => ?_)))
  cases r with
  | error e => exact hi _ rfl
  | ok content =>
    refine follows_exceptT_bind.mpr ?_
    unfold parseMetadata
    cases hp : content.parse with
    | none =>
      refine hi _ ?_
      cases content <;> simp_all [Content.parse, Docket.track, Case.after]
    | some q =>
      obtain rfl := Content.parse_eq_some.mp hp
      refine follows_exceptT_bind.mpr (follows_withContext.mpr (docket_free trivial trivial fun r => ?_))
      cases r with
      | error e => exact hi _ rfl
      | ok content =>
        set d₁ := (Docket.track {} (.read (.metaPath m)) (.ok (.record q))).track
          (.read (.msgPath m)) (.ok content) with hd₁
        refine follows_exceptT_bind.mpr ((updateMetadata_docket (q := q) rfl rfl rfl fun q' hq' => .inl ⟨rfl, hq'⟩).mono fun d₂ r h₂ => ?_)
        cases r with
        | error e => exact hi _ h₂.1
        | ok u =>
          have hc := h₂.2 rfl
          have hr : d₂.TaskMay cfg (.resolve (recipientDomain q.envelope)) := by
            rw [hc]
            exact ⟨q, rfl, rfl⟩
          refine follows_lift_bind.mpr (docket_free trivial hr fun r => ?_)
          have hw : Case.Working { d₂.toCase with resolved := some (recipientDomain q.envelope, r) } q := by
            rw [hc]
            exact ⟨rfl, rfl, rfl, rfl, rfl⟩
          have hq : Attempted q { q with metadata := q.metadata.activated } := ⟨rfl, rfl, rfl⟩
          cases r with
          | ok hosts =>
            have hf : Case.text d₂.toCase = some content.octets ∧ d₂.readings = [] ∧ d₂.verdict = none := by
              rw [hc]
              exact ⟨rfl, rfl, rfl⟩
            have he : Case.error { d₂.toCase with
                resolved := some (recipientDomain q.envelope, .ok hosts) } = q.metadata.lastError.getD [] := by
              rw [hc]
              rfl
            exact tryTargets_docket (q := q) _ (List.Subset.refl _) _ _ ⟨hw, hf.1, rfl,
              hf.2.1, hq, he.symm, .inl hf.2.2⟩
          | error e =>
            refine follows_lift_bind.mpr (docket_trace trivial ?_)
            have hf : Case.error { d₂.toCase with
                resolved := some (recipientDomain q.envelope, .error e) } = e ∧ d₂.readings = [] ∧ d₂.returned = [] := by
              rw [hc]
              exact ⟨rfl, rfl, rfl⟩
            have hfa : (docket cfg).Follows _ _ _ _ := handleTempFail_docket (m := m)
              (d := d₂.track (.resolve (recipientDomain q.envelope)) (.error e)) hw hf.2.1
              hf.2.2 hq
            rwa [show (d₂.track (.resolve (recipientDomain q.envelope)) (.error e)).error = e from
              hf.1] at hfa

/-- **A delivery task keeps to its docket.** -/
theorem task_docket (m : Text) : (docket cfg).Follows (.task m) (task cfg m) {} ((docket cfg).ends (.task m)) := by
  refine follows_bind.mpr (deliverMessage_docket.mono fun d r hd => ?_)
  have hr : ∀ x : Response, (docket cfg).Follows (.task m) (do release; pure x) d ((docket cfg).ends (.task m)) := by
    intro x
    refine follows_bind.mpr (docket_free trivial trivial fun _ m' _ hne => ?_)
    have hs : d.track .release () = d := by simp [Docket.track, Case.after, Docket.clears, Docket.trips]
    rw [hs] at hne ⊢
    exact hd hne
  cases r with
  | ok u => exact hr _
  | error e =>
    cases e with
    | panic => exact hr _
    | context message | io e => exact follows_bind.mpr (docket_trace trivial (hr _))

/-- **So does a receiver session.** -/
theorem receiveMessage_docket (envelope) (message : Bytes) :
    (docket cfg).Follows (.receive envelope message) (receiveMessage envelope message) {}
      ((docket cfg).ends (.receive envelope message)) := by
  have hs : (docket cfg).Follows (.receive envelope message) (enqueue envelope message).run {} fun _ _ => True :=
    (enqueue_docket rfl fun _ hm => by cases hm).mono fun _ _ _ => trivial
  refine follows_bind.mpr (hs.mono fun d r _ => ?_)
  cases r with
  | ok id | error e => exact follows_bind.mpr (docket_free trivial trivial fun _ _ hm => by cases hm)

/-! ## Dockets by the log -/

@[simp] theorem docketAfter_concat (h : History Op Res) (x : Σ op, Res op) :
    docketAfter (h ++ [x]) = (docketAfter h).track x.1 x.2 := by
  unfold docketAfter
  rw [foldl_append]
  rfl

theorem task_performs (hp : (task cfg m).Performs h (.vis op k)) :
    (docketAfter h).DraftMay op ∧ (docketAfter h).TaskMay cfg op := by
  have hf : (docket cfg).Follows (.task m) (task cfg m) _ _ := task_docket m
  have ha := (hf.performs hp).1
  exact ⟨ha.1, ha.2 m rfl⟩

section

variable {log : List Happening} {pid q : Nat} {op : Op} {r : Res op}

@[simp] theorem docketOf_self : docketOf pid (log ++ [.did pid role op r]) = (docketOf pid log).track op r := by
  unfold docketOf
  rw [historyOf_did_self, docketAfter_concat]

theorem docketOf_other (hq : q ≠ pid) : docketOf pid (log ++ [.did q role op r]) = docketOf pid log := by
  unfold docketOf
  rw [historyOf_did_other hq]

theorem docketOf_concat (hx : x.part pid = none) : docketOf pid (log ++ [x]) = docketOf pid log := by
  unfold docketOf
  rw [historyOf_concat hx]

@[simp] theorem docketOf_began : docketOf pid (log ++ [.began q role]) = docketOf pid log := by
  unfold docketOf
  rw [historyOf_began]

@[simp] theorem docketOf_ended : docketOf pid (log ++ [.ended q role x]) = docketOf pid log := by
  unfold docketOf
  rw [historyOf_ended]

@[simp] theorem docketOf_crashed {lost : Nat → Role → Bool} :
    docketOf pid (log ++ [.crashed lost]) = docketOf pid log := by
  unfold docketOf
  rw [historyOf_crashed]

theorem told_task (ht : Told (relay cfg) log (.did pid (.task m) op r)) :
    (docketOf pid log).DraftMay op ∧ (docketOf pid log).TaskMay cfg op := by
  obtain ⟨k, hp⟩ := ht
  exact task_performs hp

theorem told_receive (ht : Told (relay cfg) log (.did pid (.receive envelope message) op r)) :
    (docketOf pid log).DraftMay op :=
  (ht.allowed (Q := docket cfg) (receiveMessage_docket envelope message)).1

end

end ServerWall.Relay
