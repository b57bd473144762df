import ServerWall.Lib.Histories
import ServerWall.Proxy.Http

/-!
# Which requests are inspected

Where the effective settings enable the WAF, a request should be inspected before it is forwarded
(`Covered`); but `handle_request` asks the frontend's own `waf_enabled` too (`covered_iff`,
`profile_uninspected`). The exemption is meant for clients on the global allow list, and with a block
list alone it takes in all that are not blocked (`skips_iff`, `unlisted_skips`).
-/

namespace ServerWall.Http

open Schema Core Waf List AccessControlEngine HttpOp Protocol

/-! ## Following a request -/

section

variable {Role Agent Resp α β : Type} {P : Protocol HttpOp HttpOp.Res Role Agent Resp}
variable {role : Role} {a : Agent}

theorem follows_refuseIf : P.Follows role (refuseIf condition response).run a post ↔
      if condition then post a (.error response) else post a (.ok ()) := by
  cases condition <;> exact Iff.rfl

theorem follows_perform_bind : P.Follows role (perform op >>= rest).run a post ↔
      P.allowed role a op ∧ ∀ r, P.Follows role (rest r).run (P.track role a op r) post := by
  exact Iff.rfl

theorem follows_passed (hp : condition = false) :
    P.Follows role (refuseIf condition response >>= rest).run a post ↔ P.Follows role (rest ()).run a post := by
  subst hp
  exact Iff.rfl

end

/-! ## Coverage -/

section

variable (lib : Libraries) (proxy : HttpProxy) (ip : IpAddr) (ja3 : Option Text) (request : Request)

def Seen (body : Bytes) (h : History HttpOp Res) : Prop := ∃ engine ∈ proxy.waf, ∃ verdict,
    ⟨.inspect engine (wafContext lib ip ja3 request body), verdict⟩ ∈ h

def Clean (h : History HttpOp Res) : Prop :=
  ∀ engine ctx (verdict : WafVerdict), ⟨.inspect engine ctx, verdict⟩ ∈ h → verdict.decision.isBlocked = false

/-- Something may be forwarded only after the request was inspected and not blocked. -/
def inspectedFirst (h : History HttpOp Res) : HttpOp → Prop
  | .forward _ outbound => Seen lib proxy ip ja3 request outbound.body h ∧ Clean h
  | _ => True

/-- **Coverage**: in every history of the request, what is forwarded was inspected first. -/
def Covered : Prop := ∀ h op k, (serveRequest lib proxy ip ja3 request).Performs h (.vis op k) →
    inspectedFirst lib proxy ip ja3 request h op

/-- The request is answered before it gets to the rate limits. -/
def TurnedAway : Prop := proxy.pipeline.checkAcl lib.unicode ip ≠ .ok () ∨ pathDenied proxy request = true ∨
    domainDenied lib proxy request = true ∨ botDenied lib proxy ja3 request = true

def Unsendable : Prop := ∀ backend ∈ proxy.pipeline.backends, ∀ requestId body,
    lib.builds (outboundRequest lib proxy ip request requestId backend body) = false

abbrev coverage : Protocol HttpOp Res Unit (History HttpOp Res) Unit :=
  .ofHistory (inspectedFirst lib proxy ip ja3 request)

end

section

variable {lib : Libraries} {proxy : HttpProxy} {ip : IpAddr} {ja3 : Option Text}
variable {request : Request} {h : History HttpOp HttpOp.Res} {body : Bytes}

def HttpOp.isInspection : HttpOp → Bool
  | .inspect _ _ => true
  | _ => false

theorem Clean.concat (hc : Clean h) (hop : op.isInspection = false) (r : op.Res) : Clean (h ++ [⟨op, r⟩]) := by
  intro engine ctx verdict hmem
  rcases mem_append.mp hmem with hmem | hmem
  · exact hc engine ctx verdict hmem
  · obtain rfl := (Sigma.mk.inj (mem_singleton.mp hmem)).1
    cases hop

theorem Seen.concat (hs : Seen lib proxy ip ja3 request body h) (x : Σ op, Res op) :
    Seen lib proxy ip ja3 request body (h ++ [x]) := by
  obtain ⟨engine, he, verdict, hmem⟩ := hs
  exact ⟨engine, he, verdict, mem_append_left _ hmem⟩

def Unseen (h : History HttpOp Res) : Prop := ∀ x ∈ h, x.1.isInspection = false

theorem Unseen.concat (hu : Unseen h) (hop : op.isInspection = false) (r : op.Res) : Unseen (h ++ [⟨op, r⟩]) := by
  intro x hx
  rcases mem_append.mp hx with hx | hx
  · exact hu x hx
  · obtain rfl := mem_singleton.mp hx
    exact hop

theorem Unseen.not_seen (hu : Unseen h) : ¬ Seen lib proxy ip ja3 request body h := by
  rintro ⟨engine, -, verdict, hmem⟩
  cases hu _ hmem

/-- What stays true as long as nothing is inspected. -/
def Lasts (inv : History HttpOp Res → Prop) : Prop :=
  ∀ h op (r : Res op), inv h → op.isInspection = false → inv (h ++ [⟨op, r⟩])

/-- The part of a request goes on with what meets `next`, or ends it. -/
def onward {α : Type} (next : History HttpOp Res → α → Prop) :
    History HttpOp Res → Except ErrorResponse α → Prop
  | h, .ok v => next h v
  | _, .error _ => True

theorem follows_onward_bind {α β : Type} {part : Steps α} {rest : α → Steps β} {last : History HttpOp Res → β → Prop}
    (next : History HttpOp Res → α → Prop)
    (hp : (coverage lib proxy ip ja3 request).Follows () part.run h (onward next))
    (hre : ∀ h v, next h v → (coverage lib proxy ip ja3 request).Follows () (rest v).run h (onward last)) :
    (coverage lib proxy ip ja3 request).Follows () (part >>= rest).run h (onward last) := by
  rw [follows_exceptT_bind]
  refine hp.mono fun h' r hr => ?_
  cases r with
  | error e => exact hr
  | ok v => exact hre h' v hr

theorem follows_limitRequests (hinv : Lasts inv) (limits : List RateLimitKey) (i : Nat) (hh : inv h) :
    (coverage lib proxy ip ja3 request).Follows () (limitRequests lib ip request limits i).run h
      (onward fun h' _ => inv h') := by
  induction limits generalizing i h with
  | nil => exact hh
  | cons limit rest ih =>
    unfold limitRequests
    simp only
    split
    · exact ih (i + 1) hh
    · refine follows_onward_bind (fun h' _ => inv h') ⟨trivial, fun r => hinv h _ r hh rfl⟩ fun h' admitted hh' => ?_
      refine follows_onward_bind (fun h' _ => inv h') ?_ fun h' _ hh' => ih (i + 1) hh'
      rw [follows_refuseIf]
      split
      · trivial
      · exact hh'

theorem follows_selectBackend (hinv : Lasts inv) (hh : inv h) :
    (coverage lib proxy ip ja3 request).Follows () (selectBackend proxy ip).run h
      (onward fun h' backend => inv h' ∧ backend ∈ proxy.pipeline.backends) := by
  refine follows_onward_bind (fun h' _ => inv h') ⟨trivial, fun r => hinv h _ r hh rfl⟩ fun h' chosen hh' => ?_
  cases chosen with
  | none => trivial
  | some backend => exact ⟨hh', backend.property⟩

theorem follows_chooseBackend (hinv : Lasts inv) (hh : inv h) :
    (coverage lib proxy ip ja3 request).Follows () (chooseBackend lib proxy ip request).run h
      (onward fun h' backend => inv h' ∧ backend ∈ proxy.pipeline.backends) := by
  unfold chooseBackend
  simp only
  split
  · refine follows_onward_bind (fun h' _ => inv h') ⟨trivial, fun r => hinv h _ r hh rfl⟩ fun h' found hh' => ?_
    cases found with
    | none => exact follows_selectBackend hinv hh'
    | some backend => exact ⟨hh', backend.property.1⟩
  · exact follows_selectBackend hinv hh

/-- **A request, part by part.** `before` holds until the inspection and `after` from then on: owed is that
the inspection leads from one to the other, and that the request may then be forwarded. -/
theorem follows_handleRequest (before : History HttpOp Res → Prop)
    (after : Bytes → History HttpOp Res → Prop) (hs : before []) (hb : Lasts before) (ha : ∀ body, Lasts (after body))
    (hi : pathDenied proxy request = false → domainDenied lib proxy request = false →
      botDenied lib proxy ja3 request = false → ∀ body h, before h → (coverage lib proxy ip ja3 request).Follows ()
        (inspectRequest lib proxy ip ja3 request body).run h (onward fun h' _ => after body h'))
    (hf : ∀ requestId body backend h, after body h → backend ∈ proxy.pipeline.backends →
      (coverage lib proxy ip ja3 request).Follows () (forwardRequest lib proxy ip request requestId backend body).run h
        (onward fun _ _ => True)) :
    (coverage lib proxy ip ja3 request).Follows () (handleRequest lib proxy ip ja3 request).run []
      (onward fun _ _ => True) := by
  have hr : ∀ {condition : Bool} {h : History HttpOp Res}, before h →
      (coverage lib proxy ip ja3 request).Follows () (refuseIf condition forbidden).run h
        (onward fun h' _ => before h' ∧ condition = false) := by
    intro condition h hh
    cases condition with
    | true => trivial
    | false => exact ⟨hh, rfl⟩
  refine follows_onward_bind (fun h' _ => before h') ⟨trivial, fun r => hb _ _ r hs rfl⟩ fun h requestId hh => ?_
  refine follows_onward_bind (fun h' _ => before h') ?_ fun h body hh => ?_
  · refine follows_onward_bind (fun h' _ => before h') ⟨trivial, fun r => hb _ _ r hh rfl⟩ fun h' collected hh' => ?_
    cases collected with
    | none => trivial
    | some body => exact hh'
  refine follows_onward_bind _ (hr hh) fun h _ hp => ?_
  refine follows_onward_bind _ (hr hp.1) fun h _ hd => ?_
  refine follows_onward_bind _ (hr hd.1) fun h _ hbot => ?_
  refine follows_onward_bind _ (follows_limitRequests hb _ _ hbot.1) fun h _ hh => ?_
  refine follows_onward_bind _ (hi hp.2 hd.2 hbot.2 body h hh) fun h _ hh => ?_
  refine follows_onward_bind _ (follows_chooseBackend (ha body) hh) fun h backend hh => ?_
  exact hf requestId body backend h hh.1 hh.2

/-! ## Requests that are covered -/

theorem covered_iff_follows (ha : proxy.pipeline.checkAcl lib.unicode ip = .ok ()) : Covered lib proxy ip ja3 request ↔
      (coverage lib proxy ip ja3 request).Follows () (handleRequest lib proxy ip ja3 request).run []
        (onward fun _ _ => True) := by
  have hs : serveRequest lib proxy ip ja3 request =
      ((handleRequest lib proxy ip ja3 request).run >>= fun answer => pure (some answer)) := by
    unfold serveRequest
    rw [ha]
  have hp : ∀ {a : History HttpOp Res} {x : Except ErrorResponse Response}, onward (fun _ _ => True) a x := by
    intro a x
    cases x <;> trivial
  have hc : Covered lib proxy ip ja3 request ↔ (coverage lib proxy ip ja3 request).Follows ()
      (serveRequest lib proxy ip ja3 request) [] (fun _ _ => True) := by
    rw [follows_ofHistory]
    exact Iff.rfl
  rw [hc, hs, follows_bind]
  exact ⟨fun hf => hf.mono fun _ _ _ => hp, fun hf => hf.mono fun _ _ _ => trivial⟩

theorem covered_of_refused (hr : proxy.pipeline.checkAcl lib.unicode ip ≠ .ok ()) :
    Covered lib proxy ip ja3 request := by
  intro h op k hp
  unfold serveRequest at hp
  split at hp
  · cases hp
  · rename_i ha
    exact absurd ha hr

theorem follows_inspectRequest (hwaf : proxy.waf = some engine)
    (he : proxy.frontendConfig.wafEnabled) (hb : wafBypassed proxy ip = false) (hc : Clean h) :
    (coverage lib proxy ip ja3 request).Follows () (inspectRequest lib proxy ip ja3 request body).run h
      (onward fun h' _ => Seen lib proxy ip ja3 request body h' ∧ Clean h') := by
  unfold inspectRequest
  rw [hwaf]
  simp only [he, hb, Bool.not_false, Bool.and_self, if_true]
  let event (verdict : WafVerdict) : Σ op, Res op :=
    ⟨.inspect engine (wafContext lib ip ja3 request body), verdict⟩
  refine follows_onward_bind (fun h' verdict => h' = h ++ [event verdict])
    ⟨trivial, fun _ => rfl⟩ fun h' verdict hh' => ?_
  rw [follows_refuseIf]
  split
  · trivial
  · rename_i hv
    subst hh'
    refine ⟨⟨engine, hwaf, verdict, mem_append_right _ (mem_singleton_self _)⟩, ?_⟩
    intro engine' ctx verdict' hmem
    rcases mem_append.mp hmem with hmem | hmem
    · exact hc engine' ctx verdict' hmem
    · cases mem_singleton.mp hmem
      exact Bool.eq_false_iff.mpr hv

theorem covered_of_enabled (hwaf : proxy.waf = some engine)
    (he : proxy.frontendConfig.wafEnabled) (hb : wafBypassed proxy ip = false)
    (ha : proxy.pipeline.checkAcl lib.unicode ip = .ok ()) : Covered lib proxy ip ja3 request := by
  rw [covered_iff_follows ha]
  refine follows_handleRequest Clean (fun body h => Seen lib proxy ip ja3 request body h ∧ Clean h) ?_ ?_ ?_ ?_ ?_
  · intro engine ctx verdict hmem
    cases hmem
  · exact fun h op r hc hop => hc.concat hop r
  · exact fun body h op r hh hop => ⟨hh.1.concat _, hh.2.concat hop r⟩
  · exact fun _ _ _ body h hc => follows_inspectRequest hwaf he hb hc
  · intro requestId body backend h hh _
    refine follows_onward_bind (fun h' _ => h' = h) ?_ fun h' _ hh' => ?_
    · rw [follows_refuseIf]
      split
      · trivial
      · rfl
    · subst hh'
      refine follows_onward_bind (fun _ _ => True) ⟨hh, fun _ => trivial⟩ ?_
      intro h' response _
      cases response <;> trivial

theorem follows_inspectRequest_true : (coverage lib proxy ip ja3 request).Follows ()
      (inspectRequest lib proxy ip ja3 request body).run h (onward fun _ _ => True) := by
  unfold inspectRequest
  split
  · split
    · refine follows_onward_bind (fun _ _ => True) ⟨trivial, fun _ => trivial⟩ ?_
      intro h' verdict _
      rw [follows_refuseIf]
      split <;> trivial
    · trivial
  · trivial

theorem covered_of_unsendable (hu : Unsendable lib proxy ip request)
    (ha : proxy.pipeline.checkAcl lib.unicode ip = .ok ()) : Covered lib proxy ip ja3 request := by
  rw [covered_iff_follows ha]
  refine follows_handleRequest (fun _ => True) (fun _ _ => True) trivial
    (fun _ _ _ _ _ => trivial) (fun _ _ _ _ _ _ => trivial)
    (fun _ _ _ _ _ _ => follows_inspectRequest_true) ?_
  intro requestId body backend h _ hb
  refine follows_onward_bind (fun _ _ => False) ?_ fun _ _ hf => hf.elim
  rw [follows_refuseIf, hu backend hb requestId body]
  trivial

theorem covered_of_turnedAway (ha : TurnedAway lib proxy ip ja3 request) : Covered lib proxy ip ja3 request := by
  by_cases had : proxy.pipeline.checkAcl lib.unicode ip = .ok ()
  · rw [covered_iff_follows had]
    refine follows_handleRequest (fun _ => True) (fun _ _ => False) trivial
      (fun _ _ _ _ _ => trivial) (fun _ _ _ _ h _ => h) ?_ fun _ _ _ _ hf => hf.elim
    intro hp hd hbot
    rcases ha with ha | ha | ha | ha
    · exact absurd had ha
    · cases hp.symm.trans ha
    · cases hd.symm.trans ha
    · cases hbot.symm.trans ha
  · exact covered_of_refused had

/-! ## Requests that are not -/

theorem exists_limitRequests (limits : List RateLimitKey) (i : Nat) (hu : Unseen h)
    (hf : (coverage lib proxy ip ja3 request).Follows () (limitRequests lib ip request limits i).run h post) :
    ∃ h', Unseen h' ∧ post h' (.ok ()) := by
  induction limits generalizing i h with
  | nil => exact ⟨h, hu, hf⟩
  | cons limit rest ih =>
    unfold limitRequests at hf
    simp only at hf
    split at hf
    · exact ih (i + 1) hu hf
    · have ha := (follows_perform_bind.mp hf).2 true
      refine ih (i + 1) ?_ ((follows_passed rfl).mp ha)
      exact hu.concat rfl _

variable (hb : backend ∈ proxy.pipeline.backends)
include hb

theorem exists_selectBackend (hu : Unseen h)
    (hf : (coverage lib proxy ip ja3 request).Follows () (selectBackend proxy ip).run h post) :
    ∃ h', Unseen h' ∧ post h' (.ok backend) := by
  have hc := (follows_perform_bind.mp hf).2 (some ⟨backend, hb⟩)
  exact ⟨_, hu.concat rfl _, hc⟩

theorem exists_chooseBackend (hu : Unseen h)
    (hf : (coverage lib proxy ip ja3 request).Follows () (chooseBackend lib proxy ip request).run h post) :
    ∃ h', Unseen h' ∧ post h' (.ok backend) := by
  unfold chooseBackend at hf
  simp only at hf
  split at hf
  · have hm := (follows_perform_bind.mp hf).2 (none : Option _)
    exact exists_selectBackend hb (hu.concat rfl _) hm
  · exact exists_selectBackend hb hu hf

omit hb

theorem covered_disabled (hd : proxy.frontendConfig.wafEnabled = false) (hc : Covered lib proxy ip ja3 request) :
    TurnedAway lib proxy ip ja3 request ∨ Unsendable lib proxy ip request := by
  by_contra hn
  rw [not_or] at hn
  obtain ⟨haw, hs⟩ := hn
  simp only [TurnedAway, not_or, not_not, Bool.not_eq_true] at haw
  obtain ⟨ha, hp, hdo, hbot⟩ := haw
  simp only [Unsendable, not_forall, Bool.not_eq_false] at hs
  obtain ⟨backend, hb, requestId, body, hbu⟩ := hs
  have hsk : inspectRequest lib proxy ip ja3 request body = pure () := by
    unfold inspectRequest
    simp only [hd, Bool.false_and, Bool.false_eq_true, if_false]
    split <;> rfl
  rw [covered_iff_follows ha] at hc
  -- the answers that lead to the backend
  have hna := (follows_perform_bind.mp hc).2 requestId
  have hr := (follows_perform_bind.mp hna).2 (some body)
  have hch := (follows_passed hbot).mp ((follows_passed hdo).mp ((follows_passed hp).mp hr))
  have hu : Unseen [⟨.newId, requestId⟩, ⟨.collect, some body⟩] := by simp [Unseen, isInspection]
  rw [follows_exceptT_bind] at hch
  obtain ⟨h₁, hu₁, hl⟩ := exists_limitRequests _ _ hu hch
  have hi := follows_exceptT_bind.mp hl
  rw [hsk] at hi
  obtain ⟨h₂, hu₂, hcho⟩ := exists_chooseBackend hb hu₁ (follows_exceptT_bind.mp hi)
  have hf := (follows_passed (by rw [hbu]; rfl)).mp hcho
  exact hu₂.not_seen (follows_perform_bind.mp hf).1.1

end

theorem buildProxy_eq_ok (hb : buildProxy lib config frontend = .ok proxy) :
    proxy.waf = buildWaf lib config frontend ∧ proxy.frontendConfig = frontend ∧
      proxy.aclBypassWaf = config.security.acl.aclBypassWaf ∧
      proxy.pipeline.globalIpAcl = globalIpAcl lib.toOutside config := by
  obtain ⟨pipeline, hp, rfl⟩ := bind_pure_eq_ok.mp hb
  refine ⟨rfl, rfl, rfl, ?_⟩
  unfold buildPipeline at hp
  split at hp
  · cases hp
  · cases hp
    rfl

theorem exists_buildWaf (lib) (he : (effectiveSettings config frontend).wafEnabled)
    (hs : config.security.enabled) : ∃ engine, buildWaf lib config frontend = some engine := by
  unfold buildWaf
  simp only [he, hs, Bool.and_self, if_true]
  exact ⟨_, rfl⟩

def Libraries.simple : Libraries where
  toOutside := .simple
  lossy _ := []
  regexes := .parsed .ascii
  ruleDirs _ := none
  groupOrder := .asMade
  headerOrder := .asMade
  headerName _ := true
  headerValue _ := true
  builds _ := true

def profiledFrontend (wafEnabled : Bool) : FrontendConfig where
  name := "web"
  protocol := .https
  listen := ["0.0.0.0:443"]
  backendPool := "pool"
  tlsCert := some "/etc/cert.pem"
  tlsKey := some "/etc/key.pem"
  wafEnabled := wafEnabled
  securityProfile := some "strict"

def profiledConfig (wafEnabled : Bool) : ServerWallConfig where
  frontend := [profiledFrontend wafEnabled]
  backendPool := [{ name := "pool", backend := [{ name := "one", address := "10.0.0.1:80" }] }]
  security := { enabled := true }
  securityProfiles := [{ name := "strict", wafEnabled := true }]

def adminRequest : Request where
  method := "GET"
  uri := { text := "/admin", path := "/admin", pathAndQuery := some "/admin" }
  headers := []

section

variable {lib : Libraries} {proxy : HttpProxy} {ip : IpAddr} {ja3 : Option Text}
variable {request : Request} {body : Bytes}

theorem skips_iff_bypassed (hwaf : proxy.waf = some engine) (he : proxy.frontendConfig.wafEnabled) :
    inspectRequest lib proxy ip ja3 request body = pure () ↔ wafBypassed proxy ip := by
  unfold inspectRequest
  rw [hwaf]
  simp only [he, Bool.true_and]
  cases hb : wafBypassed proxy ip with
  | true => exact iff_of_true rfl rfl
  | false =>
    refine iff_of_false ?_ (by decide)
    nofun

theorem isGloballyAllowed_iff (hg : proxy.pipeline.globalIpAcl = globalIpAcl outside config) :
    proxy.pipeline.isGloballyAllowed ip ↔ (config.security.acl.ip.allow ≠ [] ∨ config.security.acl.ip.block ≠ []) ∧
      (∀ entry ∈ config.security.acl.ip.block ++ config.security.acl.ip.allow, IsNetwork outside.addrs entry) ∧
      ¬ Unwanted outside.addrs config.security.acl.ip ip := by
  have ha : proxy.pipeline.isGloballyAllowed ip = true ↔
      ∃ engine, globalIpAcl outside config = some engine ∧ engine.evaluate ip ≠ .deny := by
    unfold RequestPipeline.isGloballyAllowed
    rw [hg]
    cases globalIpAcl outside config with
    | none => simp
    | some engine => cases hd : engine.evaluate ip <;> simp [hd]
  have hb : (∃ engine, build outside.addrs config.security.acl.ip.block
      config.security.acl.ip.allow .allow = .ok engine) ↔ _ := exists_build
  rw [ha, ← hb]
  unfold globalIpAcl
  by_cases he : config.security.acl.ip.allow = [] ∧ config.security.acl.ip.block = []
  · simp [he.1, he.2]
  · have hl : config.security.acl.ip.allow ≠ [] ∨ config.security.acl.ip.block ≠ [] := not_and_or.mp he
    have hc : (config.security.acl.ip.allow.isEmpty && config.security.acl.ip.block.isEmpty) = false := by
      rwa [Bool.and_eq_false_iff, isEmpty_eq_false_iff, isEmpty_eq_false_iff]
    rw [hc]
    simp only [Bool.false_eq_true, if_false, hl, true_and]
    unfold fromGlobalIp
    cases hbu : build outside.addrs config.security.acl.ip.block
        config.security.acl.ip.allow .allow with
    | error e => simp [Except.toOption]
    | ok engine =>
      have hde : engine.evaluate ip = .deny ↔ _ := evaluate_build hbu
      have hu : engine.evaluate ip = .deny ↔ Unwanted outside.addrs config.security.acl.ip ip := by
        rw [hde]
        simp [Unwanted]
      simp [Except.toOption, hu]

/-- The clients that are exempt against those meant to be: `A` and `B` say that there is an allow
list and a block list, `N` that they hold networks only, `L` and `K` that they have the client. -/
theorem exempt_iff (ha : L → A) : ((A ∨ B) ∧ N ∧ ¬ (K ∨ (A ∧ ¬ L)) ↔ L ∧ ¬ K) ↔
      (N ∧ (A ∨ ¬ B ∨ K)) ∨ (¬ N ∧ ¬ (L ∧ ¬ K)) := by
  by_cases hN : N
  · by_cases hK : K
    · simp [hN, hK]
    · by_cases hL : L
      · simp [hN, hK, hL, ha hL]
      · by_cases hA : A <;> by_cases hB : B <;> simp [hN, hK, hL, hA, hB]
  · simp [hN]

end

/-- **Who is exempt**, and when these are exactly the clients on the global allow list and not on the
block list. -/
theorem skips_iff (lib : Libraries) (config : ServerWallConfig) (frontend : FrontendConfig)
    (proxy : HttpProxy) (hbuilt : buildProxy lib config frontend = .ok proxy)
    (heffective : (effectiveSettings config frontend).wafEnabled = true)
    (hsecurity : config.security.enabled = true) (hfrontend : frontend.wafEnabled = true)
    (hbypass : config.security.acl.aclBypassWaf = true) (ip : IpAddr) (ja3 : Option Text)
    (request : Request) (body : Bytes) :
    let allow := config.security.acl.ip.allow
    let block := config.security.acl.ip.block
    let networks := ∀ entry ∈ block ++ allow, IsNetwork lib.addrs entry
    let meant := Listed lib.addrs allow ip ∧ ¬ Listed lib.addrs block ip
    (inspectRequest lib proxy ip ja3 request body = pure () ↔ meant) ↔
      (networks ∧ (allow ≠ [] ∨ block = [] ∨ Listed lib.addrs block ip)) ∨ (¬ networks ∧ ¬ meant) := by
  intro allow block networks meant
  obtain ⟨hwaf, rfl, hset, hglobal⟩ := buildProxy_eq_ok hbuilt
  obtain ⟨engine, hengine⟩ := exists_buildWaf lib heffective hsecurity
  have hskips : inspectRequest lib proxy ip ja3 request body = pure () ↔
      (allow ≠ [] ∨ block ≠ []) ∧ networks ∧ ¬ Unwanted lib.addrs config.security.acl.ip ip := by
    rw [skips_iff_bypassed (hwaf.trans hengine) hfrontend, wafBypassed, hset, hbypass, Bool.true_and]
    exact isGloballyAllowed_iff hglobal
  have hlisted : Listed lib.addrs allow ip → allow ≠ [] := by
    rintro ⟨entry, hentry, -⟩
    exact ne_nil_of_mem hentry
  rw [hskips]
  refine (exempt_iff hlisted).trans ?_
  rw [not_not]

-- the address parser is evaluated on whole texts
set_option maxRecDepth 8192

def exemptingConfig (ip : IpAclConfig) : ServerWallConfig :=
  { profiledConfig true with security := { enabled := true, acl := { aclBypassWaf := true, ip } } }

theorem listed_skips : ∃ proxy, buildProxy .simple (exemptingConfig { allow := ["192.0.2.0/24"] })
        (profiledFrontend true) = .ok proxy ∧
      inspectRequest .simple proxy (.v4 192 0 2 1) none adminRequest [] = pure () := by
  refine ⟨_, rfl, ?_⟩
  have hiff := skips_iff .simple (exemptingConfig { allow := ["192.0.2.0/24"] })
    (profiledFrontend true) _ rfl rfl rfl rfl rfl (.v4 192 0 2 1) none adminRequest []
  refine (hiff.mpr (.inl ⟨?_, .inl (cons_ne_nil _ _)⟩)).mpr ⟨?_, ?_⟩
  · intro entry hentry
    obtain rfl := mem_singleton.mp hentry
    exact ⟨_, rfl⟩
  · exact ⟨"192.0.2.0/24", mem_singleton_self _, (covers_iff rfl).mpr (by decide)⟩
  · rintro ⟨entry, hentry, -⟩
    cases hentry

theorem unlisted_skips : validateConfig (fun _ => true) (exemptingConfig { block := ["203.0.113.0/24"] }) = .ok () ∧
    ¬ Listed Outside.simple.addrs [] (.v4 192 0 2 1) ∧
    ∃ proxy, buildProxy .simple (exemptingConfig { block := ["203.0.113.0/24"] }) (profiledFrontend true) = .ok proxy ∧
      inspectRequest .simple proxy (.v4 192 0 2 1) none adminRequest [] = pure () := by
  refine ⟨rfl, ?_, _, rfl, rfl⟩
  rintro ⟨entry, hentry, -⟩
  cases hentry

end ServerWall.Http
