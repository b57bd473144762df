import ServerWall.Relay.Conduct.Docket
import ServerWall.Relay.Runs
import ServerWall.Relay.Sender

/-!
# Where a recipient is offered

A recipient should be offered only to hosts of its own domain (`Routed`). A task hands the whole envelope
to the hosts of the first recipient's domain (`routed_iff_shared`, `second_domain_offered`). The resolver
answers a domain with the same hosts throughout.
-/

namespace ServerWall.Relay

open List Text LinkEvent

/-! ## The property -/

abbrev MxAnswers := Text → Except Text (List MxHost)

/-- The hosts and addresses a domain has, as they are connected to. -/
def MxAnswers.hosts (mx : MxAnswers) (domain : Text) : List (Text × IpAddr) :=
  match mx domain with
  | .ok hosts => (targets hosts).map fun t => (t.1.hostname, t.2)
  | .error _ => []

/-- Every resolution in the history is answered so. -/
def ResolvedBy (mx : MxAnswers) (h : History Op Res) : Prop := ∀ domain r, ⟨.resolve domain, r⟩ ∈ h → r = mx domain

/-- The sender writes `RCPT TO` with the address in an exchange with this host. -/
def Offered (sender : SmtpSender) (remote : Remote) (addr : IpAddr) (mailFrom : Text)
    (rcptTo : List Text) (message : Bytes) (rcpt : Text) : Prop :=
  .wrote .rcpt (Text.bytes (rcptCommand rcpt)) ∈ record (sender.sendInner remote addr mailFrom rcptTo message)

/-- Whatever a task does with a message of this envelope, each recipient is
offered only to hosts of its own domain. -/
def Routed (mx : MxAnswers) (envelope : Envelope) : Prop :=
  ∀ (cfg : Config) (m : Text) (q : QueuedMessage) (h : History Op Res) (addr : IpAddr)
    (hostname mailFrom : Text) (rcptTo : List Text) (message : Bytes) k,
    (task cfg m).Performs (⟨.read (.metaPath m), .ok (.record q)⟩ :: h)
      (.vis (.sendStart addr hostname mailFrom rcptTo message) k) →
    q.envelope = envelope → ResolvedBy mx h →
    ∀ sender remote rcpt, Offered sender remote addr mailFrom rcptTo message rcpt →
      (hostname, addr) ∈ mx.hosts (Text.lastPiece '@' rcpt)

/-! ## What the sender offers -/

theorem rcptCommand_injective (h : bytes (rcptCommand rcpt) = bytes (rcptCommand rcpt')) : rcpt = rcpt' := by
  have ht : rcptCommand rcpt = rcptCommand rcpt' := by
    have hof := congrArg ofBytes h
    rw [ofBytes_bytes, ofBytes_bytes] at hof
    exact Option.some.inj hof
  have hcut : rcpt ++ ['>'] = rcpt' ++ ['>'] := (append_right_inj ("RCPT TO:<" : Text)).mp ht
  exact append_cancel_right hcut

def OffersOnly (rcptTo : List Text) (e : LinkEvent) : Prop :=
  ∀ rcpt, e = .wrote .rcpt (Text.bytes (rcptCommand rcpt)) → rcpt ∈ rcptTo

theorem offersOnly_of_foreign (h : ∀ chunk, e ≠ .wrote .rcpt chunk) : OffersOnly rcptTo e := fun _ he => absurd he (h _)

theorem afterOpen_offers (rcptTo : List Text) (message : Bytes) : Adds (OffersOnly rcptTo) (do
      writeChunks .message (messageChunks message)
      let finalResp ← readResponse .message
      ensurePositive finalResp
      quit
      pure finalResp : Sending Text) := by
  have hc : ∀ chunks, Adds (OffersOnly rcptTo) (writeChunks .message chunks) := by
    intro chunks
    induction chunks with
    | nil => exact adds_pure ()
    | cons chunk rest ih => exact (adds_writeAll (offersOnly_of_foreign fun _ h => by cases h)).bind fun _ => ih
  refine (hc _).bind fun _ => ?_
  refine (adds_readResponse fun _ => offersOnly_of_foreign fun _ h => by cases h).bind fun resp => ?_
  refine (adds_ensurePositive resp).bind fun _ => ?_
  exact (adds_quit fun _ => offersOnly_of_foreign fun _ h => by cases h).bind fun _ => adds_pure _

theorem smtpConversation_offers (mailFrom : Text) (rcptTo : List Text) (message : Bytes) :
    Adds (OffersOnly rcptTo) (smtpConversation mailFrom rcptTo message) := by
  have ho : Adds (OffersOnly rcptTo) (openMessage mailFrom rcptTo) := by
    apply adds_openMessage
    · intro part chunk hp
      apply offersOnly_of_foreign
      intro chunk' h
      rcases hp with rfl | rfl <;> cases h
    · exact fun part line => offersOnly_of_foreign fun _ h => by cases h
    · intro rcpt hr rcpt' h
      rw [wrote.injEq] at h
      exact rcptCommand_injective h.2 ▸ hr
    · intro rcpt h
      rw [wrote.injEq] at h
      have hh : (13 : UInt8) = 82 := (List.cons.inj h.2).1
      exact absurd hh (by decide)
  exact ho.bind fun _ => afterOpen_offers rcptTo message

/-- **Only recipients of the message are offered**, in every exchange. -/
theorem mem_of_offered (h : Offered sender remote addr mailFrom rcptTo message rcpt) : rcpt ∈ rcptTo := by
  have hf : ∀ part cmd, part ≠ .rcpt → Adds (OffersOnly rcptTo) (writeCmd part cmd) := by
    intro part cmd hp
    have hs : ∀ chunk, OffersOnly rcptTo (.wrote part chunk) := fun chunk =>
      offersOnly_of_foreign fun _ h => hp (wrote.inj h).1
    exact adds_writeCmd (hs _) (hs _)
  have hr : ∀ part, Adds (OffersOnly rcptTo) (readResponse part) := fun part =>
    adds_readResponse fun _ => offersOnly_of_foreign fun _ h => by cases h
  have hc := smtpConversation_offers mailFrom rcptTo message
  have hu : Adds (OffersOnly rcptTo) (sender.upgrade remote.upgraded mailFrom rcptTo message) := by
    cases remote.upgraded with
    | error e => exact adds_throw _
    | ok replies =>
      have hm : Adds (OffersOnly rcptTo) (modify fun link : Link => { link with replies } : Sending Unit) :=
        ⟨fun link => ⟨[], (append_nil _).symm, fun _ h => absurd h not_mem_nil⟩, fun _ h => h⟩
      refine hm.bind fun _ => (hf .ehlo _ (by decide)).bind fun _ => ?_
      exact (hr .ehlo).bind fun _ => hc
  have hco : Adds (OffersOnly rcptTo) (sender.converse remote.upgraded mailFrom rcptTo message) := by
    refine (hr .banner).bind fun banner => (adds_ensurePositive banner).bind fun _ => ?_
    refine (hf .ehlo _ (by decide)).bind fun _ => (hr .ehlo).bind fun ehlo => ?_
    refine (adds_ensurePositive ehlo).bind fun _ => ?_
    split
    · refine (hf .startTls _ (by decide)).bind fun _ => (hr .startTls).bind fun resp => ?_
      split
      · exact hu
      · exact hc
    · exact hc
  unfold Offered SmtpSender.sendInner at h
  split at h
  · exact absurd h not_mem_nil
  · obtain ⟨more, hmo, ho⟩ := hco.events { replies := remote.replies, writeBudget := remote.writeBudget, events := [] }
    rw [hmo, nil_append] at h
    exact ho _ h rcpt rfl

def welcoming (recipients : Nat) : Remote where
  refused := none
  replies := .ok "220 ready\r\n" :: agreed :: agreeing recipients
  writeBudget := none
  upgraded := .error "no TLS"

def plainSender : SmtpSender := ⟨.ascii, "relay.example.org", none⟩

theorem offered_of_welcoming (addr) (mailFrom : Text) (rcptTo : List Text)
    (message : Bytes) (hr : rcpt ∈ rcptTo) :
    Offered plainSender (welcoming rcptTo.length) addr mailFrom rcptTo message rcpt := by
  let start : Link :=
    { replies := (welcoming rcptTo.length).replies, writeBudget := none, events := [] }
  obtain ⟨link₁, ho₁, hr₁, hrun₁⟩ : ∃ link₁ : Link, link₁.writeBudget = none ∧
      link₁.replies = agreed :: agreeing rcptTo.length ∧
      (readResponse .banner).run start = .ok (trim "220 ready\r\n") link₁ :=
    ⟨_, rfl, rfl, readResponse_line .banner (by decide) (by decide +kernel) rfl⟩
  obtain ⟨link₂, hon₂, -, hrun₂⟩ := ask_agreed .ehlo (fmt ["EHLO ", plainSender.hostname])
    (smtpConversation mailFrom rcptTo message) ho₁ hr₁
  have hr₂ : link₂.replies = agreeing rcptTo.length ++ [] := by
    rw [append_nil]
    exact hon₂.replies
  obtain ⟨link₃, -, hrun₃, ho⟩ := openMessage_agreed mailFrom rcptTo hon₂.opens hr₂
  -- whatever comes after the recipients, the offers stay on record
  obtain ⟨more, hm, -⟩ := (afterOpen_offers rcptTo message).events link₃
  have hp : plainSender.converse (welcoming rcptTo.length).upgraded mailFrom rcptTo message = (do
        let banner ← readResponse .banner
        ensurePositive banner
        writeCmd .ehlo (fmt ["EHLO ", plainSender.hostname])
        let ehloResp ← readResponse .ehlo
        ensurePositive ehloResp
        smtpConversation mailFrom rcptTo message : Sending Text) := by
    have hn : ∀ resp : Text, ¬ (("STARTTLS" : Text) <:+: plainSender.unicode.toUppercase resp ∧
        plainSender.tls.any (·.opportunistic) = true) := fun _ h => by cases h.2
    simp only [SmtpSender.converse, hn, if_false]
  have hb : ensurePositive (trim "220 ready\r\n") = pure () := by
    exact if_pos (by decide +kernel)
  show _ ∈ record ((plainSender.converse _ mailFrom rcptTo message).run start)
  rw [hp, EStateM.run_bind, hrun₁]
  dsimp only
  rw [hb, pure_bind, hrun₂, smtpConversation, EStateM.run_bind, hrun₃]
  rw [hm]
  exact mem_append_left _ (ho rcpt hr)

/-! ## What a task hands over -/

variable {cfg : Config} {m : Text} {q : QueuedMessage} {mx : MxAnswers} {h : History Op Res}

theorem loaded_foldl (h : History Op Res) :
    ∀ {d : Docket}, d.loaded = some q → (h.foldl (fun d x => d.track x.1 x.2) d).loaded = some q := by
  induction h with
  | nil => exact fun hd => hd
  | cons x h ih =>
    intro d hd
    refine ih ?_
    obtain ⟨op, r⟩ := x
    exact Case.after_loaded hd op r

theorem resolved_mem (h : History Op Res) : (docketAfter h).resolved = some (domain, r) → ⟨.resolve domain, r⟩ ∈ h := by
  induction h using List.reverseRecOn with
  | nil => nofun
  | append_singleton h x ih =>
    intro hd
    rw [docketAfter_concat] at hd
    obtain ⟨op, r'⟩ := x
    rcases Case.after_resolved op r' hd with hold | hnew
    · exact mem_append_left _ (ih hold)
    · exact mem_append_right _ (mem_singleton.mpr hnew)

/-- **The hosts a task connects to** are those of its first recipient's domain, and
what it hands over is the whole envelope. -/
theorem handed_hosts (hp : (task cfg m).Performs (⟨.read (.metaPath m), .ok (.record q)⟩ :: h)
      (.vis (.sendStart addr hostname mailFrom rcptTo message) k)) (hmx : ResolvedBy mx h) :
    rcptTo = q.envelope.rcptTo ∧ (hostname, addr) ∈ mx.hosts (recipientDomain q.envelope) := by
  obtain ⟨-, q', hosts, host, hl, hr, ht, rfl, -, rfl, -⟩ := task_performs hp
  have hq : (docketAfter (⟨.read (.metaPath m), .ok (.record q)⟩ :: h)).loaded = some q := loaded_foldl h rfl
  obtain rfl := Option.some.inj (hq.symm.trans hl)
  refine ⟨rfl, ?_⟩
  have ha : (.ok hosts : Except Text (List MxHost)) = mx (recipientDomain q.envelope) := by
    rcases mem_cons.mp (resolved_mem _ hr) with hre | hmem
    · cases hre
    · exact hmx _ _ hmem
  rw [MxAnswers.hosts, ← ha]
  exact mem_map.mpr ⟨(host, addr), ht, rfl⟩

theorem tryTargets_reaches (cfg : Config) (m : Text) (message : Bytes) (target : MxHost × IpAddr)
    (rest before : List (MxHost × IpAddr)) :
    ∀ queued : QueuedMessage, ∃ h k, (tryTargets cfg m message (before ++ target :: rest) queued).run.Performs h
        (.vis (.sendStart target.2 target.1.hostname queued.envelope.mailFrom queued.envelope.rcptTo message) k) ∧
      ∀ domain r, ⟨.resolve domain, r⟩ ∉ h := by
  induction before with
  | nil =>
    intro queued
    exact ⟨[], _, .done _, fun _ _ => not_mem_nil⟩
  | cons first before ih =>
    intro queued
    obtain ⟨h, k, hp, hr⟩ := ih { queued with
      metadata := { queued.metadata with lastError := some "451" } }
    refine ⟨⟨.sendStart first.2 first.1.hostname queued.envelope.mailFrom queued.envelope.rcptTo
      message, ()⟩ :: ⟨.sendWait, .tempFail "451"⟩ ::
      ⟨.trace (.temporaryFailure m first.1.hostname first.2 "451"), ()⟩ :: h, k, .step (.step (.step hp)), ?_⟩
    intro domain r hmem
    simp only [mem_cons] at hmem
    rcases hmem with hmem | hmem | hmem | hmem
    · cases hmem
    · cases hmem
    · cases hmem
    · exact hr domain r hmem

theorem task_reaches (cfg : Config) (m : Text) (q : QueuedMessage) (message : Bytes) (ht : target ∈ targets hosts)
    (hmx : mx (recipientDomain q.envelope) = .ok hosts) :
    ∃ h k, (task cfg m).Performs (⟨.read (.metaPath m), .ok (.record q)⟩ :: h)
        (.vis (.sendStart target.2 target.1.hostname q.envelope.mailFrom q.envelope.rcptTo message) k)
      ∧ ResolvedBy mx h := by
  obtain ⟨before, rest, hs⟩ := append_of_mem ht
  obtain ⟨h, k, hp, hr⟩ := tryTargets_reaches cfg m message target rest
    before { q with metadata := q.metadata.activated }
  rw [← hs] at hp
  refine ⟨⟨.read (.msgPath m), .ok (.text message)⟩ ::
    ⟨.read (.metaPath m), .ok (.record q)⟩ :: ⟨.create (.metaPath m), .ok 0⟩ ::
    ⟨.write (.metaPath m) 0 (.record { q with metadata := q.metadata.activated }), .ok ()⟩ ::
    ⟨.resolve (recipientDomain q.envelope), .ok hosts⟩ :: h, _,
    .step (.step (.step (.step (.step (.step (hp.bind _)))))), ?_⟩
  intro domain r hmem
  simp only [mem_cons] at hmem
  rcases hmem with hmem | hmem | hmem | hmem | hmem | hmem
  · cases hmem
  · cases hmem
  · cases hmem
  · cases hmem
  · cases hmem
    exact hmx.symm
  · exact absurd hmem (hr domain r)

/-! ## The result -/

/-- **When recipients are offered only to their own hosts**: exactly if every host
of the first recipient's domain is a host of every recipient's domain. -/
theorem routed_iff_shared (mx : MxAnswers) (envelope : Envelope) : Routed mx envelope ↔
      ∀ rcpt ∈ envelope.rcptTo, mx.hosts (recipientDomain envelope) ⊆ mx.hosts (Text.lastPiece '@' rcpt) := by
  constructor
  · intro hrouted rcpt hrcpt host hhost
    unfold MxAnswers.hosts at hhost
    split at hhost
    · rename_i hosts hmx
      obtain ⟨target, htarget, rfl⟩ := mem_map.mp hhost
      obtain ⟨h, k, hperforms, hanswers⟩ := task_reaches smallRelay firstId
        ⟨firstId, envelope, ⟨noon.toDateTime, noon.toDateTime, 0, none, .pending, 0⟩⟩ [] htarget hmx
      exact hrouted _ _ _ _ _ _ _ _ _ k hperforms rfl hanswers plainSender
        (welcoming envelope.rcptTo.length) rcpt (offered_of_welcoming _ _ _ _ hrcpt)
    · exact absurd hhost not_mem_nil
  · intro hshared cfg m q h addr hostname mailFrom rcptTo message k hperforms henv hmx sender remote rcpt hoffered
    obtain ⟨hrcptTo, hhost⟩ := handed_hosts hperforms hmx
    have hrcpt := mem_of_offered hoffered
    rw [hrcptTo, henv] at hrcpt
    rw [henv] at hhost
    exact hshared rcpt hrcpt hhost

def twoProviders : MxAnswers := fun domain =>
  if domain = ("example.net" : Text) then .ok [⟨"mx.example.net", 10, [.v4 192 0 2 1]⟩]
  else .ok [⟨"mx.example.com", 10, [.v4 198 51 100 7]⟩]

def twoDomains : Envelope := ⟨"alice@example.org", ["bob@example.net", "carol@example.com"]⟩

/-- **The second recipient is offered to the first provider.** -/
theorem second_domain_offered : ¬ Routed twoProviders twoDomains := by
  intro hrouted
  have htarget : ((⟨"mx.example.net", 10, [.v4 192 0 2 1]⟩, .v4 192 0 2 1) : MxHost × IpAddr) ∈
      targets [⟨"mx.example.net", 10, [.v4 192 0 2 1]⟩] := mem_singleton.mpr rfl
  have hmx : twoProviders (recipientDomain twoDomains) =
      .ok [⟨"mx.example.net", 10, [.v4 192 0 2 1]⟩] := if_pos (by decide +kernel)
  obtain ⟨h, k, hperforms, hanswers⟩ := task_reaches smallRelay firstId
    ⟨firstId, twoDomains, ⟨noon.toDateTime, noon.toDateTime, 0, none, .pending, 0⟩⟩ [] htarget hmx
  have hhost := hrouted _ _ _ _ _ _ _ _ _ k hperforms rfl hanswers plainSender (welcoming 2)
    "carol@example.com" (offered_of_welcoming _ _ _ _ (by decide +kernel))
  revert hhost
  decide +kernel

end ServerWall.Relay
