import ServerWall.Proxy.History

/-!
# From the configuration to the pipeline

The functions of `serverwall-proxy/src/server.rs` that give an SMTP frontend its pipeline and lists. With
the switch off it gets `AntispamPipeline::empty()`, which calls every message spam (`disabled_not_inert`,
`forwards_exempted_or_passed`). The constructors of the checks are a parameter (`CheckConstructors`).
-/

namespace ServerWall.Proxy

open ServerWall.Antispam ServerWall.Config ServerWall.Smtp AntispamPipeline

/-! ## Constructors of checks -/

structure DnsblZone where
  zone : Text
  weightMultiplier : ℚ
  rejectOnHit : Bool

structure SpfSeverity where
  (fail softfail neutral none : ℚ)

/-- A virus scanner; a pattern that does not compile is dropped. -/
structure ScannerDef where
  (name command : Text)
  (cleanExitCodes virusExitCodes : List Int)
  virusNamePattern : Option Text

/-- The `new` functions of the checks, and whether a pattern is a regular
expression. -/
structure CheckConstructors where
  dnsbl : List DnsblZone → ℚ → PreDataCheck
  spf : ℚ → SpfSeverity → PreDataCheck
  reverseDns : ℚ → PreDataCheck
  residentialSender : ℚ → Bool → Bool → Text → Bool → Bool → PreDataCheck
  helo : ℚ → PreDataCheck
  smtpRateLimit : ℚ → Nat → Nat → Nat → Nat → PreDataCheck
  (earlyTalker behavior : ℚ → PreDataCheck)
  (dkim arc : ℚ → PostDataCheck)
  dmarc : ℚ → Bool → PostDataCheck
  content : ℚ → PostDataCheck
  (urlAnalysis attachment : ℚ → List Text → PostDataCheck)
  (htmlAnalysis headerAnalysis charset bulkDetection ratioAnalysis : ℚ → PostDataCheck)
  antivirus : ℚ → Bool → List ScannerDef → PostDataCheck
  isRegex : Text → Bool

/-! ## Resolving and building -/

/-- `parse_smtp_duration`, in seconds: a number and one of the letters `s`,
`m`, `h`, `d`, and one hour for anything else. The product is taken in 64
bits. -/
def parseSmtpDuration (s : Text) : Nat :=
  let s := Text.trim s
  let number (unit : Char) := (Text.stripSuffix unit s).bind (Text.parseUnsigned (2 ^ 64))
  match number 's' with
  | some n => n
  | none =>
  match number 'm' with
  | some n => n * 60 % 2 ^ 64
  | none =>
  match number 'h' with
  | some n => n * 3600 % 2 ^ 64
  | none =>
  match number 'd' with
  | some n => n * 86400 % 2 ^ 64
  | none => 3600

example : parseSmtpDuration " 5m\n" = 300 := by decide
example : parseSmtpDuration "soon" = 3600 := by decide

/-- The effective section of a frontend: the overrides of its profile on top of
the global section. -/
def resolveAntispamForProfile (global : AntispamConfig) (profileName : Option Text)
    (profiles : List SecurityProfile) : AntispamConfig :=
  match profileName with
  | none => global
  | some pname =>
  match profiles.find? (·.name == pname) with
  | none => global
  | some p =>
  match p.antispam with
  | none => global
  | some pa =>
    { global with
      enabled := pa.enabled
      possibleSpamThreshold := pa.possibleSpamThreshold.getD global.possibleSpamThreshold
      definiteSpamThreshold := pa.definiteSpamThreshold.getD global.definiteSpamThreshold
      antivirus := pa.antivirus }

def wired {α : Type} (on : Bool) (check : α) : List α := if on then [check] else []

def wirePreData (k : CheckConstructors) (c : AntispamConfig) : List PreDataCheck :=
  wired (c.dnsbl.enabled && !c.dnsbl.lists.isEmpty)
    (k.dnsbl (c.dnsbl.lists.map fun l => ⟨l.zone, l.weightMultiplier, l.rejectOnHit⟩) c.dnsbl.weight) ++
  wired c.spf.enabled
    (k.spf c.spf.weight ⟨c.spf.severity.fail, c.spf.severity.softfail, c.spf.severity.neutral,
      c.spf.severity.none⟩) ++
  wired c.rdns.enabled (k.reverseDns c.rdns.weight) ++
  wired c.residentialSpf.enabled
    (k.residentialSender c.residentialSpf.weight c.residentialSpf.reject c.residentialSpf.checkPbl
      c.residentialSpf.pblZone c.residentialSpf.softfailTriggers c.residentialSpf.neutralTriggers) ++
  wired c.helo.enabled (k.helo c.helo.weight) ++
  -- the window of the per-IP rule serves all three
  wired c.rateLimit.enabled
    (k.smtpRateLimit c.rateLimit.weight c.rateLimit.perIp.max c.rateLimit.perDomain.max
      c.rateLimit.perSender.max (parseSmtpDuration c.rateLimit.perIp.window)) ++
  wired c.earlyTalker.enabled (k.earlyTalker c.earlyTalker.weight) ++
  [k.behavior (1 / 2)]

def wirePostData (k : CheckConstructors) (c : AntispamConfig) : List PostDataCheck :=
  wired c.dkim.enabled (k.dkim c.dkim.weight) ++
  [k.arc (1 / 2)] ++
  wired c.dmarc.enabled (k.dmarc c.dmarc.weight c.dmarc.honorRejectPolicy) ++
  wired c.content.enabled (k.content c.content.weight) ++
  wired c.urlAnalysis.enabled (k.urlAnalysis c.urlAnalysis.weight c.urlAnalysis.surblZones) ++
  wired c.attachment.enabled (k.attachment c.attachment.weight c.attachment.dangerousExtensions) ++
  wired c.html.enabled (k.htmlAnalysis c.html.weight) ++
  wired c.headerAnalysis.enabled (k.headerAnalysis c.headerAnalysis.weight) ++
  wired c.charset.enabled (k.charset c.charset.weight) ++
  wired c.bulk.enabled (k.bulkDetection c.bulk.weight) ++
  wired c.ratio.enabled (k.ratioAnalysis c.ratio.weight) ++
  wired (c.antivirus.enabled && !c.antivirus.scanners.isEmpty)
    (k.antivirus c.antivirus.weight c.antivirus.rejectOnVirus (c.antivirus.scanners.map fun s =>
        ⟨s.name, s.command, s.cleanExitCodes, s.virusExitCodes, s.virusNamePattern.filter k.isRegex⟩))

def buildAntispamPipeline (k : CheckConstructors) (config : AntispamConfig) : AntispamPipeline :=
  if !config.enabled then .empty
  else { config, preDataChecks := wirePreData k config, postDataChecks := wirePostData k config }

def buildAllowList (u : Unicode) (config : AntispamConfig) : AllowList :=
  .fromConfig u config.allow.ips config.allow.senders config.allow.senderDomains

def buildBlockList (u : Unicode) (config : AntispamConfig) : BlockList :=
  .fromConfig u config.block.ips config.block.senders config.block.senderDomains config.block.recipients

structure SmtpFrontend where
  unicode : Unicode
  checks : CheckConstructors
  antispam : AntispamConfig
  securityProfile : Option Text
  securityProfiles : List SecurityProfile
  (hostname backendTag : Text)
  ja3Fingerprint : Option Text
  smtpHeaders : SmtpHeadersConfig

namespace SmtpFrontend

def effectiveAntispam (f : SmtpFrontend) : AntispamConfig :=
  resolveAntispamForProfile f.antispam f.securityProfile f.securityProfiles

def proxy (f : SmtpFrontend) : SmtpProxy where
  unicode := f.unicode
  backendTag := f.backendTag
  pipeline := buildAntispamPipeline f.checks f.effectiveAntispam
  allowList := buildAllowList f.unicode f.antispam
  blockList := buildBlockList f.unicode f.antispam
  hostname := f.hostname
  ja3Fingerprint := f.ja3Fingerprint
  smtpHeaders := f.smtpHeaders

end SmtpFrontend

/-! ## With the switch off -/

/-- The pipeline lets a message through: neither phase rejects or defers it, and
the verdict is not spam. The phases may run at different moments. -/
def Inert (u : Unicode) (p : AntispamPipeline) (m m' : Moment) (msg : MessageContext)
    (auth : AuthenticationResults) : Prop :=
  ∃ score contribs, p.runPreData m msg.envelope = (.proceed, score, contribs) ∧
    ∃ report, p.runPostData u m' msg score contribs auth = .ok report ∧ report.verdict ≠ .spam

theorem empty_runPreData (m : Moment) (ctx : EnvelopeContext) : empty.runPreData m ctx = (.proceed, .zero, []) :=
  rfl

theorem empty_runPostData_spam {report : SpamReport} (h : empty.runPostData u m msg .zero [] auth = .ok report) :
    report.verdict = .spam := by
  rw [runPostData_noChecks rfl] at h
  cases h
  refine (zero_verdict_spam_iff _ _ _).mpr (le_of_eq ?_)
  rfl

theorem empty_not_inert (u : Unicode) (m m' : Moment) (msg : MessageContext)
    (auth) : ¬ Inert u .empty m m' msg auth := by
  rintro ⟨score, contribs, hpre, report, hp, hv⟩
  rw [empty_runPreData] at hpre
  cases hpre
  exact hv (empty_runPostData_spam hp)

theorem build_disabled (k : CheckConstructors) (hoff : c.enabled = false) : buildAntispamPipeline k c = .empty := by
  simp only [buildAntispamPipeline, hoff, Bool.not_false, if_true]

/-- **A frontend whose effective section is switched off calls every message
spam.** -/
theorem disabled_not_inert (f : SmtpFrontend) (hoff : f.effectiveAntispam.enabled = false)
    (m m' : Moment) (msg : MessageContext) (auth : AuthenticationResults) :
    ¬ Inert f.unicode f.proxy.pipeline m m' msg auth := by
  show ¬ Inert _ (buildAntispamPipeline f.checks f.effectiveAntispam) _ _ _ _
  rw [build_disabled f.checks hoff]
  exact empty_not_inert f.unicode m m' msg auth

def CheckConstructors.silent : CheckConstructors :=
  let pre : PreDataCheck := { name := "silent", check := fun _ _ => (.pass, none) }
  let post : PostDataCheck := { name := "silent", check := fun _ _ => (.pass, []) }
  { dnsbl := fun _ _ => pre, spf := fun _ _ => pre, reverseDns := fun _ => pre
    residentialSender := fun _ _ _ _ _ _ => pre, helo := fun _ => pre
    smtpRateLimit := fun _ _ _ _ _ => pre, earlyTalker := fun _ => pre, behavior := fun _ => pre
    dkim := fun _ => post, arc := fun _ => post, dmarc := fun _ _ => post, content := fun _ => post
    urlAnalysis := fun _ _ => post, attachment := fun _ _ => post, htmlAnalysis := fun _ => post
    headerAnalysis := fun _ => post, charset := fun _ => post, bulkDetection := fun _ => post
    ratioAnalysis := fun _ => post, antivirus := fun _ _ _ => post, isRegex := fun _ => true }

def SmtpFrontend.plain (antispam : AntispamConfig) : SmtpFrontend where
  unicode := .ascii
  checks := .silent
  antispam := antispam
  securityProfile := none
  securityProfiles := []
  hostname := "mx.example.org"
  backendTag := "backend"
  ja3Fingerprint := none
  smtpHeaders := { addReceived := false, xForwardedFor := false }

def plainMessage : MessageContext where
  envelope :=
    { clientIp := .v4 192 0 2 1
      heloDomain := "CLIENT"
      mailFrom := "a@example.com"
      rcptTo := ["user@example.org"]
      earlyTalker := false
      connectTime := 0
      bannerSentTime := 0
      commandCount := 4
      pipeliningDetected := false
      ja3Fingerprint := none }
  rawMessage := Text.bytes "hello\r\n"

theorem disabled_not_inert_plain :
    (SmtpFrontend.plain { possibleSpamThreshold := defaultPossibleSpam
                          definiteSpamThreshold := defaultDefiniteSpam }).effectiveAntispam.enabled =
        false ∧
      ¬ Inert .ascii
        (SmtpFrontend.plain { possibleSpamThreshold := defaultPossibleSpam
                              definiteSpamThreshold := defaultDefiniteSpam }).proxy.pipeline
        0 0 plainMessage {} :=
  ⟨rfl, disabled_not_inert _ rfl 0 0 plainMessage {}⟩

/-- The same message is let through when the section is on and every check is
silent, and called spam when it is off. -/
theorem disabled_stricter_than_enabled :
    Inert .ascii
        (SmtpFrontend.plain { enabled := true
                              possibleSpamThreshold := defaultPossibleSpam
                              definiteSpamThreshold := defaultDefiniteSpam }).proxy.pipeline
        0 0 plainMessage {} ∧
      ¬ Inert .ascii
        (SmtpFrontend.plain { enabled := false
                              possibleSpamThreshold := defaultPossibleSpam
                              definiteSpamThreshold := defaultDefiniteSpam }).proxy.pipeline
        0 0 plainMessage {} := by
  refine ⟨⟨.zero, [], rfl, _, rfl, by decide +kernel⟩, ?_⟩
  rintro ⟨score, contribs, hpre, report, hpost, hverdict⟩
  cases hpre
  exact hverdict (empty_runPostData_spam hpost)

/-! ## Sessions of such a frontend -/

end ServerWall.Proxy
