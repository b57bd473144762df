import ServerWall.Core.AntispamConfig

/-!
# The configuration schema

`serverwall-core/src/config/schema.rs` with all fields. `{}` is `T::default()` where the type implements
it, and has the serde defaults of the optional fields otherwise; the others are in `Core/Serde.lean`.
`u64` and `usize` are natural numbers, `f64` a rational, a path its text.
-/

namespace ServerWall.Schema

open Config

/-! ## Enumerations -/

inductive ProtocolType where
  | https
  | smtps
  | smtpStarttls
  | imaps
  | tcp
  | stratum
  deriving DecidableEq

inductive BalanceMethod where
  | roundRobin
  | leastConnections
  | ipHash
  /-- Sticky sessions: a cookie routes repeat clients to the same backend. -/
  | stickySession
  deriving DecidableEq

inductive LogFormat where
  | apacheCombined
  | apacheCustom
  | postfix_
  | protocol
  | json
  deriving DecidableEq

inductive AclDefaultAction where
  | allow
  | deny
  deriving DecidableEq

inductive WafMode where
  | blocking
  | detectionOnly
  | disabled
  deriving DecidableEq

inductive HealthCheckType where
  | tcp
  | http
  | smtp
  | imap
  | stratum
  deriving DecidableEq

/-! ## Default values -/

def defaultDaemonName : Text := "serverwall"
def defaultMaxConnections : Nat := 65536
def defaultLogDir : Text := "/opt/serverwall/var/log"
def defaultCertDir : Text := "/opt/serverwall/etc/certs"
def defaultLogLevel : Text := "info"
def defaultDrainTimeout : Nat := 30
def defaultWebuiListen : Text := "0.0.0.0:8443"
def defaultWebuiAllowList : List Text := ["0.0.0.0/0", "::/0"]
def defaultWebuiCert : Option Text := some "/opt/serverwall/etc/certs/webui.pem"
def defaultWebuiKey : Option Text := some "/opt/serverwall/etc/certs/webui-key.pem"
def defaultTokensFile : Text := "/opt/serverwall/etc/api-tokens.toml"
def defaultWebUsersFile : Text := "/opt/serverwall/etc/web-users.toml"
def defaultAcmeDirectory : Text := "https://acme-v02.api.letsencrypt.org/directory"
def defaultAcmeChallenge : Text := "http-01"
def defaultAcmeStorage : Text := "/opt/serverwall/etc/acme"
def defaultAcmeAllowedCidrs : List Text := ["64.112.15.0/24", "66.133.109.0/24"]
def defaultRenewDays : UInt32 := 30
def defaultCompressMinSize : Nat := 1024
def defaultCompressTypes : List Text := ["text/html", "text/css", "text/javascript", "text/plain", "text/xml",
   "application/javascript", "application/json", "application/xml", "image/svg+xml"]
def defaultTlsMinVersion : Text := "1.2"
def defaultSessionCookie : Text := "_s"
def defaultProfileType : Text := "HTTP"
def defaultHealthInterval : Text := "10s"
def defaultHealthTimeout : Text := "3s"
def defaultHealthExpect : UInt16 := 200
def defaultHealthMethod : Text := "GET"
def defaultAnomalyThreshold : UInt32 := 5
def defaultWafRuleAction : Text := "block"
def defaultRateKey : Text := "client_ip"
def defaultCookieSize : Nat := 4096
def defaultCheckDuration : Text := "10s"
def defaultDnsblTimeout : Text := "5s"
def defaultGeoipDbPath : Option Text := some "/opt/serverwall/lib/geoip/dbip-country-lite.mmdb"
def defaultRateWeight : ℚ := 5
def defaultAvWeight : ℚ := 10
def defaultAvErrorAction : Text := "pass"
def defaultAvTimeoutAction : Text := "tempfail"
def defaultScannerTimeout : Text := "30s"
def defaultSpoolDir : Text := "/opt/serverwall/var/spool"
def defaultMaxQueue : Nat := 10000
def defaultDeliveryThreads : Nat := 4
def defaultMaxMessageSize : Nat := 26214400
def defaultMaxRecipients : Nat := 100
def defaultDomainRate : Nat := 500
def defaultDkimAlgorithm : Text := "rsa-sha256"
def defaultDmarcPublishPolicy : Text := "none"
def defaultRelaxedAlignment : Text := "r"
def defaultSpfAll : Text := "-all"
def defaultSpfQualifier : Text := "+"
def defaultMaxAge : Text := "5d"
def defaultMaxAttempts : UInt32 := 25
def defaultRetryIntervals : List Text := ["5m", "10m", "30m", "1h", "2h", "4h", "8h", "12h"]

/-! ## Global, web UI and ACME -/

structure GlobalConfig where
  daemonName : Text := defaultDaemonName
  pidFile : Option Text := none
  workerThreads : Nat := 0
  maxConnections : Nat := defaultMaxConnections
  logDir : Text := defaultLogDir
  certDir : Text := defaultCertDir
  configDir : Option Text := none
  logLevel : Text := defaultLogLevel
  gracefulDrainSecs : Nat := defaultDrainTimeout

structure WebuiConfig where
  enabled : Bool := true
  listen : Text := defaultWebuiListen
  tlsCert : Option Text := defaultWebuiCert
  tlsKey : Option Text := defaultWebuiKey
  tokensFile : Text := defaultTokensFile
  webUsersFile : Text := defaultWebUsersFile
  allowedOrigins : List Text := []
  allowList : List Text := defaultWebuiAllowList

structure AcmeConfig where
  enabled : Bool := false
  email : Option Text := none
  directoryUrl : Text := defaultAcmeDirectory
  challengeType : Text := defaultAcmeChallenge
  storageDir : Text := defaultAcmeStorage
  autoRenew : Bool := true
  renewBeforeDays : UInt32 := defaultRenewDays
  challengeAllowedCidrs : List Text := defaultAcmeAllowedCidrs

/-! ## Frontends -/

structure CustomHeader where
  (name value : Text)

/-- Derives `Default`: no header is added. -/
structure FrontendHeadersConfig where
  (xForwardedFor xRealIp xForwardedProto xForwardedHost xForwardedPort xRequestId : Bool := false)
  custom : List CustomHeader := []

structure FrontendAclConfig where
  (allowList blockList : List Text := [])
  defaultAction : AclDefaultAction := .allow

/-- `SmtpHeadersConfig::default()`, derived. -/
def smtpHeadersDefault : SmtpHeadersConfig where
  addReceived := false
  xForwardedFor := false

structure FrontendConfig where
  name : Text
  protocol : ProtocolType
  listen : List Text
  backendPool : Text
  (tlsCert tlsChain tlsKey tlsKeyPassword tlsPfx tlsPfxPassword : Option Text := none)
  tlsMinVersion : Text := defaultTlsMinVersion
  tlsCiphers : List Text := []
  balancer : BalanceMethod := .roundRobin
  wafEnabled : Bool := false
  (wafRuleset securityProfile logFile : Option Text := none)
  logFormat : LogFormat := .apacheCombined
  accessLog : Bool := true
  logProfile : Option Text := none
  headers : FrontendHeadersConfig := {}
  smtpHeaders : SmtpHeadersConfig := smtpHeadersDefault
  acl : FrontendAclConfig := {}
  maxConnections : Option Nat := none
  sessionCookie : Text := defaultSessionCookie

/-! ## Backend pools -/

structure BackendConfig where
  (name address : Text)
  weight : UInt32 := 1
  tls : Bool := false
  tlsVerify : Option Bool := none
  tlsSni : Option Text := none
  maxConnections : Option Nat := none
  enabled : Bool := true

structure BackendPoolConfig where
  name : Text
  healthCheckInterval : Text := defaultHealthInterval
  healthCheckTimeout : Text := defaultHealthTimeout
  healthCheckType : HealthCheckType := .tcp
  healthCheckPath : Option Text := none
  healthCheckExpect : UInt16 := defaultHealthExpect
  (healthCheckTls healthCheckIgnoreCert : Bool := false)
  healthCheckMethod : Text := defaultHealthMethod
  backend : List BackendConfig := []

/-! ## WAF rulesets -/

structure WafExclusions where
  (paths ipAddresses : List Text := [])

structure WafCustomRule where
  id : Nat
  description : Text
  phase : UInt8 := 1
  action : Text := defaultWafRuleAction
  (matchField operator pattern : Text)

structure WafRulesetConfig where
  name : Text
  mode : WafMode := .blocking
  anomalyThreshold : UInt32 := defaultAnomalyThreshold
  rulesDir : Option Text := none
  paranoiaLevel : UInt8 := 1
  exclusions : WafExclusions := {}
  customRules : List WafCustomRule := []

/-! ## Security -/

/-- Derives `Default`: the minimum version is the empty string. -/
structure SecurityTlsConfig where
  minVersion : Text := []
  cipherSuites : List Text := []
  ocspStapling : Bool := false
  hstsMaxAge : Option Nat := none
  (hstsIncludeSubdomains backendTlsVerify : Bool := false)
  backendCaBundle : Option Text := none

structure IpAclConfig where
  (allow block : List Text := [])

structure DomainAclConfig where
  (allow block : List Text := [])

structure PathPatternConfig where
  action : Text
  patterns : List Text

structure SecurityAclConfig where
  default : AclDefaultAction := .allow
  aclBypassWaf : Bool := false
  ip : IpAclConfig := {}
  domain : DomainAclConfig := {}
  pathPatterns : List PathPatternConfig := []

structure RateLimitScope where
  scopeType : Text
  pattern : Option Text := none

structure RateLimitConfig where
  name : Text
  key : Text := defaultRateKey
  (requests windowSecs : Nat)
  burst : Option Nat := none
  scope : Option RateLimitScope := none

/-- Derives `Default`: no database path. -/
structure GeoConfig where
  enabled : Bool := false
  databasePath : Option Text := none
  (blockCountries allowCountries : List Text := [])

structure BotDetectionConfig where
  enabled : Bool := false
  ja3FingerprintBlockList : List Text := []
  challengeSuspicious : Bool := false
  knownGoodBots : List Text := []
  verifyGoodBots : Bool := false

/-- Derives `Default`: a maximum cookie size of zero. -/
structure CookieSecurityConfig where
  (enforceSecureFlag enforceHttponlyFlag : Bool := false)
  enforceSamesite : Option Text := none
  maxCookieSize : Nat := 0

structure SecurityHeadersConfig where
  addXContentTypeOptions : Bool := false
  (addXFrameOptions addReferrerPolicy addContentSecurityPolicy : Option Text := none)
  (removeServerHeader removeXPoweredBy : Bool := true)
  compressResponses : Bool := false
  compressMinSize : Nat := defaultCompressMinSize
  compressTypes : List Text := defaultCompressTypes

/-- Derives `Default`: security is disabled. -/
structure SecurityConfig where
  enabled : Bool := false
  tls : SecurityTlsConfig := {}
  acl : SecurityAclConfig := {}
  rateLimit : List RateLimitConfig := []
  geo : GeoConfig := {}
  botDetection : BotDetectionConfig := {}
  cookies : CookieSecurityConfig := {}
  headers : SecurityHeadersConfig := {}

/-! ## Antispam -/

structure DnsblConfig where
  enabled : Bool := true
  weight : ℚ := 8
  timeout : Text := defaultDnsblTimeout
  lists : List DnsblListEntry := defaultDnsblLists

structure ContentCheckConfig where
  enabled : Bool := true
  weight : ℚ := 5
  rulesFile : Option Text := none

structure ScannerConfig where
  (name command : Text)
  cleanExitCodes : List Int32 := [0]
  virusExitCodes : List Int32 := [1]
  errorExitCodes : List Int32 := [2]
  timeout : Text := defaultScannerTimeout
  virusNamePattern : Option Text := none

/-- Derives `Default`: of weight zero, not rejecting, without error actions. -/
structure AntivirusConfig where
  enabled : Bool := false
  weight : ℚ := 0
  rejectOnVirus : Bool := false
  scanners : List ScannerConfig := []
  (onScannerError onScannerTimeout : Text := [])

structure DomainOverride where
  domain : Text
  (possibleSpamThreshold definiteSpamThreshold : Option UInt8 := none)
  disabledChecks : List Text := []

/-- Derives `Default`: thresholds of zero and no check duration. -/
structure AntispamConfig where
  enabled : Bool := false
  (possibleSpamThreshold definiteSpamThreshold : UInt8 := 0)
  maxCheckDuration : Text := []
  (allow block : AntispamListConfig := {})
  dnsbl : DnsblConfig := {}
  spf : SpfConfig := {}
  rdns : CheckWeightConfig := {}
  residentialSpf : ResidentialSenderConfig := {}
  helo : CheckWeightConfig := {}
  rateLimit : SmtpRateLimitConfig := {}
  (earlyTalker dkim : CheckWeightConfig := {})
  dmarc : DmarcConfig := {}
  content : ContentCheckConfig := {}
  urlAnalysis : UrlAnalysisConfig := {}
  attachment : AttachmentConfig := {}
  (html headerAnalysis charset bulk ratio : CheckWeightConfig := {})
  antivirus : AntivirusConfig := {}
  domainOverrides : List DomainOverride := []

/-! ## Profiles -/

structure SecurityProfileAntispam where
  enabled : Bool := true
  (possibleSpamThreshold definiteSpamThreshold : Option UInt8 := none)
  antivirus : AntivirusConfig := {}

structure SecurityProfile where
  name : Text
  description : Text := []
  profileType : Text := defaultProfileType
  wafEnabled : Bool := false
  wafRuleset : Option Text := none
  headers : SecurityHeadersConfig := {}
  cookies : CookieSecurityConfig := {}
  botDetection : BotDetectionConfig := {}
  geo : GeoConfig := {}
  /-- `none`: SMTP frontends fall back to the global section. -/
  antispam : Option SecurityProfileAntispam := none
  minVersion : Text := defaultTlsMinVersion
  cipherSuites : List Text := []
  hstsMaxAge : Option Nat := none
  (hstsIncludeSubdomains ocspStapling : Bool := false)

structure LogProfile where
  name : Text
  description : Text := []
  format : LogFormat := .apacheCombined
  accessLog : Bool := true

/-! ## Relay -/

structure TrustedHostsConfig where
  hosts : List Text := []
  requireTls : Bool := false

structure RetryConfig where
  intervals : List Text := defaultRetryIntervals
  maxAge : Text := defaultMaxAge
  maxAttempts : UInt32 := defaultMaxAttempts

/-- Derives `Default`: not even opportunistic TLS, no minimum version. -/
structure RelayTlsConfig where
  (opportunistic verifyCertificates : Bool := false)
  minVersion : Text := []

structure DkimDomainConfig where
  (domain selector keyFile : Text)
  algorithm : Text := defaultDkimAlgorithm

structure RelayDkimConfig where
  enabled : Bool := false
  domains : List DkimDomainConfig := []

structure DmarcPolicyDomain where
  domain : Text
  policy : Text := defaultDmarcPublishPolicy
  subdomainPolicy : Option Text := none
  pct : UInt8 := 100
  (rua ruf : List Text := [])
  (adkim aspf : Text := defaultRelaxedAlignment)

structure RelayDmarcPublishConfig where
  domains : List DmarcPolicyDomain := []

structure SpfMechanism where
  qualifier : Text := defaultSpfQualifier
  mechanism : Text
  value : Option Text := none

structure SpfDomainConfig where
  domain : Text
  mechanisms : List SpfMechanism := []
  all : Text := defaultSpfAll

structure RelaySpfPublishConfig where
  domains : List SpfDomainConfig := []

/-- Derives `Default`: no policy, and limits of zero. -/
structure OutboundPolicyConfig where
  enabled : Bool := false
  (maxMessageSize maxRecipientsPerMessage : Nat := 0)
  allowedSenderDomains : List Text := []
  maxMessagesPerDomainPerHour : Nat := 0
  (blockDangerousAttachments checkUrls : Bool := false)

/-- Derives `Default`: original headers are not included. -/
structure BounceConfig where
  sender : Option Text := none
  includeOriginalHeaders : Bool := false

/-- Derives `Default`: no spool directory, no queue and no delivery threads. -/
structure RelayConfig where
  enabled : Bool := false
  listen : List Text := []
  hostname : Option Text := none
  spoolDir : Text := []
  (maxQueueSize deliveryThreads : Nat := 0)
  trustedHosts : TrustedHostsConfig := {}
  retry : RetryConfig := {}
  tls : RelayTlsConfig := {}
  dkim : RelayDkimConfig := {}
  dmarcPublish : RelayDmarcPublishConfig := {}
  spfPublish : RelaySpfPublishConfig := {}
  outboundPolicy : OutboundPolicyConfig := {}
  bounce : BounceConfig := {}

/-! ## The whole configuration -/

structure ServerWallConfig where
  global : GlobalConfig := {}
  webui : WebuiConfig := {}
  acme : AcmeConfig := {}
  frontend : List FrontendConfig := []
  backendPool : List BackendPoolConfig := []
  wafRuleset : List WafRulesetConfig := []
  securityProfiles : List SecurityProfile := []
  logProfiles : List LogProfile := []
  security : SecurityConfig := {}
  antispam : AntispamConfig := {}
  relay : RelayConfig := {}

/-! ## What the SMTP frontends read

The sections of `Core/AntispamConfig.lean` are these without the fields that no
frontend reads. -/

def ScannerConfig.smtp (s : ScannerConfig) : Config.ScannerConfig where
  name := s.name
  command := s.command
  cleanExitCodes := s.cleanExitCodes.map Int32.toInt
  virusExitCodes := s.virusExitCodes.map Int32.toInt
  virusNamePattern := s.virusNamePattern

def AntivirusConfig.smtp (a : AntivirusConfig) : Config.AntivirusConfig where
  enabled := a.enabled
  weight := a.weight
  rejectOnVirus := a.rejectOnVirus
  scanners := a.scanners.map ScannerConfig.smtp

def DomainOverride.smtp (d : DomainOverride) : Config.DomainOverride where
  domain := d.domain
  possibleSpamThreshold := d.possibleSpamThreshold
  definiteSpamThreshold := d.definiteSpamThreshold

def AntispamConfig.smtp (a : AntispamConfig) : Config.AntispamConfig where
  enabled := a.enabled
  possibleSpamThreshold := a.possibleSpamThreshold
  definiteSpamThreshold := a.definiteSpamThreshold
  allow := a.allow
  block := a.block
  dnsbl := { enabled := a.dnsbl.enabled, weight := a.dnsbl.weight, lists := a.dnsbl.lists }
  spf := a.spf
  rdns := a.rdns
  residentialSpf := a.residentialSpf
  helo := a.helo
  rateLimit := a.rateLimit
  earlyTalker := a.earlyTalker
  dkim := a.dkim
  dmarc := a.dmarc
  content := { enabled := a.content.enabled, weight := a.content.weight }
  urlAnalysis := a.urlAnalysis
  attachment := a.attachment
  html := a.html
  headerAnalysis := a.headerAnalysis
  charset := a.charset
  bulk := a.bulk
  ratio := a.ratio
  antivirus := a.antivirus.smtp
  domainOverrides := a.domainOverrides.map DomainOverride.smtp

end ServerWall.Schema
