import ServerWall.Lib.Text

/-!
# The antispam section of the configuration

The part of `serverwall-core/src/config/schema.rs` that the SMTP frontends read; weights are exact
rationals. The derived `Default` takes every field's own default, zero for the two thresholds. A
file with the section left empty loads to the serde defaults instead.
-/

namespace ServerWall.Config

def defaultPossibleSpam : UInt8 := 40
def defaultDefiniteSpam : UInt8 := 80
def defaultCheckWeight : ℚ := 3

structure AntispamListConfig where
  (ips senderDomains senders recipients : List Text := [])

structure CheckWeightConfig where
  enabled : Bool := true
  weight : ℚ := defaultCheckWeight

structure DnsblListEntry where
  zone : Text
  weightMultiplier : ℚ := 1
  rejectOnHit : Bool := false

def defaultDnsblLists : List DnsblListEntry :=
  [{ zone := "zen.spamhaus.org", weightMultiplier := 2, rejectOnHit := true }, { zone := "bl.spamcop.net" },
   { zone := "b.barracudacentral.org" }, { zone := "psbl.surriel.com", weightMultiplier := 4 / 5 },
   { zone := "dnsbl.sorbs.net", weightMultiplier := 4 / 5 }]

structure DnsblConfig where
  enabled : Bool := true
  weight : ℚ := 8
  lists : List DnsblListEntry := defaultDnsblLists

structure SpfSeverityConfig where
  fail : ℚ := 1
  softfail : ℚ := 1 / 2
  neutral : ℚ := 1 / 10
  none : ℚ := 3 / 10

structure SpfConfig where
  enabled : Bool := true
  weight : ℚ := 6
  severity : SpfSeverityConfig := {}

structure ResidentialSenderConfig where
  (enabled reject : Bool := true)
  weight : ℚ := 10
  checkPbl : Bool := true
  pblZone : Text := "pbl.spamhaus.org"
  softfailTriggers : Bool := true
  neutralTriggers : Bool := false

structure SmtpRateRule where
  max : Nat := 100
  window : Text := "1h"

/-- Derives `Default`: disabled and of weight zero. -/
structure SmtpRateLimitConfig where
  enabled : Bool := false
  weight : ℚ := 0
  (perIp perDomain perSender : SmtpRateRule := {})

structure DmarcConfig where
  enabled : Bool := true
  weight : ℚ := 7
  honorRejectPolicy : Bool := true

structure ContentCheckConfig where
  enabled : Bool := true
  weight : ℚ := 5

structure UrlAnalysisConfig where
  enabled : Bool := true
  weight : ℚ := 5
  surblZones : List Text := []

def defaultDangerousExtensions : List Text := ["exe", "scr", "bat", "cmd", "ps1", "vbs", "js", "msi", "dll", "hta"]

structure AttachmentConfig where
  enabled : Bool := true
  weight : ℚ := 6
  dangerousExtensions : List Text := defaultDangerousExtensions

structure ScannerConfig where
  (name command : Text)
  cleanExitCodes : List Int := [0]
  virusExitCodes : List Int := [1]
  virusNamePattern : Option Text := none

/-- Derives `Default`: disabled, of weight zero, and not rejecting. -/
structure AntivirusConfig where
  enabled : Bool := false
  weight : ℚ := 0
  rejectOnVirus : Bool := false
  scanners : List ScannerConfig := []

structure DomainOverride where
  domain : Text
  (possibleSpamThreshold definiteSpamThreshold : Option UInt8 := none)

/-- The `[antispam]` section. The field defaults are those of the derived
`Default`. -/
structure AntispamConfig where
  enabled : Bool := false
  (possibleSpamThreshold definiteSpamThreshold : UInt8 := 0)
  (allow block : AntispamListConfig := {})
  dnsbl : DnsblConfig := {}
  spf : SpfConfig := {}
  rdns : CheckWeightConfig := {}
  residentialSpf : ResidentialSenderConfig := {}
  helo : CheckWeightConfig := {}
  rateLimit : SmtpRateLimitConfig := {}
  (earlyTalker dkim : CheckWeightConfig := {})
  dmarc : DmarcConfig := {}
  content : ContentCheckConfig := {}
  urlAnalysis : UrlAnalysisConfig := {}
  attachment : AttachmentConfig := {}
  (html headerAnalysis charset bulk ratio : CheckWeightConfig := {})
  antivirus : AntivirusConfig := {}
  domainOverrides : List DomainOverride := []

def AntispamConfig.default : AntispamConfig := {}

/-- The `antispam` part of a security profile; thresholds left out fall back to
the global section. -/
structure SecurityProfileAntispam where
  enabled : Bool := true
  (possibleSpamThreshold definiteSpamThreshold : Option UInt8 := none)
  antivirus : AntivirusConfig := {}

/-- A security profile, as far as the SMTP frontends read it. -/
structure SecurityProfile where
  name : Text
  antispam : Option SecurityProfileAntispam := none

structure SmtpHeadersConfig where
  (addReceived xForwardedFor : Bool)

end ServerWall.Config
