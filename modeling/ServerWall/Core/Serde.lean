import ServerWall.Core.Schema
import ServerWall.Lib.Toml

/-!
# Reading and writing the configuration

The `serde` attributes of `serverwall-core/src/config/schema.rs`: the fields in order, with their keys and
what stands for them when the key is missing. `.required` has no serde default, `.defaulted` and `.table`
have one, `.optional` is an `Option`; three of these have a default other than `None`.
-/

namespace ServerWall.Schema

open Config Toml

/-! ## Names of variants -/

def ProtocolType.variant : ProtocolType → Text
  | .https => "https"
  | .smtps => "smtps"
  | .smtpStarttls => "smtp-starttls"
  | .imaps => "imaps"
  | .tcp => "tcp"
  | .stratum => "stratum"

instance : Serde ProtocolType :=
  .ofVariants [.https, .smtps, .smtpStarttls, .imaps, .tcp, .stratum] ProtocolType.variant (by intro a; cases a <;> rfl)

def BalanceMethod.variant : BalanceMethod → Text
  | .roundRobin => "round_robin"
  | .leastConnections => "least_connections"
  | .ipHash => "ip_hash"
  | .stickySession => "sticky_session"

instance : Serde BalanceMethod :=
  .ofVariants [.roundRobin, .leastConnections, .ipHash, .stickySession] BalanceMethod.variant
    (by intro a; cases a <;> rfl)

def LogFormat.variant : LogFormat → Text
  | .apacheCombined => "apache_combined"
  | .apacheCustom => "apache_custom"
  | .postfix_ => "postfix"
  | .protocol => "protocol"
  | .json => "json"

instance : Serde LogFormat :=
  .ofVariants [.apacheCombined, .apacheCustom, .postfix_, .protocol, .json] LogFormat.variant
    (by intro a; cases a <;> rfl)

def AclDefaultAction.variant : AclDefaultAction → Text
  | .allow => "allow"
  | .deny => "deny"

instance : Serde AclDefaultAction := .ofVariants [.allow, .deny] AclDefaultAction.variant (by intro a; cases a <;> rfl)

def WafMode.variant : WafMode → Text
  | .blocking => "blocking"
  | .detectionOnly => "detection_only"
  | .disabled => "disabled"

instance : Serde WafMode := .ofVariants [.blocking, .detectionOnly, .disabled] WafMode.variant
    (by intro a; cases a <;> rfl)

def HealthCheckType.variant : HealthCheckType → Text
  | .tcp => "tcp"
  | .http => "http"
  | .smtp => "smtp"
  | .imap => "imap"
  | .stratum => "stratum"

instance : Serde HealthCheckType := .ofVariants [.tcp, .http, .smtp, .imap, .stratum] HealthCheckType.variant
    (by intro a; cases a <;> rfl)

instance : Lossless ProtocolType := ⟨fun _ => rfl⟩
instance : Lossless BalanceMethod := ⟨fun _ => rfl⟩
instance : Lossless LogFormat := ⟨fun _ => rfl⟩
instance : Lossless AclDefaultAction := ⟨fun _ => rfl⟩
instance : Lossless WafMode := ⟨fun _ => rfl⟩
instance : Lossless HealthCheckType := ⟨fun _ => rfl⟩

/-! ## Global, web UI and ACME -/

@[reducible] def globalConfigRecord : Record GlobalConfig where
  slots := [.defaulted "daemon_name" defaultDaemonName, .optional "pid_file" (none : Option Text),
    .defaulted "worker_threads" (0 : Nat), .defaulted "max_connections" defaultMaxConnections,
    .defaulted "log_dir" defaultLogDir, .defaulted "cert_dir" defaultCertDir,
    .optional "config_dir" (none : Option Text), .defaulted "log_level" defaultLogLevel,
    .defaulted "graceful_drain_secs" defaultDrainTimeout]
  fields r := (r.daemonName, r.pidFile, r.workerThreads, r.maxConnections, r.logDir, r.certDir,
    r.configDir, r.logLevel, r.gracefulDrainSecs, ())
  make := build _ GlobalConfig.mk

instance : Serde GlobalConfig := globalConfigRecord.serde
instance : Lossless GlobalConfig := globalConfigRecord.lossless

@[reducible] def webuiConfigRecord : Record WebuiConfig where
  slots := [.defaulted "enabled" true, .defaulted "listen" defaultWebuiListen, .optional "tls_cert" defaultWebuiCert,
    .optional "tls_key" defaultWebuiKey, .defaulted "tokens_file" defaultTokensFile,
    .defaulted "web_users_file" defaultWebUsersFile, .defaulted "allowed_origins" ([] : List Text),
    .defaulted "allow_list" defaultWebuiAllowList]
  fields r := (r.enabled, r.listen, r.tlsCert, r.tlsKey, r.tokensFile, r.webUsersFile,
    r.allowedOrigins, r.allowList, ())
  make := build _ WebuiConfig.mk

instance : Serde WebuiConfig := webuiConfigRecord.serde

@[reducible] def acmeConfigRecord : Record AcmeConfig where
  slots := [.defaulted "enabled" false, .optional "email" (none : Option Text),
    .defaulted "directory_url" defaultAcmeDirectory, .defaulted "challenge_type" defaultAcmeChallenge,
    .defaulted "storage_dir" defaultAcmeStorage, .defaulted "auto_renew" true,
    .defaulted "renew_before_days" defaultRenewDays, .defaulted "challenge_allowed_cidrs" defaultAcmeAllowedCidrs]
  fields r := (r.enabled, r.email, r.directoryUrl, r.challengeType, r.storageDir, r.autoRenew,
    r.renewBeforeDays, r.challengeAllowedCidrs, ())
  make := build _ AcmeConfig.mk

instance : Serde AcmeConfig := acmeConfigRecord.serde
instance : Lossless AcmeConfig := acmeConfigRecord.lossless

/-! ## Frontends -/

@[reducible] def customHeaderRecord : Record CustomHeader where
  slots := [.required "name" Text, .required "value" Text]
  fields r := (r.name, r.value, ())
  make := build _ CustomHeader.mk

instance : Serde CustomHeader := customHeaderRecord.serde
instance : Lossless CustomHeader := customHeaderRecord.lossless

@[reducible] def frontendHeadersConfigRecord : Record FrontendHeadersConfig where
  slots := [.defaulted "x_forwarded_for" true, .defaulted "x_real_ip" true, .defaulted "x_forwarded_proto" true,
    .defaulted "x_forwarded_host" false, .defaulted "x_forwarded_port" false, .defaulted "x_request_id" false,
    .defaulted "custom" ([] : List CustomHeader)]
  fields r := (r.xForwardedFor, r.xRealIp, r.xForwardedProto, r.xForwardedHost, r.xForwardedPort,
    r.xRequestId, r.custom, ())
  make := build _ FrontendHeadersConfig.mk

instance : Serde FrontendHeadersConfig := frontendHeadersConfigRecord.serde
instance : Lossless FrontendHeadersConfig := frontendHeadersConfigRecord.lossless

@[reducible] def smtpHeadersConfigRecord : Record SmtpHeadersConfig where
  slots := [.defaulted "add_received" true, .defaulted "x_forwarded_for" false]
  fields r := (r.addReceived, r.xForwardedFor, ())
  make := build _ SmtpHeadersConfig.mk

instance : Serde SmtpHeadersConfig := smtpHeadersConfigRecord.serde
instance : Lossless SmtpHeadersConfig := smtpHeadersConfigRecord.lossless

@[reducible] def frontendAclConfigRecord : Record FrontendAclConfig where
  slots := [.defaulted "allow_list" ([] : List Text), .defaulted "block_list" ([] : List Text),
    .defaulted "default_action" AclDefaultAction.allow]
  fields r := (r.allowList, r.blockList, r.defaultAction, ())
  make := build _ FrontendAclConfig.mk

instance : Serde FrontendAclConfig := frontendAclConfigRecord.serde
instance : Lossless FrontendAclConfig := frontendAclConfigRecord.lossless

@[reducible] def frontendConfigRecord : Record FrontendConfig where
  slots := [.required "name" Text, .required "protocol" ProtocolType, .required "listen" (List Text),
    .required "backend_pool" Text, .optional "tls_cert" (none : Option Text),
    .optional "tls_chain" (none : Option Text), .optional "tls_key" (none : Option Text),
    .optional "tls_key_password" (none : Option Text), .optional "tls_pfx" (none : Option Text),
    .optional "tls_pfx_password" (none : Option Text), .defaulted "tls_min_version" defaultTlsMinVersion,
    .defaulted "tls_ciphers" ([] : List Text), .defaulted "balancer" BalanceMethod.roundRobin,
    .defaulted "waf_enabled" false, .optional "waf_ruleset" (none : Option Text),
    .optional "security_profile" (none : Option Text), .optional "log_file" (none : Option Text),
    .defaulted "log_format" LogFormat.apacheCombined, .defaulted "access_log" true,
    .optional "log_profile" (none : Option Text), .table "headers" ({} : FrontendHeadersConfig),
    .table "smtp_headers" smtpHeadersDefault, .table "acl" ({} : FrontendAclConfig),
    .optional "max_connections" (none : Option Nat), .defaulted "session_cookie" defaultSessionCookie]
  fields r := (r.name, r.protocol, r.listen, r.backendPool, r.tlsCert, r.tlsChain, r.tlsKey, r.tlsKeyPassword,
    r.tlsPfx, r.tlsPfxPassword, r.tlsMinVersion, r.tlsCiphers, r.balancer, r.wafEnabled, r.wafRuleset,
    r.securityProfile, r.logFile, r.logFormat, r.accessLog, r.logProfile, r.headers, r.smtpHeaders, r.acl,
    r.maxConnections, r.sessionCookie, ())
  make := build _ FrontendConfig.mk

instance : Serde FrontendConfig := frontendConfigRecord.serde
instance : Lossless FrontendConfig := frontendConfigRecord.lossless

/-! ## Backend pools -/

@[reducible] def backendConfigRecord : Record BackendConfig where
  slots := [.required "name" Text, .required "address" Text, .defaulted "weight" (1 : UInt32), .defaulted "tls" false,
    .optional "tls_verify" (none : Option Bool), .optional "tls_sni" (none : Option Text),
    .optional "max_connections" (none : Option Nat), .defaulted "enabled" true]
  fields r := (r.name, r.address, r.weight, r.tls, r.tlsVerify, r.tlsSni, r.maxConnections, r.enabled, ())
  make := build _ BackendConfig.mk

instance : Serde BackendConfig := backendConfigRecord.serde
instance : Lossless BackendConfig := backendConfigRecord.lossless

@[reducible] def backendPoolConfigRecord : Record BackendPoolConfig where
  slots := [.required "name" Text, .defaulted "health_check_interval" defaultHealthInterval,
    .defaulted "health_check_timeout" defaultHealthTimeout, .defaulted "health_check_type" HealthCheckType.tcp,
    .optional "health_check_path" (none : Option Text), .defaulted "health_check_expect" defaultHealthExpect,
    .defaulted "health_check_tls" false, .defaulted "health_check_ignore_cert" false,
    .defaulted "health_check_method" defaultHealthMethod, .defaulted "backend" ([] : List BackendConfig)]
  fields r := (r.name, r.healthCheckInterval, r.healthCheckTimeout, r.healthCheckType, r.healthCheckPath,
    r.healthCheckExpect, r.healthCheckTls, r.healthCheckIgnoreCert, r.healthCheckMethod, r.backend, ())
  make := build _ BackendPoolConfig.mk

instance : Serde BackendPoolConfig := backendPoolConfigRecord.serde
instance : Lossless BackendPoolConfig := backendPoolConfigRecord.lossless

/-! ## WAF rulesets -/

@[reducible] def wafExclusionsRecord : Record WafExclusions where
  slots := [.defaulted "paths" ([] : List Text), .defaulted "ip_addresses" ([] : List Text)]
  fields r := (r.paths, r.ipAddresses, ())
  make := build _ WafExclusions.mk

instance : Serde WafExclusions := wafExclusionsRecord.serde
instance : Lossless WafExclusions := wafExclusionsRecord.lossless

@[reducible] def wafCustomRuleRecord : Record WafCustomRule where
  slots := [.required "id" Nat, .required "description" Text, .defaulted "phase" (1 : UInt8),
    .defaulted "action" defaultWafRuleAction, .required "match_field" Text, .required "operator" Text,
    .required "pattern" Text]
  fields r := (r.id, r.description, r.phase, r.action, r.matchField, r.operator, r.pattern, ())
  make := build _ WafCustomRule.mk

instance : Serde WafCustomRule := wafCustomRuleRecord.serde
instance : Lossless WafCustomRule := wafCustomRuleRecord.lossless

@[reducible] def wafRulesetConfigRecord : Record WafRulesetConfig where
  slots := [.required "name" Text, .defaulted "mode" WafMode.blocking,
    .defaulted "anomaly_threshold" defaultAnomalyThreshold, .optional "rules_dir" (none : Option Text),
    .defaulted "paranoia_level" (1 : UInt8), .table "exclusions" ({} : WafExclusions),
    .defaulted "custom_rules" ([] : List WafCustomRule)]
  fields r := (r.name, r.mode, r.anomalyThreshold, r.rulesDir, r.paranoiaLevel, r.exclusions, r.customRules, ())
  make := build _ WafRulesetConfig.mk

instance : Serde WafRulesetConfig := wafRulesetConfigRecord.serde
instance : Lossless WafRulesetConfig := wafRulesetConfigRecord.lossless

/-! ## Profiles, and the sections they share with `[security]` -/

@[reducible] def securityHeadersConfigRecord : Record SecurityHeadersConfig where
  slots := [.defaulted "add_x_content_type_options" false, .optional "add_x_frame_options" (none : Option Text),
    .optional "add_referrer_policy" (none : Option Text),
    .optional "add_content_security_policy" (none : Option Text), .defaulted "remove_server_header" true,
    .defaulted "remove_x_powered_by" true, .defaulted "compress_responses" false,
    .defaulted "compress_min_size" defaultCompressMinSize, .defaulted "compress_types" defaultCompressTypes]
  fields r := (r.addXContentTypeOptions, r.addXFrameOptions, r.addReferrerPolicy, r.addContentSecurityPolicy,
    r.removeServerHeader, r.removeXPoweredBy, r.compressResponses, r.compressMinSize, r.compressTypes, ())
  make := build _ SecurityHeadersConfig.mk

instance : Serde SecurityHeadersConfig := securityHeadersConfigRecord.serde
instance : Lossless SecurityHeadersConfig := securityHeadersConfigRecord.lossless

@[reducible] def cookieSecurityConfigRecord : Record CookieSecurityConfig where
  slots := [.defaulted "enforce_secure_flag" false, .defaulted "enforce_httponly_flag" false,
    .optional "enforce_samesite" (none : Option Text), .defaulted "max_cookie_size" defaultCookieSize]
  fields r := (r.enforceSecureFlag, r.enforceHttponlyFlag, r.enforceSamesite, r.maxCookieSize, ())
  make := build _ CookieSecurityConfig.mk

instance : Serde CookieSecurityConfig := cookieSecurityConfigRecord.serde
instance : Lossless CookieSecurityConfig := cookieSecurityConfigRecord.lossless

@[reducible] def botDetectionConfigRecord : Record BotDetectionConfig where
  slots := [.defaulted "enabled" false, .defaulted "ja3_fingerprint_block_list" ([] : List Text),
    .defaulted "challenge_suspicious" false, .defaulted "known_good_bots" ([] : List Text),
    .defaulted "verify_good_bots" false]
  fields r := (r.enabled, r.ja3FingerprintBlockList, r.challengeSuspicious, r.knownGoodBots, r.verifyGoodBots, ())
  make := build _ BotDetectionConfig.mk

instance : Serde BotDetectionConfig := botDetectionConfigRecord.serde
instance : Lossless BotDetectionConfig := botDetectionConfigRecord.lossless

@[reducible] def geoConfigRecord : Record GeoConfig where
  slots := [.defaulted "enabled" false, .optional "database_path" defaultGeoipDbPath,
    .defaulted "block_countries" ([] : List Text), .defaulted "allow_countries" ([] : List Text)]
  fields r := (r.enabled, r.databasePath, r.blockCountries, r.allowCountries, ())
  make := build _ GeoConfig.mk

instance : Serde GeoConfig := geoConfigRecord.serde

@[reducible] def scannerConfigRecord : Record ScannerConfig where
  slots := [.required "name" Text, .required "command" Text, .defaulted "clean_exit_codes" ([0] : List Int32),
    .defaulted "virus_exit_codes" ([1] : List Int32), .defaulted "error_exit_codes" ([2] : List Int32),
    .defaulted "timeout" defaultScannerTimeout, .optional "virus_name_pattern" (none : Option Text)]
  fields r := (r.name, r.command, r.cleanExitCodes, r.virusExitCodes, r.errorExitCodes, r.timeout,
    r.virusNamePattern, ())
  make := build _ ScannerConfig.mk

instance : Serde ScannerConfig := scannerConfigRecord.serde
instance : Lossless ScannerConfig := scannerConfigRecord.lossless

@[reducible] def antivirusConfigRecord : Record AntivirusConfig where
  slots := [.defaulted "enabled" false, .defaulted "weight" defaultAvWeight, .defaulted "reject_on_virus" true,
    .defaulted "scanners" ([] : List ScannerConfig), .defaulted "on_scanner_error" defaultAvErrorAction,
    .defaulted "on_scanner_timeout" defaultAvTimeoutAction]
  fields r := (r.enabled, r.weight, r.rejectOnVirus, r.scanners, r.onScannerError, r.onScannerTimeout, ())
  make := build _ AntivirusConfig.mk

instance : Serde AntivirusConfig := antivirusConfigRecord.serde
instance : Lossless AntivirusConfig := antivirusConfigRecord.lossless

@[reducible] def securityProfileAntispamRecord : Record SecurityProfileAntispam where
  slots := [.defaulted "enabled" true, .optional "possible_spam_threshold" (none : Option UInt8),
    .optional "definite_spam_threshold" (none : Option UInt8), .table "antivirus" ({} : AntivirusConfig)]
  fields r := (r.enabled, r.possibleSpamThreshold, r.definiteSpamThreshold, r.antivirus, ())
  make := build _ SecurityProfileAntispam.mk

instance : Serde SecurityProfileAntispam := securityProfileAntispamRecord.serde
instance : Lossless SecurityProfileAntispam := securityProfileAntispamRecord.lossless

@[reducible] def securityProfileRecord : Record SecurityProfile where
  slots := [.required "name" Text, .defaulted "description" ([] : Text), .defaulted "profile_type" defaultProfileType,
    .defaulted "waf_enabled" false, .optional "waf_ruleset" (none : Option Text),
    .table "headers" ({} : SecurityHeadersConfig), .table "cookies" ({} : CookieSecurityConfig),
    .table "bot_detection" ({} : BotDetectionConfig), .table "geo" ({} : GeoConfig),
    .optional "antispam" (none : Option SecurityProfileAntispam), .defaulted "min_version" defaultTlsMinVersion,
    .defaulted "cipher_suites" ([] : List Text), .optional "hsts_max_age" (none : Option Nat),
    .defaulted "hsts_include_subdomains" false, .defaulted "ocsp_stapling" false]
  fields r := (r.name, r.description, r.profileType, r.wafEnabled, r.wafRuleset, r.headers, r.cookies, r.botDetection,
    r.geo, r.antispam, r.minVersion, r.cipherSuites, r.hstsMaxAge, r.hstsIncludeSubdomains, r.ocspStapling, ())
  make := build _ SecurityProfile.mk

instance : Serde SecurityProfile := securityProfileRecord.serde

@[reducible] def logProfileRecord : Record LogProfile where
  slots := [.required "name" Text, .defaulted "description" ([] : Text), .defaulted "format" LogFormat.apacheCombined,
    .defaulted "access_log" true]
  fields r := (r.name, r.description, r.format, r.accessLog, ())
  make := build _ LogProfile.mk

instance : Serde LogProfile := logProfileRecord.serde
instance : Lossless LogProfile := logProfileRecord.lossless

/-! ## Security -/

@[reducible] def securityTlsConfigRecord : Record SecurityTlsConfig where
  slots := [.defaulted "min_version" defaultTlsMinVersion, .defaulted "cipher_suites" ([] : List Text),
    .defaulted "ocsp_stapling" false, .optional "hsts_max_age" (none : Option Nat),
    .defaulted "hsts_include_subdomains" false, .defaulted "backend_tls_verify" false,
    .optional "backend_ca_bundle" (none : Option Text)]
  fields r := (r.minVersion, r.cipherSuites, r.ocspStapling, r.hstsMaxAge,
    r.hstsIncludeSubdomains, r.backendTlsVerify, r.backendCaBundle, ())
  make := build _ SecurityTlsConfig.mk

instance : Serde SecurityTlsConfig := securityTlsConfigRecord.serde
instance : Lossless SecurityTlsConfig := securityTlsConfigRecord.lossless

@[reducible] def ipAclConfigRecord : Record IpAclConfig where
  slots := [.defaulted "allow" ([] : List Text), .defaulted "block" ([] : List Text)]
  fields r := (r.allow, r.block, ())
  make := build _ IpAclConfig.mk

instance : Serde IpAclConfig := ipAclConfigRecord.serde
instance : Lossless IpAclConfig := ipAclConfigRecord.lossless

@[reducible] def domainAclConfigRecord : Record DomainAclConfig where
  slots := [.defaulted "allow" ([] : List Text), .defaulted "block" ([] : List Text)]
  fields r := (r.allow, r.block, ())
  make := build _ DomainAclConfig.mk

instance : Serde DomainAclConfig := domainAclConfigRecord.serde
instance : Lossless DomainAclConfig := domainAclConfigRecord.lossless

@[reducible] def pathPatternConfigRecord : Record PathPatternConfig where
  slots := [.required "action" Text, .required "patterns" (List Text)]
  fields r := (r.action, r.patterns, ())
  make := build _ PathPatternConfig.mk

instance : Serde PathPatternConfig := pathPatternConfigRecord.serde
instance : Lossless PathPatternConfig := pathPatternConfigRecord.lossless

@[reducible] def securityAclConfigRecord : Record SecurityAclConfig where
  slots := [.defaulted "default" AclDefaultAction.allow, .defaulted "acl_bypass_waf" false,
    .table "ip" ({} : IpAclConfig), .table "domain" ({} : DomainAclConfig),
    .defaulted "path_patterns" ([] : List PathPatternConfig)]
  fields r := (r.default, r.aclBypassWaf, r.ip, r.domain, r.pathPatterns, ())
  make := build _ SecurityAclConfig.mk

instance : Serde SecurityAclConfig := securityAclConfigRecord.serde
instance : Lossless SecurityAclConfig := securityAclConfigRecord.lossless

@[reducible] def rateLimitScopeRecord : Record RateLimitScope where
  slots := [.required "type" Text, .optional "pattern" (none : Option Text)]
  fields r := (r.scopeType, r.pattern, ())
  make := build _ RateLimitScope.mk

instance : Serde RateLimitScope := rateLimitScopeRecord.serde
instance : Lossless RateLimitScope := rateLimitScopeRecord.lossless

@[reducible] def rateLimitConfigRecord : Record RateLimitConfig where
  slots := [.required "name" Text, .defaulted "key" defaultRateKey, .required "requests" Nat,
    .required "window_secs" Nat, .optional "burst" (none : Option Nat),
    .optional "scope" (none : Option RateLimitScope)]
  fields r := (r.name, r.key, r.requests, r.windowSecs, r.burst, r.scope, ())
  make := build _ RateLimitConfig.mk

instance : Serde RateLimitConfig := rateLimitConfigRecord.serde
instance : Lossless RateLimitConfig := rateLimitConfigRecord.lossless

@[reducible] def securityConfigRecord : Record SecurityConfig where
  slots := [.defaulted "enabled" true, .table "tls" ({} : SecurityTlsConfig), .table "acl" ({} : SecurityAclConfig),
    .defaulted "rate_limit" ([] : List RateLimitConfig), .table "geo" ({} : GeoConfig),
    .table "bot_detection" ({} : BotDetectionConfig), .table "cookies" ({} : CookieSecurityConfig),
    .table "headers" ({} : SecurityHeadersConfig)]
  fields r := (r.enabled, r.tls, r.acl, r.rateLimit, r.geo, r.botDetection, r.cookies, r.headers, ())
  make := build _ SecurityConfig.mk

instance : Serde SecurityConfig := securityConfigRecord.serde

/-! ## Antispam -/

@[reducible] def antispamListConfigRecord : Record AntispamListConfig where
  slots := [.defaulted "ips" ([] : List Text), .defaulted "sender_domains" ([] : List Text),
    .defaulted "senders" ([] : List Text), .defaulted "recipients" ([] : List Text)]
  fields r := (r.ips, r.senderDomains, r.senders, r.recipients, ())
  make := build _ AntispamListConfig.mk

instance : Serde AntispamListConfig := antispamListConfigRecord.serde
instance : Lossless AntispamListConfig := antispamListConfigRecord.lossless

@[reducible] def dnsblListEntryRecord : Record DnsblListEntry where
  slots := [.required "zone" Text, .defaulted "weight_multiplier" (1 : ℚ), .defaulted "reject_on_hit" false]
  fields r := (r.zone, r.weightMultiplier, r.rejectOnHit, ())
  make := build _ DnsblListEntry.mk

instance : Serde DnsblListEntry := dnsblListEntryRecord.serde
instance : Lossless DnsblListEntry := dnsblListEntryRecord.lossless

@[reducible] def dnsblConfigRecord : Record DnsblConfig where
  slots := [.defaulted "enabled" true, .defaulted "weight" (8 : ℚ), .defaulted "timeout" defaultDnsblTimeout,
    .defaulted "lists" defaultDnsblLists]
  fields r := (r.enabled, r.weight, r.timeout, r.lists, ())
  make := build _ DnsblConfig.mk

instance : Serde DnsblConfig := dnsblConfigRecord.serde
instance : Lossless DnsblConfig := dnsblConfigRecord.lossless

@[reducible] def spfSeverityConfigRecord : Record SpfSeverityConfig where
  slots := [.defaulted "fail" (1 : ℚ), .defaulted "softfail" (1 / 2 : ℚ), .defaulted "neutral" (1 / 10 : ℚ),
    .defaulted "none" (3 / 10 : ℚ)]
  fields r := (r.fail, r.softfail, r.neutral, r.none, ())
  make := build _ SpfSeverityConfig.mk

instance : Serde SpfSeverityConfig := spfSeverityConfigRecord.serde
instance : Lossless SpfSeverityConfig := spfSeverityConfigRecord.lossless

@[reducible] def spfConfigRecord : Record SpfConfig where
  slots := [.defaulted "enabled" true, .defaulted "weight" (6 : ℚ), .table "severity" ({} : SpfSeverityConfig)]
  fields r := (r.enabled, r.weight, r.severity, ())
  make := build _ SpfConfig.mk

instance : Serde SpfConfig := spfConfigRecord.serde
instance : Lossless SpfConfig := spfConfigRecord.lossless

@[reducible] def checkWeightConfigRecord : Record CheckWeightConfig where
  slots := [.defaulted "enabled" true, .defaulted "weight" defaultCheckWeight]
  fields r := (r.enabled, r.weight, ())
  make := build _ CheckWeightConfig.mk

instance : Serde CheckWeightConfig := checkWeightConfigRecord.serde
instance : Lossless CheckWeightConfig := checkWeightConfigRecord.lossless

@[reducible] def residentialSenderConfigRecord : Record ResidentialSenderConfig where
  slots := [.defaulted "enabled" true, .defaulted "reject" true, .defaulted "weight" (10 : ℚ),
    .defaulted "check_pbl" true, .defaulted "pbl_zone" ("pbl.spamhaus.org" : Text),
    .defaulted "softfail_triggers" true, .defaulted "neutral_triggers" false]
  fields r := (r.enabled, r.reject, r.weight, r.checkPbl, r.pblZone, r.softfailTriggers, r.neutralTriggers, ())
  make := build _ ResidentialSenderConfig.mk

instance : Serde ResidentialSenderConfig := residentialSenderConfigRecord.serde
instance : Lossless ResidentialSenderConfig := residentialSenderConfigRecord.lossless

@[reducible] def smtpRateRuleRecord : Record SmtpRateRule where
  slots := [.defaulted "max" (100 : Nat), .defaulted "window" ("1h" : Text)]
  fields r := (r.max, r.window, ())
  make := build _ SmtpRateRule.mk

instance : Serde SmtpRateRule := smtpRateRuleRecord.serde
instance : Lossless SmtpRateRule := smtpRateRuleRecord.lossless

@[reducible] def smtpRateLimitConfigRecord : Record SmtpRateLimitConfig where
  slots := [.defaulted "enabled" true, .defaulted "weight" defaultRateWeight, .table "per_ip" ({} : SmtpRateRule),
    .table "per_domain" ({} : SmtpRateRule), .table "per_sender" ({} : SmtpRateRule)]
  fields r := (r.enabled, r.weight, r.perIp, r.perDomain, r.perSender, ())
  make := build _ SmtpRateLimitConfig.mk

instance : Serde SmtpRateLimitConfig := smtpRateLimitConfigRecord.serde
instance : Lossless SmtpRateLimitConfig := smtpRateLimitConfigRecord.lossless

@[reducible] def dmarcConfigRecord : Record DmarcConfig where
  slots := [.defaulted "enabled" true, .defaulted "weight" (7 : ℚ), .defaulted "honor_reject_policy" true]
  fields r := (r.enabled, r.weight, r.honorRejectPolicy, ())
  make := build _ DmarcConfig.mk

instance : Serde DmarcConfig := dmarcConfigRecord.serde
instance : Lossless DmarcConfig := dmarcConfigRecord.lossless

@[reducible] def contentCheckConfigRecord : Record ContentCheckConfig where
  slots := [.defaulted "enabled" true, .defaulted "weight" (5 : ℚ), .optional "rules_file" (none : Option Text)]
  fields r := (r.enabled, r.weight, r.rulesFile, ())
  make := build _ ContentCheckConfig.mk

instance : Serde ContentCheckConfig := contentCheckConfigRecord.serde
instance : Lossless ContentCheckConfig := contentCheckConfigRecord.lossless

@[reducible] def urlAnalysisConfigRecord : Record UrlAnalysisConfig where
  slots := [.defaulted "enabled" true, .defaulted "weight" (5 : ℚ), .defaulted "surbl_zones" ([] : List Text)]
  fields r := (r.enabled, r.weight, r.surblZones, ())
  make := build _ UrlAnalysisConfig.mk

instance : Serde UrlAnalysisConfig := urlAnalysisConfigRecord.serde
instance : Lossless UrlAnalysisConfig := urlAnalysisConfigRecord.lossless

@[reducible] def attachmentConfigRecord : Record AttachmentConfig where
  slots := [.defaulted "enabled" true, .defaulted "weight" (6 : ℚ),
    .defaulted "dangerous_extensions" defaultDangerousExtensions]
  fields r := (r.enabled, r.weight, r.dangerousExtensions, ())
  make := build _ AttachmentConfig.mk

instance : Serde AttachmentConfig := attachmentConfigRecord.serde
instance : Lossless AttachmentConfig := attachmentConfigRecord.lossless

@[reducible] def domainOverrideRecord : Record DomainOverride where
  slots := [.required "domain" Text, .optional "possible_spam_threshold" (none : Option UInt8),
    .optional "definite_spam_threshold" (none : Option UInt8), .defaulted "disabled_checks" ([] : List Text)]
  fields r := (r.domain, r.possibleSpamThreshold, r.definiteSpamThreshold, r.disabledChecks, ())
  make := build _ DomainOverride.mk

instance : Serde DomainOverride := domainOverrideRecord.serde
instance : Lossless DomainOverride := domainOverrideRecord.lossless

@[reducible] def antispamConfigRecord : Record AntispamConfig where
  slots := [.defaulted "enabled" false, .defaulted "possible_spam_threshold" defaultPossibleSpam,
    .defaulted "definite_spam_threshold" defaultDefiniteSpam, .defaulted "max_check_duration" defaultCheckDuration,
    .table "allow" ({} : AntispamListConfig), .table "block" ({} : AntispamListConfig),
    .table "dnsbl" ({} : DnsblConfig), .table "spf" ({} : SpfConfig), .table "rdns" ({} : CheckWeightConfig),
    .table "residential_spf" ({} : ResidentialSenderConfig), .table "helo" ({} : CheckWeightConfig),
    .table "rate_limit" ({} : SmtpRateLimitConfig), .table "early_talker" ({} : CheckWeightConfig),
    .table "dkim" ({} : CheckWeightConfig), .table "dmarc" ({} : DmarcConfig),
    .table "content" ({} : ContentCheckConfig), .table "url_analysis" ({} : UrlAnalysisConfig),
    .table "attachment" ({} : AttachmentConfig), .table "html" ({} : CheckWeightConfig),
    .table "header_analysis" ({} : CheckWeightConfig), .table "charset" ({} : CheckWeightConfig),
    .table "bulk" ({} : CheckWeightConfig), .table "ratio" ({} : CheckWeightConfig),
    .table "antivirus" ({} : AntivirusConfig), .defaulted "domain_overrides" ([] : List DomainOverride)]
  fields r := (r.enabled, r.possibleSpamThreshold, r.definiteSpamThreshold, r.maxCheckDuration,
    r.allow, r.block, r.dnsbl, r.spf, r.rdns, r.residentialSpf, r.helo, r.rateLimit,
    r.earlyTalker, r.dkim, r.dmarc, r.content, r.urlAnalysis, r.attachment, r.html,
    r.headerAnalysis, r.charset, r.bulk, r.ratio, r.antivirus, r.domainOverrides, ())
  make := build _ AntispamConfig.mk

instance : Serde AntispamConfig := antispamConfigRecord.serde
instance : Lossless AntispamConfig := antispamConfigRecord.lossless

/-! ## Relay -/

@[reducible] def trustedHostsConfigRecord : Record TrustedHostsConfig where
  slots := [.defaulted "hosts" ([] : List Text), .defaulted "require_tls" false]
  fields r := (r.hosts, r.requireTls, ())
  make := build _ TrustedHostsConfig.mk

instance : Serde TrustedHostsConfig := trustedHostsConfigRecord.serde
instance : Lossless TrustedHostsConfig := trustedHostsConfigRecord.lossless

@[reducible] def retryConfigRecord : Record RetryConfig where
  slots := [.defaulted "intervals" defaultRetryIntervals, .defaulted "max_age" defaultMaxAge,
    .defaulted "max_attempts" defaultMaxAttempts]
  fields r := (r.intervals, r.maxAge, r.maxAttempts, ())
  make := build _ RetryConfig.mk

instance : Serde RetryConfig := retryConfigRecord.serde
instance : Lossless RetryConfig := retryConfigRecord.lossless

@[reducible] def relayTlsConfigRecord : Record RelayTlsConfig where
  slots := [.defaulted "opportunistic" true, .defaulted "verify_certificates" false,
    .defaulted "min_version" defaultTlsMinVersion]
  fields r := (r.opportunistic, r.verifyCertificates, r.minVersion, ())
  make := build _ RelayTlsConfig.mk

instance : Serde RelayTlsConfig := relayTlsConfigRecord.serde
instance : Lossless RelayTlsConfig := relayTlsConfigRecord.lossless

@[reducible] def dkimDomainConfigRecord : Record DkimDomainConfig where
  slots := [.required "domain" Text, .required "selector" Text, .required "key_file" Text,
    .defaulted "algorithm" defaultDkimAlgorithm]
  fields r := (r.domain, r.selector, r.keyFile, r.algorithm, ())
  make := build _ DkimDomainConfig.mk

instance : Serde DkimDomainConfig := dkimDomainConfigRecord.serde
instance : Lossless DkimDomainConfig := dkimDomainConfigRecord.lossless

@[reducible] def relayDkimConfigRecord : Record RelayDkimConfig where
  slots := [.defaulted "enabled" false, .defaulted "domains" ([] : List DkimDomainConfig)]
  fields r := (r.enabled, r.domains, ())
  make := build _ RelayDkimConfig.mk

instance : Serde RelayDkimConfig := relayDkimConfigRecord.serde
instance : Lossless RelayDkimConfig := relayDkimConfigRecord.lossless

@[reducible] def dmarcPolicyDomainRecord : Record DmarcPolicyDomain where
  slots := [.required "domain" Text, .defaulted "policy" defaultDmarcPublishPolicy,
    .optional "subdomain_policy" (none : Option Text), .defaulted "pct" (100 : UInt8),
    .defaulted "rua" ([] : List Text), .defaulted "ruf" ([] : List Text), .defaulted "adkim" defaultRelaxedAlignment,
    .defaulted "aspf" defaultRelaxedAlignment]
  fields r := (r.domain, r.policy, r.subdomainPolicy, r.pct, r.rua, r.ruf, r.adkim, r.aspf, ())
  make := build _ DmarcPolicyDomain.mk

instance : Serde DmarcPolicyDomain := dmarcPolicyDomainRecord.serde
instance : Lossless DmarcPolicyDomain := dmarcPolicyDomainRecord.lossless

@[reducible] def relayDmarcPublishConfigRecord : Record RelayDmarcPublishConfig where
  slots := [.defaulted "domains" ([] : List DmarcPolicyDomain)]
  fields r := (r.domains, ())
  make := build _ RelayDmarcPublishConfig.mk

instance : Serde RelayDmarcPublishConfig := relayDmarcPublishConfigRecord.serde
instance : Lossless RelayDmarcPublishConfig := relayDmarcPublishConfigRecord.lossless

@[reducible] def spfMechanismRecord : Record SpfMechanism where
  slots := [.defaulted "qualifier" defaultSpfQualifier, .required "mechanism" Text,
    .optional "value" (none : Option Text)]
  fields r := (r.qualifier, r.mechanism, r.value, ())
  make := build _ SpfMechanism.mk

instance : Serde SpfMechanism := spfMechanismRecord.serde
instance : Lossless SpfMechanism := spfMechanismRecord.lossless

@[reducible] def spfDomainConfigRecord : Record SpfDomainConfig where
  slots := [.required "domain" Text, .defaulted "mechanisms" ([] : List SpfMechanism), .defaulted "all" defaultSpfAll]
  fields r := (r.domain, r.mechanisms, r.all, ())
  make := build _ SpfDomainConfig.mk

instance : Serde SpfDomainConfig := spfDomainConfigRecord.serde
instance : Lossless SpfDomainConfig := spfDomainConfigRecord.lossless

@[reducible] def relaySpfPublishConfigRecord : Record RelaySpfPublishConfig where
  slots := [.defaulted "domains" ([] : List SpfDomainConfig)]
  fields r := (r.domains, ())
  make := build _ RelaySpfPublishConfig.mk

instance : Serde RelaySpfPublishConfig := relaySpfPublishConfigRecord.serde
instance : Lossless RelaySpfPublishConfig := relaySpfPublishConfigRecord.lossless

@[reducible] def outboundPolicyConfigRecord : Record OutboundPolicyConfig where
  slots := [.defaulted "enabled" true, .defaulted "max_message_size" defaultMaxMessageSize,
    .defaulted "max_recipients_per_message" defaultMaxRecipients,
    .defaulted "allowed_sender_domains" ([] : List Text),
    .defaulted "max_messages_per_domain_per_hour" defaultDomainRate, .defaulted "block_dangerous_attachments" true,
    .defaulted "check_urls" false]
  fields r := (r.enabled, r.maxMessageSize, r.maxRecipientsPerMessage, r.allowedSenderDomains,
    r.maxMessagesPerDomainPerHour, r.blockDangerousAttachments, r.checkUrls, ())
  make := build _ OutboundPolicyConfig.mk

instance : Serde OutboundPolicyConfig := outboundPolicyConfigRecord.serde
instance : Lossless OutboundPolicyConfig := outboundPolicyConfigRecord.lossless

@[reducible] def bounceConfigRecord : Record BounceConfig where
  slots := [.optional "sender" (none : Option Text), .defaulted "include_original_headers" true]
  fields r := (r.sender, r.includeOriginalHeaders, ())
  make := build _ BounceConfig.mk

instance : Serde BounceConfig := bounceConfigRecord.serde
instance : Lossless BounceConfig := bounceConfigRecord.lossless

@[reducible] def relayConfigRecord : Record RelayConfig where
  slots := [.defaulted "enabled" false, .defaulted "listen" ([] : List Text),
    .optional "hostname" (none : Option Text), .defaulted "spool_dir" defaultSpoolDir,
    .defaulted "max_queue_size" defaultMaxQueue, .defaulted "delivery_threads" defaultDeliveryThreads,
    .table "trusted_hosts" ({} : TrustedHostsConfig), .table "retry" ({} : RetryConfig),
    .table "tls" ({} : RelayTlsConfig), .table "dkim" ({} : RelayDkimConfig),
    .table "dmarc_publish" ({} : RelayDmarcPublishConfig), .table "spf_publish" ({} : RelaySpfPublishConfig),
    .table "outbound_policy" ({} : OutboundPolicyConfig), .table "bounce" ({} : BounceConfig)]
  fields r := (r.enabled, r.listen, r.hostname, r.spoolDir, r.maxQueueSize, r.deliveryThreads, r.trustedHosts,
    r.retry, r.tls, r.dkim, r.dmarcPublish, r.spfPublish, r.outboundPolicy, r.bounce, ())
  make := build _ RelayConfig.mk

instance : Serde RelayConfig := relayConfigRecord.serde
instance : Lossless RelayConfig := relayConfigRecord.lossless

/-! ## The whole configuration -/

@[reducible] def serverWallConfigRecord : Record ServerWallConfig where
  slots := [.table "global" ({} : GlobalConfig), .table "webui" ({} : WebuiConfig), .table "acme" ({} : AcmeConfig),
    .defaulted "frontend" ([] : List FrontendConfig), .defaulted "backend_pool" ([] : List BackendPoolConfig),
    .defaulted "waf_ruleset" ([] : List WafRulesetConfig), .defaulted "security_profiles" ([] : List SecurityProfile),
    .defaulted "log_profiles" ([] : List LogProfile), .table "security" ({} : SecurityConfig),
    .table "antispam" ({} : AntispamConfig), .table "relay" ({} : RelayConfig)]
  fields r := (r.global, r.webui, r.acme, r.frontend, r.backendPool, r.wafRuleset,
    r.securityProfiles, r.logProfiles, r.security, r.antispam, r.relay, ())
  make := build _ ServerWallConfig.mk

instance : Serde ServerWallConfig := serverWallConfigRecord.serde

/-- `toml::to_string_pretty`, up to the text of the document. -/
def toToml (config : ServerWallConfig) : Value := Serde.encode config

/-- `toml::from_str`, on the document. -/
def fromToml (doc : Value) : Option ServerWallConfig := Serde.decode doc

end ServerWall.Schema
