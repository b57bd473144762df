import ServerWall.Core.Loader
import ServerWall.Lib.Keyed

/-!
# Editing the configuration

`serverwall-core/src/config/editor.rs`: load, change, validate, write. The changes stand here under the
names of the functions, most of a few kinds; the frame is `edited` and the program of `Core/Writer.lean`.
-/

namespace ServerWall.Core

open Schema Text

/-! ## Kinds of changes -/

section

variable {α : Type} (key : α → Text)

def addUnique (a : α) (taken : Text) (l : List α) : Result (List α) :=
  if l.any fun b => key b == key a then throw (.config taken) else pure (l ++ [a])

/-- Remove the entries with a key; there must be one. -/
def removeKeyed (k missing : Text) (l : List α) : Result (List α) :=
  let kept := l.filter fun b => key b != k
  if kept.length = l.length then throw (.config missing) else pure kept

/-- Replace the first entry with a key; there must be one. -/
def replaceKeyed (k : Text) (a : α) (missing : Text) (l : List α) : Result (List α) :=
  match l.findIdx? fun b => key b == k with
  | some i => pure (l.set i a)
  | none => throw (.config missing)

/-- Change the first entry with a key; there must be one. -/
def changeKeyed (k : Text) (f : α → Result α) (missing : Text) : List α → Result (List α)
  | [] => throw (.config missing)
  | a :: l =>
    if key a == k then do
      let a' ← f a
      pure (a' :: l)
    else do
      let l' ← changeKeyed k f missing l
      pure (a :: l')

/-! What each kind does when it succeeds, in the words of `Lib/Keyed.lean`. -/

variable {key}

theorem addUnique_eq_ok : addUnique key a taken l = .ok l' ↔ Keyed.Added key a l l' := by
  have ht : (l.any fun b => key b == key a) = true ↔ key a ∈ l.map key := by simp [List.any_eq_true, List.mem_map]
  unfold addUnique
  split
  · rename_i hany
    constructor
    · nofun
    · intro h
      exact absurd (ht.mp hany) h.fresh
  · rename_i hany
    constructor
    · intro h
      cases h
      exact ⟨fun hmem => hany (ht.mpr hmem), rfl⟩
    · intro h
      rw [h.eq]
      rfl

theorem removeKeyed_eq_ok : removeKeyed key k missing l = .ok l' ↔ Keyed.Removed key k l l' := by
  have hk : (l.filter fun b => key b != k) = l.filter fun b => key b ≠ k :=
    List.filter_congr fun b _ => by simp [bne, beq_eq_decide]
  have hm : (l.filter fun b => key b ≠ k).length = l.length ↔ k ∉ l.map key := by
    rw [List.length_filter_eq_length_iff]
    simp only [decide_eq_true_eq, List.mem_map, not_exists, not_and]
  unfold removeKeyed
  rw [hk]
  dsimp only
  split
  · rename_i hl
    constructor
    · nofun
    · intro h
      exact absurd h.present (hm.mp hl)
  · rename_i hl
    constructor
    · intro h
      cases h
      exact ⟨not_not.mp fun hmem => hl (hm.mpr hmem), rfl⟩
    · intro h
      rw [h.eq]
      rfl

theorem changeKeyed_eq_ok (h : changeKeyed key k f missing l = .ok l') :
    ∃ before old new after, l = before ++ old :: after ∧ key old = k ∧ k ∉ before.map key ∧
      f old = .ok new ∧ l' = before ++ new :: after := by
  induction l generalizing l' with
  | nil => cases h
  | cons a l ih =>
    rw [changeKeyed] at h
    split at h
    · rename_i hkey
      obtain ⟨a', ha, rfl⟩ := bind_pure_eq_ok.mp h
      exact ⟨[], a, a', l, rfl, eq_of_beq hkey, by simp, ha, rfl⟩
    · rename_i hkey
      obtain ⟨l'', hl, rfl⟩ := bind_pure_eq_ok.mp h
      obtain ⟨before, old, new, after, rfl, hk, hfi, hf, rfl⟩ := ih hl
      refine ⟨a :: before, old, new, after, rfl, hk, ?_, hf, rfl⟩
      simp only [List.map_cons, List.mem_cons, not_or]
      exact ⟨fun heq => hkey (beq_iff_eq.mpr heq.symm), hfi⟩

theorem replaceKeyed_eq_ok (h : replaceKeyed key k a missing l = .ok l') : Keyed.Replaced key k a l l' := by
  unfold replaceKeyed at h
  split at h
  · rename_i i hfi
    cases h
    obtain ⟨hi, hkey, hf⟩ := List.findIdx?_eq_some_iff_getElem.mp hfi
    refine ⟨l.take i, l[i], l.drop (i + 1), ?_, eq_of_beq hkey, ?_, ?_⟩
    · rw [List.getElem_cons_drop, List.take_append_drop]
    · intro hmem
      obtain ⟨b, hb, hk⟩ := List.mem_map.mp hmem
      obtain ⟨j, hj, rfl⟩ := List.mem_take_iff_getElem.mp hb
      exact hf j (by omega) (beq_iff_eq.mpr hk)
    · rw [List.set_eq_take_append_cons_drop, if_pos hi]
  · cases h

variable (key)

def addText (t : Text) (l : List Text) : List Text := if l.contains t then l else l ++ [t]

def removeText (t : Text) (l : List Text) : List Text := l.filter fun x => x != t

def addTextOnce (t taken : Text) (l : List Text) : Result (List Text) :=
  if l.contains t then throw (.config taken) else pure (l ++ [t])

def removeTextOnce (t missing : Text) (l : List Text) : Result (List Text) := removeKeyed id t missing l

end

/-! ## Updates of the antispam checks -/

structure CheckFieldUpdate where
  enabled : Option Bool := none
  weight : Option ℚ := none

structure ResidentialSpfFieldUpdate where
  enabled : Option Bool := none
  weight : Option ℚ := none
  (reject checkPbl : Option Bool := none)
  pblZone : Option Text := none
  (softfailTriggers neutralTriggers : Option Bool := none)

structure AntivirusFieldUpdate where
  enabled : Option Bool := none
  weight : Option ℚ := none
  rejectOnVirus : Option Bool := none
  (onScannerError onScannerTimeout : Option Text := none)

structure SpfSeverityFieldUpdate where
  (fail softfail neutral : Option ℚ := none)
  none : Option ℚ := Option.none

structure AntispamChecksUpdate where
  enabled : Option Bool := none
  (possibleSpamThreshold definiteSpamThreshold : Option UInt8 := none)
  maxCheckDuration : Option Text := none
  (dnsbl spf dkim dmarc rdns helo earlyTalker content urlAnalysis : Option CheckFieldUpdate := none)
  (attachment html headerAnalysis charset bulk ratio : Option CheckFieldUpdate := none)
  residentialSpf : Option ResidentialSpfFieldUpdate := none
  antivirus : Option AntivirusFieldUpdate := none
  spfSeverity : Option SpfSeverityFieldUpdate := none

def updated {υ α : Type} (update : Option υ) (field : υ → Option α) (old : α) : α := (update.bind field).getD old

def updateAntispamChecks (update : AntispamChecksUpdate) (config : ServerWallConfig) :
    Result ServerWallConfig :=
  let a := config.antispam
  pure { config with antispam := { a with
    enabled := update.enabled.getD a.enabled
    possibleSpamThreshold := update.possibleSpamThreshold.getD a.possibleSpamThreshold
    definiteSpamThreshold := update.definiteSpamThreshold.getD a.definiteSpamThreshold
    maxCheckDuration := update.maxCheckDuration.getD a.maxCheckDuration
    dnsbl := { a.dnsbl with
      enabled := updated update.dnsbl (·.enabled) a.dnsbl.enabled
      weight := updated update.dnsbl (·.weight) a.dnsbl.weight }
    spf := { a.spf with
      enabled := updated update.spf (·.enabled) a.spf.enabled
      weight := updated update.spf (·.weight) a.spf.weight
      severity := {
        fail := updated update.spfSeverity (·.fail) a.spf.severity.fail
        softfail := updated update.spfSeverity (·.softfail) a.spf.severity.softfail
        neutral := updated update.spfSeverity (·.neutral) a.spf.severity.neutral
        none := updated update.spfSeverity (·.none) a.spf.severity.none } }
    dkim := { a.dkim with
      enabled := updated update.dkim (·.enabled) a.dkim.enabled
      weight := updated update.dkim (·.weight) a.dkim.weight }
    dmarc := { a.dmarc with
      enabled := updated update.dmarc (·.enabled) a.dmarc.enabled
      weight := updated update.dmarc (·.weight) a.dmarc.weight }
    rdns := { a.rdns with
      enabled := updated update.rdns (·.enabled) a.rdns.enabled
      weight := updated update.rdns (·.weight) a.rdns.weight }
    helo := { a.helo with
      enabled := updated update.helo (·.enabled) a.helo.enabled
      weight := updated update.helo (·.weight) a.helo.weight }
    earlyTalker := { a.earlyTalker with
      enabled := updated update.earlyTalker (·.enabled) a.earlyTalker.enabled
      weight := updated update.earlyTalker (·.weight) a.earlyTalker.weight }
    content := { a.content with
      enabled := updated update.content (·.enabled) a.content.enabled
      weight := updated update.content (·.weight) a.content.weight }
    urlAnalysis := { a.urlAnalysis with
      enabled := updated update.urlAnalysis (·.enabled) a.urlAnalysis.enabled
      weight := updated update.urlAnalysis (·.weight) a.urlAnalysis.weight }
    attachment := { a.attachment with
      enabled := updated update.attachment (·.enabled) a.attachment.enabled
      weight := updated update.attachment (·.weight) a.attachment.weight }
    html := { a.html with
      enabled := updated update.html (·.enabled) a.html.enabled
      weight := updated update.html (·.weight) a.html.weight }
    headerAnalysis := { a.headerAnalysis with
      enabled := updated update.headerAnalysis (·.enabled) a.headerAnalysis.enabled
      weight := updated update.headerAnalysis (·.weight) a.headerAnalysis.weight }
    charset := { a.charset with
      enabled := updated update.charset (·.enabled) a.charset.enabled
      weight := updated update.charset (·.weight) a.charset.weight }
    bulk := { a.bulk with
      enabled := updated update.bulk (·.enabled) a.bulk.enabled
      weight := updated update.bulk (·.weight) a.bulk.weight }
    ratio := { a.ratio with
      enabled := updated update.ratio (·.enabled) a.ratio.enabled
      weight := updated update.ratio (·.weight) a.ratio.weight }
    residentialSpf := {
      enabled := updated update.residentialSpf (·.enabled) a.residentialSpf.enabled
      reject := updated update.residentialSpf (·.reject) a.residentialSpf.reject
      weight := updated update.residentialSpf (·.weight) a.residentialSpf.weight
      checkPbl := updated update.residentialSpf (·.checkPbl) a.residentialSpf.checkPbl
      pblZone := updated update.residentialSpf (·.pblZone) a.residentialSpf.pblZone
      softfailTriggers := updated update.residentialSpf (·.softfailTriggers) a.residentialSpf.softfailTriggers
      neutralTriggers := updated update.residentialSpf (·.neutralTriggers) a.residentialSpf.neutralTriggers }
    antivirus := { a.antivirus with
      enabled := updated update.antivirus (·.enabled) a.antivirus.enabled
      weight := updated update.antivirus (·.weight) a.antivirus.weight
      rejectOnVirus := updated update.antivirus (·.rejectOnVirus) a.antivirus.rejectOnVirus
      onScannerError := updated update.antivirus (·.onScannerError) a.antivirus.onScannerError
      onScannerTimeout := updated update.antivirus (·.onScannerTimeout) a.antivirus.onScannerTimeout } } }

/-! ## Frontends and backend pools -/

def addFrontend (frontend : FrontendConfig) (config : ServerWallConfig) :
    Result ServerWallConfig := do
  let l ← addUnique (·.name) frontend (fmt ["frontend '", frontend.name, "' already exists"]) config.frontend
  pure { config with frontend := l }

def removeFrontend (name : Text) (config : ServerWallConfig) : Result ServerWallConfig := do
  let l ← removeKeyed (·.name) name (fmt ["frontend '", name, "' not found"]) config.frontend
  pure { config with frontend := l }

def updateFrontend (name : Text) (frontend : FrontendConfig) (config : ServerWallConfig) :
    Result ServerWallConfig := do
  let l ← replaceKeyed (·.name) name { frontend with name := name }
    (fmt ["frontend '", name, "' not found"]) config.frontend
  pure { config with frontend := l }

def addBackendPool (pool : BackendPoolConfig) (config : ServerWallConfig) :
    Result ServerWallConfig := do
  let l ← addUnique (·.name) pool (fmt ["backend pool '", pool.name, "' already exists"]) config.backendPool
  pure { config with backendPool := l }

def removeBackendPool (name : Text) (config : ServerWallConfig) : Result ServerWallConfig := do
  let l ← removeKeyed (·.name) name (fmt ["backend pool '", name, "' not found"]) config.backendPool
  pure { config with backendPool := l }

def updateBackendPool (poolName : Text) (pool : BackendPoolConfig) (config : ServerWallConfig) :
    Result ServerWallConfig := do
  let l ← replaceKeyed (·.name) poolName { pool with name := poolName }
    (fmt ["backend pool '", poolName, "' not found"]) config.backendPool
  pure { config with backendPool := l }

def addBackend (poolName : Text) (backend : BackendConfig) (config : ServerWallConfig) :
    Result ServerWallConfig := do
  let pools ← changeKeyed (·.name) poolName (fun pool => do
      let backends ← addUnique (·.name) backend
        (fmt ["backend '", backend.name, "' already exists in pool '", poolName, "'"])
        pool.backend
      pure { pool with backend := backends })
    (fmt ["backend pool '", poolName, "' not found"]) config.backendPool
  pure { config with backendPool := pools }

def removeBackend (poolName backendName : Text) (config : ServerWallConfig) :
    Result ServerWallConfig := do
  let pools ← changeKeyed (·.name) poolName (fun pool => do
      let backends ← removeKeyed (·.name) backendName
        (fmt ["backend '", backendName, "' not found in pool '", poolName, "'"])
        pool.backend
      pure { pool with backend := backends })
    (fmt ["backend pool '", poolName, "' not found"]) config.backendPool
  pure { config with backendPool := pools }

/-! ## WAF rulesets and DKIM domains -/

def addWafRuleset (ruleset : WafRulesetConfig) (config : ServerWallConfig) :
    Result ServerWallConfig := do
  let l ← addUnique (·.name) ruleset
    (fmt ["WAF ruleset '", ruleset.name, "' already exists"]) config.wafRuleset
  pure { config with wafRuleset := l }

def removeWafRuleset (name : Text) (config : ServerWallConfig) : Result ServerWallConfig := do
  let l ← removeKeyed (·.name) name (fmt ["WAF ruleset '", name, "' not found"]) config.wafRuleset
  pure { config with wafRuleset := l }

def updateWafRuleset (name : Text) (ruleset : WafRulesetConfig) (config : ServerWallConfig) :
    Result ServerWallConfig := do
  let l ← replaceKeyed (·.name) name { ruleset with name := name }
    (fmt ["WAF ruleset '", name, "' not found"]) config.wafRuleset
  pure { config with wafRuleset := l }

def addDkimDomain (domain : DkimDomainConfig) (config : ServerWallConfig) :
    Result ServerWallConfig := do
  let l ← addUnique (·.domain) domain
    (fmt ["DKIM domain '", domain.domain, "' already configured"]) config.relay.dkim.domains
  pure { config with relay.dkim.domains := l }

def removeDkimDomain (domain : Text) (config : ServerWallConfig) : Result ServerWallConfig := do
  let l ← removeKeyed (·.domain) domain
    (fmt ["DKIM domain '", domain, "' not found"]) config.relay.dkim.domains
  pure { config with relay.dkim.domains := l }

/-! ## Access lists -/

def addAclAllow (ip : Text) (config : ServerWallConfig) : Result ServerWallConfig :=
  pure { config with security.acl.ip.allow := addText ip config.security.acl.ip.allow }

def addAclBlock (ip : Text) (config : ServerWallConfig) : Result ServerWallConfig :=
  pure { config with security.acl.ip.block := addText ip config.security.acl.ip.block }

def removeAclIp (ip : Text) (config : ServerWallConfig) : Result ServerWallConfig :=
  pure { config with
    security.acl.ip := {
      allow := removeText ip config.security.acl.ip.allow
      block := removeText ip config.security.acl.ip.block } }

def addAntispamAllowIp (ip : Text) (config : ServerWallConfig) : Result ServerWallConfig :=
  pure { config with antispam.allow.ips := addText ip config.antispam.allow.ips }

def removeAntispamAllowIp (ip : Text) (config : ServerWallConfig) : Result ServerWallConfig :=
  pure { config with antispam.allow.ips := removeText ip config.antispam.allow.ips }

def addAntispamAllowSender (u : Unicode) (sender : Text) (config : ServerWallConfig) :
    Result ServerWallConfig :=
  pure { config with
    antispam.allow.senders := addText (u.toLowercase sender) config.antispam.allow.senders }

def removeAntispamAllowSender (u : Unicode) (sender : Text) (config : ServerWallConfig) :
    Result ServerWallConfig :=
  pure { config with
    antispam.allow.senders := removeText (u.toLowercase sender) config.antispam.allow.senders }

def addAntispamAllowDomain (u : Unicode) (domain : Text) (config : ServerWallConfig) :
    Result ServerWallConfig :=
  pure { config with
    antispam.allow.senderDomains := addText (u.toLowercase domain) config.antispam.allow.senderDomains }

def removeAntispamAllowDomain (u : Unicode) (domain : Text) (config : ServerWallConfig) :
    Result ServerWallConfig :=
  pure { config with
    antispam.allow.senderDomains := removeText (u.toLowercase domain) config.antispam.allow.senderDomains }

def addAntispamBlockIp (ip : Text) (config : ServerWallConfig) : Result ServerWallConfig :=
  pure { config with antispam.block.ips := addText ip config.antispam.block.ips }

def removeAntispamBlockIp (ip : Text) (config : ServerWallConfig) : Result ServerWallConfig :=
  pure { config with antispam.block.ips := removeText ip config.antispam.block.ips }

def addAntispamBlockSender (u : Unicode) (sender : Text) (config : ServerWallConfig) :
    Result ServerWallConfig :=
  pure { config with
    antispam.block.senders := addText (u.toLowercase sender) config.antispam.block.senders }

def removeAntispamBlockSender (u : Unicode) (sender : Text) (config : ServerWallConfig) :
    Result ServerWallConfig :=
  pure { config with
    antispam.block.senders := removeText (u.toLowercase sender) config.antispam.block.senders }

def addAntispamBlockDomain (u : Unicode) (domain : Text) (config : ServerWallConfig) :
    Result ServerWallConfig :=
  pure { config with
    antispam.block.senderDomains := addText (u.toLowercase domain) config.antispam.block.senderDomains }

def removeAntispamBlockDomain (u : Unicode) (domain : Text) (config : ServerWallConfig) :
    Result ServerWallConfig :=
  pure { config with
    antispam.block.senderDomains := removeText (u.toLowercase domain) config.antispam.block.senderDomains }

def addAntispamAllowRecipient (u : Unicode) (recipient : Text) (config : ServerWallConfig) :
    Result ServerWallConfig :=
  pure { config with
    antispam.allow.recipients := addText (u.toLowercase recipient) config.antispam.allow.recipients }

def removeAntispamAllowRecipient (u : Unicode) (recipient : Text) (config : ServerWallConfig) :
    Result ServerWallConfig :=
  pure { config with
    antispam.allow.recipients := removeText (u.toLowercase recipient) config.antispam.allow.recipients }

def addAntispamBlockRecipient (u : Unicode) (recipient : Text) (config : ServerWallConfig) :
    Result ServerWallConfig :=
  pure { config with
    antispam.block.recipients := addText (u.toLowercase recipient) config.antispam.block.recipients }

def removeAntispamBlockRecipient (u : Unicode) (recipient : Text) (config : ServerWallConfig) :
    Result ServerWallConfig :=
  pure { config with
    antispam.block.recipients := removeText (u.toLowercase recipient) config.antispam.block.recipients }

/-! ## Antispam zones, scanners, overrides -/

def addAntispamDnsblZone (zone : Config.DnsblListEntry) (config : ServerWallConfig) :
    Result ServerWallConfig := do
  let l ← addUnique (·.zone) zone
    (fmt ["DNSBL zone '", zone.zone, "' already configured"]) config.antispam.dnsbl.lists
  pure { config with antispam.dnsbl.lists := l }

def removeAntispamDnsblZone (zoneName : Text) (config : ServerWallConfig) :
    Result ServerWallConfig := do
  let l ← removeKeyed (·.zone) zoneName
    (fmt ["DNSBL zone '", zoneName, "' not found"]) config.antispam.dnsbl.lists
  pure { config with antispam.dnsbl.lists := l }

def setAntispamConfig (antispam : AntispamConfig) (config : ServerWallConfig) :
    Result ServerWallConfig :=
  pure { config with antispam := antispam }

def addAntispamSurblZone (zone : Text) (config : ServerWallConfig) : Result ServerWallConfig := do
  let l ← addTextOnce zone
    (fmt ["SURBL zone '", zone, "' already exists"]) config.antispam.urlAnalysis.surblZones
  pure { config with antispam.urlAnalysis.surblZones := l }

def removeAntispamSurblZone (zone : Text) (config : ServerWallConfig) :
    Result ServerWallConfig := do
  let l ← removeTextOnce zone
    (fmt ["SURBL zone '", zone, "' not found"]) config.antispam.urlAnalysis.surblZones
  pure { config with antispam.urlAnalysis.surblZones := l }

def addAntispamScanner (scanner : ScannerConfig) (config : ServerWallConfig) :
    Result ServerWallConfig := do
  let l ← addUnique (·.name) scanner
    (fmt ["scanner '", scanner.name, "' already exists"]) config.antispam.antivirus.scanners
  pure { config with antispam.antivirus.scanners := l }

def removeAntispamScanner (name : Text) (config : ServerWallConfig) : Result ServerWallConfig := do
  let l ← removeKeyed (·.name) name (fmt ["scanner '", name, "' not found"]) config.antispam.antivirus.scanners
  pure { config with antispam.antivirus.scanners := l }

def addAntispamDomainOverride (entry : DomainOverride) (config : ServerWallConfig) :
    Result ServerWallConfig := do
  let l ← addUnique (·.domain) entry (fmt ["domain override for '", entry.domain, "' already exists"])
    config.antispam.domainOverrides
  pure { config with antispam.domainOverrides := l }

def updateAntispamDomainOverride (domain : Text) (entry : DomainOverride)
    (config : ServerWallConfig) : Result ServerWallConfig := do
  let l ← replaceKeyed (·.domain) domain { entry with domain := domain }
    (fmt ["domain override for '", domain, "' not found"]) config.antispam.domainOverrides
  pure { config with antispam.domainOverrides := l }

def removeAntispamDomainOverride (domain : Text) (config : ServerWallConfig) :
    Result ServerWallConfig := do
  let l ← removeKeyed (·.domain) domain
    (fmt ["domain override for '", domain, "' not found"]) config.antispam.domainOverrides
  pure { config with antispam.domainOverrides := l }

/-! ## Relay -/

def addTrustedHost (host : Text) (config : ServerWallConfig) : Result ServerWallConfig := do
  let l ← addTextOnce host (fmt ["trusted host '", host, "' already exists"]) config.relay.trustedHosts.hosts
  pure { config with relay.trustedHosts.hosts := l }

def removeTrustedHost (host : Text) (config : ServerWallConfig) : Result ServerWallConfig := do
  let l ← removeTextOnce host (fmt ["trusted host '", host, "' not found"]) config.relay.trustedHosts.hosts
  pure { config with relay.trustedHosts.hosts := l }

def addDmarcPolicyDomain (domain : DmarcPolicyDomain) (config : ServerWallConfig) :
    Result ServerWallConfig := do
  let l ← addUnique (·.domain) domain (fmt ["DMARC policy for '", domain.domain, "' already configured"])
    config.relay.dmarcPublish.domains
  pure { config with relay.dmarcPublish.domains := l }

def updateDmarcPolicyDomain (domainName : Text) (domain : DmarcPolicyDomain)
    (config : ServerWallConfig) : Result ServerWallConfig := do
  let l ← replaceKeyed (·.domain) domainName { domain with domain := domainName }
    (fmt ["DMARC policy for '", domainName, "' not found"]) config.relay.dmarcPublish.domains
  pure { config with relay.dmarcPublish.domains := l }

def removeDmarcPolicyDomain (domain : Text) (config : ServerWallConfig) :
    Result ServerWallConfig := do
  let l ← removeKeyed (·.domain) domain
    (fmt ["DMARC policy for '", domain, "' not found"]) config.relay.dmarcPublish.domains
  pure { config with relay.dmarcPublish.domains := l }

def addSpfDomain (domain : SpfDomainConfig) (config : ServerWallConfig) :
    Result ServerWallConfig := do
  let l ← addUnique (·.domain) domain (fmt ["SPF record for '", domain.domain, "' already configured"])
    config.relay.spfPublish.domains
  pure { config with relay.spfPublish.domains := l }

def updateSpfDomain (domainName : Text) (domain : SpfDomainConfig) (config : ServerWallConfig) :
    Result ServerWallConfig := do
  let l ← replaceKeyed (·.domain) domainName { domain with domain := domainName }
    (fmt ["SPF record for '", domainName, "' not found"]) config.relay.spfPublish.domains
  pure { config with relay.spfPublish.domains := l }

def removeSpfDomain (domain : Text) (config : ServerWallConfig) : Result ServerWallConfig := do
  let l ← removeKeyed (·.domain) domain
    (fmt ["SPF record for '", domain, "' not found"]) config.relay.spfPublish.domains
  pure { config with relay.spfPublish.domains := l }

def setRelayConfig (relay : RelayConfig) (config : ServerWallConfig) : Result ServerWallConfig :=
  pure { config with relay := relay }

/-! ## Security -/

def updateSecurityTls (tls : SecurityTlsConfig) (config : ServerWallConfig) :
    Result ServerWallConfig :=
  pure { config with security.tls := tls }

def updateSecurityGeo (geo : GeoConfig) (config : ServerWallConfig) : Result ServerWallConfig :=
  pure { config with security.geo := geo }

def updateSecurityHeaders (headers : SecurityHeadersConfig) (config : ServerWallConfig) :
    Result ServerWallConfig :=
  pure { config with security.headers := headers }

def updateSecurityBot (bot : BotDetectionConfig) (config : ServerWallConfig) :
    Result ServerWallConfig :=
  pure { config with security.botDetection := bot }

def updateSecurityCookies (cookies : CookieSecurityConfig) (config : ServerWallConfig) :
    Result ServerWallConfig :=
  pure { config with security.cookies := cookies }

def updateSecurityAcl (acl : SecurityAclConfig) (config : ServerWallConfig) :
    Result ServerWallConfig :=
  pure { config with security.acl := acl }

def addSecurityRateLimit (rule : RateLimitConfig) (config : ServerWallConfig) :
    Result ServerWallConfig := do
  let l ← addUnique (·.name) rule
    (fmt ["rate limit rule '", rule.name, "' already exists"]) config.security.rateLimit
  pure { config with security.rateLimit := l }

def removeSecurityRateLimit (name : Text) (config : ServerWallConfig) :
    Result ServerWallConfig := do
  let l ← removeKeyed (·.name) name (fmt ["rate limit rule '", name, "' not found"]) config.security.rateLimit
  pure { config with security.rateLimit := l }

/-! ## Profiles -/

def addSecurityProfile (profile : SecurityProfile) (config : ServerWallConfig) :
    Result ServerWallConfig := do
  let l ← addUnique (·.name) profile
    (fmt ["Security profile '", profile.name, "' already exists"]) config.securityProfiles
  pure { config with securityProfiles := l }

def updateSecurityProfile (name : Text) (profile : SecurityProfile) (config : ServerWallConfig) :
    Result ServerWallConfig := do
  let l ← replaceKeyed (·.name) name profile
    (fmt ["Security profile '", name, "' not found"]) config.securityProfiles
  pure { config with securityProfiles := l }

def removeSecurityProfile (name : Text) (config : ServerWallConfig) : Result ServerWallConfig := do
  let l ← removeKeyed (·.name) name (fmt ["Security profile '", name, "' not found"]) config.securityProfiles
  pure { config with securityProfiles := l }

def addLogProfile (profile : LogProfile) (config : ServerWallConfig) : Result ServerWallConfig := do
  let l ← addUnique (·.name) profile
    (fmt ["Logging profile '", profile.name, "' already exists"]) config.logProfiles
  pure { config with logProfiles := l }

def updateLogProfile (name : Text) (profile : LogProfile) (config : ServerWallConfig) :
    Result ServerWallConfig := do
  let l ← replaceKeyed (·.name) name profile
    (fmt ["Logging profile '", name, "' not found"]) config.logProfiles
  pure { config with logProfiles := l }

def removeLogProfile (name : Text) (config : ServerWallConfig) : Result ServerWallConfig := do
  let l ← removeKeyed (·.name) name (fmt ["Logging profile '", name, "' not found"]) config.logProfiles
  pure { config with logProfiles := l }

/-! ## Global settings, ACME and the web UI -/

def updateGlobalConfig (global : GlobalConfig) (config : ServerWallConfig) :
    Result ServerWallConfig :=
  pure { config with global := global }

def updateAcmeConfig (acme : AcmeConfig) (config : ServerWallConfig) : Result ServerWallConfig :=
  pure { config with acme := acme }

def updateWebuiAllowList (allow : List Text) (config : ServerWallConfig) :
    Result ServerWallConfig :=
  pure { config with webui.allowList := allow }

def updateWebuiConfig (webui : WebuiConfig) (config : ServerWallConfig) :
    Result ServerWallConfig :=
  pure { config with webui := webui }

/-! ## Every operation -/

inductive Edit where
  | addFrontend (frontend : FrontendConfig)
  | removeFrontend (name : Text)
  | updateFrontend (name : Text) (frontend : FrontendConfig)
  | addBackendPool (pool : BackendPoolConfig)
  | removeBackendPool (name : Text)
  | updateBackendPool (poolName : Text) (pool : BackendPoolConfig)
  | addBackend (poolName : Text) (backend : BackendConfig)
  | removeBackend (poolName backendName : Text)
  | addWafRuleset (ruleset : WafRulesetConfig)
  | removeWafRuleset (name : Text)
  | updateWafRuleset (name : Text) (ruleset : WafRulesetConfig)
  | addDkimDomain (domain : DkimDomainConfig)
  | removeDkimDomain (domain : Text)
  | addAclAllow (ip : Text)
  | addAclBlock (ip : Text)
  | removeAclIp (ip : Text)
  | addAntispamAllowIp (ip : Text)
  | removeAntispamAllowIp (ip : Text)
  | addAntispamAllowSender (sender : Text)
  | removeAntispamAllowSender (sender : Text)
  | addAntispamAllowDomain (domain : Text)
  | removeAntispamAllowDomain (domain : Text)
  | addAntispamBlockIp (ip : Text)
  | removeAntispamBlockIp (ip : Text)
  | addAntispamBlockSender (sender : Text)
  | removeAntispamBlockSender (sender : Text)
  | addAntispamBlockDomain (domain : Text)
  | removeAntispamBlockDomain (domain : Text)
  | addAntispamAllowRecipient (recipient : Text)
  | removeAntispamAllowRecipient (recipient : Text)
  | addAntispamBlockRecipient (recipient : Text)
  | removeAntispamBlockRecipient (recipient : Text)
  | addAntispamDnsblZone (zone : Config.DnsblListEntry)
  | removeAntispamDnsblZone (zoneName : Text)
  | setAntispamConfig (antispam : AntispamConfig)
  | addAntispamSurblZone (zone : Text)
  | removeAntispamSurblZone (zone : Text)
  | addAntispamScanner (scanner : ScannerConfig)
  | removeAntispamScanner (name : Text)
  | addAntispamDomainOverride (entry : DomainOverride)
  | updateAntispamDomainOverride (domain : Text) (entry : DomainOverride)
  | removeAntispamDomainOverride (domain : Text)
  | addTrustedHost (host : Text)
  | removeTrustedHost (host : Text)
  | addDmarcPolicyDomain (domain : DmarcPolicyDomain)
  | updateDmarcPolicyDomain (domainName : Text) (domain : DmarcPolicyDomain)
  | removeDmarcPolicyDomain (domain : Text)
  | addSpfDomain (domain : SpfDomainConfig)
  | updateSpfDomain (domainName : Text) (domain : SpfDomainConfig)
  | removeSpfDomain (domain : Text)
  | setRelayConfig (relay : RelayConfig)
  | updateSecurityTls (tls : SecurityTlsConfig)
  | updateSecurityGeo (geo : GeoConfig)
  | updateSecurityHeaders (headers : SecurityHeadersConfig)
  | updateSecurityBot (bot : BotDetectionConfig)
  | updateSecurityCookies (cookies : CookieSecurityConfig)
  | updateSecurityAcl (acl : SecurityAclConfig)
  | addSecurityRateLimit (rule : RateLimitConfig)
  | removeSecurityRateLimit (name : Text)
  | addSecurityProfile (profile : SecurityProfile)
  | updateSecurityProfile (name : Text) (profile : SecurityProfile)
  | removeSecurityProfile (name : Text)
  | addLogProfile (profile : LogProfile)
  | updateLogProfile (name : Text) (profile : LogProfile)
  | removeLogProfile (name : Text)
  | updateGlobalConfig (global : GlobalConfig)
  | updateAcmeConfig (acme : AcmeConfig)
  | updateWebuiAllowList (allow : List Text)
  | updateWebuiConfig (webui : WebuiConfig)
  | updateAntispamChecks (update : AntispamChecksUpdate)

def Edit.change (u : Unicode) : Edit → ServerWallConfig → Result ServerWallConfig
  | .addFrontend frontend => Core.addFrontend frontend
  | .removeFrontend name => Core.removeFrontend name
  | .updateFrontend name frontend => Core.updateFrontend name frontend
  | .addBackendPool pool => Core.addBackendPool pool
  | .removeBackendPool name => Core.removeBackendPool name
  | .updateBackendPool poolName pool => Core.updateBackendPool poolName pool
  | .addBackend poolName backend => Core.addBackend poolName backend
  | .removeBackend poolName backendName => Core.removeBackend poolName backendName
  | .addWafRuleset ruleset => Core.addWafRuleset ruleset
  | .removeWafRuleset name => Core.removeWafRuleset name
  | .updateWafRuleset name ruleset => Core.updateWafRuleset name ruleset
  | .addDkimDomain domain => Core.addDkimDomain domain
  | .removeDkimDomain domain => Core.removeDkimDomain domain
  | .addAclAllow ip => Core.addAclAllow ip
  | .addAclBlock ip => Core.addAclBlock ip
  | .removeAclIp ip => Core.removeAclIp ip
  | .addAntispamAllowIp ip => Core.addAntispamAllowIp ip
  | .removeAntispamAllowIp ip => Core.removeAntispamAllowIp ip
  | .addAntispamAllowSender sender => Core.addAntispamAllowSender u sender
  | .removeAntispamAllowSender sender => Core.removeAntispamAllowSender u sender
  | .addAntispamAllowDomain domain => Core.addAntispamAllowDomain u domain
  | .removeAntispamAllowDomain domain => Core.removeAntispamAllowDomain u domain
  | .addAntispamBlockIp ip => Core.addAntispamBlockIp ip
  | .removeAntispamBlockIp ip => Core.removeAntispamBlockIp ip
  | .addAntispamBlockSender sender => Core.addAntispamBlockSender u sender
  | .removeAntispamBlockSender sender => Core.removeAntispamBlockSender u sender
  | .addAntispamBlockDomain domain => Core.addAntispamBlockDomain u domain
  | .removeAntispamBlockDomain domain => Core.removeAntispamBlockDomain u domain
  | .addAntispamAllowRecipient recipient => Core.addAntispamAllowRecipient u recipient
  | .removeAntispamAllowRecipient recipient => Core.removeAntispamAllowRecipient u recipient
  | .addAntispamBlockRecipient recipient => Core.addAntispamBlockRecipient u recipient
  | .removeAntispamBlockRecipient recipient => Core.removeAntispamBlockRecipient u recipient
  | .addAntispamDnsblZone zone => Core.addAntispamDnsblZone zone
  | .removeAntispamDnsblZone zoneName => Core.removeAntispamDnsblZone zoneName
  | .setAntispamConfig antispam => Core.setAntispamConfig antispam
  | .addAntispamSurblZone zone => Core.addAntispamSurblZone zone
  | .removeAntispamSurblZone zone => Core.removeAntispamSurblZone zone
  | .addAntispamScanner scanner => Core.addAntispamScanner scanner
  | .removeAntispamScanner name => Core.removeAntispamScanner name
  | .addAntispamDomainOverride entry => Core.addAntispamDomainOverride entry
  | .updateAntispamDomainOverride domain entry => Core.updateAntispamDomainOverride domain entry
  | .removeAntispamDomainOverride domain => Core.removeAntispamDomainOverride domain
  | .addTrustedHost host => Core.addTrustedHost host
  | .removeTrustedHost host => Core.removeTrustedHost host
  | .addDmarcPolicyDomain domain => Core.addDmarcPolicyDomain domain
  | .updateDmarcPolicyDomain domainName domain => Core.updateDmarcPolicyDomain domainName domain
  | .removeDmarcPolicyDomain domain => Core.removeDmarcPolicyDomain domain
  | .addSpfDomain domain => Core.addSpfDomain domain
  | .updateSpfDomain domainName domain => Core.updateSpfDomain domainName domain
  | .removeSpfDomain domain => Core.removeSpfDomain domain
  | .setRelayConfig relay => Core.setRelayConfig relay
  | .updateSecurityTls tls => Core.updateSecurityTls tls
  | .updateSecurityGeo geo => Core.updateSecurityGeo geo
  | .updateSecurityHeaders headers => Core.updateSecurityHeaders headers
  | .updateSecurityBot bot => Core.updateSecurityBot bot
  | .updateSecurityCookies cookies => Core.updateSecurityCookies cookies
  | .updateSecurityAcl acl => Core.updateSecurityAcl acl
  | .addSecurityRateLimit rule => Core.addSecurityRateLimit rule
  | .removeSecurityRateLimit name => Core.removeSecurityRateLimit name
  | .addSecurityProfile profile => Core.addSecurityProfile profile
  | .updateSecurityProfile name profile => Core.updateSecurityProfile name profile
  | .removeSecurityProfile name => Core.removeSecurityProfile name
  | .addLogProfile profile => Core.addLogProfile profile
  | .updateLogProfile name profile => Core.updateLogProfile name profile
  | .removeLogProfile name => Core.removeLogProfile name
  | .updateGlobalConfig global => Core.updateGlobalConfig global
  | .updateAcmeConfig acme => Core.updateAcmeConfig acme
  | .updateWebuiAllowList allow => Core.updateWebuiAllowList allow
  | .updateWebuiConfig webui => Core.updateWebuiConfig webui
  | .updateAntispamChecks update => Core.updateAntispamChecks update

/-- What an operation makes of the configuration it loaded, before it writes it
back. -/
def edited {Octet : Type} (crates : Crates Octet) (op : Edit) (config : ServerWallConfig) :
    Result ServerWallConfig := do
  let config ← op.change crates.unicode config
  validateConfig crates.isNetwork config
  pure config

end ServerWall.Core
