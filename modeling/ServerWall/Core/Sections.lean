import ServerWall.Core.Serde

/-!
# A section left out and a section left empty

A table that is missing gives the structure's `Default`, an empty one each field's serde default.
`sections` lists all such fields (`tables_listed`), and whether the two agree (`load_emptied_iff`). The
absence of an optional table is a value of its own.
-/

namespace ServerWall.Schema

open ServerWall.Config ServerWall.Toml List CookieSecurityConfig
open Prod (fst)

/-! ## Lists of sections -/

/-- Places of a document, each with whether its table may as well be left out. -/
abbrev Sections := List (List Hop × Bool)

def own (fields : List (Text × Bool)) : Sections := fields.map fun x => ([.key x.1], x.2)

/-- The sections of a structure that is reached by a hop. -/
def under (h : Hop) (l : Sections) : Sections := l.map fun x => (h :: x.1, x.2)

def Correct (R : Type) [Serde R] (l : Sections) : Prop := ∀ x ∈ l, Shifts R x.1 (x.2 = true) ∧ x.1 ≠ []

namespace Correct

variable {R S : Type} [Serde R] [Serde S] {l l' : Sections} {rec : Record R}

theorem nil : Correct R (own []) := nofun

theorem cons (h : Shifts R [.key k] (b = true)) (hr : Correct R (own fields)) : Correct R (own ((k, b) :: fields)) :=
  forall_mem_cons.mpr ⟨⟨h, cons_ne_nil _ _⟩, hr⟩

theorem append (h : Correct R l) (h' : Correct R l') : Correct R (l ++ l') := forall_mem_append.mpr ⟨h, h'⟩

theorem under (h : Correct S l) (hp : ∀ {hops p}, Shifts S hops p → hops ≠ [] → Shifts R (hop :: hops) p) :
    Correct R (under hop l) := by
  intro x hx
  obtain ⟨y, hy, rfl⟩ := mem_map.mp hx
  obtain ⟨hs, hne⟩ := h y hy
  exact ⟨hp hs hne, cons_ne_nil _ _⟩

end Correct

/-! ## The sections of the schema -/

def spfFields : List (Text × Bool) := [("severity", true)]

def rateLimitFields : List (Text × Bool) := [("per_ip", true), ("per_domain", true), ("per_sender", true)]

def antispamFields : List (Text × Bool) :=
  [("allow", true), ("block", true), ("dnsbl", true), ("spf", true), ("rdns", true), ("residential_spf", true),
   ("helo", true), ("rate_limit", false), ("early_talker", true), ("dkim", true), ("dmarc", true), ("content", true),
   ("url_analysis", true), ("attachment", true), ("html", true), ("header_analysis", true), ("charset", true),
   ("bulk", true), ("ratio", true), ("antivirus", false)]

def aclFields : List (Text × Bool) := [("ip", true), ("domain", true)]

def securityFields : List (Text × Bool) :=
  [("tls", false), ("acl", true), ("geo", false), ("bot_detection", true), ("cookies", false), ("headers", true)]

def relayFields : List (Text × Bool) := [("trusted_hosts", true), ("retry", true), ("tls", false), ("dkim", true),
   ("dmarc_publish", true), ("spf_publish", true), ("outbound_policy", false), ("bounce", false)]

def frontendFields : List (Text × Bool) := [("headers", false), ("smtp_headers", false), ("acl", true)]

def wafRulesetFields : List (Text × Bool) := [("exclusions", true)]

def profileAntispamFields : List (Text × Bool) := [("antivirus", false)]

def profileFields : List (Text × Bool) :=
  [("headers", true), ("cookies", false), ("bot_detection", true), ("geo", false)]

def rootFields : List (Text × Bool) :=
  [("global", true), ("webui", true), ("acme", true), ("security", false), ("antispam", false), ("relay", false)]

def antispamSections : Sections := own antispamFields ++ under (.key "spf") (own spfFields) ++
    under (.key "rate_limit") (own rateLimitFields)

def securitySections : Sections := own securityFields ++ under (.key "acl") (own aclFields)

def profileSections : Sections := own profileFields ++ under (.key "antispam") (own profileAntispamFields)

/-- The table-valued fields of the schema that have a serde default, wherever
they stand in a document. -/
def sections : Sections := own rootFields ++ under (.key "security") securitySections ++
    under (.key "antispam") antispamSections ++ under (.key "relay") (own relayFields) ++
    under (.item "frontend") (own frontendFields) ++
    under (.item "waf_ruleset") (own wafRulesetFields) ++
    under (.item "security_profiles") profileSections

/-- The keys of the fields of a record that are tables with a default. -/
def tables {R : Type} (rec : Record R) : List Text := (rec.slots.filter Slot.isSection).map Slot.key

theorem tables_listed : tables serverWallConfigRecord = rootFields.map fst ∧
    tables securityConfigRecord = securityFields.map fst ∧
    tables securityAclConfigRecord = aclFields.map fst ∧
    tables antispamConfigRecord = antispamFields.map fst ∧ tables spfConfigRecord = spfFields.map fst ∧
    tables smtpRateLimitConfigRecord = rateLimitFields.map fst ∧
    tables relayConfigRecord = relayFields.map fst ∧ tables frontendConfigRecord = frontendFields.map fst ∧
    tables wafRulesetConfigRecord = wafRulesetFields.map fst ∧
    tables securityProfileRecord = profileFields.map fst ∧
    tables securityProfileAntispamRecord = profileAntispamFields.map fst :=
  ⟨rfl, rfl, rfl, rfl, rfl, rfl, rfl, rfl, rfl, rfl, rfl⟩

/-! ## Structure by structure

Where the two defaults agree they are the same term; where they do not, one
field tells them apart. -/

open Record Correct

theorem same {rec : Record R} (hs : rec.HasSlot k s) (h : s.take none = s.take (some (.table [])))
    (hr : @Correct R rec.serde (own l)) : @Correct R rec.serde (own ((k, true) :: l)) :=
  @cons _ rec.serde _ _ _ (shifts_same hs h) hr

theorem unlike {rec : Record R} {s : Slot} {d e : s.Ty} (f : s.Ty → β) (hs : rec.HasSlot k s)
    (hd : s.take none = some d) (he : s.take (some (.table [])) = some e) (hne : f d ≠ f e)
    (hr : @Correct R rec.serde (own l)) : @Correct R rec.serde (own ((k, false) :: l)) :=
  @cons _ rec.serde _ _ _ (shifts_unlike hs hd he (ne_of_apply_ne f hne)) hr

theorem spf_correct : Correct SpfConfig (own spfFields) := same rfl rfl nil

theorem rateLimit_correct : Correct SmtpRateLimitConfig (own rateLimitFields) :=
  same rfl rfl <| same rfl rfl <| same rfl rfl nil

theorem acl_correct : Correct SecurityAclConfig (own aclFields) :=
  same rfl rfl <| same rfl rfl nil

theorem wafRuleset_correct : Correct WafRulesetConfig (own wafRulesetFields) := same rfl rfl nil

theorem profileAntispam_correct : Correct SecurityProfileAntispam (own profileAntispamFields) :=
  unlike AntivirusConfig.rejectOnVirus rfl rfl rfl (by decide) nil

theorem frontend_correct : Correct FrontendConfig (own frontendFields) :=
  unlike FrontendHeadersConfig.xForwardedFor rfl rfl rfl (by decide) <|
  unlike SmtpHeadersConfig.addReceived rfl rfl rfl (by decide) <|
  same rfl rfl nil

theorem security_correct : Correct SecurityConfig securitySections := by
  refine append ?_ (acl_correct.under (shifts_table rfl))
  exact unlike SecurityTlsConfig.minVersion rfl rfl rfl (by decide) <|
    same rfl rfl <|
    unlike GeoConfig.databasePath rfl rfl rfl (by decide) <|
    same rfl rfl <|
    unlike maxCookieSize rfl rfl rfl (by decide) <|
    same rfl rfl nil

theorem relay_correct : Correct RelayConfig (own relayFields) :=
  same rfl rfl <| same rfl rfl <|
  unlike RelayTlsConfig.opportunistic rfl rfl rfl (by decide) <|
  same rfl rfl <| same rfl rfl <| same rfl rfl <|
  unlike OutboundPolicyConfig.enabled rfl rfl rfl (by decide) <|
  unlike BounceConfig.includeOriginalHeaders rfl rfl rfl (by decide) nil

theorem profile_correct : Correct SecurityProfile profileSections := by
  refine append ?_ (profileAntispam_correct.under (shifts_optional rfl))
  exact same rfl rfl <| unlike maxCookieSize rfl rfl rfl (by decide) <|
    same rfl rfl <|
    unlike GeoConfig.databasePath rfl rfl rfl (by decide) nil

theorem antispam_correct : Correct AntispamConfig antispamSections := by
  refine append (append ?_ (spf_correct.under (shifts_table rfl))) (rateLimit_correct.under (shifts_table rfl))
  exact same rfl rfl <| same rfl rfl <|
    same rfl rfl <| same rfl rfl <| same rfl rfl <|
    same rfl rfl <| same rfl rfl <|
    unlike SmtpRateLimitConfig.enabled rfl rfl rfl (by decide) <|
    same rfl rfl <| same rfl rfl <| same rfl rfl <|
    same rfl rfl <| same rfl rfl <| same rfl rfl <|
    same rfl rfl <| same rfl rfl <| same rfl rfl <|
    same rfl rfl <| same rfl rfl <|
    unlike AntivirusConfig.rejectOnVirus rfl rfl rfl (by decide) nil

theorem sections_correct : Correct ServerWallConfig sections := by
  have hr : Correct ServerWallConfig (own rootFields) :=
    same rfl rfl <| same rfl rfl <| same rfl rfl <|
    unlike SecurityConfig.enabled rfl rfl rfl (by decide) <|
    unlike AntispamConfig.possibleSpamThreshold rfl rfl rfl (by decide) <|
    unlike RelayConfig.maxQueueSize rfl rfl rfl (by decide) nil
  refine append (append (append (append (append (append hr ?_) ?_) ?_) ?_) ?_) ?_
  · exact security_correct.under (shifts_table rfl)
  · exact antispam_correct.under (shifts_table rfl)
  · exact relay_correct.under (shifts_table rfl)
  · exact frontend_correct.under fun h _ => shifts_item rfl h
  · exact wafRuleset_correct.under fun h _ => shifts_item rfl h
  · exact profile_correct.under fun h _ => shifts_item rfl h

end ServerWall.Schema
