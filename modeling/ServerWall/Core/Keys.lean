import ServerWall.Core.Editor

/-!
# Names stay distinct

The seven lists whose entries are looked up by name are `Named`, and what an edit does to them is said
once for all seventy operations (`change_changes`). Six of them can bring a name in twice
(`uniqueKeys_edited_iff`).
-/

namespace ServerWall.Core

open Schema
open Keyed

/-! ## The named lists -/

structure Named where
  frontends : List FrontendConfig
  pools : List BackendPoolConfig
  rulesets : List WafRulesetConfig
  securityProfiles : List SecurityProfile
  logProfiles : List LogProfile
  rateLimits : List RateLimitConfig
  overrides : List DomainOverride

def named (config : ServerWallConfig) : Named where
  frontends := config.frontend
  pools := config.backendPool
  rulesets := config.wafRuleset
  securityProfiles := config.securityProfiles
  logProfiles := config.logProfiles
  rateLimits := config.security.rateLimit
  overrides := config.antispam.domainOverrides

def Edit.isNamed : Edit → Bool
  | .addFrontend _ | .removeFrontend _ | .updateFrontend _ _
  | .addBackendPool _ | .removeBackendPool _ | .updateBackendPool _ _
  | .addBackend _ _ | .removeBackend _ _
  | .addWafRuleset _ | .removeWafRuleset _ | .updateWafRuleset _ _
  | .setAntispamConfig _
  | .addAntispamDomainOverride _ | .updateAntispamDomainOverride _ _
  | .removeAntispamDomainOverride _
  | .addSecurityRateLimit _ | .removeSecurityRateLimit _
  | .addSecurityProfile _ | .updateSecurityProfile _ _ | .removeSecurityProfile _
  | .addLogProfile _ | .updateLogProfile _ _ | .removeLogProfile _ => true
  | _ => false

inductive Changes : Edit → Named → Named → Prop where
  | addFrontend {n f l} (h : Added (·.name) f n.frontends l) : Changes (.addFrontend f) n { n with frontends := l }
  | removeFrontend {n k l} (h : Removed (·.name) k n.frontends l) :
      Changes (.removeFrontend k) n { n with frontends := l }
  | updateFrontend {n k f l} (h : Replaced (·.name) k { f with name := k } n.frontends l) :
      Changes (.updateFrontend k f) n { n with frontends := l }
  | addBackendPool {n p l} (h : Added (·.name) p n.pools l) : Changes (.addBackendPool p) n { n with pools := l }
  | removeBackendPool {n k l} (h : Removed (·.name) k n.pools l) :
      Changes (.removeBackendPool k) n { n with pools := l }
  | updateBackendPool {n k p l} (h : Replaced (·.name) k { p with name := k } n.pools l) :
      Changes (.updateBackendPool k p) n { n with pools := l }
  | addBackend {n k b old new l} (hold : old ∈ n.pools) (hname : new.name = k)
      (hnew : Added (·.name) b old.backend new.backend) (h : Replaced (·.name) k new n.pools l) :
      Changes (.addBackend k b) n { n with pools := l }
  | removeBackend {n k b old new l} (hold : old ∈ n.pools) (hname : new.name = k)
      (hnew : Removed (·.name) b old.backend new.backend)
      (h : Replaced (·.name) k new n.pools l) :
      Changes (.removeBackend k b) n { n with pools := l }
  | addWafRuleset {n r l} (h : Added (·.name) r n.rulesets l) : Changes (.addWafRuleset r) n { n with rulesets := l }
  | removeWafRuleset {n k l} (h : Removed (·.name) k n.rulesets l) :
      Changes (.removeWafRuleset k) n { n with rulesets := l }
  | updateWafRuleset {n k r l} (h : Replaced (·.name) k { r with name := k } n.rulesets l) :
      Changes (.updateWafRuleset k r) n { n with rulesets := l }
  | setAntispamConfig {n a} : Changes (.setAntispamConfig a) n { n with overrides := a.domainOverrides }
  | addAntispamDomainOverride {n o l} (h : Added (·.domain) o n.overrides l) :
      Changes (.addAntispamDomainOverride o) n { n with overrides := l }
  | updateAntispamDomainOverride {n k o l} (h : Replaced (·.domain) k { o with domain := k } n.overrides l) :
      Changes (.updateAntispamDomainOverride k o) n { n with overrides := l }
  | removeAntispamDomainOverride {n k l} (h : Removed (·.domain) k n.overrides l) :
      Changes (.removeAntispamDomainOverride k) n { n with overrides := l }
  | addSecurityRateLimit {n r l} (h : Added (·.name) r n.rateLimits l) :
      Changes (.addSecurityRateLimit r) n { n with rateLimits := l }
  | removeSecurityRateLimit {n k l} (h : Removed (·.name) k n.rateLimits l) :
      Changes (.removeSecurityRateLimit k) n { n with rateLimits := l }
  | addSecurityProfile {n p l} (h : Added (·.name) p n.securityProfiles l) :
      Changes (.addSecurityProfile p) n { n with securityProfiles := l }
  | updateSecurityProfile {n k p l} (h : Replaced (·.name) k p n.securityProfiles l) :
      Changes (.updateSecurityProfile k p) n { n with securityProfiles := l }
  | removeSecurityProfile {n k l} (h : Removed (·.name) k n.securityProfiles l) :
      Changes (.removeSecurityProfile k) n { n with securityProfiles := l }
  | addLogProfile {n p l} (h : Added (·.name) p n.logProfiles l) :
      Changes (.addLogProfile p) n { n with logProfiles := l }
  | updateLogProfile {n k p l} (h : Replaced (·.name) k p n.logProfiles l) :
      Changes (.updateLogProfile k p) n { n with logProfiles := l }
  | removeLogProfile {n k l} (h : Removed (·.name) k n.logProfiles l) :
      Changes (.removeLogProfile k) n { n with logProfiles := l }
  | other {op n} (h : op.isNamed = false) : Changes op n n

/-- The two operations inside a pool: the first pool of the name gives way to one
of the same name whose backends changed as `R` says. -/
theorem changePool_ok {config : ServerWallConfig} {k : Text}
    {change : List BackendConfig → Result (List BackendConfig)} {missing : Text}
    {R : List BackendConfig → List BackendConfig → Prop} {pools : List BackendPoolConfig}
    (h : changeKeyed (·.name) k (fun pool => change pool.backend >>= fun bs => pure { pool with backend := bs }) missing
      config.backendPool = .ok pools)
    (hc : ∀ {l l'}, change l = .ok l' → R l l') :
    ∃ old new, old ∈ config.backendPool ∧ new.name = k ∧ R old.backend new.backend ∧
      Replaced (·.name) k new config.backendPool pools := by
  obtain ⟨before, old, new, after, hs, hk, hfi, hf, hp⟩ := changeKeyed_eq_ok h
  obtain ⟨backends, hb, rfl⟩ := bind_pure_eq_ok.mp hf
  refine ⟨old, { old with backend := backends }, ?_, hk, hc hb, ?_⟩
  · rw [hs]
    simp
  · exact ⟨before, old, after, hs, hk, hfi, hp⟩

/-- **What each of the seventy operations does to the named lists.** -/
theorem change_changes {config config' : ServerWallConfig}
    (h : op.change u config = .ok config') : Changes op (named config) (named config') := by
  cases op
  case addFrontend | addBackendPool | addWafRuleset | addAntispamDomainOverride | addSecurityRateLimit |
      addSecurityProfile | addLogProfile =>
    obtain ⟨l, hl, rfl⟩ := bind_pure_eq_ok.mp h
    constructor
    exact addUnique_eq_ok.mp hl
  case removeFrontend | removeBackendPool | removeWafRuleset | removeAntispamDomainOverride | removeSecurityRateLimit |
      removeSecurityProfile | removeLogProfile =>
    obtain ⟨l, hl, rfl⟩ := bind_pure_eq_ok.mp h
    constructor
    exact removeKeyed_eq_ok.mp hl
  case updateFrontend | updateBackendPool | updateWafRuleset | updateAntispamDomainOverride | updateSecurityProfile |
      updateLogProfile =>
    obtain ⟨l, hl, rfl⟩ := bind_pure_eq_ok.mp h
    constructor
    exact replaceKeyed_eq_ok hl
  case addBackend =>
    obtain ⟨l, hl, rfl⟩ := bind_pure_eq_ok.mp h
    obtain ⟨old, new, hold, hn, hnew, hrep⟩ := changePool_ok hl addUnique_eq_ok.mp
    exact .addBackend hold hn hnew hrep
  case removeBackend =>
    obtain ⟨l, hl, rfl⟩ := bind_pure_eq_ok.mp h
    obtain ⟨old, new, hold, hn, hnew, hrep⟩ := changePool_ok hl removeKeyed_eq_ok.mp
    exact .removeBackend hold hn hnew hrep
  case setAntispamConfig =>
    cases h
    exact .setAntispamConfig
  -- the others write no named list: the new configuration has the old ones
  all_goals
    first
      | (cases h; exact .other rfl)
      | (obtain ⟨l, -, rfl⟩ := bind_pure_eq_ok.mp h; exact .other rfl)

theorem edited_eq_ok {Octet : Type} {crates : Crates Octet}
    {config config' : ServerWallConfig} (h : edited crates op config = .ok config') :
    op.change crates.unicode config = .ok config' ∧ Valid crates.isNetwork config' := by
  unfold edited at h
  cases hc : op.change crates.unicode config with
  | error e =>
    rw [hc] at h
    cases h
  | ok changed =>
    rw [hc] at h
    obtain ⟨⟨⟩, hv, rfl⟩ := bind_pure_eq_ok.mp h
    exact ⟨rfl, validateConfig_eq_ok.mp hv⟩

/-! ## Distinct names -/

structure UniqueKeys (u : Unicode) (n : Named) : Prop where
  frontends : (n.frontends.map (·.name)).Nodup
  pools : (n.pools.map (·.name)).Nodup
  backends : ∀ p ∈ n.pools, (p.backend.map (·.name)).Nodup
  rulesets : (n.rulesets.map (·.name)).Nodup
  securityProfiles : (n.securityProfiles.map (·.name)).Nodup
  logProfiles : (n.logProfiles.map (·.name)).Nodup
  rateLimits : (n.rateLimits.map (·.name)).Nodup
  overrides : (n.overrides.map fun o => u.toLowercase o.domain).Nodup

def Edit.KeepsKeys (u : Unicode) (n : Named) : Edit → Prop
  | .addBackendPool pool => (pool.backend.map (·.name)).Nodup
  | .updateBackendPool _ pool => (pool.backend.map (·.name)).Nodup
  | .updateSecurityProfile name profile => profile.name = name ∨ profile.name ∉ n.securityProfiles.map (·.name)
  | .updateLogProfile name profile => profile.name = name ∨ profile.name ∉ n.logProfiles.map (·.name)
  | .addAntispamDomainOverride entry => u.toLowercase entry.domain ∉ n.overrides.map fun o => u.toLowercase o.domain
  | .setAntispamConfig antispam => (antispam.domainOverrides.map fun o => u.toLowercase o.domain).Nodup
  | _ => True

section

/-- Distinct names before, one operation, distinct names after exactly under its
condition. One case per operation that touches a named list. -/
theorem Changes.uniqueKeys_iff (h : Changes op n n') (hn : UniqueKeys u n) : UniqueKeys u n' ↔ op.KeepsKeys u n := by
  cases h with
  | addFrontend h => exact iff_of_true { hn with frontends := h.nodup hn.frontends } trivial
  | removeFrontend h => exact iff_of_true { hn with frontends := h.nodup _ hn.frontends } trivial
  | updateFrontend h =>
    have hmap := h.map_eq (g := (·.name)) fun _ hk => hk
    exact iff_of_true { hn with frontends := hmap ▸ hn.frontends } trivial
  | addBackendPool h =>
    have hiff := h.forall_iff hn.backends
    exact ⟨fun h' => hiff.mp h'.backends, fun hb => { hn with pools := h.nodup hn.pools, backends := hiff.mpr hb }⟩
  | removeBackendPool h =>
    refine iff_of_true { hn with pools := h.nodup _ hn.pools, backends := ?_ } trivial
    intro p hp
    exact hn.backends p (h.sublist.subset hp)
  | updateBackendPool h =>
    have hmap := h.map_eq (g := (·.name)) fun _ hk => hk
    have hiff := h.forall_iff hn.backends
    exact ⟨fun h' => hiff.mp h'.backends, fun hb => { hn with pools := hmap ▸ hn.pools, backends := hiff.mpr hb }⟩
  | addBackend hold hna hnew h =>
    have hmap := h.map_eq (g := (·.name)) fun _ hk => hk.trans hna.symm
    have hiff := h.forall_iff hn.backends
    exact iff_of_true { hn with
      pools := hmap ▸ hn.pools, backends := hiff.mpr (hnew.nodup (hn.backends _ hold)) } trivial
  | removeBackend hold hna hnew h =>
    have hmap := h.map_eq (g := (·.name)) fun _ hk => hk.trans hna.symm
    have hiff := h.forall_iff hn.backends
    exact iff_of_true { hn with
      pools := hmap ▸ hn.pools, backends := hiff.mpr (hnew.nodup _ (hn.backends _ hold)) } trivial
  | addWafRuleset h => exact iff_of_true { hn with rulesets := h.nodup hn.rulesets } trivial
  | removeWafRuleset h => exact iff_of_true { hn with rulesets := h.nodup _ hn.rulesets } trivial
  | updateWafRuleset h =>
    have hmap := h.map_eq (g := (·.name)) fun _ hk => hk
    exact iff_of_true { hn with rulesets := hmap ▸ hn.rulesets } trivial
  | setAntispamConfig => exact ⟨fun h' => h'.overrides, fun ho => { hn with overrides := ho }⟩
  | addAntispamDomainOverride h =>
    -- the editor compares the domains letter by letter, the lookup does not
    have hiff := h.nodup_iff fun o => u.toLowercase o.domain
    exact ⟨fun h' => (hiff.mp h'.overrides).2, fun ho => { hn with overrides := hiff.mpr ⟨hn.overrides, ho⟩ }⟩
  | updateAntispamDomainOverride h =>
    have hmap := h.map_eq (g := fun o => u.toLowercase o.domain) fun _ hk => hk ▸ rfl
    exact iff_of_true { hn with overrides := hmap ▸ hn.overrides } trivial
  | removeAntispamDomainOverride h => exact iff_of_true { hn with overrides := h.nodup _ hn.overrides } trivial
  | addSecurityRateLimit h => exact iff_of_true { hn with rateLimits := h.nodup hn.rateLimits } trivial
  | removeSecurityRateLimit h => exact iff_of_true { hn with rateLimits := h.nodup _ hn.rateLimits } trivial
  | addSecurityProfile h => exact iff_of_true { hn with securityProfiles := h.nodup hn.securityProfiles } trivial
  | updateSecurityProfile h =>
    have hiff := h.nodup_iff hn.securityProfiles
    exact ⟨fun h' => hiff.mp h'.securityProfiles, fun hp => { hn with securityProfiles := hiff.mpr hp }⟩
  | removeSecurityProfile h => exact iff_of_true { hn with securityProfiles := h.nodup _ hn.securityProfiles } trivial
  | addLogProfile h => exact iff_of_true { hn with logProfiles := h.nodup hn.logProfiles } trivial
  | updateLogProfile h =>
    have hiff := h.nodup_iff hn.logProfiles
    exact ⟨fun h' => hiff.mp h'.logProfiles, fun hp => { hn with logProfiles := hiff.mpr hp }⟩
  | removeLogProfile h => exact iff_of_true { hn with logProfiles := h.nodup _ hn.logProfiles } trivial
  | other hop =>
    refine iff_of_true hn ?_
    cases op <;> trivial

end

variable {Octet : Type}

/-- **Names stay distinct over an edit that returns `Ok` exactly under the
condition of its operation.** -/
theorem uniqueKeys_edited_iff (crates : Crates Octet) (op : Edit) (config config' : ServerWallConfig)
    (hkeys : UniqueKeys crates.unicode (named config)) (hedit : edited crates op config = .ok config') :
    UniqueKeys crates.unicode (named config') ↔ op.KeepsKeys crates.unicode (named config) :=
  (change_changes (edited_eq_ok hedit).1).uniqueKeys_iff hkeys

def twoProfiles : ServerWallConfig := { securityProfiles := [{ name := "strict" }, { name := "lenient" }] }

theorem twoProfiles_uniqueKeys : UniqueKeys .ascii (named twoProfiles) := by
  constructor <;> decide

/-- An update of one profile with the text of the other is accepted, and then both
have one name: the first is found by it, the second by none. -/
theorem profiles_share_name : UniqueKeys .ascii (named twoProfiles) ∧
      ∃ config', edited .verbatim (.updateSecurityProfile "lenient" { name := "strict" }) twoProfiles = .ok config' ∧
        (config'.securityProfiles.map (·.name)) = [("strict" : Text), ("strict" : Text)] ∧
        ¬ UniqueKeys .ascii (named config') := by
  refine ⟨twoProfiles_uniqueKeys, _, rfl, rfl, ?_⟩
  intro h
  exact absurd h.securityProfiles (by decide)

theorem profiles_keep_names : ∃ config', edited .verbatim (.updateSecurityProfile "lenient" { name := "lenient" })
        twoProfiles = .ok config' ∧ UniqueKeys .ascii (named config') := by
  refine ⟨_, rfl, ?_⟩
  have hiff := uniqueKeys_edited_iff .verbatim
    (.updateSecurityProfile "lenient" { name := "lenient" }) twoProfiles _ twoProfiles_uniqueKeys rfl
  exact hiff.mpr (.inl rfl)

end ServerWall.Core
