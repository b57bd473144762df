import ServerWall.Core.Keys

/-!
# References between named entries

Frontends name pools, profiles and rulesets, security profiles name rulesets. The validator looks at the
pools only; names that lead nowhere are expected by the daemon ("security profile not found; falling
back to global settings"). `intact_edited_iff` says when an edit keeps all references.
-/

namespace ServerWall.Core

open Schema
open Keyed

def PoolsExist (n : Named) : Prop := Refers (fun f => [f.backendPool]) n.frontends (n.pools.map (·.name))

instance (n : Named) : Decidable (PoolsExist n) := inferInstanceAs (Decidable (Refers _ n.frontends _))

structure Intact (n : Named) : Prop where
  pools : PoolsExist n
  securityProfiles : Refers (·.securityProfile.toList) n.frontends (n.securityProfiles.map (·.name))
  logProfiles : Refers (·.logProfile.toList) n.frontends (n.logProfiles.map (·.name))
  rulesets : Refers (·.wafRuleset.toList) n.frontends (n.rulesets.map (·.name))
  profileRulesets : Refers (·.wafRuleset.toList) n.securityProfiles (n.rulesets.map (·.name))

structure FrontendRefers (n : Named) (frontend : FrontendConfig) : Prop where
  securityProfile : ∀ k ∈ frontend.securityProfile.toList, k ∈ n.securityProfiles.map (·.name)
  logProfile : ∀ k ∈ frontend.logProfile.toList, k ∈ n.logProfiles.map (·.name)
  ruleset : ∀ k ∈ frontend.wafRuleset.toList, k ∈ n.rulesets.map (·.name)

def Edit.KeepsReferences (n : Named) : Edit → Prop
  | .addFrontend frontend => FrontendRefers n frontend
  | .updateFrontend _ frontend => FrontendRefers n frontend
  | .addSecurityProfile profile => ∀ k ∈ profile.wafRuleset.toList, k ∈ n.rulesets.map (·.name)
  | .updateSecurityProfile name profile =>
      (∀ k ∈ profile.wafRuleset.toList, k ∈ n.rulesets.map (·.name)) ∧
        (profile.name = name ∨ 2 ≤ (n.securityProfiles.map (·.name)).count name ∨
          ∀ f ∈ n.frontends, name ∉ f.securityProfile.toList)
  | .updateLogProfile name profile =>
      profile.name = name ∨ 2 ≤ (n.logProfiles.map (·.name)).count name ∨ ∀ f ∈ n.frontends, name ∉ f.logProfile.toList
  | .removeSecurityProfile name => ∀ f ∈ n.frontends, name ∉ f.securityProfile.toList
  | .removeLogProfile name => ∀ f ∈ n.frontends, name ∉ f.logProfile.toList
  | .removeWafRuleset name =>
      (∀ f ∈ n.frontends, name ∉ f.wafRuleset.toList) ∧ ∀ p ∈ n.securityProfiles, name ∉ p.wafRuleset.toList
  | _ => True

section

/-- Frontends with a new one among them refer to what exists if the new one does.
`hall` is the rule of the list operation that brought the frontend in. -/
theorem intact_frontends_iff {l : List FrontendConfig} (hn : Intact n) (hp : PoolsExist { n with frontends := l })
    (hall : ∀ {P : FrontendConfig → Prop}, (∀ g ∈ n.frontends, P g) → ((∀ g ∈ l, P g) ↔ P f)) :
    Intact { n with frontends := l } ↔ FrontendRefers n f := by
  have hs := hall hn.securityProfiles
  have hlog := hall hn.logProfiles
  have hr := hall hn.rulesets
  constructor
  · intro h
    exact ⟨hs.mp h.securityProfiles, hlog.mp h.logProfiles, hr.mp h.rulesets⟩
  · intro h
    exact { hn with
      pools := hp
      securityProfiles := hs.mpr h.securityProfile
      logProfiles := hlog.mpr h.logProfile
      rulesets := hr.mpr h.ruleset }

/-- Intact references before, one operation, intact references after exactly under
its condition. That the pools exist is what validation adds. -/
theorem Changes.intact_iff (h : Changes op n n') (hn : Intact n)
    (hpo : PoolsExist n') : Intact n' ↔ op.KeepsReferences n := by
  cases h with
  | addFrontend h => exact intact_frontends_iff hn hpo h.forall_iff
  | updateFrontend h =>
    -- the name the update sets is not one of the references
    have hiff := intact_frontends_iff hn hpo h.forall_iff
    exact hiff.trans ⟨fun h => ⟨h.1, h.2, h.3⟩, fun h => ⟨h.1, h.2, h.3⟩⟩
  | removeFrontend h =>
    have hsub := h.sublist.subset
    exact iff_of_true { hn with
      pools := hpo
      securityProfiles := fun f hf => hn.securityProfiles f (hsub hf)
      logProfiles := fun f hf => hn.logProfiles f (hsub hf)
      rulesets := fun f hf => hn.rulesets f (hsub hf) } trivial
  | addWafRuleset h =>
    exact iff_of_true { hn with
      rulesets := hn.rulesets.mono h.keys_subset
      profileRulesets := hn.profileRulesets.mono h.keys_subset } trivial
  | removeWafRuleset h =>
    have hfr := h.refers_iff hn.rulesets
    have hpr := h.refers_iff hn.profileRulesets
    exact ⟨fun h' => ⟨hfr.mp h'.rulesets, hpr.mp h'.profileRulesets⟩, fun hc => { hn with
        rulesets := hfr.mpr hc.1
        profileRulesets := hpr.mpr hc.2 }⟩
  | updateWafRuleset h =>
    have hmap := h.map_eq (g := (·.name)) fun _ hk => hk
    exact iff_of_true { hn with
      rulesets := hmap ▸ hn.rulesets
      profileRulesets := hmap ▸ hn.profileRulesets } trivial
  | addSecurityProfile h =>
    have hnew := h.forall_iff hn.profileRulesets
    exact ⟨fun h' => hnew.mp h'.profileRulesets, fun hc => { hn with
        securityProfiles := hn.securityProfiles.mono h.keys_subset
        profileRulesets := hnew.mpr hc }⟩
  | updateSecurityProfile h =>
    have hnew := h.forall_iff hn.profileRulesets
    have hu := h.refers_iff hn.securityProfiles
    exact ⟨fun h' => ⟨hnew.mp h'.profileRulesets, hu.mp h'.securityProfiles⟩, fun hc => { hn with
        securityProfiles := hu.mpr hc.2
        profileRulesets := hnew.mpr hc.1 }⟩
  | removeSecurityProfile h =>
    have hu := h.refers_iff hn.securityProfiles
    exact ⟨fun h' => hu.mp h'.securityProfiles, fun hc => { hn with
        securityProfiles := hu.mpr hc
        profileRulesets := fun p hp => hn.profileRulesets p (h.sublist.subset hp) }⟩
  | addLogProfile h => exact iff_of_true { hn with logProfiles := hn.logProfiles.mono h.keys_subset } trivial
  | updateLogProfile h | removeLogProfile h =>
    have hu := h.refers_iff hn.logProfiles
    exact ⟨fun h' => hu.mp h'.logProfiles, fun hc => { hn with logProfiles := hu.mpr hc }⟩
  | other hop =>
    refine iff_of_true hn ?_
    cases op <;> trivial
  -- pools, backends, overrides and rate limits are in no other reference
  | _ => exact iff_of_true { hn with pools := hpo } trivial

end

theorem Valid.poolsExist {isNetwork : Text → Bool} {config : ServerWallConfig}
    (h : Valid isNetwork config) : PoolsExist (named config) := by
  intro f hf k hk
  have hp := validateFrontend_pool (h.frontends f hf)
  rwa [List.mem_singleton.mp hk]

variable {Octet : Type}

/-- **An edit that returns `Ok` keeps the pools of all frontends in place, and all
other references exactly under the condition of its operation.** -/
theorem intact_edited_iff (crates : Crates Octet) (op : Edit) (config config' : ServerWallConfig)
    (hintact : Intact (named config)) (hedit : edited crates op config = .ok config') :
    PoolsExist (named config') ∧ (Intact (named config') ↔ op.KeepsReferences (named config)) := by
  obtain ⟨hchange, hvalid⟩ := edited_eq_ok hedit
  exact ⟨hvalid.poolsExist, (change_changes hchange).intact_iff hintact hvalid.poolsExist⟩

def guarded : ServerWallConfig where
  frontend := [{
    name := "shop", protocol := .https, listen := ["0.0.0.0:443"], backendPool := "web"
    tlsCert := some "shop.pem", securityProfile := some "strict" }]
  backendPool := [{ name := "web", backend := [{ name := "one", address := "10.0.0.1:80" }] }]
  securityProfiles := [{ name := "strict", wafEnabled := true }, { name := "spare" }]

theorem guarded_intact : Intact (named guarded) := by
  constructor <;> decide

theorem profile_removed_in_use : Intact (named guarded) ∧
      ∃ config', edited .verbatim (.removeSecurityProfile "strict") guarded = .ok config' ∧
        config'.frontend.map (·.securityProfile) = [some ("strict" : Text)] ∧
        config'.securityProfiles.map (·.name) = [("spare" : Text)] ∧ ¬ Intact (named config') := by
  refine ⟨guarded_intact, _, rfl, rfl, rfl, ?_⟩
  intro h
  exact absurd h.securityProfiles (by decide)

theorem profile_removed_unused : ∃ config', edited .verbatim (.removeSecurityProfile "spare") guarded = .ok config' ∧
      Intact (named config') := by
  refine ⟨_, rfl, ?_⟩
  have hiff := intact_edited_iff .verbatim (.removeSecurityProfile "spare") guarded _ guarded_intact rfl
  have hunused : ∀ f ∈ (named guarded).frontends, ("spare" : Text) ∉ f.securityProfile.toList := by decide
  exact hiff.2.mpr hunused

end ServerWall.Core
