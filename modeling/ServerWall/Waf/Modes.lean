import ServerWall.Waf.Score

/-!
# Modes, orders and settings

Two engines on one request. Where blocking blocks, detection logs, since a score only grows; headers,
cookies and groups come out of hash maps, and a sum does not depend on the order (`decision_inspect`,
`score_inspect`); a higher paranoia level and more custom rules only add to it (`asked_builtin`,
`asked_custom`), if a regex set compiles when its patterns do.
-/

namespace ServerWall.Waf

open Schema WafEngine List AnomalyScorer

/-! ## What an inspection comes to -/

section

variable (ext : Externals) (engine : WafEngine) (ctx : HttpRequestContext)

def WafEngine.exempts : Bool := engine.mode = .disabled || engine.isExcluded ctx

def anomalousDecision : WafMode → WafDecision
  | .blocking => .block
  | .detectionOnly => .log
  | .disabled => .allow

def totalPoints : Nat := points (limitHits engine ctx) + points (ruleHits ext engine ctx)

variable {ext engine ctx}

theorem checkLimits_eq : checkLimits engine ctx (.new engine.anomalyThreshold) =
      let scorer := (new engine.anomalyThreshold).addAll (limitHits engine ctx)
      if engine.anomalyThreshold.toNat ≤ points (limitHits engine ctx) ∧ engine.mode = .blocking
      then (some {
        decision := .block
        matchedRules := scorer.matchedRuleIds
        anomalyScore := scorer.currentScore }, scorer)
      else (none, scorer) := by
  unfold checkLimits
  simp only [applyLimits_eq, isAnomalous_addAll, Bool.and_eq_true, decide_eq_true_eq]

theorem evaluateRules_limits : evaluateRules ext engine ctx
        ((new engine.anomalyThreshold).addAll (limitHits engine ctx)) =
      (new engine.anomalyThreshold).addAll (limitHits engine ctx ++ ruleHits ext engine ctx) := by
  rw [evaluateRules_eq, addAll_append]

/-- **An inspection** ends before it begins, with the limits, or with all hits. -/
theorem inspect_eq : inspect ext engine ctx =
      if engine.exempts ctx = true then { decision := .allow, matchedRules := [], anomalyScore := 0 }
      else if engine.anomalyThreshold.toNat ≤ points (limitHits engine ctx) ∧ engine.mode = .blocking
      then
        let scorer := (new engine.anomalyThreshold).addAll (limitHits engine ctx)
        { decision := .block
          matchedRules := scorer.matchedRuleIds
          anomalyScore := scorer.currentScore }
      else renderVerdict engine ((new engine.anomalyThreshold).addAll (limitHits engine ctx ++ ruleHits ext engine ctx)) := by
  unfold inspect exempts
  split
  · rfl
  · rw [checkLimits_eq, ← evaluateRules_limits]
    by_cases hl : engine.anomalyThreshold.toNat ≤ points (limitHits engine ctx) ∧ engine.mode = .blocking
    · simp only [if_pos hl]
    · simp only [if_neg hl]

/-- **The decision** is that of the mode if all points together reach the threshold. -/
theorem decision_inspect : (inspect ext engine ctx).decision = if engine.exempts ctx = true then .allow
      else if engine.anomalyThreshold.toNat ≤ totalPoints ext engine ctx
      then anomalousDecision engine.mode else .allow := by
  rw [inspect_eq]
  split
  · rfl
  · split
    · rename_i hl
      have ht : engine.anomalyThreshold.toNat ≤ totalPoints ext engine ctx :=
        Nat.le_trans hl.1 (Nat.le_add_right _ _)
      rw [if_pos ht, hl.2]
      rfl
    · simp only [renderVerdict, isAnomalous_addAll, points_append, totalPoints, decide_eq_true_eq]
      cases engine.mode <;> rfl

theorem blocked_of_reached (hm : engine.mode = .blocking) (he : engine.exempts ctx = false)
    (hr : engine.anomalyThreshold.toNat ≤ totalPoints ext engine ctx) :
    (inspect ext engine ctx).decision = .block := by
  rw [decision_inspect, he, if_neg (by decide), if_pos hr, hm]
  rfl

/-- **The score**: in blocking mode the limits alone if they reach the threshold, otherwise
all points. -/
theorem score_inspect : (inspect ext engine ctx).anomalyScore.toNat = if engine.exempts ctx = true then 0
      else if engine.anomalyThreshold.toNat ≤ points (limitHits engine ctx) ∧ engine.mode = .blocking
      then min (points (limitHits engine ctx)) maxScore else min (totalPoints ext engine ctx) maxScore := by
  have hz : (new engine.anomalyThreshold).currentScore.toNat = 0 := rfl
  rw [inspect_eq]
  split
  · rfl
  · split
    · simp only [toNat_addAll, hz, Nat.zero_add]
    · simp only [renderVerdict, toNat_addAll, hz, Nat.zero_add, points_append, totalPoints]

end

/-! ## Orders -/

/-- Two contexts of one request, whose maps may iterate differently. -/
structure HttpRequestContext.SameButOrder (ctx ctx' : HttpRequestContext) : Prop where
  headers : ctx.headers.entries.Perm ctx'.headers.entries
  cookies : ctx.cookies.entries.Perm ctx'.cookies.entries
  rest : { ctx with headers := ctx'.headers, cookies := ctx'.cookies } = ctx'

/-- Two engines that differ at most in the order of their groups. -/
structure WafEngine.SameButOrder (engine engine' : WafEngine) : Prop where
  groups : engine.ruleGroups.Perm engine'.ruleGroups
  rest : { engine with ruleGroups := engine'.ruleGroups } = engine'

section

variable {ext : Externals} {engine engine' : WafEngine} {ctx ctx' : HttpRequestContext}

theorem extractTargets_perm (hs : ctx.SameButOrder ctx') (target) :
    (RuleMatcher.extractTargets ext.unicode ext.lossy ctx target).Perm
      (RuleMatcher.extractTargets ext.unicode ext.lossy ctx' target) := by
  have ha : ctx.userAgent = ctx'.userAgent := by
    unfold HttpRequestContext.userAgent
    rw [Fields.get?_perm hs.headers, Fields.get?_perm hs.headers]
  have hr := hs.rest
  cases target with
  | requestUri | path | queryString | requestBody | remoteAddr => rw [← hr]; exact .refl _
  | requestHeaders => exact hs.headers.map _
  | headerValue name => exact (hs.headers.filter _).map _
  | cookies => exact hs.cookies.map _
  | userAgent =>
    show ctx.userAgent.toList.Perm ctx'.userAgent.toList
    rw [ha]

theorem groupHits_perm (hs : ctx.SameButOrder ctx') (group) :
    (groupHits ext ctx group).Perm (groupHits ext ctx' group) := by
  have hv : (valuesOf ext ctx group.targets).Perm (valuesOf ext ctx' group.targets) :=
    List.Perm.flatMap_left _ fun target _ => extractTargets_perm hs target
  exact hv.flatMap_right _

variable (he : engine.SameButOrder engine')
include he

variable (hs : ctx.SameButOrder ctx')
include hs

theorem limitHits_perm : (limitHits engine ctx).Perm (limitHits engine' ctx') := by
  have hl : engine'.limits = engine.limits := by rw [← he.rest]
  have hb : ctx'.bodySize = ctx.bodySize := by rw [← hs.rest]; rfl
  have huri : ctx'.uri = ctx.uri := by rw [← hs.rest]
  have hc : ctx'.headerCount = ctx.headerCount := hs.headers.length_eq.symm
  unfold limitHits
  rw [hl, hb, huri, hc]
  exact (hs.headers.flatMap_right _).append_left _

theorem ruleHits_perm : (ruleHits ext engine ctx).Perm (ruleHits ext engine' ctx') :=
  (List.Perm.flatMap_left _ fun group _ => groupHits_perm hs group).trans (he.groups.flatMap_right _)

/-- **No order matters** to the decision and the score. -/
theorem inspect_order : (inspect ext engine ctx).decision = (inspect ext engine' ctx').decision ∧
      (inspect ext engine ctx).anomalyScore = (inspect ext engine' ctx').anomalyScore := by
  have hl := points_perm (limitHits_perm he hs)
  have hto : totalPoints ext engine ctx = totalPoints ext engine' ctx' := by
    unfold totalPoints
    rw [hl, points_perm (ruleHits_perm he hs)]
  have hm : engine'.mode = engine.mode := by rw [← he.rest]
  have ht : engine'.anomalyThreshold = engine.anomalyThreshold := by rw [← he.rest]
  have hexe : engine'.exempts ctx' = engine.exempts ctx := by
    rw [← he.rest, ← hs.rest]
    rfl
  constructor
  · rw [decision_inspect, decision_inspect, hto, hm, ht, hexe]
  · apply UInt32.toNat_inj.mp
    rw [score_inspect, score_inspect, hl, hto, hm, ht, hexe]

end

/-! ## Modes -/

/-- An engine from its parts: the built-in rules of a level, custom rules and exclusions. -/
def assemble (ext : Externals) (order : MapOrder (Option RuleTarget × List WafRule))
    (mode : WafMode) (threshold : UInt32) (level : UInt8) (limits : RequestLimits)
    (custom : List WafRule) (exclusions : WafExclusions) : WafEngine :=
  { addCustomRules ext order (withConfig ext mode threshold level limits) custom with
    excludedPaths := exclusions.paths
    excludedIps := exclusions.ipAddresses }

theorem assemble_sameButOrder (order order' : MapOrder (Option RuleTarget × List WafRule)) (mode)
    (threshold : UInt32) (level : UInt8) (limits) (custom : List WafRule)
    (exclusions) :
    (assemble ext order mode threshold level limits custom exclusions).SameButOrder
      (assemble ext order' mode threshold level limits custom exclusions) where
  groups := (((order.perm _).trans (order'.perm _).symm).filterMap _).append_left _
  rest := rfl

/-- **Modes and orders.** -/
theorem modes_agree (ext : Externals) (threshold : UInt32) (level : UInt8)
    (limits : RequestLimits) (custom : List WafRule) (exclusions : WafExclusions)
    (order : MapOrder (Option RuleTarget × List WafRule)) (ctx : HttpRequestContext) :
    let engine (order : MapOrder (Option RuleTarget × List WafRule)) (mode : WafMode) :=
      assemble ext order mode threshold level limits custom exclusions
    ((inspect ext (engine order .blocking) ctx).decision = .block ↔
      (inspect ext (engine order .detectionOnly) ctx).decision = .log) ∧
    ((inspect ext (engine order .blocking) ctx).decision ≠ .block →
      (inspect ext (engine order .blocking) ctx).decision = .allow ∧
        (inspect ext (engine order .detectionOnly) ctx).decision = .allow) ∧
    ∀ (order' : MapOrder (Option RuleTarget × List WafRule)) (ctx' : HttpRequestContext)
      (mode : WafMode), ctx.SameButOrder ctx' →
      (inspect ext (engine order mode) ctx).decision = (inspect ext (engine order' mode) ctx').decision ∧
        (inspect ext (engine order mode) ctx).anomalyScore =
          (inspect ext (engine order' mode) ctx').anomalyScore := by
  intro engine
  have hblocking : (inspect ext (engine order .blocking) ctx).decision = _ := decision_inspect
  have hdetection : (inspect ext (engine order .detectionOnly) ctx).decision = _ := decision_inspect
  -- everything but the mode is the same
  have hexempts : (engine order .detectionOnly).exempts ctx = (engine order .blocking).exempts ctx := rfl
  have htotal : totalPoints ext (engine order .detectionOnly) ctx =
      totalPoints ext (engine order .blocking) ctx := rfl
  have hthreshold : (engine order .detectionOnly).anomalyThreshold =
      (engine order .blocking).anomalyThreshold := rfl
  rw [hexempts, htotal, hthreshold] at hdetection
  refine ⟨?_, ?_, fun order' ctx' mode hsame => inspect_order (assemble_sameButOrder order order' _ _ _ _ _ _) hsame⟩
  · rw [hblocking, hdetection]
    split
    · simp
    · split <;> simp [anomalousDecision, engine, assemble, addCustomRules, withConfig]
  · rw [hblocking, hdetection]
    split
    · simp
    · split <;> simp [anomalousDecision, engine, assemble, addCustomRules, withConfig]

def healthRequest (names : List Text) : HttpRequestContext :=
  .fromParts .ascii "GET" "/health" (.ofPairs (names.map fun name => (name, "1"))) [] (.v4 192 0 2 1) none

theorem health_allowed :
    let engine (mode : WafMode) :=
      assemble .simple .asMade mode 5 1 {} [] { paths := ["/health"] }
    let ctx := healthRequest ["a", "b"]
    let ctx' := healthRequest ["b", "a"]
    (inspect .simple (engine .blocking) ctx).decision = .allow ∧
      (inspect .simple (engine .detectionOnly) ctx).decision = .allow ∧
      (inspect .simple (engine .blocking) ctx').decision = .allow := by
  have hagree := modes_agree .simple 5 1 {} [] { paths := ["/health"] } .asMade (healthRequest ["a", "b"])
  have hsame : (healthRequest ["a", "b"]).SameButOrder (healthRequest ["b", "a"]) :=
    ⟨by decide, by decide, rfl⟩
  obtain ⟨hblocking, hdetection⟩ := hagree.2.1 (by decide +kernel)
  exact ⟨hblocking, hdetection, (hagree.2.2 .asMade _ .blocking hsame).1.symm.trans hblocking⟩

/-! ## Settings -/

section

variable {ext : Externals} {ctx : HttpRequestContext}

theorem head_builtin (hr : rule ∈ builtinRules level) :
    ((builtinRules level).head?.map (·.targets)).getD [] = sqlInjectionTargets := by
  have hl : (1 : UInt8) ≤ level := by
    have hall : ∀ r ∈ allBuiltinRules, (1 : UInt8) ≤ r.paranoiaLevel := by decide
    have ha : rule.paranoiaLevel ≤ level := by simpa using (mem_filter.mp hr).2
    exact UInt8.le_trans (hall rule (mem_filter.mp hr).1) ha
  obtain ⟨first, rest, hc, hf, ht⟩ : ∃ first rest, allBuiltinRules = first :: rest ∧
      first.paranoiaLevel = 1 ∧ first.targets = sqlInjectionTargets := ⟨_, _, rfl, rfl, rfl⟩
  unfold builtinRules
  rw [hc, filter_cons_of_pos (by simpa [hf] using hl)]
  exact ht

theorem custom_target (hr : rule ∈ RuleParser.fromRulesetConfig ext.unicode dirs config) :
    ∃ target, rule.targets = [target] := by
  obtain ⟨custom, hc⟩ := converted_of_custom hr
  obtain ⟨target, -, rfl⟩ := Option.map_eq_some_iff.mp hc
  exact ⟨target, rfl⟩

theorem head_custom {rules : List WafRule} (hone : ∀ other ∈ rules, ∃ target, other.targets = [target]) (hr : rule ∈ rules) :
    (((rules.filter fun other => other.targets.head? = rule.targets.head?).head?).map (·.targets)).getD [] =
      rule.targets := by
  have hmem : rule ∈ rules.filter fun other => other.targets.head? = rule.targets.head? := mem_filter.mpr ⟨hr, by simp⟩
  cases hg : rules.filter fun other => other.targets.head? = rule.targets.head? with
  | nil =>
    rw [hg] at hmem
    cases hmem
  | cons first rest =>
    have hf : first ∈ rules.filter fun other => other.targets.head? = rule.targets.head? := hg ▸ mem_cons_self
    obtain ⟨hin, hh⟩ := mem_filter.mp hf
    obtain ⟨target, ht⟩ := hone first hin
    obtain ⟨target', ht'⟩ := hone rule hr
    have hs : first.targets.head? = rule.targets.head? := by simpa using hh
    rw [ht, ht'] at hs
    show first.targets = rule.targets
    rw [ht, ht', Option.some.inj hs]

theorem sum_sublist {α : Type} {l l' : List α} (h : l.Sublist l') (f : α → Nat) : (l.map f).sum ≤ (l'.map f).sum :=
  (h.map f).sum_le_sum fun _ _ => Nat.zero_le _

theorem builtinRules_sublist (h : level ≤ level') : (builtinRules level).Sublist (builtinRules level') :=
  monotone_filter_right _ fun rule hr => by
    have ha : rule.paranoiaLevel ≤ level := by simpa using hr
    simpa using UInt8.le_trans ha h

variable (hset : ∀ patterns, (∀ p ∈ patterns, (ext.regexes.regex p).isSome = true) →
  ext.regexes.setCompiles patterns = true)

include hset

/-- A rule whose pattern compiles is tried on the
targets of the first rule of its group. -/
theorem asked_of_valid (hru : rule ∈ rules) (hv : (ext.regexes.regex rule.pattern).isSome) :
    askedTargets ext.regexes rules = (rules.head?.map (·.targets)).getD [] := by
  cases rules with
  | nil => cases hru
  | cons first rest =>
    have hn : ((first :: rest).filter fun r => (ext.regexes.regex r.pattern).isSome).isEmpty = false := by
      rw [isEmpty_eq_false_iff]
      exact ne_nil_of_mem (mem_filter.mpr ⟨hru, hv⟩)
    have hc : ext.regexes.setCompiles (((first :: rest).filter fun r => (ext.regexes.regex r.pattern).isSome).map (·.pattern)) = true := by
      apply hset
      intro p hp
      obtain ⟨r, hr, rfl⟩ := mem_map.mp hp
      exact (mem_filter.mp hr).2
    unfold askedTargets CompiledRuleGroup.compile
    simp only [hn, hc]
    split <;> rfl

theorem weightOn_asked (hr : rule ∈ rules) (chain : List Transformation) :
    weightOn ext ctx chain rule (askedTargets ext.regexes rules) =
      weightOn ext ctx chain rule ((rules.head?.map (·.targets)).getD []) := by
  cases hv : (ext.regexes.regex rule.pattern).isSome with
  | true => rw [asked_of_valid hset hr hv]
  | false => rw [weightOn_invalid hv, weightOn_invalid hv]

variable (dirs : Text → Option (List RuleParser.RuleFile))
include dirs

/-- **All points of the rules**, where sets compile with their patterns: the built-in rules on
the targets of the first, the custom rules on their own. -/
theorem askedPoints_eq (config) :
    askedPoints ext ctx (sightings ext.regexes (builtinRules config.paranoiaLevel)
        (RuleParser.fromRulesetConfig ext.unicode dirs config)) =
      ((builtinRules config.paranoiaLevel).map fun rule =>
        weightOn ext ctx rule.transformations rule sqlInjectionTargets).sum +
      describedPoints ext ctx (RuleParser.fromRulesetConfig ext.unicode dirs config) := by
  unfold askedPoints sightings describedPoints
  rw [map_append, sum_append, map_map, map_map]
  congr 2
  · apply map_congr_left
    intro rule hr
    simp only [Function.comp, weightOn_asked hset hr, head_builtin hr]
  · apply map_congr_left
    intro rule hr
    have hmem : rule ∈ (RuleParser.fromRulesetConfig ext.unicode dirs config).filter
        fun other => other.targets.head? = rule.targets.head? :=
      mem_filter.mpr ⟨hr, by simp⟩
    simp only [Function.comp, weightOn_asked hset hmem, head_custom (fun _ => custom_target) hr]

theorem described_le_totalPoints (config) :
    describedPoints ext ctx (RuleParser.fromRulesetConfig ext.unicode dirs config) ≤
      totalPoints ext (fromRulesetConfig ext order dirs config) ctx := by
  unfold totalPoints
  rw [points_ruleHits, askedPoints_eq hset]
  omega

end

/-- **Stricter settings block no less.** -/
theorem blocked_of_stricter (ext : Externals)
    (hset : ∀ patterns, (∀ p ∈ patterns, (ext.regexes.regex p).isSome = true) →
      ext.regexes.setCompiles patterns = true) (order order' : MapOrder (Option RuleTarget × List WafRule))
    (dirs dirs' : Text → Option (List RuleParser.RuleFile)) (config config' : WafRulesetConfig)
    (hmode : config'.mode = config.mode) (hexclusions : config'.exclusions = config.exclusions)
    (hlevel : config.paranoiaLevel ≤ config'.paranoiaLevel)
    (hthreshold : config'.anomalyThreshold ≤ config.anomalyThreshold)
    (hrules : (RuleParser.fromRulesetConfig ext.unicode dirs config).Sublist
      (RuleParser.fromRulesetConfig ext.unicode dirs' config')) (ctx : HttpRequestContext)
    (hblocked : (inspect ext (fromRulesetConfig ext order dirs config) ctx).decision = .block) :
    (inspect ext (fromRulesetConfig ext order' dirs' config') ctx).decision = .block := by
  have hpoints : totalPoints ext (fromRulesetConfig ext order dirs config) ctx ≤
      totalPoints ext (fromRulesetConfig ext order' dirs' config') ctx := by
    unfold totalPoints
    rw [points_ruleHits, points_ruleHits, askedPoints_eq hset, askedPoints_eq hset]
    have hbuiltin := sum_sublist (builtinRules_sublist hlevel) fun rule =>
      weightOn ext ctx rule.transformations rule sqlInjectionTargets
    have hcustom := sum_sublist hrules fun rule =>
      weightOn ext ctx rule.transformations rule rule.targets
    have hlimits : points (limitHits (fromRulesetConfig ext order dirs config) ctx) =
        points (limitHits (fromRulesetConfig ext order' dirs' config') ctx) := rfl
    unfold describedPoints
    omega
  have hexempts : (fromRulesetConfig ext order' dirs' config').exempts ctx =
      (fromRulesetConfig ext order dirs config).exempts ctx := by
    unfold exempts isExcluded fromRulesetConfig addCustomRules withConfig
    simp only [hmode, hexclusions]
  have hmode' : (fromRulesetConfig ext order' dirs' config').mode =
      (fromRulesetConfig ext order dirs config).mode := hmode
  have hreached : config'.anomalyThreshold.toNat ≤ config.anomalyThreshold.toNat := hthreshold
  rw [decision_inspect] at hblocked ⊢
  rw [hexempts, hmode']
  split at hblocked
  · cases hblocked
  · split at hblocked
    · rename_i hnot hanomalous
      have hanomalous' : config.anomalyThreshold.toNat ≤
          totalPoints ext (fromRulesetConfig ext order dirs config) ctx := hanomalous
      rw [if_neg hnot, if_pos]
      · exact hblocked
      · show config'.anomalyThreshold.toNat ≤ _
        omega
    · cases hblocked

/-- A ruleset with a rule of its own, and a stricter one with one more. -/
def oneRule : WafRulesetConfig where
  name := "waf"
  customRules := [ { id := 1, description := "probe", matchField := "uri", operator := "contains", pattern := "evil" }]

def twoRules : WafRulesetConfig where
  name := "waf"
  anomalyThreshold := 3
  paranoiaLevel := 2
  customRules := oneRule.customRules ++ [ { id := 2, description := "agent", matchField := "ua", operator := "contains", pattern := "bot" }]

def evilRequest : HttpRequestContext := .fromParts .ascii "GET" "/evil" .empty [] (.v4 192 0 2 1) none

theorem parsed_sets (tables) (patterns : List Text)
    (h : ∀ p ∈ patterns, ((Regexes.parsed tables).regex p).isSome) :
    (Regexes.parsed tables).setCompiles patterns := by
  refine all_eq_true.mpr fun p hp => ?_
  have hs : ((Regex.parse p).map (Regex.isMatch tables)).isSome = true := h p hp
  rwa [Option.isSome_map] at hs

theorem evil_blocked : (inspect .simple (fromRulesetConfig .simple .asMade (fun _ => none) oneRule) evilRequest).decision = .block := by
  have hc : oneRule.anomalyThreshold.toNat ≤ describedPoints .simple evilRequest
      (RuleParser.fromRulesetConfig Externals.simple.unicode (fun _ => none) oneRule) := by
    decide +kernel
  exact blocked_of_reached rfl (by decide +kernel)
    (Nat.le_trans hc (described_le_totalPoints (parsed_sets .ascii) _ _))

theorem evil_blocked_stricter : (inspect .simple (fromRulesetConfig .simple .asMade (fun _ => none) twoRules) evilRequest).decision = .block := by
  refine blocked_of_stricter .simple (parsed_sets .ascii) .asMade .asMade (fun _ => none)
    (fun _ => none) oneRule twoRules rfl rfl (by decide) (by decide) ?_ evilRequest evil_blocked
  refine List.Sublist.append ?_ (List.Sublist.refl _)
  exact (sublist_append_left _ _).filterMap _

end ServerWall.Waf
