import Mathlib.Algebra.Order.BigOperators.Group.List
import ServerWall.Waf.Builtin

/-!
# The WAF engine

`serverwall-waf/src/engine.rs` and `anomaly.rs`: the active built-in rules in one group, the custom rules in
one for each target. A request scores five points for each limit it exceeds, and a rule's score for each
value of the group's targets on which it matches (`limitHits`, `ruleHits`, `toNat_addAll`). The order of the
map of custom rules is a parameter (`MapOrder`).
-/

namespace ServerWall.Waf

open Schema List

/-! ## Scores -/

def maxScore : Nat := 2 ^ 32 - 1

def saturatingAdd (a b : UInt32) : UInt32 := .ofNat (min (a.toNat + b.toNat) maxScore)

@[simp] theorem toNat_saturatingAdd (a b : UInt32) : (saturatingAdd a b).toNat = min (a.toNat + b.toNat) maxScore := by
  have hlt : min (a.toNat + b.toNat) maxScore < UInt32.size := Nat.lt_of_le_of_lt (Nat.min_le_right _ _) (by decide)
  exact UInt32.toNat_ofNat_of_lt' hlt

theorem toNat_le_maxScore (a : UInt32) : a.toNat ≤ maxScore := by
  have := a.toNat_lt
  unfold maxScore
  omega

structure AnomalyScorer where
  (threshold currentScore : UInt32)
  matchedRuleIds : List Text

namespace AnomalyScorer

def new (threshold : UInt32) : AnomalyScorer where
  threshold := threshold
  currentScore := 0
  matchedRuleIds := []

def addMatch (scorer : AnomalyScorer) (ruleId : Text) (score : UInt32) : AnomalyScorer := { scorer with
    currentScore := saturatingAdd scorer.currentScore score
    matchedRuleIds := scorer.matchedRuleIds ++ [ruleId] }

def isAnomalous (scorer : AnomalyScorer) : Bool := scorer.threshold ≤ scorer.currentScore

end AnomalyScorer

inductive WafDecision where
  | allow
  | block
  | log
  | redirect (url : Text)
  | challenge
  deriving DecidableEq

def WafDecision.isBlocked : WafDecision → Bool
  | .block => true
  | _ => false

structure WafVerdict where
  decision : WafDecision
  matchedRules : List Text
  anomalyScore : UInt32

/-! ## The engine -/

structure RequestLimits where
  maxBodySize : Nat := 10 * 1024 * 1024
  maxHeaderCount : Nat := 100
  (maxHeaderValueLen maxUriLength : Nat := 8192)

structure WafEngine where
  mode : WafMode
  anomalyThreshold : UInt32
  paranoiaLevel : UInt8
  ruleGroups : List CompiledRuleGroup
  limits : RequestLimits
  /-- Prefixes of paths that bypass the inspection. -/
  excludedPaths : List Text
  excludedIps : List Text

structure Externals where
  unicode : Unicode
  /-- `String::from_utf8_lossy`. -/
  lossy : Bytes → Text
  regexes : Regexes

structure MapOrder (α : Type) where
  arrange : List α → List α
  perm : ∀ l, (arrange l).Perm l

def MapOrder.asMade {α : Type} : MapOrder α := ⟨id, fun l => .refl l⟩

/-- Custom rules by their first target. The key is that target's `Debug` text. -/
def byTarget (rules : List WafRule) : List (Option RuleTarget × List WafRule) :=
  (rules.map (·.targets.head?)).dedup.map fun target =>
    (target, rules.filter fun rule => rule.targets.head? = target)

namespace WafEngine

section

variable (ext : Externals)

def withConfig (mode : WafMode) (anomalyThreshold : UInt32) (paranoiaLevel : UInt8)
    (limits : RequestLimits) : WafEngine where
  mode := mode
  anomalyThreshold := anomalyThreshold
  paranoiaLevel := paranoiaLevel
  ruleGroups := (CompiledRuleGroup.compile ext.regexes (allBuiltinRules.filter fun rule => rule.paranoiaLevel ≤ paranoiaLevel)).toList
  limits := limits
  excludedPaths := []
  excludedIps := []

def new (mode : WafMode) : WafEngine := withConfig ext mode 5 1 {}

def addCustomRules (order : MapOrder (Option RuleTarget × List WafRule)) (engine : WafEngine)
    (rules : List WafRule) : WafEngine :=
  { engine with
    ruleGroups := engine.ruleGroups ++ (order.arrange (byTarget rules)).filterMap fun entry =>
        CompiledRuleGroup.compile ext.regexes entry.2 }

/-- An engine from a ruleset. Without custom rules `add_custom_rules` is not called, which
makes no difference. -/
def fromRulesetConfig (order : MapOrder (Option RuleTarget × List WafRule))
    (dirs : Text → Option (List RuleParser.RuleFile)) (config : WafRulesetConfig) : WafEngine :=
  let engine := withConfig ext config.mode config.anomalyThreshold config.paranoiaLevel {}
  { addCustomRules ext order engine (RuleParser.fromRulesetConfig ext.unicode dirs config) with
    excludedPaths := config.exclusions.paths
    excludedIps := config.exclusions.ipAddresses }

end

/-! ## Inspection -/

section

variable (ext : Externals) (engine : WafEngine) (ctx : HttpRequestContext)

def penalise (exceeded : Bool) (name : Text) (scorer : AnomalyScorer) : AnomalyScorer :=
  if exceeded then scorer.addMatch name 5 else scorer

def applyLimits (scorer : AnomalyScorer) : AnomalyScorer :=
  let limits := engine.limits
  let scorer := penalise (0 < limits.maxBodySize && limits.maxBodySize < ctx.bodySize) "LIMIT:body_size" scorer
  let scorer := penalise (limits.maxHeaderCount < ctx.headerCount) "LIMIT:header_count" scorer
  let scorer := penalise (limits.maxUriLength < ctx.uri.len) "LIMIT:uri_length" scorer
  ctx.headers.entries.foldl (fun scorer e =>
    penalise (limits.maxHeaderValueLen < e.2.len) (Text.fmt ["LIMIT:header_value_len:", e.1]) scorer) scorer

/-- Phase 1: the scorer after the limits, and the verdict if that settles it. -/
def checkLimits (scorer : AnomalyScorer) : Option WafVerdict × AnomalyScorer :=
  let scorer := applyLimits engine ctx scorer
  if scorer.isAnomalous && engine.mode = .blocking then
    (some {
      decision := .block
      matchedRules := scorer.matchedRuleIds
      anomalyScore := scorer.currentScore }, scorer)
  else (none, scorer)

/-- One group on one value: the rules at the indices that match. -/
def evaluateValue (group : CompiledRuleGroup) (transformed : Text) (scorer : AnomalyScorer) :
    AnomalyScorer :=
  (group.matches ext.regexes transformed).foldl (fun scorer idx =>
    match group.rules[idx]? with
    | some rule => scorer.addMatch (Text.fmt [Text.dec rule.id.toNat, ":", rule.description]) rule.score
    | none => scorer) scorer

/-- One group: the values of its targets, through the transformations of its first rule. -/
def evaluateGroup (scorer : AnomalyScorer) (group : CompiledRuleGroup) : AnomalyScorer :=
  match group.rules with
  | [] => scorer
  | first :: _ =>
    (group.targets.flatMap (RuleMatcher.extractTargets ext.unicode ext.lossy ctx)).foldl
      (fun scorer value => evaluateValue ext group
        (RuleMatcher.applyTransformations ext.unicode value first.transformations) scorer) scorer

def evaluateRules (scorer : AnomalyScorer) : AnomalyScorer := engine.ruleGroups.foldl (evaluateGroup ext ctx) scorer

def renderVerdict (scorer : AnomalyScorer) : WafVerdict where
  decision :=
    if scorer.isAnomalous then
      match engine.mode with
      | .blocking => .block
      | .detectionOnly => .log
      | .disabled => .allow
    else .allow
  matchedRules := scorer.matchedRuleIds
  anomalyScore := scorer.currentScore

def isExcluded : Bool := engine.excludedIps.any (· == ctx.remoteAddr.toText) ||
    engine.excludedPaths.any fun p => p.isPrefixOf ctx.path

def inspect : WafVerdict :=
  if engine.mode = .disabled || engine.isExcluded ctx then
    { decision := .allow, matchedRules := [], anomalyScore := 0 }
  else
    match checkLimits engine ctx (.new engine.anomalyThreshold) with
    | (some verdict, _) => verdict
    | (none, scorer) => renderVerdict engine (evaluateRules ext engine ctx scorer)

end

end WafEngine

/-! ## Hits -/

abbrev Hit := Text × UInt32

def points (hits : List Hit) : Nat := (hits.map fun hit => hit.2.toNat).sum

@[simp] theorem points_nil : points [] = 0 := rfl

@[simp] theorem points_append (hits hits' : List Hit) : points (hits ++ hits') = points hits + points hits' := by
  simp [points]

theorem points_perm (h : hits.Perm hits') : points hits = points hits' := (h.map _).sum_eq

namespace AnomalyScorer

def addAll (scorer : AnomalyScorer) (hits : List Hit) : AnomalyScorer :=
  hits.foldl (fun scorer hit => scorer.addMatch hit.1 hit.2) scorer

variable (scorer : AnomalyScorer)
include scorer

@[simp] theorem addAll_nil : scorer.addAll [] = scorer := rfl

theorem addAll_append (hits hits' : List Hit) : scorer.addAll (hits ++ hits') = (scorer.addAll hits).addAll hits' := foldl_append

@[simp] theorem threshold_addAll (hits : List Hit) : (scorer.addAll hits).threshold = scorer.threshold := by
  induction hits generalizing scorer with
  | nil => rfl
  | cons hit hits ih => exact ih (scorer.addMatch hit.1 hit.2)

/-- **A scorer holds the sum of its hits**, or the largest score there is. -/
theorem toNat_addAll (hits : List Hit) : (scorer.addAll hits).currentScore.toNat =
      min (scorer.currentScore.toNat + points hits) maxScore := by
  induction hits generalizing scorer with
  | nil => simp [Nat.min_eq_left (toNat_le_maxScore _)]
  | cons hit hits ih =>
    have hs := ih (scorer.addMatch hit.1 hit.2)
    have hc : points (hit :: hits) = hit.2.toNat + points hits := by simp [points]
    rw [hc]
    refine hs.trans ?_
    show min ((saturatingAdd scorer.currentScore hit.2).toNat + points hits) maxScore = _
    rw [toNat_saturatingAdd]
    omega

omit scorer

theorem isAnomalous_addAll (threshold : UInt32) (hits : List Hit) :
    ((new threshold).addAll hits).isAnomalous = decide (threshold.toNat ≤ points hits) := by
  have hb := toNat_le_maxScore threshold
  have hs := toNat_addAll (new threshold) hits
  have hz : (new threshold).currentScore.toNat = 0 := rfl
  have ht : ((new threshold).addAll hits).threshold = threshold := threshold_addAll _ _
  unfold isAnomalous
  rw [decide_eq_decide, UInt32.le_iff_toNat_le, hs, ht, hz]
  omega

end AnomalyScorer

namespace WafEngine

variable (ext : Externals) (engine : WafEngine) (ctx : HttpRequestContext)

def penalty (exceeded : Bool) (name : Text) : List Hit := if exceeded then [(name, 5)] else []

def limitHits : List Hit :=
  let limits := engine.limits
  penalty (0 < limits.maxBodySize && limits.maxBodySize < ctx.bodySize) "LIMIT:body_size" ++
    penalty (limits.maxHeaderCount < ctx.headerCount) "LIMIT:header_count" ++
    penalty (limits.maxUriLength < ctx.uri.len) "LIMIT:uri_length" ++
    ctx.headers.entries.flatMap fun e =>
      penalty (limits.maxHeaderValueLen < e.2.len) (Text.fmt ["LIMIT:header_value_len:", e.1])

def ruleHit (rule : WafRule) : Hit := (Text.fmt [Text.dec rule.id.toNat, ":", rule.description], rule.score)

def hitsOn (rules : List WafRule) (transformed : Text) : List Hit :=
  (rules.filter fun rule => ext.regexes.isMatch rule.pattern transformed).map ruleHit

def chainOf (rules : List WafRule) : List Transformation :=
  match rules with
  | [] => []
  | first :: _ => first.transformations

def valuesOf (targets : List RuleTarget) : List Text :=
  targets.flatMap (RuleMatcher.extractTargets ext.unicode ext.lossy ctx)

def groupHits (group : CompiledRuleGroup) : List Hit := (valuesOf ext ctx group.targets).flatMap fun value =>
    hitsOn ext group.rules (RuleMatcher.applyTransformations ext.unicode value (chainOf group.rules))

def ruleHits : List Hit := engine.ruleGroups.flatMap (groupHits ext ctx)

/-! ### The phases add hits -/

theorem penalise_eq (exceeded : Bool) (name : Text) (scorer) :
    penalise exceeded name scorer = scorer.addAll (penalty exceeded name) := by
  cases exceeded <;> rfl

theorem foldl_addAll {α : Type} (hits : α → List Hit)
    (step : AnomalyScorer → α → AnomalyScorer) (hs : ∀ scorer a, step scorer a =
      scorer.addAll (hits a)) (l : List α) (scorer) :
    l.foldl step scorer = scorer.addAll (l.flatMap hits) := by
  induction l generalizing scorer with
  | nil => rfl
  | cons a l ih => rw [foldl_cons, hs, ih, flatMap_cons, AnomalyScorer.addAll_append]

theorem applyLimits_eq (scorer) :
    applyLimits engine ctx scorer = scorer.addAll (limitHits engine ctx) := by
  unfold applyLimits limitHits
  simp only [penalise_eq, AnomalyScorer.addAll_append]
  exact foldl_addAll _ _ (fun _ _ => rfl) _ _

theorem filterMap_range {α β : Type} (l : List α) (g : α → β) (p : β → Bool) :
    ((List.range (l.map g).length).filter fun i => ((l.map g)[i]?).any p).filterMap (l[·]?) =
      l.filter fun a => p (g a) := by
  induction l using List.reverseRecOn with
  | nil => rfl
  | append_singleton l a ih =>
    have hold : ∀ i ∈ List.range l.length, ((((l ++ [a]).map g)[i]?).any p = (((l.map g)[i]?).any p)) ∧
          (l ++ [a])[i]? = l[i]? := by
      intro i hi
      have hlt := mem_range.mp hi
      simp [getElem?_append, hlt]
    rw [length_map] at ih ⊢
    rw [length_append, length_singleton, range_succ, filter_append, filterMap_append, filter_append, ← ih,
      filter_congr fun i hi => (hold i hi).1,
      filterMap_congr fun i hi => (hold i (mem_of_mem_filter hi)).2]
    congr 1
    cases hp : p (g a) <;> simp [hp]

theorem evaluateValue_eq (group) (transformed : Text) (scorer) :
    evaluateValue ext group transformed scorer = scorer.addAll (hitsOn ext group.rules transformed) := by
  have hh : hitsOn ext group.rules transformed =
      ((group.matches ext.regexes transformed).filterMap (group.rules[·]?)).map ruleHit := by
    unfold hitsOn CompiledRuleGroup.matches
    rw [group.aligned, filterMap_range group.rules (·.pattern)]
  rw [hh, map_filterMap]
  unfold evaluateValue
  rw [foldl_addAll (fun idx => ((group.rules[idx]?).map ruleHit).toList)]
  · congr 1
    rw [filterMap_eq_flatMap_toList]
  · intro scorer idx
    cases group.rules[idx]? <;> rfl

theorem evaluateGroup_eq (group) (scorer) :
    evaluateGroup ext ctx scorer group = scorer.addAll (groupHits ext ctx group) := by
  unfold evaluateGroup groupHits
  cases hr : group.rules with
  | nil =>
    have hn : ∀ values : List Text, values.flatMap (fun value => hitsOn ext [] (RuleMatcher.applyTransformations ext.unicode value (chainOf []))) = [] :=
      fun values => flatMap_eq_nil_iff.mpr fun _ _ => rfl
    rw [hn]
    rfl
  | cons first rest =>
    refine foldl_addAll _ _ (fun scorer value => ?_) _ _
    rw [evaluateValue_eq, hr]
    rfl

theorem evaluateRules_eq (scorer) :
    evaluateRules ext engine ctx scorer = scorer.addAll (ruleHits ext engine ctx) :=
  foldl_addAll _ _ (fun scorer group => evaluateGroup_eq ext ctx group scorer) _ _

end WafEngine

end ServerWall.Waf
