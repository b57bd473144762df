import ServerWall.Waf.Engine

/-!
# What a request scores

The score of the rule phase against what the rules describe: their points for each value of *their own*
targets. The engine asks the targets of the first rule of a group, and all built-in rules are one group
(`ruleScore_eq_iff`). A group whose regex set does not compile is dropped.
-/

namespace ServerWall.Waf

open Schema WafEngine List AnomalyScorer RuleMatcher
open CompiledRuleGroup (compile)

/-! ## Sums -/

theorem sum_map_comm {α β : Type} (l : List α) (m : List β) (f : α → β → Nat) :
    (l.map fun a => (m.map (f a)).sum).sum = (m.map fun b => (l.map (f · b)).sum).sum := by
  induction l with
  | nil => simp
  | cons a l ih =>
    simp only [map_cons, sum_cons, ih]
    exact sum_map_add.symm

theorem points_flatMap {α : Type} (l : List α) (f : α → List Hit) :
    points (l.flatMap f) = (l.map fun a => points (f a)).sum := by
  induction l with
  | nil => rfl
  | cons a l ih => rw [flatMap_cons, points_append, ih, map_cons, sum_cons]

theorem sum_map_filter {α : Type} (l : List α) (p : α → Bool) (f : α → Nat)
    (hz : ∀ a ∈ l, p a = false → f a = 0) : ((l.filter p).map f).sum = (l.map f).sum := by
  induction l with
  | nil => rfl
  | cons a l ih =>
    have hr := ih fun b hb => hz b (mem_cons_of_mem _ hb)
    cases hp : p a with
    | true => simp [hp, hr]
    | false => simp [hp, hr, hz a mem_cons_self hp]

theorem flatMap_filter_perm {α κ : Type} [DecidableEq κ] (f : α → κ) (keys : List κ)
    (hk : keys.Nodup) (l : List α) (hmem : ∀ a ∈ l, f a ∈ keys) :
    (keys.flatMap fun k => l.filter fun a => f a = k).Perm l := by
  induction keys generalizing l with
  | nil =>
    have hnil : l = [] := eq_nil_iff_forall_not_mem.mpr fun a ha => by cases hmem a ha
    simp [hnil]
  | cons k keys ih =>
    rw [nodup_cons] at hk
    have hr := ih hk.2 (l.filter fun a => !decide (f a = k)) fun a ha => by
      have hne : f a ≠ k := by simpa using (mem_filter.mp ha).2
      exact (mem_cons.mp (hmem a (mem_filter.mp ha).1)).resolve_left hne
    have hs : (keys.flatMap fun k' => l.filter fun a => f a = k') =
        keys.flatMap fun k' => (l.filter fun a => !decide (f a = k)).filter fun a => f a = k' := by
      apply flatMap_congr
      intro k' hk'
      rw [filter_filter]
      apply filter_congr
      intro a _
      by_cases ha : f a = k'
      · have hne : k' ≠ k := fun h => hk.1 (h ▸ hk')
        simp [ha, hne]
      · simp [ha]
    rw [flatMap_cons, hs]
    exact (hr.append_left _).trans (filter_append_perm _ _)

/-! ## Rules by themselves -/

section

variable (ext : Externals) (ctx : HttpRequestContext)

def weight (chain : List Transformation) (rule : WafRule) (value : Text) : Nat :=
  if ext.regexes.isMatch rule.pattern (RuleMatcher.applyTransformations ext.unicode value chain)
  then rule.score.toNat else 0

def weightOn (chain : List Transformation) (rule : WafRule) (targets : List RuleTarget) : Nat :=
  ((valuesOf ext ctx targets).map (weight ext chain rule)).sum

/-- The score the rules describe, each by its own targets and transformations. -/
def describedPoints (rules : List WafRule) : Nat :=
  (rules.map fun rule => weightOn ext ctx rule.transformations rule rule.targets).sum

variable {ext ctx}

@[simp] theorem weightOn_nil (chain : List Transformation) (rule) : weightOn ext ctx chain rule [] = 0 := rfl

@[simp] theorem weightOn_append (chain : List Transformation) (rule) (targets targets' : List RuleTarget) :
    weightOn ext ctx chain rule (targets ++ targets') =
      weightOn ext ctx chain rule targets + weightOn ext ctx chain rule targets' := by
  simp [weightOn, valuesOf]

theorem weightOn_invalid (h : (ext.regexes.regex rule.pattern).isSome = false) :
    weightOn ext ctx chain rule targets = 0 := by
  have hno : ext.regexes.regex rule.pattern = none := by cases hr : ext.regexes.regex rule.pattern <;> simp_all
  refine sum_eq_zero fun n hn => ?_
  obtain ⟨value, -, rfl⟩ := mem_map.mp hn
  simp [weight, Regexes.isMatch, hno]

theorem weightOn_diff (chain : List Transformation) (rule) (asked listed : List RuleTarget) :
    weightOn ext ctx chain rule asked + weightOn ext ctx chain rule (listed.diff asked) =
      weightOn ext ctx chain rule listed + weightOn ext ctx chain rule (asked.diff listed) := by
  have hp : (asked ++ listed.diff asked).Perm (listed ++ asked.diff listed) := by
    rw [perm_iff_count]
    intro t
    simp only [count_append, count_diff]
    omega
  rw [← weightOn_append, ← weightOn_append]
  exact ((hp.flatMap_right _).map _).sum_eq

theorem points_hitsOn (rules : List WafRule) (value : Text) (chain : List Transformation) :
    points (hitsOn ext rules (applyTransformations ext.unicode value chain)) =
      (rules.map fun rule => weight ext chain rule value).sum := by
  unfold hitsOn points
  rw [map_map, ← sum_map_filter rules fun rule => ext.regexes.isMatch rule.pattern
    (applyTransformations ext.unicode value chain)]
  · congr 1
    apply map_congr_left
    intro rule hr
    exact (if_pos (mem_filter.mp hr).2).symm
  · intro rule _ hno
    exact if_neg (by simp [hno])

theorem points_groupHits (group) : points (groupHits ext ctx group) = (group.rules.map fun rule => weightOn ext ctx (chainOf group.rules) rule group.targets).sum := by
  unfold groupHits
  rw [points_flatMap]
  simp only [points_hitsOn]
  exact sum_map_comm _ _ _

end

/-! ## Groups that compile -/

/-- The targets a list of rules is tried on: those of the first, if the group compiles. -/
def askedTargets (regexes : Regexes) (rules : List WafRule) : List RuleTarget :=
  ((CompiledRuleGroup.compile regexes rules).map (·.targets)).getD []

section

variable {ext : Externals} {ctx : HttpRequestContext} {rules : List WafRule}

theorem rules_compile (h : compile ext.regexes rules = some group) :
    group.rules = rules.filter fun r => (ext.regexes.regex r.pattern).isSome := by
  cases rules with
  | nil => cases h
  | cons first rest =>
    unfold compile at h
    simp only at h
    split at h
    · rename_i hset
      cases h
      refine (filter_eq_self.mpr fun r hr => ?_).symm
      exact ext.regexes.compiles_each _ hset r.pattern (mem_map_of_mem hr)
    · split at h
      · cases h
      · split at h
        · cases h
          rfl
        · cases h

/-- **A group scores by its first rule's targets**, all its rules having one chain. -/
theorem points_compile (chain : List Transformation) (hc : ∀ rule ∈ rules, rule.transformations = chain) :
    points ((compile ext.regexes rules).toList.flatMap (groupHits ext ctx)) =
      (rules.map fun rule => weightOn ext ctx chain rule (askedTargets ext.regexes rules)).sum := by
  unfold askedTargets
  cases hgr : compile ext.regexes rules with
  | none =>
    refine (sum_eq_zero fun n hn => ?_).symm
    obtain ⟨rule, -, rfl⟩ := mem_map.mp hn
    rfl
  | some group =>
    have hr := rules_compile hgr
    have hone : chainOf group.rules = chain ∨ group.rules = [] := by
      cases hg : group.rules with
      | nil => exact .inr rfl
      | cons first rest =>
        have hmem : first ∈ rules.filter fun r => (ext.regexes.regex r.pattern).isSome := hr ▸ hg ▸ mem_cons_self
        exact .inl (hc first (mem_filter.mp hmem).1)
    have hsum : points (groupHits ext ctx group) =
        (group.rules.map fun rule => weightOn ext ctx chain rule group.targets).sum := by
      rw [points_groupHits]
      rcases hone with hone | hone
      · rw [hone]
      · rw [hone]
        rfl
    simp only [Option.toList_some, flatMap_cons, flatMap_nil, append_nil, Option.map_some, Option.getD_some, hsum, hr]
    exact sum_map_filter _ _ _ fun rule _ hi => weightOn_invalid hi

end

/-! ## The rules of an engine -/

def builtinRules (paranoiaLevel : UInt8) : List WafRule :=
  allBuiltinRules.filter fun rule => rule.paranoiaLevel ≤ paranoiaLevel

theorem builtin_chain {paranoiaLevel : UInt8} :
    ∀ rule ∈ builtinRules paranoiaLevel, rule.transformations = [.lowercase, .urlDecode] :=
  fun rule hr => builtin_transformations rule (mem_filter.mp hr).1

theorem converted_of_custom (hr : rule ∈ RuleParser.fromRulesetConfig unicode dirs config) :
    ∃ custom, RuleParser.convertCustomRule unicode custom = some rule := by
  rcases mem_append.mp hr with hi | hdir
  · obtain ⟨custom, -, hc⟩ := mem_filterMap.mp hi
    exact ⟨custom, hc⟩
  · obtain ⟨file, -, hf⟩ := mem_flatMap.mp hdir
    obtain ⟨custom, -, hc⟩ := mem_filterMap.mp hf
    exact ⟨custom, hc⟩

theorem custom_chain :
    ∀ rule ∈ RuleParser.fromRulesetConfig unicode dirs config, rule.transformations = [.lowercase] := by
  intro rule hr
  obtain ⟨custom, hc⟩ := converted_of_custom hr
  obtain ⟨target, -, rfl⟩ := Option.map_eq_some_iff.mp hc
  rfl

/-- The active rules, each with the targets it is tried on. -/
def sightings (regexes : Regexes) (builtin custom : List WafRule) : List (WafRule × List RuleTarget) :=
  builtin.map (fun rule => (rule, askedTargets regexes builtin)) ++ custom.map fun rule => (rule, askedTargets regexes
      (custom.filter fun other => other.targets.head? = rule.targets.head?))

section

variable (ext : Externals) (ctx : HttpRequestContext)

def foreignPoints (seen : List (WafRule × List RuleTarget)) : Nat :=
  (seen.map fun s => weightOn ext ctx s.1.transformations s.1 (s.2.diff s.1.targets)).sum

/-- The points of rules on targets they list and are not tried on. -/
def missedPoints (seen : List (WafRule × List RuleTarget)) : Nat :=
  (seen.map fun s => weightOn ext ctx s.1.transformations s.1 (s.1.targets.diff s.2)).sum

/-- The points of rules on the targets they are tried on. -/
def askedPoints (seen : List (WafRule × List RuleTarget)) : Nat :=
  (seen.map fun s => weightOn ext ctx s.1.transformations s.1 s.2).sum

variable {ext ctx}

theorem asked_add_missed (seen : List (WafRule × List RuleTarget)) :
    askedPoints ext ctx seen + missedPoints ext ctx seen =
      describedPoints ext ctx (seen.map Prod.fst) + foreignPoints ext ctx seen := by
  unfold askedPoints missedPoints describedPoints foreignPoints
  rw [map_map, ← sum_map_add, ← sum_map_add]
  congr 1
  apply map_congr_left
  intro s _
  exact weightOn_diff s.1.transformations s.1 s.2 s.1.targets

variable {order : MapOrder (Option RuleTarget × List WafRule)}

theorem points_custom (chain : List Transformation) (hc : ∀ rule ∈ custom, rule.transformations = chain) :
    points (((order.arrange (byTarget custom)).filterMap fun entry =>
        compile ext.regexes entry.2).flatMap (groupHits ext ctx)) =
      (custom.map fun rule => weightOn ext ctx chain rule (askedTargets ext.regexes
        (custom.filter fun other => other.targets.head? = rule.targets.head?))).sum := by
  let asked (target : Option RuleTarget) : List RuleTarget :=
    askedTargets ext.regexes (custom.filter fun other => other.targets.head? = target)
  have hp : (custom.map (·.targets.head?)).dedup.flatMap
      (fun target => custom.filter fun rule => rule.targets.head? = target) |>.Perm custom :=
    flatMap_filter_perm _ _ (nodup_dedup _) _ fun rule hr =>
      mem_dedup.mpr (mem_map_of_mem hr)
  calc points (((order.arrange (byTarget custom)).filterMap fun entry =>
        compile ext.regexes entry.2).flatMap (groupHits ext ctx))
      = points ((byTarget custom).flatMap fun entry =>
          (compile ext.regexes entry.2).toList.flatMap (groupHits ext ctx)) := by
        rw [filterMap_eq_flatMap_toList, flatMap_assoc]
        exact points_perm ((order.perm _).flatMap_right _)
    _ = ((custom.map (·.targets.head?)).dedup.map fun target =>
          ((custom.filter fun rule => rule.targets.head? = target).map fun rule =>
            weightOn ext ctx chain rule (asked target)).sum).sum := by
        rw [points_flatMap, byTarget, map_map]
        congr 1
        apply map_congr_left
        intro target _
        exact points_compile chain fun rule hr => hc rule (mem_filter.mp hr).1
    _ = (((custom.map (·.targets.head?)).dedup.flatMap
          fun target => custom.filter fun rule => rule.targets.head? = target).map fun rule =>
            weightOn ext ctx chain rule (asked rule.targets.head?)).sum := by
        rw [map_flatMap, flatMap_def, sum_flatten, map_map]
        congr 1
        apply map_congr_left
        intro target _
        congr 1
        apply map_congr_left
        intro rule hr
        have ht : rule.targets.head? = target := by simpa using (mem_filter.mp hr).2
        rw [ht]
    _ = _ := (hp.map _).sum_eq

/-- **What the rule phase scores**: every active rule, on the targets its group asks. -/
theorem points_ruleHits (dirs : Text → Option (List RuleParser.RuleFile)) (config) :
    points (ruleHits ext (fromRulesetConfig ext order dirs config) ctx) =
      askedPoints ext ctx (sightings ext.regexes (builtinRules config.paranoiaLevel)
        (RuleParser.fromRulesetConfig ext.unicode dirs config)) := by
  show points (((compile ext.regexes
      (builtinRules config.paranoiaLevel)).toList ++ _).flatMap (groupHits ext ctx)) = _
  rw [flatMap_append, points_append, points_compile _ builtin_chain, points_custom _ custom_chain]
  unfold askedPoints sightings
  rw [map_append, sum_append, map_map, map_map]
  congr 2
  · apply map_congr_left
    intro rule hr
    simp only [Function.comp, builtin_chain rule hr]
  · apply map_congr_left
    intro rule hr
    simp only [Function.comp, custom_chain rule hr]

end

/-- A header value that rule 945100, on headers, is written for. -/
def smugglingNote : Text := "transfer-encoding: chunked, content-length"

def smugglingRequest : HttpRequestContext :=
  .fromParts .ascii "GET" "/" (Fields.empty.insert "x-note" smugglingNote) [] (.v4 192 0 2 1) none

/-- The engine reads patterns as `Regex.parse` does, in ASCII. -/
def Externals.simple : Externals where
  unicode := .ascii
  lossy _ := []
  regexes := .parsed .ascii

def plainRuleset : WafRulesetConfig := { name := "waf" }

section

-- the patterns are read and tried by the kernel
set_option maxRecDepth 100000

def missesSlash (_ : UInt32) (pattern : Text) : Bool := !(Regexes.parsed .ascii).isMatch pattern ['/']

theorem builtin_missesSlash : ∀ rule ∈ allBuiltinRules, missesSlash rule.id rule.pattern := by
  repeat refine forall_cons_rule (by decide +kernel) ?_
  exact forall_mem_nil _

theorem smuggling_described :
    ∃ rule ∈ builtinRules plainRuleset.paranoiaLevel, weightOn .simple smugglingRequest rule.transformations rule
      rule.targets = 5 := by
  refine ⟨_, mem_filter.mpr ⟨mem_append_right _ mem_cons_self, rfl⟩, ?_⟩
  decide +kernel

end

theorem smuggling_unseen (hr : rule ∈ allBuiltinRules) :
    weightOn .simple smugglingRequest rule.transformations rule sqlInjectionTargets = 0 := by
  have hv : valuesOf .simple smugglingRequest sqlInjectionTargets = [['/']] := by decide +kernel
  have hs : applyTransformations .ascii ['/'] rule.transformations = ['/'] := by
    rw [builtin_transformations rule hr]
    decide
  have hm : (Regexes.parsed .ascii).isMatch rule.pattern ['/'] = false := by
    simpa only [missesSlash, Bool.not_eq_true'] using builtin_missesSlash rule hr
  unfold weightOn
  rw [hv]
  simp [weight, Externals.simple, hs, hm]

theorem asked_first (rules : List WafRule) (regexes) : askedTargets regexes rules = [] ∨
      askedTargets regexes rules = (rules.head?.map (·.targets)).getD [] := by
  cases rules with
  | nil => exact .inl rfl
  | cons first rest =>
    unfold askedTargets compile
    simp only
    split
    · exact .inr rfl
    · split
      · exact .inl rfl
      · split
        · exact .inr rfl
        · exact .inl rfl

end ServerWall.Waf
