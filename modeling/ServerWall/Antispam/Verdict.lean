import Mathlib.Algebra.Order.BigOperators.Group.List
import ServerWall.Antispam.Pipeline

/-!
# The verdict on a message

A run of both phases ends with a report unless some check rejects or defers (`runBoth_ok_iff`). Its score is
the sum of all contributions, in whatever order the checks stand, and its verdict compares that, cut to the
scale, with the thresholds for the sender's domain.
-/

namespace ServerWall.Antispam

open List SpamScore

open Config (DomainOverride)

def CheckOutcome.stops : CheckOutcome → Bool
  | .reject _ => true
  | .tempFail _ => true
  | _ => false

def SpamVerdict.rank : SpamVerdict → Nat
  | .clean => 0
  | .suspect => 1
  | .spam => 2

def total (contributions : List ScoreContribution) : ℚ := (contributions.map (·.score)).sum

@[simp] theorem total_append (cs cs' : List ScoreContribution) : total (cs ++ cs') = total cs + total cs' := by
  simp [total]

theorem foldl_add (cs : List ScoreContribution) (s : SpamScore) :
    cs.foldl (fun s c => s.add 1 c.score) s = ⟨s.value + total cs⟩ := by
  induction cs generalizing s with
  | nil => simp [total]
  | cons c cs ih =>
    rw [foldl_cons, ih]
    simp [add, total, add_assoc]

theorem verdict_spam_iff {s : SpamScore} : s.verdict top suspect spam = .spam ↔ spam ≤ s.percentage top := by
  unfold verdict
  dsimp only
  split
  · next h => exact iff_of_true rfl h
  · next h => exact iff_of_false (by split <;> nofun) h

theorem verdict_suspect_iff {s : SpamScore} :
    s.verdict top suspect spam = .suspect ↔ ¬ spam ≤ s.percentage top ∧ suspect ≤ s.percentage top := by
  unfold verdict
  dsimp only
  split
  · next h => exact iff_of_false nofun fun hnot => hnot.1 h
  · next h =>
    split
    · next h' => exact iff_of_true rfl ⟨h, h'⟩
    · next h' => exact iff_of_false nofun fun hnot => h' hnot.2

theorem rank_verdict_mono {s s' : SpamScore} (h : s.value ≤ s'.value) (suspect spam : ℚ) :
    (s.verdict defaultMaxScore suspect spam).rank ≤ (s'.verdict defaultMaxScore suspect spam).rank := by
  have hpct : s.percentage defaultMaxScore ≤ s'.percentage defaultMaxScore := by
    have htop : ¬ defaultMaxScore ≤ 0 := by norm_num [defaultMaxScore]
    simp only [percentage, if_neg htop]
    have hpos := le_of_not_ge htop
    gcongr
  unfold verdict
  dsimp only
  split
  · next hsp => rw [if_pos (ge_iff_le.mpr (le_trans hsp hpct))]
  · split
    · next hs =>
      rw [if_pos (ge_iff_le.mpr (le_trans hs hpct))]
      split <;> decide
    · exact Nat.zero_le _

namespace AntispamPipeline

/-- `run_pre_data` and then `run_post_data`, each at its own moment. -/
def runBoth (u : Unicode) (p : AntispamPipeline) (m m' : Moment) (ctx : MessageContext)
    (authResults : AuthenticationResults) : Except PipelineDecision SpamReport :=
  match p.runPreData m ctx.envelope with
  | (.proceed, score, contributions) => p.runPostData u m' ctx score contributions authResults
  | (decision, _, _) => .error decision

def Proceeds (p : AntispamPipeline) (m m' : Moment) (ctx : MessageContext) : Prop :=
  (∀ c ∈ p.preDataChecks, (c.check m ctx.envelope).1.stops = false) ∧
    ∀ c ∈ p.postDataChecks, (c.check m' ctx).1.stops = false

def allContributions (p : AntispamPipeline) (m m' : Moment) (ctx : MessageContext) : List ScoreContribution :=
  p.preDataChecks.filterMap (fun c => (c.check m ctx.envelope).2) ++
    p.postDataChecks.flatMap fun c => (c.check m' ctx).2

def report (u : Unicode) (p : AntispamPipeline) (m m' : Moment) (ctx : MessageContext)
    (authResults : AuthenticationResults) : SpamReport :=
  let contributions := p.allContributions m m' ctx
  let score : SpamScore := ⟨total contributions⟩
  { score, contributions, authResults
    verdict := score.verdict defaultMaxScore (p.suspectThreshold u ctx.envelope.mailFrom)
      (p.spamThreshold u ctx.envelope.mailFrom) }

/-! ## The two loops -/

/-- The answer of a check before DATA, in the form of one after it. -/
def widened (m : Moment) (ctx : EnvelopeContext) (c : PreDataCheck) : CheckOutcome × List ScoreContribution :=
  ((c.check m ctx).1, (c.check m ctx).2.toList)

theorem preLoop_eq (m : Moment) (ctx : EnvelopeContext) (checks : List PreDataCheck) (score)
    (cs : List ScoreContribution) : match postLoop (checks.map (widened m ctx)) score cs with
      | .ok (score', cs') => preLoop m ctx checks score cs = (.proceed, score', cs')
      | .error d => (preLoop m ctx checks score cs).1 = d := by
  induction checks generalizing score cs with
  | nil => rfl
  | cons c checks ih =>
    rw [preLoop, map_cons, widened]
    generalize c.check m ctx = answer
    obtain ⟨outcome, contribution⟩ := answer
    cases outcome
    case reject => rfl
    case tempFail => rfl
    all_goals
      cases contribution
      · simpa only [postLoop, Option.toList_none, foldl_nil, append_nil] using ih score cs
      · exact ih _ _

section

theorem postLoop_proceeds (h : ∀ r ∈ results, r.1.stops = false) (score) (cs : List ScoreContribution) :
    postLoop results score cs = .ok (⟨score.value + total (results.flatMap (·.2))⟩, cs ++ results.flatMap (·.2)) := by
  induction results generalizing score cs with
  | nil => simp [postLoop, total]
  | cons r results ih =>
    obtain ⟨hr, hre⟩ := forall_mem_cons.mp h
    obtain ⟨outcome, contributions⟩ := r
    cases outcome
    case reject => cases hr
    case tempFail => cases hr
    all_goals
      refine (ih hre _ _).trans ?_
      simp [foldl_add, add_assoc]

theorem postLoop_stops (h : ¬ ∀ r ∈ results, r.1.stops = false) (score)
    (cs : List ScoreContribution) : ∃ d, postLoop results score cs = .error d := by
  induction results generalizing score cs with
  | nil => exact absurd (forall_mem_nil _) h
  | cons r results ih =>
    rw [forall_mem_cons, not_and] at h
    obtain ⟨outcome, contributions⟩ := r
    cases outcome
    case reject => exact ⟨_, rfl⟩
    case tempFail => exact ⟨_, rfl⟩
    all_goals exact ih (h rfl) _ _

end

variable {u : Unicode} {p : AntispamPipeline} {m m' : Moment} {ctx : MessageContext} {auth : AuthenticationResults}

theorem runBoth_ok_iff : p.runBoth u m m' ctx auth = .ok r ↔ p.Proceeds m m' ctx ∧ r = p.report u m m' ctx auth := by
  have hpre := preLoop_eq m ctx.envelope p.preDataChecks .zero []
  have hall : p.Proceeds m m' ctx ↔ (∀ r ∈ p.preDataChecks.map (widened m ctx.envelope), r.1.stops = false) ∧
        ∀ r ∈ p.postDataChecks.map fun c => c.check m' ctx, r.1.stops = false := by
    rw [Proceeds, forall_mem_map, forall_mem_map]
    rfl
  rw [hall, runBoth, runPreData]
  by_cases h : ∀ r ∈ p.preDataChecks.map (widened m ctx.envelope), r.1.stops = false
  · rw [postLoop_proceeds h] at hpre
    rw [hpre]
    dsimp only
    rw [runPostData, and_iff_right h]
    by_cases h' : ∀ r ∈ p.postDataChecks.map fun c => c.check m' ctx, r.1.stops = false
    · rw [postLoop_proceeds h', and_iff_right h', eq_comm]
      simp [report, allContributions, zero, flatMap_map, filterMap_eq_flatMap_toList, widened]
    · obtain ⟨d, hd⟩ := postLoop_stops h' ⟨zero.value + total ((p.preDataChecks.map (widened m ctx.envelope)).flatMap (·.2))⟩
        ([] ++ (p.preDataChecks.map (widened m ctx.envelope)).flatMap (·.2))
      rw [hd]
      exact iff_of_false (fun h => by cases h) fun hand => h' hand.1
  · obtain ⟨d, hd⟩ := postLoop_stops h .zero []
    rw [hd] at hpre
    refine iff_of_false (fun heq => ?_) fun hand => h hand.1.1
    split at heq
    · next hp =>
      -- what ends the run is no decision to proceed
      rcases postLoop_error _ _ _ d hd with ⟨code, reason, rfl⟩ | ⟨reason, rfl⟩ <;>
        cases (congrArg Prod.fst hp).symm.trans hpre
    · cases heq

/-! ## Thresholds -/

/-- What the first override for the sender's domain sets, and the global value if there is no
such override or it sets nothing. -/
def Effective (u : Unicode) (overrides : List DomainOverride) (sender : Text)
    (own : DomainOverride → Option UInt8) (global : UInt8) (threshold : ℚ) : Prop :=
  let matching (o : DomainOverride) := u.toLowercase o.domain = u.toLowercase (Text.lastPiece '@' sender)
  (∃ before o after, overrides = before ++ o :: after ∧ (∀ b ∈ before, ¬ matching b) ∧ matching o ∧
    threshold = ((own o).getD global).toNat) ∨
  (∀ o ∈ overrides, ¬ matching o) ∧ threshold = global.toNat

theorem effective_domainOverride (own : DomainOverride → Option UInt8) (global : UInt8) (sender : Text) :
    Effective u p.config.domainOverrides sender own global
      ((((p.domainOverride u sender).bind own).getD global).toNat : ℚ) := by
  cases hf : p.domainOverride u sender with
  | none =>
    refine .inr ⟨fun o ho => ?_, rfl⟩
    simpa using find?_eq_none.mp hf o ho
  | some o =>
    obtain ⟨hm, before, after, hs, hfi⟩ := find?_eq_some_iff_append.mp hf
    exact .inl ⟨before, o, after, hs, fun b hb => by simpa using hfi b hb, by simpa using hm, rfl⟩

/-! ## The law -/

def scaled (r : SpamReport) : ℚ := max 0 (min r.score.value 50) / 50 * 100

/-- The outcome of a run, with all ways to be turned away taken as one. -/
def verdictOf (run : Except PipelineDecision SpamReport) : Option SpamVerdict := run.toOption.map (·.verdict)

theorem verdictOf_perm {q : AntispamPipeline} (hc : q.config = p.config)
    (hpre : q.preDataChecks.Perm p.preDataChecks) (hpo : q.postDataChecks.Perm p.postDataChecks) :
    verdictOf (q.runBoth u m m' ctx auth) = verdictOf (p.runBoth u m m' ctx auth) := by
  have hpr : q.Proceeds m m' ctx ↔ p.Proceeds m m' ctx := by simp only [Proceeds, hpre.mem_iff, hpo.mem_iff]
  have ht : total (q.allContributions m m' ctx) = total (p.allContributions m m' ctx) :=
    (((hpre.filterMap _).append (hpo.flatMap_right _)).map _).sum_eq
  have hv : (q.report u m m' ctx auth).verdict = (p.report u m m' ctx auth).verdict := by
    simp only [report, suspectThreshold, spamThreshold, domainOverride, ht, hc]
  have hrun : ∀ {p : AntispamPipeline} {v}, verdictOf (p.runBoth u m m' ctx auth) = some v ↔
      p.Proceeds m m' ctx ∧ (p.report u m m' ctx auth).verdict = v := by
    intro p v
    cases h : p.runBoth u m m' ctx auth with
    | error d =>
      refine iff_of_false nofun fun hand => ?_
      cases h.symm.trans (runBoth_ok_iff.mpr ⟨hand.1, rfl⟩)
    | ok r =>
      obtain ⟨hp, rfl⟩ := runBoth_ok_iff.mp h
      rw [and_iff_right hp]
      exact Option.some_inj
  refine Option.ext fun v => ?_
  rw [hrun, hrun, hpr, hv]

/-- **The law of verdicts**: when there is a report, its score and its verdict; the order of the checks
does not matter, and what grows makes no verdict cleaner. -/
theorem verdict_law (u : Unicode) (p : AntispamPipeline) (m m' : Moment) (ctx : MessageContext)
    (auth : AuthenticationResults) : ((∃ r, p.runBoth u m m' ctx auth = .ok r) ↔ p.Proceeds m m' ctx) ∧
    (∀ r, p.runBoth u m m' ctx auth = .ok r → r.contributions = p.allContributions m m' ctx ∧
      r.score.value = (r.contributions.map (·.score)).sum ∧
      ∃ definite possible : ℚ, Effective u p.config.domainOverrides ctx.envelope.mailFrom (·.definiteSpamThreshold)
          p.config.definiteSpamThreshold definite ∧
        Effective u p.config.domainOverrides ctx.envelope.mailFrom (·.possibleSpamThreshold)
          p.config.possibleSpamThreshold possible ∧ (r.verdict = .spam ↔ definite ≤ scaled r) ∧
        (r.verdict = .suspect ↔ ¬ definite ≤ scaled r ∧ possible ≤ scaled r)) ∧
    (∀ q : AntispamPipeline, q.config = p.config → q.preDataChecks.Perm p.preDataChecks →
      q.postDataChecks.Perm p.postDataChecks →
      verdictOf (q.runBoth u m m' ctx auth) = verdictOf (p.runBoth u m m' ctx auth)) ∧
    ∀ (q : AntispamPipeline) (r r' : SpamReport), q.config = p.config →
      p.runBoth u m m' ctx auth = .ok r → q.runBoth u m m' ctx auth = .ok r' →
      List.Forall₂ (·.score ≤ ·.score) r.contributions r'.contributions → r.verdict.rank ≤ r'.verdict.rank := by
  refine ⟨?_, ?_, fun q => verdictOf_perm, ?_⟩
  · simp only [runBoth_ok_iff, exists_eq_right]
  · intro r hr
    obtain ⟨-, rfl⟩ := runBoth_ok_iff.mp hr
    have hscaled : percentage ⟨total (p.allContributions m m' ctx)⟩ defaultMaxScore =
        scaled (p.report u m m' ctx auth) := if_neg (by norm_num [defaultMaxScore])
    exact ⟨rfl, rfl, _, _, effective_domainOverride _ _ _, effective_domainOverride _ _ _,
      hscaled ▸ verdict_spam_iff, hscaled ▸ verdict_suspect_iff⟩
  · intro q r r' hconfig hr hr' hle
    obtain ⟨-, rfl⟩ := runBoth_ok_iff.mp hr
    obtain ⟨-, rfl⟩ := runBoth_ok_iff.mp hr'
    simp only [report, suspectThreshold, spamThreshold, domainOverride, hconfig]
    refine rank_verdict_mono ?_ _ _
    exact List.Forall₂.sum_le_sum ((forall₂_map_left_iff.mpr (forall₂_map_right_iff.mpr hle)))

end AntispamPipeline

end ServerWall.Antispam
