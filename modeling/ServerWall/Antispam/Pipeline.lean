import ServerWall.Lib.Net
import ServerWall.Core.AntispamConfig

/-!
# The antispam pipeline

`score.rs`, `result.rs` and `pipeline.rs` of `serverwall-antispam`, with exact rationals for scores. A check
answers from the message and the world outside, which at a call is a `Moment`, an arbitrary index.
-/

namespace ServerWall.Antispam

open Config (AntispamConfig DomainOverride)

/-! ## Scores -/

inductive SpamVerdict where
  | clean
  | suspect
  | spam
  deriving DecidableEq, Repr

inductive CheckCategory where
  | authentication
  | reputation
  | content
  | header
  | rateLimit
  | behavioral
  deriving DecidableEq, Repr

structure ScoreContribution where
  checkName : Text
  category : CheckCategory
  score : ℚ
  description : Text

structure SpamScore where
  value : ℚ

namespace SpamScore

def zero : SpamScore := ⟨0⟩

def add (s : SpamScore) (weight severity : ℚ) : SpamScore := ⟨s.value + weight * severity⟩

/-- The score clamped to `[0, maxScore]` and scaled to 0-100. -/
def percentage (s : SpamScore) (maxScore : ℚ) : ℚ := if maxScore ≤ 0 then 0
  else
    let clamped := max 0 (min s.value maxScore)
    clamped / maxScore * 100

def verdict (s : SpamScore) (maxScore suspectThreshold spamThreshold : ℚ) : SpamVerdict :=
  let pct := s.percentage maxScore
  if pct ≥ spamThreshold then .spam
  else if pct ≥ suspectThreshold then .suspect
  else .clean

end SpamScore

/-! ## Results of checks -/

inductive CheckOutcome where
  | pass
  | hit (severity : ℚ) (detail : Text)
  | reject (reason : Text)
  | tempFail (reason : Text)
  | skip (reason : Text)

def CheckOutcome.isReject : CheckOutcome → Bool
  | .reject _ => true
  | _ => false

inductive AuthResult where
  | pass
  | fail
  | softFail
  | neutral
  | none
  | tempError
  | permError
  deriving DecidableEq, Repr

def AuthResult.toText : AuthResult → Text
  | .pass => "pass"
  | .fail => "fail"
  | .softFail => "softfail"
  | .neutral => "neutral"
  | .none => "none"
  | .tempError => "temperror"
  | .permError => "permerror"

structure AuthenticationResults where
  (spf dkim dmarc arc : AuthResult := .none)

structure SpamReport where
  score : SpamScore
  verdict : SpamVerdict
  contributions : List ScoreContribution
  authResults : AuthenticationResults

/-! ## The pipeline -/

abbrev Moment := Nat

structure EnvelopeContext where
  clientIp : IpAddr
  (heloDomain mailFrom : Text)
  rcptTo : List Text
  earlyTalker : Bool
  (connectTime bannerSentTime commandCount : Nat)
  pipeliningDetected : Bool
  ja3Fingerprint : Option Text

structure MessageContext where
  envelope : EnvelopeContext
  rawMessage : Bytes

inductive PipelineDecision where
  | proceed
  | accept
  | reject (code : Nat) (reason : Text)
  | tempFail (reason : Text)
  deriving DecidableEq, Repr

structure PreDataCheck where
  name : Text
  check : Moment → EnvelopeContext → CheckOutcome × Option ScoreContribution

structure PostDataCheck where
  name : Text
  check : Moment → MessageContext → CheckOutcome × List ScoreContribution

def defaultMaxScore : ℚ := 50

structure AntispamPipeline where
  config : AntispamConfig
  preDataChecks : List PreDataCheck
  postDataChecks : List PostDataCheck

namespace AntispamPipeline

def empty : AntispamPipeline where
  config := .default
  preDataChecks := []
  postDataChecks := []

/-- The loop of `run_pre_data`, from the score and contributions so far. -/
def preLoop (m : Moment) (ctx : EnvelopeContext) : List PreDataCheck → SpamScore → List ScoreContribution →
      PipelineDecision × SpamScore × List ScoreContribution
  | [], score, contributions => (.proceed, score, contributions)
  | check :: rest, score, contributions =>
    match check.check m ctx with
    | (.reject reason, _) => (.reject 550 reason, score, contributions)
    | (.tempFail reason, _) => (.tempFail reason, score, contributions)
    | (_, some c) => preLoop m ctx rest (score.add 1 c.score) (contributions ++ [c])
    | (_, none) => preLoop m ctx rest score contributions

/-- Run all pre-DATA checks sequentially, short-circuiting on a rejection. -/
def runPreData (p : AntispamPipeline) (m : Moment) (ctx : EnvelopeContext) :
    PipelineDecision × SpamScore × List ScoreContribution :=
  preLoop m ctx p.preDataChecks .zero []

/-- The loop of `run_post_data` over the joined results of the checks. -/
def postLoop : List (CheckOutcome × List ScoreContribution) → SpamScore →
    List ScoreContribution → Except PipelineDecision (SpamScore × List ScoreContribution)
  | [], score, contributions => .ok (score, contributions)
  | (.reject reason, _) :: _, _, _ => .error (.reject 550 reason)
  | (.tempFail reason, _) :: _, _, _ => .error (.tempFail reason)
  | (_, cs) :: rest, score, contributions =>
    postLoop rest (cs.foldl (fun s c => s.add 1 c.score) score) (contributions ++ cs)

def domainOverride (u : Unicode) (p : AntispamPipeline) (mailFrom : Text) :
    Option DomainOverride :=
  let senderDomain := u.toLowercase (Text.lastPiece '@' mailFrom)
  p.config.domainOverrides.find? fun o => u.toLowercase o.domain == senderDomain

def suspectThreshold (u : Unicode) (p : AntispamPipeline) (mailFrom : Text) : ℚ :=
  let o := (p.domainOverride u mailFrom).bind (·.possibleSpamThreshold)
  (o.getD p.config.possibleSpamThreshold).toNat

def spamThreshold (u : Unicode) (p : AntispamPipeline) (mailFrom : Text) : ℚ :=
  let o := (p.domainOverride u mailFrom).bind (·.definiteSpamThreshold)
  (o.getD p.config.definiteSpamThreshold).toNat

def runPostData (u : Unicode) (p : AntispamPipeline) (m : Moment) (ctx : MessageContext)
    (preScore : SpamScore) (preContributions : List ScoreContribution)
    (authResults : AuthenticationResults) : Except PipelineDecision SpamReport :=
  match postLoop (p.postDataChecks.map fun c => c.check m ctx) preScore preContributions with
  | .error decision => .error decision
  | .ok (score, contributions) =>
    .ok {
      score
      verdict := score.verdict defaultMaxScore (p.suspectThreshold u ctx.envelope.mailFrom)
        (p.spamThreshold u ctx.envelope.mailFrom)
      contributions
      authResults }

theorem postLoop_error : ∀ (results : List (CheckOutcome × List ScoreContribution))
    (score : SpamScore) (contributions : List ScoreContribution) (d : PipelineDecision),
    postLoop results score contributions = .error d →
      (∃ code reason, d = .reject code reason) ∨ ∃ reason, d = .tempFail reason
  | [], _, _, _, h => by cases h
  | (.reject reason, _) :: _, _, _, _, h => by cases h; exact .inl ⟨550, reason, rfl⟩
  | (.tempFail reason, _) :: _, _, _, _, h => by cases h; exact .inr ⟨reason, rfl⟩
  | (.pass, _) :: rest, _, _, d, h => postLoop_error rest _ _ d h
  | (.hit _ _, _) :: rest, _, _, d, h => postLoop_error rest _ _ d h
  | (.skip _, _) :: rest, _, _, d, h => postLoop_error rest _ _ d h

theorem runPostData_error {u : Unicode} {p : AntispamPipeline}
    {ctx : MessageContext} {score : SpamScore} {contributions : List ScoreContribution}
    {auth : AuthenticationResults} (h : p.runPostData u m ctx score contributions auth = .error d) :
    (∃ code reason, d = .reject code reason) ∨ ∃ reason, d = .tempFail reason := by
  unfold runPostData at h
  split at h
  next decision hl =>
    cases h
    exact postLoop_error _ _ _ _ hl
  next => cases h

/-! ## A pipeline without checks

Its outcome is decided by the thresholds alone, and a threshold of zero is
reached by the score zero. -/

theorem zero_percentage (maxScore : ℚ) : SpamScore.zero.percentage maxScore = 0 := by
  unfold SpamScore.percentage
  split
  · rfl
  · next h =>
    have hmin : min (0 : ℚ) maxScore = 0 := min_eq_left (le_of_lt (not_le.mp h))
    simp only [SpamScore.zero, hmin, max_self, zero_div, zero_mul]

theorem zero_verdict_spam_iff (maxScore suspect spam : ℚ) :
    SpamScore.zero.verdict maxScore suspect spam = .spam ↔ spam ≤ 0 := by
  unfold SpamScore.verdict
  rw [zero_percentage]
  constructor
  · intro h
    by_contra hpos
    simp only [ge_iff_le, if_neg hpos] at h
    split at h <;> cases h
  · intro h
    simp only [ge_iff_le, if_pos h]

theorem runPostData_noChecks {p : AntispamPipeline} (h : p.postDataChecks = []) (u : Unicode)
    (m : Moment) (ctx : MessageContext) (auth) :
    p.runPostData u m ctx .zero [] auth =
      .ok { score := .zero
            verdict := SpamScore.zero.verdict defaultMaxScore
              (p.suspectThreshold u ctx.envelope.mailFrom) (p.spamThreshold u ctx.envelope.mailFrom)
            contributions := []
            authResults := auth } := by
  simp only [runPostData, h, List.map_nil, postLoop]

end AntispamPipeline

end ServerWall.Antispam
