import ServerWall.Antispam.Verdict

/-!
# The DMARC check

`dmarc.rs` of `serverwall-antispam`. Parsing and evaluation are those of the mail authentication
library, of which nothing is assumed. The check looks at the DKIM half of an evaluation only, so a
message that is aligned by SPF alone is treated as one that fails (`dmarc_lawful_iff`).
-/

namespace ServerWall.Antispam

open Text

inductive DmarcResult where
  | pass
  | fail
  | tempError
  | permError
  | none
  deriving DecidableEq

inductive DmarcPolicy where
  | none
  | quarantine
  | reject
  | unspecified
  deriving DecidableEq

/-- `DmarcOutput`: the aligned result of either mechanism, and the published policy. -/
structure DmarcOutput where
  (dkimResult spfResult : DmarcResult)
  policy : DmarcPolicy

structure MailAuth (Message Dkim Spf : Type) where
  parse : Bytes → Option Message
  verifyDkim : Moment → Message → Dkim
  verifySpfSender : Moment → IpAddr → Text → Text → Text → Spf
  verifyDmarc : Moment → Message → Dkim → Text → Spf → DmarcOutput

structure DmarcCheck where
  weight : ℚ
  honorRejectPolicy : Bool

namespace DmarcCheck

variable {Message Dkim Spf : Type} (auth : MailAuth Message Dkim Spf) (c : DmarcCheck) (m : Moment)
  (ctx : MessageContext)

def senderDomain (ctx : MessageContext) : Text :=
  match rsplitOnce '@' ctx.envelope.mailFrom with
  | some (_, domain) => trimEndMatches '>' domain
  | none => []

def evaluate : Option DmarcOutput := (auth.parse ctx.rawMessage).map fun message =>
    let domain := senderDomain ctx
    let dkim := auth.verifyDkim m message
    let spf := auth.verifySpfSender m ctx.envelope.clientIp ctx.envelope.heloDomain domain ctx.envelope.mailFrom
    auth.verifyDmarc m message dkim domain spf

def contribution (score : ℚ) (description : Text) : ScoreContribution := ⟨"dmarc", .authentication, score, description⟩

def hit (score : ℚ) (detail : Text) : CheckOutcome × List ScoreContribution :=
  (.hit score detail, [contribution score detail])

def check : CheckOutcome × List ScoreContribution :=
  match evaluate auth m ctx with
  | none => (.skip "Failed to parse message for DMARC", [])
  | some out =>
    let domain := senderDomain ctx
    match out.dkimResult with
    | .pass => (.pass, [])
    | .fail =>
      if c.honorRejectPolicy && out.policy == .reject then
        (.reject (fmt ["DMARC policy reject for ", domain]),
          [contribution c.weight (fmt ["DMARC fail with p=reject for ", domain])])
      else hit (c.weight * (8 / 10)) (fmt ["DMARC fail for ", domain])
    | _ => hit (c.weight * (1 / 10)) (fmt ["No DMARC record for ", domain])

def toCheck : PostDataCheck where
  name := "dmarc"
  check m ctx := check auth c m ctx

def Aligned (out : DmarcOutput) : Prop := out.dkimResult = .pass ∨ out.spfResult = .pass

/-- An aligned message is neither rejected nor scored, and a rejected one is not aligned, under a
policy of rejection that is honoured. -/
def Lawful : Prop := (∀ out, evaluate auth m ctx = some out → Aligned out →
    (check auth c m ctx).1.stops = false ∧ (check auth c m ctx).2 = []) ∧
  ∀ reason, (check auth c m ctx).1 = .reject reason → ∃ out, evaluate auth m ctx = some out ∧
    ¬ Aligned out ∧ out.policy = .reject ∧ c.honorRejectPolicy = true

variable {auth c m ctx}

theorem check_unscored_iff (h : evaluate auth m ctx = some out) :
    (check auth c m ctx).2 = [] ↔ out.dkimResult = .pass := by
  unfold check
  rw [h]
  dsimp only
  cases out.dkimResult
  case pass => exact iff_of_true rfl rfl
  case fail =>
    refine iff_of_false ?_ nofun
    dsimp only
    split <;> exact List.cons_ne_nil _ _
  all_goals exact iff_of_false (List.cons_ne_nil _ _) nofun

theorem check_reject (h : (check auth c m ctx).1 = .reject reason) :
    ∃ out, evaluate auth m ctx = some out ∧ out.dkimResult = .fail ∧ out.policy = .reject ∧ c.honorRejectPolicy := by
  unfold check at h
  cases hout : evaluate auth m ctx with
  | none =>
    rw [hout] at h
    cases h
  | some out =>
    rw [hout] at h
    dsimp only at h
    cases hd : out.dkimResult <;> rw [hd] at h <;> try cases h
    dsimp only at h
    split at h
    · next hp =>
      rw [Bool.and_eq_true, beq_iff_eq] at hp
      exact ⟨out, rfl, hd, hp.2, hp.1⟩
    · cases h

end DmarcCheck

/-- **The check treats a message as its evaluation demands unless the message is aligned by SPF
alone.** -/
theorem dmarc_lawful_iff {Message Dkim Spf : Type} (auth : MailAuth Message Dkim Spf) (c : DmarcCheck)
    (m : Moment) (ctx : MessageContext) : DmarcCheck.Lawful auth c m ctx ↔
      ∀ out, DmarcCheck.evaluate auth m ctx = some out → out.spfResult = .pass → out.dkimResult = .pass := by
  constructor
  · intro h out hout hspf
    exact (DmarcCheck.check_unscored_iff hout).mp (h.1 out hout (.inr hspf)).2
  · intro h
    constructor
    · intro out hout haligned
      have hdkim : out.dkimResult = .pass := haligned.elim id (h out hout)
      refine ⟨?_, (DmarcCheck.check_unscored_iff hout).mpr hdkim⟩
      simp only [DmarcCheck.check, hout, hdkim, CheckOutcome.stops]
    · intro reason hreject
      obtain ⟨out, hout, hfail, hrest⟩ := DmarcCheck.check_reject hreject
      refine ⟨out, hout, ?_, hrest⟩
      rintro (hdkim | hspf)
      · cases hfail.symm.trans hdkim
      · cases hfail.symm.trans (h out hout hspf)

/-- A library to which every message is aligned by SPF and not by DKIM. -/
def spfAlone : MailAuth Unit Unit Unit where
  parse _ := some ()
  verifyDkim _ _ := ()
  verifySpfSender _ _ _ _ _ := ()
  verifyDmarc _ _ _ _ _ := ⟨.fail, .pass, .reject⟩

def plainMessage : MessageContext where
  envelope := ⟨.v4 192 0 2 1, "host", "a@b.c", ["d@e.f"], false, 0, 0, 0, false, none⟩
  rawMessage := []

/-- Such a message is rejected by a pipeline with this check alone. -/
theorem spf_aligned_rejected : DmarcCheck.evaluate spfAlone 0 plainMessage = some ⟨.fail, .pass, .reject⟩ ∧
    AntispamPipeline.runPostData .ascii
      { config := .default, preDataChecks := [], postDataChecks := [DmarcCheck.toCheck spfAlone ⟨1, true⟩] }
      0 plainMessage .zero [] {} = .error (.reject 550 "DMARC policy reject for b.c") :=
  ⟨rfl, rfl⟩

end ServerWall.Antispam
