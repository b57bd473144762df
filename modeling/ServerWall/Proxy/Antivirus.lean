import ServerWall.Proxy.Wiring
import ServerWall.Waf.Rules

/-!
# The antivirus check

`antivirus.rs` of `serverwall-antispam`. All scanners run at once, and one may never end. The fields
`timeout`, `on_scanner_error` and `on_scanner_timeout` do not reach the check; what they ask for is a
`FailurePolicy` (`antivirus_lawful_iff`).
-/

namespace ServerWall.Proxy

open Antispam Config List

/-- The process of a scanner: it cannot be started, ends after a time, by a signal if there is no
code, or never ends. -/
inductive ProcessRun where
  | failed
  | exited (code : Option Int) (after : Nat)
  | hangs
  deriving DecidableEq

/-- The system a check runs on: the path of the temporary file, whether it can be written, and what
becomes of a command. -/
structure Host where
  tempFile : Option Text
  writes : Bool
  spawn : List Text → ProcessRun

inductive ScanResult where
  | clean
  | virus
  | error
  deriving DecidableEq

structure AntivirusCheck where
  weight : ℚ
  rejectOnVirus : Bool
  scanners : List ScannerDef

def AntivirusCheck.ofConfig (isRegex : Text → Bool) (c : AntivirusConfig) : AntivirusCheck where
  weight := c.weight
  rejectOnVirus := c.rejectOnVirus
  scanners := c.scanners.map fun s =>
    ⟨s.name, s.command, s.cleanExitCodes, s.virusExitCodes, s.virusNamePattern.filter isRegex⟩

def launch (host : Host) (command path : Text) : ProcessRun :=
  let parts := ((Waf.replace "\x7bfile\x7d" path command).splitOnP Text.isWhitespace).filter (· ≠ [])
  if parts = [] then .failed else host.spawn parts

def readCode (clean virus : List Int) (code : Option Int) : ScanResult :=
  let exitCode := code.getD (-1)
  if clean.contains exitCode then .clean
  else if virus.contains exitCode then .virus
  else .error

def readRun (clean virus : List Int) : ProcessRun → Option ScanResult
  | .failed => some .error
  | .exited code _ => some (readCode clean virus code)
  | .hangs => none

def runScanner (host : Host) (path : Text) (s : ScannerDef) : Option ScanResult :=
  readRun s.cleanExitCodes s.virusExitCodes (launch host s.command path)

def joinAll {α : Type} : List (Option α) → Option (List α)
  | [] => some []
  | o :: rest => o.bind fun a => (joinAll rest).map (a :: ·)

namespace AntivirusCheck

/-- The loop over the results: whether a virus was found, the severity and the contributions so far. -/
def tally (c : AntivirusCheck) : List ScanResult → Bool × ℚ × List ScoreContribution →
    Bool × ℚ × List ScoreContribution
  | [], acc => acc
  | .virus :: rest, (_, severity, contributions) =>
    c.tally rest (true, severity + c.weight * 1,
      contributions ++ [⟨"antivirus", .content, c.weight * 1, "Virus detected"⟩])
  | _ :: rest, acc => c.tally rest acc

def aggregate (c : AntivirusCheck) (results : List ScanResult) : CheckOutcome × List ScoreContribution :=
  let (virusFound, severity, contributions) := c.tally results (false, 0, [])
  if virusFound && c.rejectOnVirus then (.reject "Message rejected", contributions)
  else if contributions.isEmpty then (.pass, contributions)
  else (.hit severity "Content rejected", contributions)

/-- `AntivirusCheck::check`; `none` is a check that never answers. -/
def check (host : Host) (c : AntivirusCheck) : Option (CheckOutcome × List ScoreContribution) :=
  if c.scanners.isEmpty then some (.skip "No AV scanners configured", [])
  else match host.tempFile with
    | none => some (.skip "temp file creation failed", [])
    | some path =>
      if host.writes then (joinAll (c.scanners.map (runScanner host path))).map c.aggregate
      else some (.skip "temp file write failed", [])

end AntivirusCheck

open AntivirusCheck (aggregate check ofConfig)

/-! ## The policy -/

def Passes : CheckOutcome → Prop
  | .pass => True
  | .skip _ => True
  | _ => False

inductive ScanOutcome where
  | clean
  | virus
  | error
  | timeout
  deriving DecidableEq

/-- What the configuration asks for: the two actions, and the time a scanner has. -/
structure FailurePolicy where
  onScannerError : Text := "pass"
  onScannerTimeout : Text := "tempfail"
  timeout : ScannerConfig → Nat

/-- What becomes of a scanner; without the file nothing is started. -/
def scannerRun (host : Host) (s : ScannerConfig) : ProcessRun :=
  match host.tempFile with
  | some path => if host.writes then launch host s.command path else .failed
  | none => .failed

def scanOutcome (limit : Nat) (clean virus : List Int) : ProcessRun → ScanOutcome
  | .failed => .error
  | .hangs => .timeout
  | .exited code after =>
    if limit < after then .timeout
    else match readCode clean virus code with
      | .clean => .clean
      | .virus => .virus
      | .error => .error

/-- A scanner that was clean in time, or whose failure is to be passed over. -/
def Forgiven (policy : FailurePolicy) (host : Host) (s : ScannerConfig) : Prop :=
  match scanOutcome (policy.timeout s) s.cleanExitCodes s.virusExitCodes (scannerRun host s) with
  | .clean => True
  | .virus => False
  | .error => policy.onScannerError = "pass"
  | .timeout => policy.onScannerTimeout = "pass"

/-- The check answers, and lets a message pass only if every scanner is forgiven. -/
def Lawful (isRegex : Text → Bool) (policy : FailurePolicy) (host : Host) (c : AntivirusConfig) : Prop :=
  ∃ answer, AntivirusCheck.check host (.ofConfig isRegex c) = some answer ∧
    (Passes answer.1 → ∀ s ∈ c.scanners, Forgiven policy host s)

/-! ## What the check does -/

theorem joinAll_map {α β : Type} (f : α → Option β) (l : List α) : (∃ a ∈ l, f a = none) ∧ joinAll (l.map f) = none ∨
      ∃ bs, joinAll (l.map f) = some bs ∧ l.map f = bs.map some := by
  induction l with
  | nil => exact .inr ⟨[], rfl, rfl⟩
  | cons a l ih =>
    rw [map_cons, joinAll]
    cases ha : f a with
    | none => exact .inl ⟨⟨a, mem_cons_self, ha⟩, rfl⟩
    | some b =>
      rcases ih with ⟨⟨a', ha', hn⟩, hj⟩ | ⟨bs, hj, hbs⟩
      · exact .inl ⟨⟨a', mem_cons_of_mem _ ha', hn⟩, by rw [hj]; rfl⟩
      · exact .inr ⟨b :: bs, by rw [hj]; rfl, by rw [hbs]; rfl⟩

variable {c : AntivirusCheck}

theorem tally_clean {results : List ScanResult} (h : .virus ∉ results)
    (acc : Bool × ℚ × List ScoreContribution) : c.tally results acc = acc := by
  induction results with
  | nil => rfl
  | cons r results ih =>
    rw [mem_cons, not_or] at h
    cases r with
    | virus => exact absurd rfl h.1
    | clean | error => exact ih h.2

theorem tally_ne_nil {results : List ScanResult} {acc : Bool × ℚ × List ScoreContribution}
    (h : .virus ∈ results ∨ acc.2.2 ≠ []) : (c.tally results acc).2.2 ≠ [] := by
  induction results generalizing acc with
  | nil => exact h.resolve_left not_mem_nil
  | cons r results ih =>
    cases r with
    | virus => exact ih (.inr (by simp))
    | clean | error => exact ih (h.imp_left fun h => by simpa using h)

theorem passes_aggregate {results : List ScanResult} : Passes (c.aggregate results).1 ↔ .virus ∉ results := by
  constructor
  · intro hp hv
    have hne := @tally_ne_nil c results (false, 0, []) (.inl hv)
    unfold aggregate at hp
    generalize c.tally results (false, 0, []) = acc at hne hp
    obtain ⟨found, severity, contributions⟩ := acc
    dsimp only at hne hp
    rw [if_neg (fun h => hne (isEmpty_iff.mp h))] at hp
    split at hp <;> exact hp
  · intro h
    rw [aggregate, tally_clean h]
    trivial

def scanned (host : Host) (s : ScannerConfig) : Option ScanResult :=
  readRun s.cleanExitCodes s.virusExitCodes (scannerRun host s)

theorem check_cases (isRegex : Text → Bool) (host) (c : AntivirusConfig) :
    (∃ s ∈ c.scanners, scanned host s = none) ∧ check host (.ofConfig isRegex c) = none ∨
    (∀ s ∈ c.scanners, (scanned host s).isSome) ∧
      ∃ answer, check host (.ofConfig isRegex c) = some answer ∧
        (Passes answer.1 ↔ ∀ s ∈ c.scanners, scanned host s ≠ some .virus) := by
  have hn : (∀ s, scannerRun host s = .failed) →
      (∀ s ∈ c.scanners, (scanned host s).isSome = true) ∧ ∀ s ∈ c.scanners, scanned host s ≠ some .virus := by
    intro h
    have hall : ∀ s, scanned host s = some .error := fun s => by rw [scanned, h]; rfl
    exact ⟨fun s _ => by rw [hall]; rfl, fun s _ => by rw [hall]; nofun⟩
  unfold check
  split
  · next hnil =>
    have hno : c.scanners = [] := map_eq_nil_iff.mp (isEmpty_iff.mp hnil)
    rw [hno]
    exact .inr ⟨nofun, _, rfl, iff_of_true trivial nofun⟩
  · cases hf : host.tempFile with
    | none =>
      have h := hn fun s => by rw [scannerRun, hf]
      exact .inr ⟨h.1, _, rfl, iff_of_true trivial h.2⟩
    | some path =>
      dsimp only
      split
      · next hw =>
        have hmap : (ofConfig isRegex c).scanners.map (runScanner host path) =
            c.scanners.map (scanned host) := by
          rw [ofConfig, map_map]
          refine map_congr_left fun s _ => ?_
          simp only [scanned, scannerRun, hf, if_pos hw]
          rfl
        rw [hmap]
        rcases joinAll_map (scanned host) c.scanners with ⟨hno, hj⟩ | ⟨results, hj, hre⟩
        · exact .inl ⟨hno, by rw [hj]; rfl⟩
        · have hmem : ∀ r, some r ∈ c.scanners.map (scanned host) ↔ r ∈ results := fun r => by simp [hre]
          refine .inr ⟨fun s hs => ?_, _, by rw [hj]; rfl, passes_aggregate.trans ?_⟩
          · have hs' := mem_map_of_mem (f := scanned host) hs
            rw [hre] at hs'
            obtain ⟨r, -, hr⟩ := mem_map.mp hs'
            rw [← hr]
            rfl
          · rw [← hmem, mem_map]
            push Not
            rfl
      · next hw =>
        have h := hn fun s => by simp only [scannerRun, hf, if_neg hw]
        exact .inr ⟨h.1, _, rfl, iff_of_true trivial h.2⟩

/-- **The check does as the configuration asks if and only if every scanner that is started ends, and
one of them reports a virus or all are forgiven.** -/
theorem antivirus_lawful_iff (isRegex : Text → Bool) (policy : FailurePolicy) (host : Host) (c : AntivirusConfig) :
    Lawful isRegex policy host c ↔ (∀ s ∈ c.scanners, scannerRun host s ≠ .hangs) ∧
      ((∃ s ∈ c.scanners, scanned host s = some .virus) ∨ ∀ s ∈ c.scanners, Forgiven policy host s) := by
  have hends : ∀ s, (scanned host s).isSome = true ↔ scannerRun host s ≠ .hangs := by
    intro s
    unfold scanned
    cases scannerRun host s <;> simp [readRun]
  unfold Lawful
  rcases check_cases isRegex host c with ⟨⟨s, hs, hnone⟩, hcheck⟩ | ⟨hall, answer, hcheck, hpasses⟩
  · refine iff_of_false (fun ⟨answer, hanswer, _⟩ => nomatch hcheck.symm.trans hanswer) ?_
    rintro ⟨hrun, -⟩
    have hsome := (hends s).mpr (hrun s hs)
    rw [hnone] at hsome
    cases hsome
  · have honly : (∃ a, AntivirusCheck.check host (.ofConfig isRegex c) = some a ∧
        (Passes a.1 → ∀ s ∈ c.scanners, Forgiven policy host s)) ↔
        (Passes answer.1 → ∀ s ∈ c.scanners, Forgiven policy host s) := by simp [hcheck]
    rw [honly, hpasses, and_iff_right fun s hs => (hends s).mp (hall s hs), imp_iff_not_or]
    push Not
    rfl

def broken : AntivirusConfig where
  scanners := [{ name := "av", command := "scan" }]

def failing : Host := ⟨some "/tmp/m", true, fun _ => .exited (some 2) 1⟩

/-- A message passes though its only scanner fails under a policy that defers on errors, and when the
scanner hangs there is no answer. -/
theorem scanner_failure_passes :
    AntivirusCheck.check failing (.ofConfig (fun _ => false) broken) = some (.pass, []) ∧
    ¬ Lawful (fun _ => false) { onScannerError := "tempfail", timeout := fun _ => 60 } failing broken ∧
    AntivirusCheck.check { failing with spawn := fun _ => .hangs } (.ofConfig (fun _ => false) broken) = none := by
  refine ⟨rfl, ?_, rfl⟩
  rintro ⟨answer, hanswer, hforgiven⟩
  cases (rfl : AntivirusCheck.check failing (.ofConfig (fun _ => false) broken) = some (.pass, [])).symm.trans hanswer
  have hpass : ("tempfail" : Text) = "pass" := hforgiven trivial _ mem_cons_self
  exact absurd hpass (by decide)

end ServerWall.Proxy
