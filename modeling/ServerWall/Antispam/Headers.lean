import ServerWall.Antispam.Pipeline

/-!
# Spam headers

`SpamHeaderBuilder::build_headers` of `serverwall-antispam/src/headers.rs`: the
(name, value) pairs that describe a report. Scores are printed with one
decimal, rounded half to even on the exact value, the sign kept on a value
that rounds to zero.
-/

namespace ServerWall.Antispam

open Text

/-- A natural numerator over a positive denominator, rounded half to even. -/
def roundHalfEven (num den : Nat) : Nat :=
  let q := num / den
  let r := num % den
  if 2 * r < den then q
  else if 2 * r > den then q + 1
  else if q % 2 = 0 then q else q + 1

def decimal1 (x : ℚ) : Text :=
  let tenths := roundHalfEven (x.num.natAbs * 10) x.den
  let sign : Text := if x < 0 then "-" else ""
  fmt [sign, dec (tenths / 10), ".", dec (tenths % 10)]

example : decimal1 (13 / 4) = ("3.2" : Text) := by decide +kernel
example : decimal1 (-1 / 25) = ("-0.0" : Text) := by decide +kernel

namespace SpamHeaderBuilder

def authenticationResults (authservId : Text) (auth : AuthenticationResults) : Text :=
  fmt [authservId, "; spf=", auth.spf.toText, " ; dkim=", auth.dkim.toText,
    " ; dmarc=", auth.dmarc.toText, " ; arc=", auth.arc.toText]

def flag : SpamVerdict → Text
  | .spam => "YES"
  | _ => "NO"

def statusWord : SpamVerdict → Text
  | .clean => "No"
  | .suspect => "Maybe"
  | .spam => "Yes"

def testsText (contributions : List ScoreContribution) : Text := if contributions.isEmpty then "none"
  else List.intercalate "," (contributions.map fun c => fmt [c.checkName, "=", decimal1 c.score])

def reportText (contributions : List ScoreContribution) : Text := List.intercalate "\r\n\t" (contributions.map fun c => fmt ["* ", decimal1 c.score, " ", c.checkName, " -- ", c.description])

def header (name value : Text) : Text × Text := (name, value)

def buildHeaders (report : SpamReport) (authservId : Text) : List (Text × Text) :=
  [header "X-Spam-Score" (decimal1 report.score.value), header "X-Spam-Flag" (flag report.verdict),
   header "X-Spam-Status" (fmt [statusWord report.verdict, ", score=",
     decimal1 report.score.value, " tests=[", testsText report.contributions, "]"])] ++
  (if report.contributions.isEmpty then [] else [header "X-Spam-Report" (reportText report.contributions)]) ++
  [header "Authentication-Results" (authenticationResults authservId report.authResults)]

end SpamHeaderBuilder

end ServerWall.Antispam
