import ServerWall.Core.Schema
import ServerWall.Lib.Regex
import ServerWall.Waf.Request

/-!
# WAF rules

`serverwall-waf/src/rules`: what a rule looks at, what it does to the text, how rules are compiled into a
group, and how custom rules become rules (`RuleParser`). A group has the targets and transformations of its
first rule. The regex crate is a parameter (`Regexes`); the operator of a rule is always `Regex`.
-/

namespace ServerWall.Waf

open Schema

/-! ## Rules -/

inductive RuleTarget where
  | requestUri
  | path
  | queryString
  | requestHeaders
  | headerValue (name : Text)
  | requestBody
  | cookies
  | userAgent
  | remoteAddr
  deriving DecidableEq

inductive Transformation where
  | lowercase
  | urlDecode
  | htmlEntityDecode
  | base64Decode
  | removeWhitespace
  | normalizePath
  | none
  deriving DecidableEq

structure WafRule where
  id : UInt32
  description : Text
  targets : List RuleTarget
  pattern : Text
  transformations : List Transformation
  severity : UInt8
  score : UInt32
  /-- The least paranoia level at which the rule is active. -/
  paranoiaLevel : UInt8

def WafRule.regex (id : UInt32) (description : Text) (targets : List RuleTarget) (pattern : Text)
    (severity : UInt8) (score : UInt32) (paranoiaLevel : UInt8) : WafRule where
  id := id
  description := description
  targets := targets
  pattern := pattern
  transformations := [.lowercase, .urlDecode]
  severity := severity
  score := score
  paranoiaLevel := paranoiaLevel

/-! ## Transformations -/

def hexDigit? (c : Char) : Option Nat :=
  let v := c.toNat
  if 48 ≤ v ∧ v ≤ 57 then some (v - 48)
  else if 97 ≤ v ∧ v ≤ 102 then some (v - 87)
  else if 65 ≤ v ∧ v ≤ 70 then some (v - 55)
  else none

/-- `u8::from_str_radix(.., 16)` of two characters, as a character. The first may be a
plus sign. -/
def hexByte (a b : Char) : Option Char :=
  match (if a = '+' then some 0 else hexDigit? a), hexDigit? b with
  | some m, some n => some (Char.ofNat (16 * m + n))
  | _, _ => Option.none

def urlDecode : Text → Text
  | '%' :: a :: b :: rest =>
    match hexByte a b with
    | some c => c :: urlDecode rest
    | Option.none => '%' :: a :: b :: urlDecode rest
  | c :: rest =>
    -- a percent sign before the last character takes it along as it is
    if c = '%' then c :: rest
    else if c = '+' then ' ' :: urlDecode rest
    else c :: urlDecode rest
  | [] => []

/-- `str::replace`; the counter skips the rest of an occurrence. -/
def replaceFrom (pat rep : Text) : Nat → Text → Text
  | _, [] => []
  | n + 1, _ :: t => replaceFrom pat rep n t
  | 0, c :: t =>
    if pat <+: c :: t then rep ++ replaceFrom pat rep (pat.length - 1) t
    else c :: replaceFrom pat rep 0 t

/-- `str::replace` of a text that is not empty. -/
def replace (pat rep t : Text) : Text := replaceFrom pat rep 0 t

def htmlEntities : List (Text × Text) :=
  [("&amp;", "&"), ("&lt;", "<"), ("&gt;", ">"), ("&quot;", "\""), ("&#39;", "'"),
    ("&apos;", "'"), ("&#x27;", "'"), ("&#x2f;", "/"), ("&#x2F;", "/"), ("&#34;", "\""),
    ("&#60;", "<"), ("&#62;", ">")]

def htmlEntityDecode (t : Text) : Text := htmlEntities.foldl (fun t e => replace e.1 e.2 t) t

/-- While there are two slashes in a row, pairs become one; a round that changes something
makes the text shorter. -/
def collapseSlashes : Nat → Text → Text
  | 0, t => t
  | n + 1, t => if ("//" : Text) <:+: t then collapseSlashes n (replace "//" "/" t) else t

def normalizePath (t : Text) : Text :=
  let slashes := t.map fun c => if c = '\\' then '/' else c
  replace "/./" "/" (collapseSlashes slashes.length slashes)

def base64Table : Bytes := Text.bytes "ABCDEFGHIJKLMNOPQRSTUVWXYZabcdefghijklmnopqrstuvwxyz0123456789+/"

def base64Val (c : UInt8) : Option UInt8 := (base64Table.idxOf? c).map fun p => .ofNat p

def base64Chunk (chunk : Bytes) : Option Bytes := do
  let len := chunk.countP fun b => b != 61
  if len < 2 then Option.none else
  let a ← chunk[0]?.bind base64Val
  let b ← chunk[1]?.bind base64Val
  let first := a <<< 2 ||| b >>> 4
  if len ≤ 2 then pure [first] else
  let c ← chunk[2]?.bind base64Val
  let second := b <<< 4 ||| c >>> 2
  if len ≤ 3 then pure [first, second] else
  let d ← chunk[3]?.bind base64Val
  pure [first, second, c <<< 6 ||| d]

def simpleBase64Decode (input : Bytes) : Option Bytes := do
  let chunks ← (input.toChunks 4).mapM base64Chunk
  pure chunks.flatten

/-- `decode_base64`: only of what looks like base64, and only to UTF-8. -/
def decodeBase64 (t : Text) : Option Text :=
  let trimmed := t.trim
  if trimmed.isEmpty || !trimmed.all (fun c => c.isAlphanum || c == '+' || c == '/' || c == '=')
  then Option.none
  else (simpleBase64Decode trimmed.bytes).bind Text.ofBytes

namespace RuleMatcher

variable (unicode : Unicode)

def applyTransformation (t : Text) : Transformation → Text
  | .lowercase => unicode.toLowercase t
  | .urlDecode => Waf.urlDecode t
  | .htmlEntityDecode => Waf.htmlEntityDecode t
  | .base64Decode => (decodeBase64 t).getD t
  | .removeWhitespace => t.filter fun c => !Text.isWhitespace c
  | .normalizePath => Waf.normalizePath t
  | .none => t

def applyTransformations (input : Text) (transformations : List Transformation) : Text :=
  transformations.foldl (applyTransformation unicode) input

/-- The values of a target. `lossy` is `String::from_utf8_lossy`. -/
def extractTargets (lossy : Bytes → Text) (ctx : HttpRequestContext) : RuleTarget → List Text
  | .requestUri => [ctx.uri]
  | .path => [ctx.path]
  | .queryString => if ctx.queryString.isEmpty then [] else [ctx.queryString]
  | .requestHeaders => ctx.headers.values
  | .headerValue name =>
    (ctx.headers.entries.filter fun e => unicode.toLowercase e.1 == unicode.toLowercase name).map Prod.snd
  | .requestBody => if (lossy ctx.body).isEmpty then [] else [lossy ctx.body]
  | .cookies => ctx.cookies.values
  | .userAgent => ctx.userAgent.toList
  | .remoteAddr => [ctx.remoteAddr.toText]

end RuleMatcher

/-! ## Groups -/

structure Regexes where
  regex : Text → Option (Text → Bool)
  setCompiles : List Text → Bool
  /-- A set holds no pattern that does not compile. -/
  compiles_each : ∀ patterns, setCompiles patterns = true → ∀ p ∈ patterns, (regex p).isSome = true

def Regexes.isMatch (regexes : Regexes) (pattern input : Text) : Bool :=
  match regexes.regex pattern with
  | some matcher => matcher input
  | Option.none => false

def Regexes.parsed (tables : CharTables) : Regexes where
  regex pattern := (Regex.parse pattern).map (Regex.isMatch tables)
  setCompiles patterns := patterns.all fun p => (Regex.parse p).isSome
  compiles_each patterns h p hp := by
    rw [Option.isSome_map]
    exact List.all_eq_true.mp h p hp

/-- `CompiledRuleGroup`, with its regex set by the patterns it holds, in the order of the
rules. -/
structure CompiledRuleGroup where
  regexSet : List Text
  rules : List WafRule
  targets : List RuleTarget
  aligned : regexSet = rules.map (·.pattern)

namespace CompiledRuleGroup

variable (regexes : Regexes)

/-- All rules in one set; if that fails, those whose pattern compiles alone. -/
def compile : List WafRule → Option CompiledRuleGroup
  | [] => Option.none
  | first :: rest =>
    let rules := first :: rest
    if regexes.setCompiles (rules.map (·.pattern)) then
      some { regexSet := rules.map (·.pattern), rules, targets := first.targets, aligned := rfl }
    else
      let valid := rules.filter fun r => (regexes.regex r.pattern).isSome
      if valid.isEmpty then Option.none
      else if regexes.setCompiles (valid.map (·.pattern)) then
        some {
          regexSet := valid.map (·.pattern)
          rules := valid
          targets := first.targets
          aligned := rfl }
      else Option.none

def «matches» (group : CompiledRuleGroup) (input : Text) : List Nat :=
  (List.range group.regexSet.length).filter fun i =>
    (group.regexSet[i]?).any fun p => regexes.isMatch p input

end CompiledRuleGroup

/-! ## Custom rules -/

def escapeRegex (t : Text) : Text := t.flatMap fun c =>
    if c.toNat == 0x7b || c.toNat == 0x7d || ("\\.+*?()|[]^$#&-~" : Text).contains c
    then ['\\', c] else [c]

namespace RuleParser

variable (unicode : Unicode)

def parseTarget (matchField : Text) : Option RuleTarget :=
  let field := unicode.toLowercase matchField
  let oneOf (names : List Text) : Bool := names.contains field
  if oneOf ["uri", "request_uri"] then some .requestUri
  else if oneOf ["path"] then some .path
  else if oneOf ["query", "query_string", "args"] then some .queryString
  else if oneOf ["body", "request_body"] then some .requestBody
  else if oneOf ["headers", "request_headers"] then some .requestHeaders
  else if oneOf ["user_agent", "ua"] then some .userAgent
  else if oneOf ["cookie", "cookies"] then some .cookies
  else if oneOf ["remote_addr", "ip"] then some .remoteAddr
  else Option.none

/-- An unknown operator is treated as a regex, as `detect_sqli` and `detect_xss` are. -/
def operatorToPattern (operator pattern : Text) : Text :=
  let name := unicode.toLowercase operator
  let oneOf (names : List Text) : Bool := names.contains name
  if oneOf ["regex", "rx"] then pattern
  else if oneOf ["contains", "contains_word"] then escapeRegex pattern
  else if oneOf ["equals", "eq", "streq"] then Text.fmt ["^", escapeRegex pattern, "$"]
  else if oneOf ["starts_with", "beginswith"] then Text.fmt ["^", escapeRegex pattern]
  else if oneOf ["ends_with", "endswith"] then Text.fmt [escapeRegex pattern, "$"]
  else pattern

/-- A rule with one target, `Severity::Error` and five points; none if the field to match
is unknown. -/
def convertCustomRule (custom : WafCustomRule) : Option WafRule :=
  (parseTarget unicode custom.matchField).map fun target => {
    id := .ofNat custom.id
    description := custom.description
    targets := [target]
    pattern := operatorToPattern unicode custom.operator custom.pattern
    transformations := [.lowercase]
    severity := 2
    score := 5
    paranoiaLevel := 1 }

/-- An entry of a rules directory: the extension of its name and, if it can be read and
parsed, the rules it holds. -/
structure RuleFile where
  extension : Option Text
  rules : Option (List WafCustomRule)

/-- The rules of the files named `*.toml`; files that do not parse are skipped. -/
def loadFromDir (entries : List RuleFile) : List WafRule :=
  (entries.filter fun file => file.extension == some ("toml" : Text)).flatMap fun file =>
    (file.rules.getD []).filterMap (convertCustomRule unicode)

/-- The inline rules, then those of the directory if there is one. -/
def fromRulesetConfig (dirs : Text → Option (List RuleFile)) (config : WafRulesetConfig) :
    List WafRule :=
  config.customRules.filterMap (convertCustomRule unicode) ++ loadFromDir unicode ((config.rulesDir.bind dirs).getD [])

end RuleParser

end ServerWall.Waf
