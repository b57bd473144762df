import ServerWall.Lib.Wire

/-!
# The routes of the management interface

The protected routes of `build_router` (`serverwall-webui/src/routes/mod.rs`) with their methods; none of
their paths is exempt from the authentication (`not_exempt_of_matches`). A parameter stands for one segment
that is not empty; a literal segment comes first.
-/

namespace ServerWall.Webui

inductive Method where
  | get
  | head
  | post
  | put
  | delete
  | other (name : Text)
  deriving DecidableEq

inductive Segment where
  | literal (text : Text)
  | param (name : Text)
  deriving DecidableEq

instance : Coe String Segment := ⟨fun s => .literal s.toList⟩

structure Route where
  path : List Segment
  methods : List Method
  deriving DecidableEq

def apiRoutes : List Route := [ ⟨["status"], [.get]⟩, ⟨["frontends"], [.get, .post]⟩,
  ⟨["frontends", .param "name"], [.get, .put, .delete]⟩, ⟨["backends"], [.get, .post]⟩,
  ⟨["backends", .param "pool"], [.get, .put, .delete]⟩, ⟨["backends", .param "pool", "health"], [.get]⟩,
  ⟨["backends", .param "pool", "servers"], [.post]⟩,
  ⟨["backends", .param "pool", "servers", .param "name"], [.delete]⟩, ⟨["queue"], [.get]⟩,
  ⟨["queue", "stats"], [.get]⟩, ⟨["queue", "flush"], [.post]⟩, ⟨["queue", "purge"], [.post]⟩,
  ⟨["queue", .param "id"], [.get, .delete]⟩, ⟨["queue", .param "id", "retry"], [.post]⟩,
  ⟨["queue", .param "id", "hold"], [.post]⟩, ⟨["queue", .param "id", "release"], [.post]⟩, ⟨["certs"], [.get]⟩,
  ⟨["certs", "import"], [.post]⟩, ⟨["certs", "self-signed"], [.post]⟩, ⟨["certs", "acme"], [.post]⟩,
  ⟨["certs", .param "name"], [.get, .delete]⟩, ⟨["dkim"], [.get]⟩, ⟨["dkim", "generate"], [.post]⟩,
  ⟨["dkim", .param "domain", "dns"], [.get]⟩, ⟨["dkim", .param "domain"], [.delete]⟩, ⟨["dmarc"], [.get, .post]⟩,
  ⟨["dmarc", .param "domain", "dns"], [.get]⟩, ⟨["dmarc", .param "domain"], [.put, .delete]⟩,
  ⟨["spf"], [.get, .post]⟩, ⟨["spf", .param "domain", "record"], [.get]⟩, ⟨["spf", .param "domain"], [.put, .delete]⟩,
  ⟨["antispam", "stats"], [.get]⟩, ⟨["antispam", "checks"], [.put]⟩, ⟨["antispam", "lists"], [.get]⟩,
  ⟨["antispam", "allow", "ips"], [.post]⟩, ⟨["antispam", "allow", "ips", .param "ip"], [.delete]⟩,
  ⟨["antispam", "allow", "senders"], [.post]⟩, ⟨["antispam", "allow", "senders", .param "sender"], [.delete]⟩,
  ⟨["antispam", "allow", "domains"], [.post]⟩, ⟨["antispam", "allow", "domains", .param "domain"], [.delete]⟩,
  ⟨["antispam", "block", "ips"], [.post]⟩, ⟨["antispam", "block", "ips", .param "ip"], [.delete]⟩,
  ⟨["antispam", "block", "senders"], [.post]⟩, ⟨["antispam", "block", "senders", .param "sender"], [.delete]⟩,
  ⟨["antispam", "block", "domains"], [.post]⟩, ⟨["antispam", "block", "domains", .param "domain"], [.delete]⟩,
  ⟨["antispam", "block", "recipients"], [.post]⟩,
  ⟨["antispam", "block", "recipients", .param "recipient"], [.delete]⟩,
  ⟨["antispam", "allow", "recipients"], [.post]⟩,
  ⟨["antispam", "allow", "recipients", .param "recipient"], [.delete]⟩, ⟨["antispam", "dnsbl"], [.post]⟩,
  ⟨["antispam", "dnsbl", .param "zone"], [.delete]⟩, ⟨["antispam", "domain-overrides"], [.get, .post]⟩,
  ⟨["antispam", "domain-overrides", .param "domain"], [.put, .delete]⟩, ⟨["antispam", "surbl-zones"], [.post]⟩,
  ⟨["antispam", "surbl-zones", .param "zone"], [.delete]⟩, ⟨["antispam", "scanners"], [.get, .post]⟩,
  ⟨["antispam", "scanners", .param "name"], [.delete]⟩, ⟨["reload"], [.post]⟩, ⟨["logs"], [.get]⟩,
  ⟨["acl"], [.get, .post]⟩, ⟨["acl", "global"], [.get]⟩, ⟨["acl", "global", "allow"], [.post]⟩,
  ⟨["acl", "global", "allow", .param "ip"], [.delete]⟩, ⟨["acl", "global", "block"], [.post]⟩,
  ⟨["acl", "global", "block", .param "ip"], [.delete]⟩, ⟨["acl", .param "id"], [.get, .put, .delete]⟩,
  ⟨["waf"], [.get, .post]⟩, ⟨["waf", .param "name"], [.get, .put, .delete]⟩,
  ⟨["waf", .param "name", "clone"], [.post]⟩, ⟨["security-profiles"], [.get, .post]⟩,
  ⟨["security-profiles", .param "name"], [.get, .put, .delete]⟩, ⟨["log-profiles"], [.get, .post]⟩,
  ⟨["log-profiles", .param "name"], [.get, .put, .delete]⟩, ⟨["security"], [.get]⟩, ⟨["security", "tls"], [.put]⟩,
  ⟨["security", "geo"], [.put]⟩, ⟨["security", "headers"], [.put]⟩, ⟨["security", "bot"], [.put]⟩,
  ⟨["security", "cookies"], [.put]⟩, ⟨["security", "rate-limits"], [.post]⟩,
  ⟨["security", "rate-limits", .param "name"], [.delete]⟩, ⟨["security", "acl"], [.put]⟩, ⟨["relay"], [.get, .put]⟩,
  ⟨["relay", "trusted-hosts"], [.post]⟩, ⟨["relay", "trusted-hosts", .param "host"], [.delete]⟩,
  ⟨["settings", "global"], [.get, .put]⟩, ⟨["settings", "acme"], [.get, .put]⟩, ⟨["settings", "webui"], [.get, .put]⟩,
  ⟨["system", "webui-cert"], [.post]⟩]

/-! ## Matching -/

def matchSegments : List Segment → List Text → Bool
  | [], [] => true
  | .literal text :: pattern, segment :: rest => text == segment && matchSegments pattern rest
  | .param _ :: pattern, segment :: rest => !segment.isEmpty && matchSegments pattern rest
  | _, _ => false

def Route.matches (route : Route) (path : Text) : Bool :=
  match path.splitOn '/' with
  | [] :: segments => matchSegments (.literal "api" :: route.path) segments
  | _ => false

def Route.handles (route : Route) (method : Method) : Bool :=
  route.methods.contains (if method = .head then .get else method)

def exempt (path : Text) : Bool :=
  path == "/api/auth/login" || List.isPrefixOf "/ui/login" path || path == "/ui/login.html" || path == "/health"

/-! ## No route is exempt -/

/-- What follows `/api` is a literal segment, and not `auth`. -/
def Route.apart (route : Route) : Bool :=
  match route.path with
  | .literal text :: _ => text != "auth"
  | _ => false

theorem apiRoutes_apart : ∀ route ∈ apiRoutes, route.apart := by decide +kernel

theorem segments_of_matches (hr : route ∈ apiRoutes) (h : route.matches path) :
    (path.splitOn '/')[1]? = some ("api" : Text) ∧ (path.splitOn '/')[2]? ≠ some ("auth" : Text) := by
  have ha := apiRoutes_apart route hr
  unfold Route.matches at h
  unfold Route.apart at ha
  split at h
  · next segments hs =>
    split at ha
    · next text pattern hp =>
      rw [hp] at h
      rw [hs]
      match segments, h with
      | [_], h => simp [matchSegments] at h
      | api :: word :: rest, h =>
        simp only [matchSegments, Bool.and_eq_true, beq_iff_eq] at h
        obtain ⟨rfl, rfl, _⟩ := h
        exact ⟨rfl, fun hau => bne_iff_ne.mp ha (Option.some.inj hau)⟩
    · cases ha
  · cases h

theorem splitOn_ui (rest : Text) : ((("/ui/" : Text) ++ rest).splitOn '/')[1]? = some ("ui" : Text) := by
  have hs : '/' ∉ ([] : Text) := List.not_mem_nil
  have hui : '/' ∉ ("ui" : Text) := by decide
  have hp : (("/ui/" : Text) ++ rest).splitOn '/' = [] :: "ui" :: rest.splitOn '/' :=
    calc (("/ui/" : Text) ++ rest).splitOn '/'
      _ = ([] ++ '/' :: (("ui" : Text) ++ '/' :: rest)).splitOn '/' := rfl
      _ = [] :: "ui" :: rest.splitOn '/' := by
        rw [List.splitOn_append_cons_self_of_not_mem hs, List.splitOn_append_cons_self_of_not_mem hui]
  rw [hp]
  rfl

/-- **No path of a protected route is let through unasked.** -/
theorem not_exempt_of_matches (hr : route ∈ apiRoutes) (h : route.matches path) : exempt path = false := by
  obtain ⟨hapi, ha⟩ := segments_of_matches hr h
  have hui : ("ui" : Text) ≠ "api" := by decide
  rw [Bool.eq_false_iff]
  intro he
  simp only [exempt, Bool.or_eq_true, beq_iff_eq, List.isPrefixOf_iff_prefix] at he
  obtain ((rfl | ⟨tail, rfl⟩) | rfl) | rfl := he
  · exact ha (by decide)
  · exact hui (Option.some.inj ((splitOn_ui ("login" ++ tail)).symm.trans hapi))
  · exact hui (Option.some.inj ((splitOn_ui "login.html").symm.trans hapi))
  · revert hapi
    decide

end ServerWall.Webui
