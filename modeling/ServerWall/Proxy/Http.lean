import ServerWall.Lib.Prog
import ServerWall.Proxy.Admission
import ServerWall.Waf.Engine

/-!
# One request of an HTTPS frontend

`apply_config` for an HTTPS frontend and `handle_request` (`serverwall-proxy/src/proxy/http_proxy.rs`)
up to the backend, a program over what it does outside its own memory (`HttpOp`). `handle_request` asks
the frontend's own `waf_enabled`, `apply_config` the effective one. What becomes of the response is left
out. A header value comes with its text if it has one.
-/

namespace ServerWall.Http

open Schema Core Waf Text

/-! ## Requests -/

structure Uri where
  (text path : Text)
  pathAndQuery : Option Text

structure Request where
  method : Text
  uri : Uri
  /-- In their order; `none` where `to_str` fails. -/
  headers : List (Text × Option Text)

structure OutboundRequest where
  (method uri : Text)
  headers : List (Text × Text)
  body : Bytes

structure Response where
  status : Nat
  headers : List (Text × Text)
  body : Bytes

structure ErrorResponse where
  status : Nat
  body : Text
  deriving DecidableEq

structure Libraries extends Outside where
  lossy : Bytes → Text
  regexes : Regexes
  ruleDirs : Text → Option (List RuleParser.RuleFile)
  groupOrder : MapOrder (Option RuleTarget × List WafRule)
  headerOrder : MapOrder (Text × Text)
  headerName : Text → Bool
  headerValue : Text → Bool
  /-- The builder accepts all parts of the request. -/
  builds : OutboundRequest → Bool

def Libraries.waf (lib : Libraries) : Externals where
  unicode := lib.unicode
  lossy := lib.lossy
  regexes := lib.regexes

/-! ## The proxy of a frontend -/

inductive RateLimitKey where
  | clientIp
  | header (name : Text)
  deriving DecidableEq

def RateLimitKey.fromStr (s : Text) : RateLimitKey := if s == "client_ip".toList then .clientIp
  else match stripPrefix "header:" s with
    | some name => .header name
    | none => .clientIp

/-- `HttpProxy`. A rate limiter is known by its place in the list. -/
structure HttpProxy where
  waf : Option WafEngine
  frontendConfig : FrontendConfig
  pipeline : RequestPipeline
  pathAcl : Option PathAcl
  botDetection : BotDetectionConfig
  rateLimiters : List RateLimitKey
  aclBypassWaf : Bool
  (domainAllow domainBlock : List Text)

structure EffectiveSettings where
  wafEnabled : Bool
  wafRuleset : Option Text
  botDetection : BotDetectionConfig

section

variable (lib : Libraries) (config : ServerWallConfig) (frontend : FrontendConfig)

/-- The settings of the profile, or else those of the frontend. A profile that is missing is
logged as "security profile not found; falling back to global settings". -/
def effectiveSettings : EffectiveSettings :=
  match securityProfile config frontend with
  | some profile => {
      wafEnabled := profile.wafEnabled
      wafRuleset := profile.wafRuleset
      botDetection := profile.botDetection }
  | none => {
      wafEnabled := frontend.wafEnabled
      wafRuleset := frontend.wafRuleset
      botDetection := config.security.botDetection }

def buildEngine (ruleset : Option Text) : WafEngine :=
  match ruleset.bind fun name => config.wafRuleset.find? (·.name == name) with
  | some ruleset => .fromRulesetConfig lib.waf lib.groupOrder lib.ruleDirs ruleset
  | none => .new lib.waf .blocking

def buildWaf : Option WafEngine :=
  let settings := effectiveSettings config frontend
  if settings.wafEnabled && config.security.enabled then
    some (buildEngine lib config settings.wafRuleset)
  else none

def buildPathAcl : Option PathAcl :=
  let acl := PathAcl.fromConfig lib.unicode lib.regexes.regex config.security.acl.pathPatterns
  if acl.isEmpty then none else some acl

def buildProxy : Except AclConfigError HttpProxy := do
  let pipeline ← buildPipeline lib.toOutside config frontend
  pure {
    waf := buildWaf lib config frontend
    frontendConfig := frontend
    pipeline
    pathAcl := buildPathAcl lib config
    botDetection := (effectiveSettings config frontend).botDetection
    rateLimiters := config.security.rateLimit.map fun limit => .fromStr limit.key
    aclBypassWaf := config.security.acl.aclBypassWaf
    domainAllow := config.security.acl.domain.allow
    domainBlock := config.security.acl.domain.block }

end

/-! ## Operations -/

inductive HttpOp where
  | newId
  /-- `req.collect`: the body, if it can be read. -/
  | collect
  | checkKey (limiter : Nat) (key : Text)
  | inspect (engine : WafEngine) (ctx : HttpRequestContext)
  | findByTag (backends : List Backend) (tag : Text)
  | select (backends : List Backend) (ip : IpAddr)
  /-- `forward_to_backend`: the response, unless that fails. -/
  | forward (backend : Backend) (request : OutboundRequest)

def HttpOp.Res : HttpOp → Type
  | .newId => Text
  | .collect => Option Bytes
  | .checkKey _ _ => Bool
  | .inspect _ _ => WafVerdict
  | .findByTag backends tag => Option { b : Backend // b ∈ backends ∧ b.tag = tag }
  | .select backends _ => Option { b : Backend // b ∈ backends }
  | .forward _ _ => Option Response

abbrev Steps := ExceptT ErrorResponse (Prog HttpOp HttpOp.Res)

def perform (op : HttpOp) : Steps op.Res := ExceptT.lift (Prog.perform op)

def badRequest : ErrorResponse := ⟨400, "Bad Request"⟩
def forbidden : ErrorResponse := ⟨403, "Forbidden"⟩
def tooManyRequests : ErrorResponse := ⟨429, "Too Many Requests"⟩
def internalServerError : ErrorResponse := ⟨500, "Internal Server Error"⟩
def badGateway : ErrorResponse := ⟨502, "Bad Gateway"⟩

def refuseIf (condition : Bool) (response : ErrorResponse) : Steps Unit := if condition then throw response else pure ()

/-! ## Checks without a memory -/

def knownBadBotSignatures : List Text :=
  ["masscan", "nikto", "sqlmap", "nmap", "zgrab", "python-requests", "go-http-client", "curl/",
    "wget/", "libwww-perl", "scrapy", "semrushbot", "ahrefsbot", "mj12bot", "dotbot", "blexbot",
    "majestic", "petalbot", "bytespider", "claudebot"]

/-- A user agent with a bad signature, unless it has one of the good ones. -/
def isBlockedBot (unicode : Unicode) (userAgent : Text) (config : BotDetectionConfig) : Bool :=
  let uaLower := unicode.toLowercase userAgent
  if config.knownGoodBots.any fun good => unicode.toLowercase good <:+: uaLower then false
  else knownBadBotSignatures.any fun sig => sig <:+: uaLower

/-- The value of a cookie: that of the first pair with its name. -/
def parseCookie (headers : Fields) (name : Text) : Option Text := do
  let header ← headers.get? "cookie"
  (header.splitOn ';').findSome? fun pair =>
    let pair := trim pair
    if pair.contains '=' && trim (splitFirst '=' pair).1 == name then
      some (trim (splitFirst '=' pair).2)
    else none

section

variable (lib : Libraries) (proxy : HttpProxy) (ja3 : Option Text) (request : Request)

/-- The header map: names in lower case, values that are text, the last of a name. -/
def headerMap : Fields := .ofPairs (request.headers.filterMap fun header => header.2.map fun value => (lib.unicode.toLowercase header.1, value))

def pathDenied : Bool := proxy.pathAcl.any fun acl => acl.check request.uri.path = some .deny

/-- The domain of the `Host` header, without its port. -/
def hostOf : Text :=
  match (headerMap lib request).get? "host" with
  | some host => lib.unicode.toLowercase (splitFirst ':' host).1
  | none => []

/-- The domain is blocked, or there is an allow list without it. A request without a domain
passes. -/
def domainDenied : Bool :=
  let host := hostOf lib request
  let listed (domains : List Text) : Bool :=
    domains.any fun d => host == lib.unicode.toLowercase d
  !host.isEmpty && (listed proxy.domainBlock || !proxy.domainAllow.isEmpty && !listed proxy.domainAllow)

/-- The user agent is a bad bot's, or the fingerprint of the handshake is blocked. -/
def botDenied : Bool := proxy.botDetection.enabled &&
    (isBlockedBot lib.unicode (((headerMap lib request).get? "user-agent").getD []) proxy.botDetection ||
      ja3.any fun fingerprint => proxy.botDetection.ja3FingerprintBlockList.contains fingerprint)

end

/-! ## The request -/

section

variable (lib : Libraries) (proxy : HttpProxy) (ip : IpAddr) (ja3 : Option Text) (request : Request)

/-- The key of a limiter; a header that is missing gives the empty key. -/
def rateLimitKey : RateLimitKey → Text
  | .clientIp => ip.toText
  | .header name => ((headerMap lib request).get? (lib.unicode.toLowercase name)).getD []

/-- The limiters one after the other; the empty key is not limited. -/
def limitRequests : List RateLimitKey → Nat → Steps Unit
  | [], _ => pure ()
  | limit :: rest, i => do
    let key := rateLimitKey lib ip request limit
    if key.isEmpty then limitRequests rest (i + 1)
    else
      let admitted ← perform (.checkKey i key)
      refuseIf (!admitted) tooManyRequests
      limitRequests rest (i + 1)

def wafBypassed : Bool := proxy.aclBypassWaf && proxy.pipeline.isGloballyAllowed ip

def wafContext (body : Bytes) : HttpRequestContext :=
  .fromParts lib.unicode request.method request.uri.text (headerMap lib request) body ip ja3

/-- The inspection, where there is an engine and the frontend asks for it. -/
def inspectRequest (body : Bytes) : Steps Unit :=
  match proxy.waf with
  | some engine =>
    if proxy.frontendConfig.wafEnabled && !wafBypassed proxy ip then do
      let verdict ← perform (.inspect engine (wafContext lib ip ja3 request body))
      refuseIf verdict.decision.isBlocked forbidden
    else pure ()
  | none => pure ()

def selectBackend : Steps Backend := do
  match ← perform (.select proxy.pipeline.backends ip) with
  | some backend => pure backend.val
  | none => throw badGateway

/-- By the tag in the cookie if sessions are sticky, and by the balancer otherwise. -/
def chooseBackend : Steps Backend := do
  let tag :=
    if proxy.frontendConfig.balancer = .stickySession then
      parseCookie (headerMap lib request) proxy.frontendConfig.sessionCookie
    else none
  match tag with
  | some tag =>
    match ← perform (.findByTag proxy.pipeline.backends tag) with
    | some backend => pure backend.val
    | none => selectBackend proxy ip
  | none => selectBackend proxy ip

def hopByHopHeaders : List Text :=
  ["connection", "keep-alive", "proxy-authenticate", "proxy-authorization", "proxy-connection",
    "te", "trailer", "transfer-encoding", "upgrade"]

def headerWhen (condition : Bool) (name : Text) (value : Option Text) : List (Text × Text) :=
  if condition then (value.map fun v => (name, v)).toList else []

/-- The headers of the client that are forwarded, and those the proxy adds. -/
def outboundHeaders (requestId : Text) : List (Text × Text) :=
  let fields := headerMap lib request
  let config := proxy.frontendConfig.headers
  let valid (header : Text × Text) : Bool := lib.headerName header.1 && lib.headerValue header.2
  ((lib.headerOrder.arrange fields.entries).filter fun header =>
      !hopByHopHeaders.contains (lib.unicode.toLowercase header.1) && valid header) ++
    headerWhen config.xForwardedFor "X-Forwarded-For" (some (match fields.get? "x-forwarded-for" with
        | some existing => fmt [existing, ", ", ip.toText]
        | none => ip.toText)) ++
    headerWhen config.xRealIp "X-Real-IP" (some ip.toText) ++
    headerWhen config.xForwardedProto "X-Forwarded-Proto" (some (if proxy.frontendConfig.protocol = .https then "https" else "http")) ++
    headerWhen config.xForwardedHost "X-Forwarded-Host" (fields.get? "host") ++
    headerWhen config.xForwardedPort "X-Forwarded-Port" ((fields.get? "host").map (lastPiece ':')) ++
    headerWhen config.xRequestId "X-Request-ID" (some requestId) ++
    (config.custom.map fun header => (header.name, header.value)).filter valid

def outboundRequest (requestId : Text) (backend : Backend) (body : Bytes) : OutboundRequest where
  method := request.method
  uri := fmt ["http://", backend.address, request.uri.pathAndQuery.getD "/"]
  headers := outboundHeaders lib proxy ip request requestId
  body := body

def forwardRequest (requestId : Text) (backend : Backend) (body : Bytes) : Steps Response := do
  let outbound := outboundRequest lib proxy ip request requestId backend body
  refuseIf (!lib.builds outbound) internalServerError
  match ← perform (.forward backend outbound) with
  | some response => pure response
  | none => throw badGateway

def collectBody : Steps Bytes := do
  match ← perform .collect with
  | some body => pure body
  | none => throw badRequest

def handleRequest : Steps Response := do
  let requestId ← perform .newId
  let body ← collectBody
  refuseIf (pathDenied proxy request) forbidden
  refuseIf (domainDenied lib proxy request) forbidden
  refuseIf (botDenied lib proxy ja3 request) forbidden
  limitRequests lib ip request proxy.rateLimiters 0
  inspectRequest lib proxy ip ja3 request body
  let backend ← chooseBackend lib proxy ip request
  forwardRequest lib proxy ip request requestId backend body

/-- A request of a connection, which `run_https_frontend` drops if the client is refused. -/
def serveRequest : Prog HttpOp HttpOp.Res (Option (Except ErrorResponse Response)) :=
  match proxy.pipeline.checkAcl lib.unicode ip with
  | .error _ => pure none
  | .ok () => do
    let answer ← (handleRequest lib proxy ip ja3 request).run
    pure (some answer)

end

end ServerWall.Http
