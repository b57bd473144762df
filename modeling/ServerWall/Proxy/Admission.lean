import ServerWall.Core.Acl
import ServerWall.Core.Loader

/-!
# Who may connect

The pipelines of `apply_config` (`serverwall-proxy/src/server.rs`) and `RequestPipeline::check_acl`
(`pipeline.rs`). A bad entry in the lists of a frontend stops `apply_config`; in the global lists it is
logged, and the frontends run without them (`refused_iff`, `plain_address_admits`).
-/

namespace ServerWall.Http

open Schema Core List AccessControlEngine

structure Outside where
  unicode : Unicode
  addrs : AddrParser
  databases : GeoDatabases
  /-- `SocketAddr::from_str`, with the address as it prints. -/
  socketAddr : Text → Option Text
  /-- The first three bytes of a UUID of the text, in hexadecimal. -/
  tagOf : Text → Text

/-! ## The pipeline of a frontend -/

structure Backend where
  (id tag address : Text)
  weight : UInt32
  (tls tlsVerify : Bool)
  tlsSni : Option Text
  maxConnections : Option Nat

structure RequestPipeline where
  acl : AccessControlEngine
  globalIpAcl : Option AccessControlEngine
  geo : Option GeoEngine
  backends : List Backend

section

variable (outside : Outside) (config : ServerWallConfig)

def buildBackend (backend : BackendConfig) : Option Backend := (outside.socketAddr backend.address).map fun address => {
    id := backend.name
    tag := outside.tagOf (Text.fmt [backend.name, "@", address])
    address
    weight := backend.weight
    tls := backend.tls
    tlsVerify := backend.tlsVerify.getD false
    tlsSni := backend.tlsSni
    maxConnections := backend.maxConnections }

/-- The backends of a pool. The pools are a map, in which a later pool of one name
replaces an earlier one. -/
def poolBackends (name : Text) : List Backend :=
  match config.backendPool.reverse.find? (·.name == name) with
  | some pool => pool.backend.filterMap (buildBackend outside)
  | none => []

/-- The global address lists. A bad entry is logged as "global IP ACL parse error — global
ACL disabled". -/
def globalIpAcl : Option AccessControlEngine :=
  if config.security.acl.ip.allow.isEmpty && config.security.acl.ip.block.isEmpty then none
  else (AccessControlEngine.fromGlobalIp outside.addrs config.security.acl.ip).toOption

def securityProfile (frontend : FrontendConfig) : Option SecurityProfile :=
  frontend.securityProfile.bind fun name => config.securityProfiles.find? (·.name == name)

def frontendGeo (frontend : FrontendConfig) : Option GeoEngine := ((securityProfile config frontend).bind fun profile =>
      GeoEngine.fromConfig outside.unicode outside.databases profile.geo).or
    (GeoEngine.fromConfig outside.unicode outside.databases config.security.geo)

structure AclConfigError where
  frontend : Text
  error : IpNetworkParseError

def buildPipeline (frontend : FrontendConfig) : Except AclConfigError RequestPipeline :=
  match AccessControlEngine.fromConfig outside.addrs frontend.acl with
  | .error error => .error { frontend := frontend.name, error }
  | .ok acl => .ok {
      acl
      globalIpAcl := globalIpAcl outside config
      geo := frontendGeo outside config frontend
      backends := poolBackends outside config frontend.backendPool }

end

/-! ## The check -/

structure AccessDenied where
  ip : IpAddr

def refuse (ip : IpAddr) (decision : Option AclDecision) : Except AccessDenied Unit :=
  if decision = some .deny then throw ⟨ip⟩ else pure ()

namespace RequestPipeline

variable (unicode : Unicode)

def checkAcl (pipeline : RequestPipeline) (ip : IpAddr) : Except AccessDenied Unit := do
  refuse ip (pipeline.globalIpAcl.map fun global => global.evaluate ip)
  refuse ip (some (pipeline.acl.evaluate ip))
  refuse ip (pipeline.geo.map fun geo => geo.check unicode ip)

/-- The client is allowed by the global lists, for `acl_bypass_waf`. -/
def isGloballyAllowed (pipeline : RequestPipeline) (ip : IpAddr) : Bool :=
  match pipeline.globalIpAcl with
  | some global => global.evaluate ip = .allow
  | none => false

variable {unicode} {pipeline : RequestPipeline} {ip : IpAddr}

theorem refuse_then : (refuse ip decision >>= fun _ => rest) = .error ⟨ip⟩ ↔
      decision = some .deny ∨ rest = .error ⟨ip⟩ := by
  unfold refuse
  by_cases hd : decision = some .deny
  · rw [if_pos hd]
    exact ⟨fun _ => .inl hd, fun _ => rfl⟩
  · rw [if_neg hd]
    exact ⟨.inr, fun h => h.resolve_left hd⟩

theorem checkAcl_eq_error : pipeline.checkAcl unicode ip = .error ⟨ip⟩ ↔
      (∃ global, pipeline.globalIpAcl = some global ∧ global.evaluate ip = .deny) ∨ pipeline.acl.evaluate ip = .deny ∨
      ∃ geo, pipeline.geo = some geo ∧ geo.check unicode ip = .deny := by
  have hl : ∀ {decision : Option AclDecision}, refuse ip decision = .error ⟨ip⟩ ↔ decision = some .deny := by
    intro decision
    unfold refuse
    by_cases hd : decision = some .deny <;> simp [hd, throw, throwThe, MonadExceptOf.throw, pure, Except.pure]
  unfold checkAcl
  rw [refuse_then, refuse_then, hl, Option.map_eq_some_iff, Option.map_eq_some_iff, Option.some.injEq]

end RequestPipeline

/-! ## The global lists -/

/-- The client is to be refused by the global lists: it is blocked, or there is an allow
list that does not have it. -/
def Unwanted (addrs : AddrParser) (acl : IpAclConfig) (ip : IpAddr) : Prop :=
  Listed addrs acl.block ip ∨ (acl.allow ≠ [] ∧ ¬ Listed addrs acl.allow ip)

section

variable {outside : Outside} {config : ServerWallConfig} {ip : IpAddr}

variable (h : Unwanted outside.addrs config.security.acl.ip ip)
include h

theorem globalIpAcl_of_unwanted : globalIpAcl outside config =
      (fromGlobalIp outside.addrs config.security.acl.ip).toOption := by
  unfold globalIpAcl
  split
  · rename_i he
    rw [Bool.and_eq_true, List.isEmpty_iff, List.isEmpty_iff] at he
    rcases h with ⟨entry, hen, -⟩ | ⟨hne, -⟩
    · rw [he.2] at hen
      cases hen
    · exact absurd he.1 hne
  · rfl

/-- **The global lists refuse an unwanted client exactly if they hold networks only.** -/
theorem global_denies_iff : (∃ global, globalIpAcl outside config = some global ∧ global.evaluate ip = .deny) ↔
      ∀ entry ∈ config.security.acl.ip.block ++ config.security.acl.ip.allow, IsNetwork outside.addrs entry := by
  rw [globalIpAcl_of_unwanted h, ← exists_build]
  cases hb : build outside.addrs config.security.acl.ip.block
      config.security.acl.ip.allow .allow with
  | error e =>
    constructor
    · rintro ⟨global, hg, -⟩
      rw [fromGlobalIp, hb] at hg
      cases hg
    · rintro ⟨engine, he⟩
      cases he
  | ok engine =>
    have hd : engine.evaluate ip = .deny := by
      rw [evaluate_build hb]
      rcases h with hbl | ha
      · exact .inl hbl
      · exact .inr (.inl ha)
    refine ⟨fun _ => ⟨engine, rfl⟩, fun _ => ⟨engine, ?_, hd⟩⟩
    rw [fromGlobalIp, hb]
    rfl

end

/-- **Who is refused.** -/
theorem refused_iff (outside : Outside) (config : ServerWallConfig) (frontend : FrontendConfig)
    (pipeline : RequestPipeline) (hbuilt : buildPipeline outside config frontend = .ok pipeline)
    (ip : IpAddr) (hunwanted : Unwanted outside.addrs config.security.acl.ip ip) :
    pipeline.checkAcl outside.unicode ip = .error ⟨ip⟩ ↔
      (∀ entry ∈ config.security.acl.ip.block ++ config.security.acl.ip.allow, IsNetwork outside.addrs entry) ∨
      pipeline.acl.evaluate ip = .deny ∨ ∃ geo, pipeline.geo = some geo ∧ geo.check outside.unicode ip = .deny := by
  have hglobal : pipeline.globalIpAcl = globalIpAcl outside config := by
    unfold buildPipeline at hbuilt
    split at hbuilt
    · cases hbuilt
    · cases hbuilt
      rfl
  rw [RequestPipeline.checkAcl_eq_error, hglobal, global_denies_iff hunwanted]

/-! ## One entry that is a plain address -/

-- the address parser is evaluated on whole texts
set_option maxRecDepth 8192

def dottedQuad (t : Text) : Option IpAddr :=
  match (t.splitOn '.').map (Text.parseUnsigned 256) with
  | [some a, some b, some c, some d] => some (.v4 (.ofNat a) (.ofNat b) (.ofNat c) (.ofNat d))
  | _ => none

def Outside.simple : Outside where
  unicode := .ascii
  addrs := {
    parse := fun t => if t.contains '/' then none else dottedQuad t
    noSlash := fun _ h => if_pos (contains_iff_mem.mpr h) }
  databases _ := none
  socketAddr t := some t
  tagOf t := t.take 6

def blockingConfig (block : List Text) : ServerWallConfig where
  frontend := [{ name := "web", protocol := .tcp, listen := ["0.0.0.0:80"], backendPool := "pool" }]
  backendPool := [{ name := "pool", backend := [{ name := "one", address := "10.0.0.1:80" }] }]
  security := { acl := { ip := { block } } }

def webFrontend : FrontendConfig where
  name := "web"
  protocol := .tcp
  listen := ["0.0.0.0:80"]
  backendPool := "pool"

theorem network_refuses :
    ∃ pipeline, buildPipeline .simple (blockingConfig ["203.0.113.0/24"]) webFrontend = .ok pipeline ∧
      pipeline.checkAcl .ascii (.v4 203 0 113 9) = .error ⟨.v4 203 0 113 9⟩ := by
  refine ⟨_, rfl, ?_⟩
  refine (refused_iff .simple (blockingConfig ["203.0.113.0/24"]) webFrontend _ rfl _ ?_).mpr (.inl ?_)
  · exact .inl ⟨"203.0.113.0/24", mem_singleton_self _, (covers_iff rfl).mpr (by decide)⟩
  · intro entry hentry
    obtain rfl := mem_singleton.mp hentry
    exact ⟨_, rfl⟩

/-- A plain address in the list, and a client of a blocked network is admitted. -/
theorem plain_address_admits :
    validateConfig (fun _ => true) (blockingConfig ["203.0.113.0/24", "192.0.2.5"]) = .ok () ∧
    webFrontend ∈ (blockingConfig ["203.0.113.0/24", "192.0.2.5"]).frontend ∧
    Covers Outside.simple.addrs "203.0.113.0/24" (.v4 203 0 113 9) ∧
    Covers Outside.simple.addrs "192.0.2.5" (.v4 192 0 2 5) ∧
    ∃ pipeline, buildPipeline .simple (blockingConfig ["203.0.113.0/24", "192.0.2.5"]) webFrontend = .ok pipeline ∧
      pipeline.checkAcl .ascii (.v4 203 0 113 9) = .ok () ∧ pipeline.checkAcl .ascii (.v4 192 0 2 5) = .ok () :=
  ⟨rfl, mem_singleton_self _, (covers_iff rfl).mpr (by decide), .inl rfl, _, rfl, rfl, rfl⟩

end ServerWall.Http
