import ServerWall.Proxy.Admission
import ServerWall.Proxy.Listener

/-!
# The server and its configurations

`Server::run` and `apply_config` (`serverwall-proxy/src/server.rs`): a reload stops all listeners and
starts the new ones in order, up to the first frontend that cannot be built; an address that cannot be
bound is only logged (`all_or_nothing_iff`, `reload_leaves_none`). A reload is one step, and the map of
listeners a list (`nodup_applyConfig`). Health checkers, relay and handlers are left out.
-/

namespace ServerWall.Frontends

open Schema Core Http Listener List AccessControlEngine

/-! ## Building a frontend -/

/-- What a configuration meets when it is applied. A certificate loads or fails with a text. -/
structure Surroundings where
  outside : Http.Outside
  loadPfx : Text → Text → Except Text Unit
  loadCombinedPem : Text → Option Text → Except Text Unit
  loadSeparateFiles : Text → Option Text → Text → Option Text → Except Text Unit
  bindReuseport : Text → Bool

def loadFromFrontend (around : Surroundings) (frontend : FrontendConfig) : Except Text Unit :=
  match frontend.tlsPfx with
  | some pfx => around.loadPfx pfx (frontend.tlsPfxPassword.getD [])
  | none =>
    match frontend.tlsCert with
    | none => .error "no TLS certificate configured (set tls_cert or tls_pfx)"
    | some cert =>
      match frontend.tlsKey with
      | some key => around.loadSeparateFiles cert frontend.tlsChain key frontend.tlsKeyPassword
      | none => around.loadCombinedPem cert frontend.tlsKeyPassword

inductive TlsVersion where
  | tls12
  | tls13
  deriving DecidableEq

/-- Every other minimum than "1.3" is taken for 1.2; nothing fails. -/
def buildTlsAcceptor (minVersion : Text) : Except Text (List TlsVersion) :=
  .ok (if minVersion = "1.3" then [.tls13] else [.tls13, .tls12])

inductive ApplyError where
  | acl (error : AclConfigError)
  /-- "TLS error in TCP frontend '{}': {}", "TLS error in Stratum frontend '{}': {}", and
  "TLS error in frontend '{}': {}" for the other protocols. -/
  | certificate (protocol : ProtocolType) (frontend : Text) (error : Text)
  | acceptor (frontend : Text) (error : Text)

/-- A listener with TLS. SMTP with STARTTLS is given a plain one, and no certificate. -/
def usesTls (frontend : FrontendConfig) : Bool :=
  match frontend.protocol with
  | .tcp | .stratum => frontend.tlsCert.isSome || frontend.tlsPfx.isSome
  | .imaps | .https | .smtps => true
  | .smtpStarttls => false

/-- HTTPS takes the minimum of its security profile, if there is one. -/
def minVersion (config : ServerWallConfig) (frontend : FrontendConfig) : Text :=
  match frontend.protocol, securityProfile config frontend with
  | .https, some profile => profile.minVersion
  | _, _ => frontend.tlsMinVersion

section

variable (around : Surroundings) (config : ServerWallConfig)

def buildTls (frontend : FrontendConfig) : Except ApplyError (List TlsVersion) :=
  match loadFromFrontend around frontend with
  | .error e => .error (.certificate frontend.protocol frontend.name e)
  | .ok () =>
    match buildTlsAcceptor (minVersion config frontend) with
    | .error e => .error (.acceptor frontend.name e)
    | .ok versions => .ok versions

/-- A frontend as far as `apply_config` builds it before it spawns its listener. -/
structure BuiltFrontend where
  frontend : FrontendConfig
  pipeline : RequestPipeline
  tls : Option (List TlsVersion)

def buildFrontend (frontend : FrontendConfig) : Except ApplyError BuiltFrontend :=
  match buildPipeline around.outside config frontend with
  | .error e => .error (.acl e)
  | .ok pipeline =>
    if usesTls frontend then
      match buildTls around config frontend with
      | .error e => .error e
      | .ok versions => .ok { frontend, pipeline, tls := some versions }
    else .ok { frontend, pipeline, tls := none }

def builds (frontend : FrontendConfig) : Bool := (buildFrontend around config frontend).isOk

/-- The listener of the frontend runs: it binds all its addresses, and there is one. -/
def binds (frontend : FrontendConfig) : Bool :=
  !frontend.listen.isEmpty && frontend.listen.all around.bindReuseport

end

/-! ## The listeners -/

/-- An entry of the map of listeners: its task may have ended at once. -/
structure LiveListener (C : Type) where
  built : BuiltFrontend
  bound : Bool
  accounting : Accounting C

variable {C : Type}

def spawnListener (around : Surroundings) (built : BuiltFrontend) : LiveListener C where
  built
  bound := binds around built.frontend
  accounting := .new built.frontend.maxConnections

/-- The loop of `apply_config` over the frontends: the listeners that are spawned, and the error
it ends with, if it does. -/
def applyConfig (around : Surroundings) (config : ServerWallConfig) :
    List FrontendConfig → List (LiveListener C) × Option ApplyError
  | [] => ([], none)
  | frontend :: rest =>
    match buildFrontend around config frontend with
    | .error e => ([], some e)
    | .ok built =>
      let (listeners, e) := applyConfig around config rest
      (spawnListener around built :: listeners, e)

inductive Phase where
  | running
  /-- The signal has come; connections are waited for until this time, in milliseconds. -/
  | draining (deadline : Nat)
  | stopped
  deriving DecidableEq

structure Server (C : Type) where
  /-- `graceful_drain_secs` of the configuration the server was started with. -/
  drainSecs : Nat
  listeners : List (LiveListener C)
  /-- The counters of the listeners of earlier configurations; their handlers may be running. -/
  former : List (Accounting C)
  now : Nat
  phase : Phase

inductive ServerEvent (C : Type) where
  /-- A connection to a listener, or the end of one of its handlers. -/
  | here (i : Nat) (event : HandlerEvent C)
  /-- The end of a handler of an earlier configuration. -/
  | former (i : Nat) (event : HandlerEvent C)
  | wait (milliseconds : Nat)
  | reload (around : Surroundings) (config : ServerWallConfig)
  | closed
  | kill
  /-- One turn of the loop that waits for connections. -/
  | poll

namespace Server

/-- The server with the listeners of its first configuration. An error of `apply_config` ends
it. -/
def start (around : Surroundings) (config : ServerWallConfig) : Except ApplyError (Server C) :=
  match applyConfig around config config.frontend with
  | (_, some e) => .error e
  | (listeners, none) => .ok {
      drainSecs := config.global.gracefulDrainSecs
      listeners
      former := []
      now := 0
      phase := .running }

/-- An error of `apply_config` is logged as "config reload failed; some listeners may not be
running". -/
def reload (s : Server C) (around : Surroundings) (config : ServerWallConfig) : Server C :=
  { s with
    listeners := (applyConfig around config config.frontend).1
    former := s.former ++ s.listeners.map (·.accounting) }

def kill (s : Server C) : Server C :=
  { s with
    phase := if s.drainSecs > 0 then .draining (s.now + s.drainSecs * 1000) else .stopped }

def total (s : Server C) : Nat := (s.listeners.map (·.accounting.activeConnections)).sum

def isDispatch : HandlerEvent C → Bool
  | .dispatch _ => true
  | _ => false

variable [DecidableEq C]

/-- One event; `none` if it cannot happen. Connections are accepted by a listener that is bound,
and may still be when the signal has come; those of earlier configurations are gone. -/
def step (s : Server C) : ServerEvent C → Option (Server C)
  | .here i event =>
    s.listeners[i]?.bind fun listener =>
      if isDispatch event && (!listener.bound || s.phase == .stopped) then none
      else
        (listener.accounting.step event).map fun accounting =>
          { s with listeners := s.listeners.set i { listener with accounting } }
  | .former i event =>
    s.former[i]?.bind fun accounting =>
      if isDispatch event then none
      else (accounting.step event).map fun next => { s with former := s.former.set i next }
  | .wait milliseconds => some { s with now := s.now + milliseconds }
  | .reload around config => if s.phase = .running then some (s.reload around config) else none
  | .closed => if s.phase = .running then some { s with phase := .stopped } else none
  | .kill => if s.phase = .running then some s.kill else none
  | .poll =>
    match s.phase with
    | .draining deadline => some (if s.total = 0 ∨ deadline ≤ s.now then { s with phase := .stopped } else s)
    | _ => none

def Next (s s' : Server C) : Prop := ∃ event, s.step event = some s'

end Server

/-! ## Reloads -/

variable {frontend : FrontendConfig}

section

variable {around : Surroundings} {config : ServerWallConfig}

theorem buildFrontend_frontend {built : BuiltFrontend}
    (h : buildFrontend around config frontend = .ok built) : built.frontend = frontend := by
  unfold buildFrontend at h
  split at h
  · cases h
  · split at h
    · split at h
      · cases h
      · cases h
        rfl
    · cases h
      rfl

theorem applyConfig_frontends (around : Surroundings) (config) (frontends : List FrontendConfig) :
    (applyConfig around config frontends : List (LiveListener C) × Option ApplyError).1.map
        (fun l => (l.built.frontend, l.bound)) =
      (frontends.takeWhile (builds around config)).map fun f => (f, binds around f) := by
  induction frontends with
  | nil => rfl
  | cons frontend rest ih =>
    unfold applyConfig
    cases hb : buildFrontend around config frontend with
    | error e =>
      have hno : builds around config frontend = false := by rw [builds, hb]; rfl
      rw [takeWhile_cons, hno]
      rfl
    | ok built =>
      have hyes : builds around config frontend = true := by rw [builds, hb]; rfl
      rw [takeWhile_cons, hyes]
      have hs := buildFrontend_frontend hb
      simp only [map_cons, spawnListener, hs, ih, if_true]

theorem nodup_applyConfig {Octet : Type} {crates : Crates Octet} {disk : Disk Octet} {path : Text}
    (around : Surroundings) (hlo : loadConfig crates disk path = .ok config) :
    ((applyConfig around config config.frontend : List (LiveListener C) × _).1.map (·.built.frontend.name)).Nodup := by
  have hl := congrArg (List.map fun entry : FrontendConfig × Bool => entry.1.name)
    (applyConfig_frontends (C := C) around config config.frontend)
  rw [map_map, map_map] at hl
  have hn := (valid_of_loadConfig hlo).frontend_names.sublist
    ((takeWhile_sublist (builds around config)).map (·.name))
  exact hl.symm.subst (motive := List.Nodup) hn

end

namespace Server

def Serves (s : Server C) (frontend : FrontendConfig) : Prop :=
  ∃ listener ∈ s.listeners, listener.built.frontend = frontend ∧ listener.bound

/-- What a reload should come to: every frontend of the new configuration is served, or every
one that was served still is; so none that had a listener and is to have one is without. -/
structure AllOrNothing (config : ServerWallConfig) (before after : Server C) : Prop where
  complete : (∀ f ∈ config.frontend, after.Serves f) ∨ ∀ f, before.Serves f → after.Serves f
  kept : ∀ f, before.Serves f → ∀ g ∈ config.frontend, g.name = f.name → ∃ h, after.Serves h ∧ h.name = f.name

variable {around : Surroundings} {config : ServerWallConfig} {s : Server C}

theorem AllOrNothing.of_complete {before after : Server C}
    (h : (∀ f ∈ config.frontend, after.Serves f) ∨ ∀ f, before.Serves f → after.Serves f) :
    AllOrNothing config before after := by
  refine ⟨h, fun f hf g hg hn => ?_⟩
  rcases h with hall | hk
  · exact ⟨g, hall g hg, hn⟩
  · exact ⟨f, hk f hf, rfl⟩

theorem serves_reload : (s.reload around config).Serves frontend ↔
      frontend ∈ config.frontend.takeWhile (builds around config) ∧ binds around frontend := by
  have hl := applyConfig_frontends (C := C) around config config.frontend
  constructor
  · rintro ⟨listener, hmem, rfl, hb⟩
    have hp := hl ▸ mem_map_of_mem hmem
    obtain ⟨f, hf, heq⟩ := mem_map.mp hp
    obtain ⟨rfl, hbi⟩ := Prod.mk.inj heq
    exact ⟨hf, hbi.trans hb⟩
  · rintro ⟨hf, hbi⟩
    have hp := hl.symm ▸ mem_map_of_mem (f := fun f => (f, binds around f)) hf
    obtain ⟨listener, hmem, heq⟩ := mem_map.mp hp
    obtain ⟨hfr, hb⟩ := Prod.mk.inj heq
    exact ⟨listener, hmem, hfr, hb.trans hbi⟩

/-- **When a reload is all or nothing.** -/
theorem all_or_nothing_iff (around : Surroundings) (config : ServerWallConfig) (s : Server C) :
    AllOrNothing config s (s.reload around config) ↔
      (∀ f ∈ config.frontend, builds around config f ∧ binds around f) ∨
      ∀ f, s.Serves f → f ∈ config.frontend.takeWhile (builds around config) ∧ binds around f := by
  constructor
  · rintro ⟨hall | hkept, -⟩
    · refine .inl fun f hf => ?_
      obtain ⟨hstarted, hbinds⟩ := serves_reload.mp (hall f hf)
      exact ⟨mem_takeWhile_imp hstarted, hbinds⟩
    · exact .inr fun f hf => serves_reload.mp (hkept f hf)
  · rintro (hall | hkept)
    · have heverything : config.frontend.takeWhile (builds around config) = config.frontend :=
        takeWhile_eq_self_iff.mpr fun f hf => (hall f hf).1
      exact .of_complete (.inl fun f hf => serves_reload.mpr ⟨heverything.symm ▸ hf, (hall f hf).2⟩)
    · exact .of_complete (.inr fun f hf => serves_reload.mpr (hkept f hf))

end Server

/-! ### Two frontends -/

def Surroundings.simple : Surroundings where
  outside := .simple
  loadPfx _ _ := .ok ()
  loadCombinedPem _ _ := .ok ()
  loadSeparateFiles _ _ _ _ := .ok ()
  bindReuseport _ := true

def twoPorts (block : List Text) : ServerWallConfig where
  frontend := [
    { name := "web", protocol := .tcp, listen := ["0.0.0.0:80"], backendPool := "pool"
      acl := { blockList := block } },
    { name := "mail", protocol := .tcp, listen := ["0.0.0.0:25"], backendPool := "pool" }]
  backendPool := [{ name := "pool", backend := [{ name := "one", address := "10.0.0.1:80" }] }]

def served : Server Nat where
  drainSecs := (twoPorts []).global.gracefulDrainSecs
  listeners := (applyConfig .simple (twoPorts []) (twoPorts []).frontend).1
  former := []
  now := 0
  phase := .running

def diskWith (config : ServerWallConfig) : Disk ServerWallConfig :=
  .ofFiles fun path => if path = "serverwall.toml" then some [config] else none

theorem reload_serves : Server.AllOrNothing (twoPorts ["203.0.113.0/24"]) served
      (served.reload .simple (twoPorts ["203.0.113.0/24"])) := by
  refine (Server.all_or_nothing_iff .simple (twoPorts ["203.0.113.0/24"]) served).mpr (.inl ?_)
  decide

theorem nodup_twoPorts : ((applyConfig .simple (twoPorts []) (twoPorts []).frontend : List (LiveListener Nat) × _).1.map
    (·.built.frontend.name)).Nodup :=
  have h : loadConfig .verbatim (diskWith (twoPorts [])) "serverwall.toml" = .ok (twoPorts []) := rfl
  nodup_applyConfig .simple h

/-- **A plain address in the list is accepted, and the reload leaves neither frontend a
listener.** -/
theorem reload_leaves_none : Server.start .simple (twoPorts []) = .ok served ∧
      (∀ f ∈ (twoPorts []).frontend, served.Serves f) ∧
      loadConfig .verbatim (diskWith (twoPorts ["192.0.2.5"])) "serverwall.toml" = .ok (twoPorts ["192.0.2.5"]) ∧
      (served.reload .simple (twoPorts ["192.0.2.5"])).listeners = [] ∧
      ¬ Server.AllOrNothing (twoPorts ["192.0.2.5"]) served (served.reload .simple (twoPorts ["192.0.2.5"])) := by
  have hserved : ∀ f ∈ (twoPorts []).frontend, served.Serves f := forall_mem_cons.mpr ⟨⟨_, .head _, rfl, rfl⟩,
      forall_mem_singleton.mpr ⟨_, .tail _ (.head _), rfl, rfl⟩⟩
  have hnone : (served.reload .simple (twoPorts ["192.0.2.5"])).listeners = [] := rfl
  have hgone : ∀ f, ¬ (served.reload .simple (twoPorts ["192.0.2.5"])).Serves f := by
    rintro f ⟨listener, hmem, _⟩
    rw [hnone] at hmem
    cases hmem
  refine ⟨rfl, hserved, rfl, hnone, ?_⟩
  rintro ⟨hall | hkept, _⟩
  · exact hgone _ (hall _ (.head _))
  · exact hgone _ (hkept _ (hserved _ (.head _)))

end ServerWall.Frontends
