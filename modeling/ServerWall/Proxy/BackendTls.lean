import ServerWall.Lib.Histories
import ServerWall.Proxy.Admission

/-!
# TLS to a backend

How each protocol connects to a backend: `connect_backend` and `connect_backend_tls`
(`serverwall-proxy/src/pipeline.rs`) and their callers. Only the handlers of `tcp` look at the mark `tls`
(`tls_honoured_iff`, `sent_in_clear`). An operation `transfer` is all that a session sends and receives.
-/

namespace ServerWall.BackendTls

open Http Schema Protocol

/-! ## Operations -/

inductive ServerName where
  | ipAddress (address : Text)
  | dnsName (name : Text)

inductive Stream where
  | tcp (address : Text)
  | tls (address : Text) (name : ServerName)

inductive Attempt where
  | buildTlsConnector (verify : Bool) (caBundle : Option Text)
  | connect (address : Text)
  | serverName (sni : Text)
  | handshake (address : Text) (name : ServerName)

inductive SessionOp where
  | attempt (attempt : Attempt)
  /-- All that is then passed on, for a backend and on a stream. -/
  | transfer (backend : Backend) (stream : Stream)

/-- Whether the attempt succeeded; the bytes that were sent. -/
def SessionOp.Res : SessionOp → Type
  | .attempt _ => Bool
  | .transfer _ _ => Bytes

abbrev Steps (α : Type) : Type := ExceptT Unit (Prog SessionOp SessionOp.Res) α

def require (attempt : Attempt) : Steps Unit := do
  let ok : Bool ← ExceptT.lift (Prog.perform (SessionOp.attempt attempt))
  if ok then pure () else throw ()

def transfer (backend : Backend) (stream : Stream) : Steps Unit := do
  let _ ← ExceptT.lift (Prog.perform (SessionOp.transfer backend stream))

/-! ## Connecting -/

def connectBackend (address : Text) : Steps Stream := do
  require (.connect address)
  return .tcp address

def backendName (backend : Backend) : Steps ServerName :=
  let sni := backend.tlsSni.getD ""
  if sni.isEmpty then pure (.ipAddress backend.address)
  else do
    require (.serverName sni)
    return .dnsName sni

/-- `RequestPipeline::connect_backend_tls`; the settings are those of `security.tls`. -/
def connectBackendTls (settings : SecurityTlsConfig) (backend : Backend) : Steps Stream := do
  let verify := if backend.tlsVerify then true else settings.backendTlsVerify
  require (.buildTlsConnector verify settings.backendCaBundle)
  require (.connect backend.address)
  let name ← backendName backend
  require (.handshake backend.address name)
  return .tls backend.address name

def forwardPlain (backend : Backend) : Steps Unit := do
  let stream ← connectBackend backend.address
  transfer backend stream

def handleTcpConnection (settings : SecurityTlsConfig) (backend : Backend) : Steps Unit := if backend.tls then do
    let stream ← connectBackendTls settings backend
    transfer backend stream
  else forwardPlain backend

def handleTlsTcpConnection (settings : SecurityTlsConfig) (backend : Backend) : Steps Unit :=
  handleTcpConnection settings backend

def handleStratumConnection (backend : Backend) : Steps Unit := forwardPlain backend

def handleTlsStratumConnection (backend : Backend) : Steps Unit := forwardPlain backend

/-- "Connect to backend (plain TCP to IMAP backend)". -/
def imapConnection (backend : Backend) : Steps Unit := forwardPlain backend

def httpForwardToBackend (backend : Backend) : Steps Unit := forwardPlain backend

/-- `forward_to_backend` of the SMTP proxy, which is given the address only. -/
def smtpForwardToBackend (backend : Backend) : Steps Unit := forwardPlain backend

/-! ## Sessions -/

/-- Requests or messages one after the other. An error is answered to the client. -/
def forwards (forward : Steps Unit) : Nat → Prog SessionOp SessionOp.Res Unit
  | 0 => pure ()
  | n + 1 => do
    let _ ← forward.run
    forwards forward n

/-- What the handler of a frontend does once a backend is chosen; with HTTP and SMTP, as many
requests or messages as are forwarded to it. -/
def session (config : ServerWallConfig) (frontend : FrontendConfig) (backend : Backend)
    (count : Nat) : Prog SessionOp SessionOp.Res Unit :=
  match frontend.protocol with
  | .tcp =>
    if frontend.tlsCert.isSome || frontend.tlsPfx.isSome then
      forwards (handleTlsTcpConnection config.security.tls backend) 1
    else forwards (handleTcpConnection config.security.tls backend) 1
  | .stratum =>
    if frontend.tlsCert.isSome || frontend.tlsPfx.isSome then
      forwards (handleTlsStratumConnection backend) 1
    else forwards (handleStratumConnection backend) 1
  | .imaps => forwards (imapConnection backend) 1
  | .https => forwards (httpForwardToBackend backend) count
  | .smtps => forwards (smtpForwardToBackend backend) count
  | .smtpStarttls => forwards (smtpForwardToBackend backend) count

/-! ## What is sent inside TLS -/

/-- After what was done, a transfer for a backend marked `tls` is on a stream to it on which the
handshake succeeded. -/
def Sealed (h : History SessionOp SessionOp.Res) : SessionOp → Prop
  | .transfer backend stream =>
    backend.tls = true → ∃ name, stream = .tls backend.address name ∧
      (⟨.attempt (.handshake backend.address name), true⟩ : Σ op, SessionOp.Res op) ∈ h
  | .attempt _ => True

/-- The protocol of sessions that send to backends marked `tls` inside TLS only. -/
abbrev sealing : Protocol SessionOp SessionOp.Res Unit (History SessionOp SessionOp.Res) Unit := .ofHistory Sealed

section

variable {h : History SessionOp SessionOp.Res} {backend : Backend}

theorem follows_require_bind {α : Type} {attempt : Attempt} {next : Unit → Steps α}
    {post : History SessionOp SessionOp.Res → Except Unit α → Prop} (he : ∀ h, post h (.error ()))
    (hok : sealing.Follows () (next ()).run (h ++ [⟨.attempt attempt, true⟩]) post) :
    sealing.Follows () (require attempt >>= next).run h post := by
  rw [follows_exceptT_bind]
  refine ⟨trivial, fun ok : Bool => ?_⟩
  cases ok with
  | true => exact hok
  | false => exact he _

def SealedStream (backend : Backend) (h : History SessionOp SessionOp.Res) : Except Unit Stream → Prop
  | .ok stream => Sealed h (.transfer backend stream)
  | .error _ => True

theorem follows_backendName {post : History SessionOp SessionOp.Res → Except Unit ServerName → Prop}
    (he : ∀ h, post h (.error ())) (hn : ∀ h name, post h (.ok name)) :
    sealing.Follows () (backendName backend).run h post := by
  unfold backendName
  dsimp only
  split
  · exact hn _ _
  · exact follows_require_bind he (hn _ _)

theorem follows_connectBackendTls (settings : SecurityTlsConfig) :
    sealing.Follows () (connectBackendTls settings backend).run h (SealedStream backend) := by
  refine follows_require_bind (fun _ => trivial) ?_
  refine follows_require_bind (fun _ => trivial) ?_
  refine follows_exceptT_bind.mpr (follows_backendName (fun _ => trivial) ?_)
  intro h name
  -- whatever came before, the handshake is the last operation
  refine follows_require_bind (fun _ => trivial) fun _ => ?_
  exact ⟨name, rfl, List.mem_append_right _ (List.mem_singleton_self _)⟩

theorem follows_connectBackend (htls : backend.tls = false) :
    sealing.Follows () (connectBackend backend.address).run h (SealedStream backend) := by
  refine follows_require_bind (fun _ => trivial) fun hm => ?_
  cases htls.symm.trans hm

theorem follows_transfer_bind (hc : sealing.Follows () connect.run h (SealedStream backend)) :
    sealing.Follows () (connect >>= transfer backend).run h fun _ _ => True := by
  refine follows_exceptT_bind.mpr (hc.mono ?_)
  rintro h' (_ | stream) hs
  · trivial
  · exact ⟨hs, fun _ => trivial⟩

theorem follows_forwardPlain (htls : backend.tls = false) :
    sealing.Follows () (forwardPlain backend).run h fun _ _ => True :=
  follows_transfer_bind (follows_connectBackend htls)

theorem follows_handleTcpConnection (settings : SecurityTlsConfig) :
    sealing.Follows () (handleTcpConnection settings backend).run h fun _ _ => True := by
  unfold handleTcpConnection
  split
  · exact follows_transfer_bind (follows_connectBackendTls settings)
  · exact follows_forwardPlain (Bool.eq_false_iff.mpr ‹_›)

theorem follows_forwards (hf : ∀ h, sealing.Follows () forward.run h fun _ _ => True) (count : Nat) :
    sealing.Follows () (forwards forward count) h fun _ _ => True := by
  induction count generalizing h with
  | zero => trivial
  | succ n ih =>
    rw [forwards, follows_bind]
    exact (hf h).mono fun h' _ _ => ih

end

/-! ## Which protocols honour the mark -/

section

variable (config : ServerWallConfig) {frontend : FrontendConfig} {backend : Backend}

theorem session_tcp (count : Nat) (hp : frontend.protocol = .tcp) : session config frontend backend count =
      forwards (handleTcpConnection config.security.tls backend) 1 := by
  unfold session
  rw [hp]
  exact ite_self _

theorem session_plain (count : Nat) (hp : frontend.protocol ≠ .tcp) :
    ∃ n, session config frontend backend count = forwards (forwardPlain backend) n ∧ (count = 1 → n = 1) := by
  unfold session
  cases hc : frontend.protocol with
  | tcp => exact absurd hc hp
  | stratum => exact ⟨1, ite_self _, fun _ => rfl⟩
  | imaps => exact ⟨1, rfl, fun _ => rfl⟩
  | https | smtps | smtpStarttls => exact ⟨count, rfl, id⟩

theorem follows_session (count : Nat) (hc : backend.tls = false ∨ frontend.protocol = .tcp) :
    sealing.Follows () (session config frontend backend count) [] fun _ _ => True := by
  by_cases hp : frontend.protocol = .tcp
  · rw [session_tcp config count hp]
    exact follows_forwards (fun _ => follows_handleTcpConnection _) 1
  · obtain ⟨n, hs, -⟩ := session_plain config count hp
    rw [hs]
    exact follows_forwards (fun _ => follows_forwardPlain (hc.resolve_right hp)) n

end

theorem performs_transfer (config) {frontend : FrontendConfig}
    (backend) (hp : frontend.protocol ≠ .tcp) :
    ∃ k, (session config frontend backend 1).Performs [⟨.attempt (.connect backend.address), true⟩]
      (.vis (.transfer backend (.tcp backend.address)) k) := by
  obtain ⟨n, hpl, hn⟩ := session_plain config 1 hp
  rw [hpl, hn rfl]
  exact ⟨_, .step (.done _)⟩

/-- **Which protocols honour the mark.** -/
theorem tls_honoured_iff (config : ServerWallConfig) (frontend : FrontendConfig) (backend : Backend) :
    (∀ count h op k, (session config frontend backend count).Performs h (.vis op k) → Sealed h op) ↔
    backend.tls = false ∨ frontend.protocol = .tcp := by
  constructor
  · intro hall
    rw [or_iff_not_imp_right]
    intro hprotocol
    obtain ⟨k, hperforms⟩ := performs_transfer config backend hprotocol
    rw [Bool.eq_false_iff]
    intro hmarked
    obtain ⟨name, hstream, -⟩ := hall 1 _ _ k hperforms hmarked
    cases hstream
  · intro hcondition count h op k hperforms
    have hfollows := follows_session config count hcondition
    have hsealed := follows_ofHistory.mp hfollows h op k hperforms
    rwa [List.nil_append] at hsealed

def markedBackend : Backend where
  id := "mail"
  tag := "mail@1"
  address := "10.0.0.1:143"
  weight := 1
  tls := true
  tlsVerify := false
  tlsSni := none
  maxConnections := none

def markedFrontend (protocol : ProtocolType) : FrontendConfig where
  name := "front"
  protocol
  listen := ["0.0.0.0:993"]
  backendPool := "mail"

/-- A session for the marked backend connects to it and sends to it in the clear. -/
def InClear (protocol : ProtocolType) : Prop := ∃ k, (session {} (markedFrontend protocol) markedBackend 1).Performs
    [⟨.attempt (.connect "10.0.0.1:143"), true⟩]
    (.vis (.transfer markedBackend (.tcp "10.0.0.1:143")) k)

/-- The bytes for a backend marked `tls` are sent in the clear behind every protocol but `tcp`. -/
theorem sent_in_clear : markedBackend.tls = true ∧ InClear .https ∧ InClear .smtps ∧ InClear .smtpStarttls ∧
      InClear .imaps ∧ InClear .stratum := by
  have hclear : ∀ protocol : ProtocolType, protocol ≠ .tcp → InClear protocol :=
    fun protocol hprotocol =>
      @performs_transfer {} (markedFrontend protocol) markedBackend hprotocol
  refine ⟨rfl, ?_, ?_, ?_, ?_, ?_⟩
  all_goals
    apply hclear
    decide

end ServerWall.BackendTls
