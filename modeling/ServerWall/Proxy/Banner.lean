import ServerWall.Proxy.History

/-!
# The banner

Before its banner the session looks whether the client has spoken, by `fill_buf().await`, which waits on
an empty buffer. A client of RFC 5321 waits for the banner (`banner_deadlock`). Failures of the
transport are left out.
-/

namespace ServerWall.Proxy

/-! ## Two processes -/

inductive ClientAction where
  | send (chunk : Bytes)
  | close
  | think

def Greeted (received : Bytes) : Prop := Text.bytes "220" <+: received ∧ (10 : UInt8) ∈ received

/-- A client: any process that sees what it has received so far and writes only
when the banner is there. -/
structure ConformingClient where
  State : Type
  init : State
  step : State → Bytes → ClientAction → State → Prop
  conforms : ∀ {s received chunk s'}, step s received (.send chunk) s' → Greeted received

/-- Where the proxy is: waiting for `fill_buf`, about to write the banner, or
in its command loop. -/
inductive BannerPhase where
  | peeking
  | greeting
  | serving
  deriving DecidableEq

structure Duplex (c : ConformingClient) where
  phase : BannerPhase
  earlyTalker : Bool
  (inbox received : Bytes)
  closed : Bool
  client : c.State

namespace Duplex

variable {c : ConformingClient}

def start (c : ConformingClient) : Duplex c where
  phase := .peeking
  earlyTalker := false
  inbox := []
  received := []
  closed := false
  client := c.init

def banner (p : SmtpProxy) : Bytes := Text.bytes (Text.fmt ["220 ", p.hostname, " ESMTP\r\n"])

/-- A step of the proxy. `fill_buf` returns when there is something to return:
bytes, or the end of the stream. -/
inductive ProxyStep (p : SmtpProxy) (s : Duplex c) : Duplex c → Prop
  | peek (hphase : s.phase = .peeking) (hready : s.inbox ≠ [] ∨ s.closed = true) :
    ProxyStep p s { s with phase := .greeting, earlyTalker := s.earlyTalker || !s.inbox.isEmpty }
  | greet (hphase : s.phase = .greeting) :
    ProxyStep p s { s with phase := .serving, received := s.received ++ banner p }

inductive ClientStep (s : Duplex c) : Duplex c → Prop
  | send {chunk : Bytes} {client : c.State} (hopen : s.closed = false)
    (hstep : c.step s.client s.received (.send chunk) client) :
    ClientStep s { s with inbox := s.inbox ++ chunk, client }
  | close {client : c.State} (hstep : c.step s.client s.received .close client) :
    ClientStep s { s with closed := true, client }
  | think {client : c.State} (hstep : c.step s.client s.received .think client) : ClientStep s { s with client }

/-- What the two sides can reach up to the start of the command loop. -/
inductive Reachable (p : SmtpProxy) (c : ConformingClient) : Duplex c → Prop
  | start : Reachable p c (start c)
  | proxy {s s' : Duplex c} : Reachable p c s → ProxyStep p s s' → Reachable p c s'
  | client {s s' : Duplex c} : Reachable p c s → s.phase ≠ .serving → ClientStep s s' → Reachable p c s'

/-- Each side waits for the other: the proxy has no step and has not written its
banner, and the client is there and has no banner to answer. -/
def MutualWait (p : SmtpProxy) (s : Duplex c) : Prop :=
  s.phase ≠ .serving ∧ (∀ s', ¬ ProxyStep p s s') ∧ s.closed = false ∧ ¬ Greeted s.received

/-- The session gets under way: the two sides never wait for each other, and the
client is not taken for an early talker. -/
structure Live (p : SmtpProxy) (c : ConformingClient) : Prop where
  noMutualWait : ∀ s, Reachable p c s → ¬ MutualWait p s
  notEarly : ∀ s, Reachable p c s → s.earlyTalker = false

/-! ## What the two sides reach -/

theorem not_greeted_nil : ¬ Greeted [] := fun h => absurd h.2 List.not_mem_nil

/-- Nothing has been sent either way, and unless the client has closed the proxy
is where it started. -/
structure Waiting (s : Duplex c) : Prop where
  silent : s.phase ≠ .serving → s.inbox = [] ∧ s.received = []
  notEarly : s.earlyTalker = false
  peeking : s.closed = false → s.phase = .peeking

theorem waiting_proxy (hs : Waiting s) (hst : ProxyStep p s s') : Waiting s' := by
  cases hst with
  | peek hp hr =>
    have hq := hs.silent (by rw [hp]; nofun)
    refine ⟨fun _ => hq, ?_, fun ho => ?_⟩
    · rw [hs.notEarly, hq.1]
      rfl
    · rcases hr with hr | hc
      · exact absurd hq.1 hr
      · cases (show s.closed = false from ho).symm.trans hc
  | greet hp =>
    refine ⟨fun hne => absurd rfl hne, hs.notEarly, fun ho => ?_⟩
    cases (hs.peeking ho).symm.trans hp

theorem waiting_client {s s' : Duplex c} (hs : Waiting s) (hp : s.phase ≠ .serving)
    (hst : ClientStep s s') : Waiting s' := by
  obtain ⟨hi, hr⟩ := hs.silent hp
  cases hst with
  | send _ hst =>
    have hg := c.conforms hst
    rw [hr] at hg
    exact absurd hg not_greeted_nil
  | close _ => exact ⟨hs.silent, hs.notEarly, nofun⟩
  | think _ => exact ⟨hs.silent, hs.notEarly, hs.peeking⟩

theorem reachable_waiting (h : Reachable p c s) : Waiting s := by
  induction h with
  | start => exact ⟨fun _ => ⟨rfl, rfl⟩, rfl, fun _ => rfl⟩
  | proxy _ hs ih => exact waiting_proxy ih hs
  | client _ hp hs ih => exact waiting_client ih hp hs

theorem mutualWait_of_open (h : Reachable p c s) (ho : s.closed = false) : MutualWait p s := by
  have hs := reachable_waiting h
  have hp := hs.peeking ho
  obtain ⟨hi, hre⟩ := hs.silent (by rw [hp]; nofun)
  refine ⟨by rw [hp]; nofun, fun s' hst => ?_, ho, by rw [hre]; exact not_greeted_nil⟩
  cases hst with
  | peek _ hr =>
    rcases hr with hr | hc
    · exact hr hi
    · cases ho.symm.trans hc
  | greet hg => cases hp.symm.trans hg

def patientClient : ConformingClient where
  State := Unit
  init := ()
  step := fun _ received action _ =>
    action = .send (Text.bytes "EHLO client\r\n") ∧ Greeted received
  conforms := fun h => h.2

end Duplex

end ServerWall.Proxy
