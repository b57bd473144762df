import ServerWall.Proxy.Envelope

/-!
# Command histories

What is said about a forwarded message is said about the events before it: `ForwardsMeet Q` asks `Q` of
every forwarded message and the history before it, by recursion over the trace.
-/

namespace ServerWall.Proxy

open Antispam Smtp SmtpProxy List

def accepted (resp : Text) : Bool := decide (("250" : Text) <+: resp)

def MeetsAt (Q : List Event → Forward → Bool → Prop) (h : List Event) : Event → Prop
  | .forwarded _ f bypass => Q h f bypass
  | _ => True

def ForwardsMeetFrom (Q : List Event → Forward → Bool → Prop) : List Event → List Event → Prop
  | _, [] => True
  | h, e :: es => MeetsAt Q h e ∧ ForwardsMeetFrom Q (h ++ [e]) es

def ForwardsMeet (Q : List Event → Forward → Bool → Prop) (trace : List Event) : Prop :=
  ForwardsMeetFrom Q [] trace

section

variable {Q : List Event → SmtpProxy.Forward → Bool → Prop}

instance decidableMeetsAt [∀ h f b, Decidable (Q h f b)] (h : List Event) : ∀ e, Decidable (MeetsAt Q h e)
  | .forwarded _ f b => inferInstanceAs (Decidable (Q h f b))
  | .command _ _ => isTrue trivial
  | .endOfData _ => isTrue trivial

instance decidableForwardsMeetFrom [∀ h f b, Decidable (Q h f b)] :
    ∀ (h es : List Event), Decidable (ForwardsMeetFrom Q h es)
  | _, [] => isTrue trivial
  | h, e :: es =>
    have := decidableForwardsMeetFrom (h ++ [e]) es
    inferInstanceAs (Decidable (MeetsAt Q h e ∧ ForwardsMeetFrom Q (h ++ [e]) es))

instance [∀ h f b, Decidable (Q h f b)] (trace : List Event) : Decidable (ForwardsMeet Q trace) :=
  inferInstanceAs (Decidable (ForwardsMeetFrom Q [] trace))

theorem forwardsMeetFrom_append : ∀ (h es es' : List Event), ForwardsMeetFrom Q h (es ++ es') ↔
      ForwardsMeetFrom Q h es ∧ ForwardsMeetFrom Q (h ++ es) es'
  | h, [], es' => by simp [ForwardsMeetFrom]
  | h, e :: es, es' => by
    have ih := forwardsMeetFrom_append (h ++ [e]) es es'
    simp only [append_assoc, singleton_append] at ih
    simp only [cons_append, ForwardsMeetFrom, ih, and_assoc]

theorem forwardsMeet_snoc : ForwardsMeet Q (trace ++ [e]) ↔ ForwardsMeet Q trace ∧ MeetsAt Q trace e := by
  unfold ForwardsMeet
  rw [forwardsMeetFrom_append]
  simp [ForwardsMeetFrom]

theorem forwardsMeet_iff_of_agree : ∀ {h es : List Event}, ForwardsMeetFrom (fun h f b => Q h f b ↔ R h f b) h es →
      (ForwardsMeetFrom Q h es ↔ ForwardsMeetFrom R h es)
  | _, [], _ => Iff.rfl
  | _, .forwarded _ _ _ :: _, ha => and_congr ha.1 (forwardsMeet_iff_of_agree ha.2)
  | _, .command _ _ :: _, ha => and_congr Iff.rfl (forwardsMeet_iff_of_agree ha.2)
  | _, .endOfData _ :: _, ha => and_congr Iff.rfl (forwardsMeet_iff_of_agree ha.2)

theorem ForwardsMeetFrom.mono (himp : ∀ h f b, Q h f b → R h f b) :
    ∀ {h es : List Event}, ForwardsMeetFrom Q h es → ForwardsMeetFrom R h es
  | _, [], _ => trivial
  | _, .forwarded _ _ _ :: _, hm => ⟨himp _ _ _ hm.1, mono himp hm.2⟩
  | _, .command _ _ :: _, hm => ⟨trivial, mono himp hm.2⟩
  | _, .endOfData _ :: _, hm => ⟨trivial, mono himp hm.2⟩

end

/-! ## Invariants read at the forwarded messages -/

section

variable {p : SmtpProxy} {env : Env} (J : View → List Event → Prop)

/-- The variables stood in the relation `J` to the history when the message was
forwarded. -/
def Tracked (h : List Event) (f : Forward) (bypass : Bool) : Prop :=
  ∃ v, J v h ∧ f.mailFrom = v.mailFrom ∧ f.rcptTo = v.rcptTo ∧ bypass = v.allowed

variable {J}

theorem move_tracked (hv : J v trace) (hm : Move p env v input v' es)
    (ht : ForwardsMeet (Tracked J) trace) : ForwardsMeet (Tracked J) (trace ++ es) := by
  cases hm with
  | silent => rwa [append_nil]
  | deliver moment f resp _ hf hr _ =>
    rw [append_cons]
    exact forwardsMeet_snoc.mpr ⟨forwardsMeet_snoc.mpr ⟨ht, v, hv, hf, hr, rfl⟩, trivial⟩
  | deliverCut moment f _ hf hr _ => exact forwardsMeet_snoc.mpr ⟨ht, v, hv, hf, hr, rfl⟩
  | _ => exact forwardsMeet_snoc.mpr ⟨ht, trivial⟩

/-- A relation between the variables and the history that every move keeps
stands at every message a session forwards. -/
theorem run_tracked (hs : J ⟨.bannerSent, [], [], false⟩ [])
    (hmo : ∀ v trace input v' es, J v trace → Move p env v input v' es → J v' (trace ++ es))
    (early : Bool) (reads : List LineRead) :
    ForwardsMeet (Tracked J) ((Session.start p early).run p env reads).trace := by
  have hk := run_keeps (I := fun v trace => J v trace ∧ ForwardsMeet (Tracked J) trace)
    (fun v trace input v' es hinv hm => ⟨hmo v trace input v' es hinv.1 hm, move_tracked hinv.1 hm hinv.2⟩)
    reads (Session.start p early) ⟨_, ⟨hs, trivial⟩, fun _ => rfl⟩
  obtain ⟨v, ⟨-, hf⟩, -⟩ := hk
  exact hf

end

/-! ## A plain proxy

For sessions on fixed inputs: no checks, the thresholds a configuration file
defaults to, and a backend that accepts everything. -/

def SmtpProxy.withLists (allow : AllowList) (block : BlockList) : SmtpProxy where
  unicode := .ascii
  backendTag := "backend"
  pipeline :=
    { config :=
        { enabled := true
          possibleSpamThreshold := Config.defaultPossibleSpam
          definiteSpamThreshold := Config.defaultDefiniteSpam }
      preDataChecks := []
      postDataChecks := [] }
  allowList := allow
  blockList := block
  hostname := "mx.example.org"
  ja3Fingerprint := none
  smtpHeaders := { addReceived := false, xForwardedFor := false }

def Env.quiet : Env where
  peerIp := .v4 192 0 2 1
  connectTime := 0
  bannerSentTime := 0
  writable := fun _ => true
  backend := fun _ => .answering ["220 b\r\n", "250 b\r\n", "250 Ok\r\n", "250 Ok\r\n", "354 Go\r\n", "250 Ok\r\n"]
  date := fun _ => []

end ServerWall.Proxy
