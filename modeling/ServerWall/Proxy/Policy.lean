import ServerWall.Lib.Histories
import ServerWall.Proxy.History

/-!
# Lists and sessions

The block list is asked at `MAIL` and at `RCPT`, but `RCPT` does not ask for a `MAIL` before it
(`blockList_respected_iff`). The allow list raises a flag that only `RSET` lowers; `bypass_scoped_iff`
says which messages skip the post-DATA checks without a claim to it.
-/

namespace ServerWall.Proxy

open Antispam Smtp List ForwardsMeetFrom SmtpProxy

/-! ## Senders in a history -/

/-- Has a `MAIL` been accepted since the last `RSET` or end of a message? -/
def mailOpenAfter (o : Bool) : Event → Bool
  | .command (.mailFrom _) resp => o || accepted resp
  | .command .rset _ => false
  | .endOfData _ => false
  | _ => o

def mailOpen (h : List Event) : Bool := h.foldl mailOpenAfter false

/-- The sender in force: that of the last accepted `MAIL`, until `RSET` or the
end of a message. -/
def senderAfter (sender : Text) : Event → Text
  | .command (.mailFrom arg) resp => if accepted resp then Session.address arg else sender
  | .command .rset _ => []
  | .endOfData _ => []
  | _ => sender

def senderInForce (h : List Event) : Text := h.foldl senderAfter []

theorem mailOpenAfter_idle (hi : Idle cmd resp) (o : Bool) : mailOpenAfter o (.command cmd resp) = o := by
  cases hi with
  | mailBlocked sender =>
    have hno : accepted "550 5.7.1 Sender blocked\r\n" = false := by decide
    simp only [mailOpenAfter, hno, Bool.or_false]
  | _ => rfl

theorem senderAfter_idle (hi : Idle cmd resp) (sender : Text) : senderAfter sender (.command cmd resp) = sender := by
  cases hi with
  | mailBlocked arg =>
    have hno : accepted "550 5.7.1 Sender blocked\r\n" = false := by decide
    simp only [senderAfter, hno, Bool.false_eq_true, if_false]
  | _ => rfl

/-! ## Addresses

The session keeps `<user@host> SIZE=1` as `user@host> SIZE=1`, and asks the
lists about that text. The backend is sent it in angle brackets and reads the
mailbox before the first `>`.
-/

def mailbox (a : Text) : Text := a.takeWhile (· != '>')

/-- An address as the session keeps it, and as the backend reads it. -/
def readings (a : Text) : List Text := [a, mailbox a]

theorem forall_readings {P : Text → Prop} : (∀ x ∈ readings a, P x) ↔ P a ∧ (mailbox a ≠ a → P (mailbox a)) := by
  simp only [readings, forall_mem_cons, not_mem_nil, false_imp_iff, implies_true, and_true]
  refine and_congr_right fun ha => ⟨fun h _ => h, fun h => ?_⟩
  by_cases heq : mailbox a = a
  · rwa [heq]
  · exact h heq

/-! ## The block list -/

section

variable (p : SmtpProxy) (env : Env)

/-- Neither the client, nor the sender or its domain, nor a recipient of the
envelope is blocked, in either reading of the addresses. -/
def Unblocked (f : Forward) : Prop :=
  (∀ a ∈ readings f.mailFrom, p.blockList.matchesAny p.unicode env.peerIp a = false) ∧
    ∀ r ∈ f.rcptTo, ∀ a ∈ readings r, p.blockList.containsRecipient p.unicode a = false

instance (f : Forward) : Decidable (Unblocked p env f) := inferInstanceAs (Decidable (_ ∧ _))

/-- No address of the envelope hides a blocked mailbox before its parameters. -/
def NoneHidden (f : Forward) : Prop := (mailbox f.mailFrom ≠ f.mailFrom → p.blockList.matchesAny p.unicode env.peerIp (mailbox f.mailFrom) = false) ∧
    ∀ r ∈ f.rcptTo, mailbox r ≠ r → p.blockList.containsRecipient p.unicode (mailbox r) = false

/-- What the session has checked of an envelope: the sender if a `MAIL` was
accepted, and every recipient. Without a `MAIL` the sender is empty. -/
def Checked (opened : Bool) (sender : Text) (rcpts : List Text) : Prop :=
  (opened = true → p.blockList.matchesAny p.unicode env.peerIp sender = false) ∧
    (opened = false → sender = []) ∧ ∀ r ∈ rcpts, p.blockList.containsRecipient p.unicode r = false

variable {p env}

theorem checked_empty : Checked p env false [] [] := ⟨nofun, fun _ => rfl, nofun⟩

theorem checked_move (hc : Checked p env (mailOpen trace) v.mailFrom v.rcptTo) (hm : Move p env v input v' es) :
    Checked p env (mailOpen (trace ++ es)) v'.mailFrom v'.rcptTo := by
  rw [mailOpen, foldl_append]
  cases hm with
  | silent => exact hc
  | @idle cmd resp hi =>
    show Checked p env (mailOpenAfter (mailOpen trace) (.command cmd resp)) _ _
    rwa [mailOpenAfter_idle hi]
  | @greet cmd resp hcmd =>
    cases cmd with
    | ehlo _ | helo _ => exact hc
    | _ => cases hcmd
  | mail sender hf =>
    have hyes : accepted "250 2.1.0 Ok\r\n" = true := by decide
    simp only [List.foldl, mailOpenAfter, hyes, Bool.or_true]
    exact ⟨fun _ => hf, nofun, hc.2.2⟩
  | rcpt recipient hf =>
    refine ⟨hc.1, hc.2.1, fun r hr => ?_⟩
    rcases mem_append.mp hr with hr | hr
    · exact hc.2.2 r hr
    · rwa [mem_singleton.mp hr]
  | data _ | deliverCut => exact hc
  | rset | refuse | deliver => exact checked_empty

/-- A checked envelope is unblocked exactly when no parameters hide a mailbox
of it, and its sender was checked or need not have been. -/
theorem Checked.unblocked_iff (hch : Checked p env o f.mailFrom f.rcptTo) :
    Unblocked p env f ↔ (o ∨ p.blockList.matchesAny p.unicode env.peerIp [] = false) ∧ NoneHidden p env f := by
  obtain ⟨ho, hc, hrc⟩ := hch
  have hs : p.blockList.matchesAny p.unicode env.peerIp f.mailFrom = false ↔
      (o = true ∨ p.blockList.matchesAny p.unicode env.peerIp [] = false) := by
    cases o with
    | true => exact ⟨fun _ => .inl rfl, fun _ => ho rfl⟩
    | false =>
      rw [hc rfl]
      exact ⟨.inr, fun h => h.resolve_left nofun⟩
  have hrcp : (∀ r ∈ f.rcptTo, ∀ a ∈ readings r, p.blockList.containsRecipient p.unicode a = false) ↔
      ∀ r ∈ f.rcptTo, mailbox r ≠ r → p.blockList.containsRecipient p.unicode (mailbox r) = false :=
    forall₂_congr fun r hr => forall_readings.trans (and_iff_right (hrc r hr))
  unfold Unblocked NoneHidden
  rw [forall_readings, hs, hrcp, and_assoc]

/-- **When a session respects the block list.** -/
theorem blockList_respected_iff (p : SmtpProxy) (env : Env) (early : Bool) (reads : List LineRead) :
    ForwardsMeet (fun _ f _ => Unblocked p env f) ((Session.start p early).run p env reads).trace ↔
      ForwardsMeet (fun h f _ => (mailOpen h = true ∨
          p.blockList.matchesAny p.unicode env.peerIp [] = false) ∧ NoneHidden p env f)
        ((Session.start p early).run p env reads).trace := by
  refine forwardsMeet_iff_of_agree (mono ?_
    (run_tracked (J := fun v h => Checked p env (mailOpen h) v.mailFrom v.rcptTo)
      checked_empty (fun _ _ _ _ _ => checked_move) early reads))
  rintro h f _ ⟨v, hcheck, hfrom, hrcpt, -⟩
  rw [← hfrom, ← hrcpt] at hcheck
  exact hcheck.unblocked_iff

theorem blockList_without_mail :
    ¬ ForwardsMeet (fun _ f _ => Unblocked (.withLists {} { ips := ["192.0.2.1"] }) .quiet f)
      ((Session.start (.withLists {} { ips := ["192.0.2.1"] }) false).run
        (.withLists {} { ips := ["192.0.2.1"] }) .quiet
        [.ok "RCPT TO:<user@example.org>\r\n", .ok "DATA\r\n", .ok "hello\r\n", .ok ".\r\n"]).trace := by
  decide +kernel

end

/-! ## The allow list -/

section

variable (p : SmtpProxy) (env : Env)

/-- Since the last `RSET`, a recipient was accepted while the allow list
matched the client or the sender then in force. -/
def Exempted (h : List Event) : Prop := ∃ before arg resp after, h = before ++ .command (.rcptTo arg) resp :: after ∧
    accepted resp = true ∧ (∀ resp', Event.command .rset resp' ∉ after) ∧
      p.allowList.matchesAny p.unicode env.peerIp (senderInForce before) = true

def neutral : Event → Bool
  | .command .rset _ => false
  | .command (.rcptTo _) resp => !accepted resp
  | _ => true

variable {p env}

theorem neutral_idle (hi : Idle cmd resp) : neutral (.command cmd resp) := by
  cases hi with
  | rcptBlocked recipient => exact (by decide : (!accepted "550 5.7.1 Recipient blocked\r\n") = true)
  | _ => rfl

theorem Exempted.append (he : ∀ resp, e ≠ .command .rset resp)
    (hexe : Exempted p env h) : Exempted p env (h ++ [e]) := by
  obtain ⟨before, arg, resp, after, rfl, hacc, hno, hm⟩ := hexe
  refine ⟨before, arg, resp, after ++ [e], by simp, hacc, fun resp' hmem => ?_, hm⟩
  rcases mem_append.mp hmem with hmem | hmem
  · exact hno resp' hmem
  · exact he resp' (mem_singleton.mp hmem).symm

theorem exempted_snoc (hn : neutral e) : Exempted p env (h ++ [e]) ↔ Exempted p env h := by
  constructor
  · rintro ⟨before, arg, resp, after, heq, hacc, hno, hm⟩
    rcases append_eq_cut heq with ⟨-, -, rfl⟩ | ⟨after', rfl, hh⟩
    · rw [neutral, hacc] at hn
      cases hn
    · exact ⟨before, arg, resp, after', hh, hacc, fun resp' hmem => hno resp' (mem_append_left _ hmem), hm⟩
  · refine Exempted.append fun resp he => ?_
    rw [he] at hn
    cases hn

theorem exempted_rset : ¬ Exempted p env (h ++ [.command .rset resp]) := by
  rintro ⟨before, arg, resp', after, heq, -, hno, -⟩
  rcases append_eq_cut heq with ⟨-, -, he⟩ | ⟨after', rfl, -⟩
  · cases he
  · exact hno resp (mem_append_right _ (mem_singleton_self _))

theorem exempted_rcpt (hacc : accepted resp) : Exempted p env (h ++ [.command (.rcptTo arg) resp]) ↔
      Exempted p env h ∨ p.allowList.matchesAny p.unicode env.peerIp (senderInForce h) := by
  constructor
  · rintro ⟨before, arg', resp', after, heq, hacc', hno, hm⟩
    rcases append_eq_cut heq with ⟨-, rfl, -⟩ | ⟨after', rfl, hh⟩
    · exact .inr hm
    · exact .inl ⟨before, arg', resp', after', hh, hacc', fun resp'' hmem => hno resp'' (mem_append_left _ hmem), hm⟩
  · rintro (hexe | hm)
    · exact hexe.append nofun
    · exact ⟨h, arg, resp, [], rfl, hacc, nofun, hm⟩

/-- The sender is the one in force, and the flag says whether the session is
exempted. -/
def Flagged (p : SmtpProxy) (env : Env) (v : View) (h : List Event) : Prop :=
  v.mailFrom = senderInForce h ∧ (v.allowed = true ↔ Exempted p env h)

theorem flagged_move (hfl : Flagged p env v trace) (hm : Move p env v input v' es) :
    Flagged p env v' (trace ++ es) := by
  obtain ⟨hs, he⟩ := hfl
  have hf : ∀ es, senderInForce (trace ++ es) = es.foldl senderAfter (senderInForce trace) :=
    fun es => by rw [senderInForce, foldl_append]; rfl
  cases hm with
  | silent => rw [append_nil]; exact ⟨hs, he⟩
  | @idle cmd resp hi =>
    refine ⟨?_, he.trans (exempted_snoc (neutral_idle hi)).symm⟩
    rwa [hf, List.foldl, senderAfter_idle hi]
  | @greet cmd resp hcmd =>
    cases cmd with
    | ehlo _ | helo _ => exact ⟨by rw [hf]; exact hs, he.trans (exempted_snoc rfl).symm⟩
    | _ => cases hcmd
  | mail sender hfr =>
    have hyes : accepted "250 2.1.0 Ok\r\n" = true := by decide
    refine ⟨?_, he.trans (exempted_snoc rfl).symm⟩
    rw [hf]
    simp only [List.foldl, senderAfter, hyes, if_true]
  | rcpt recipient hfr =>
    refine ⟨by rw [hf]; exact hs, ?_⟩
    rw [exempted_rcpt (by decide), ← he, ← hs]
    exact Bool.or_eq_true_iff
  | data _ | deliverCut moment f _ _ _ _ => exact ⟨by rw [hf]; exact hs, he.trans (exempted_snoc rfl).symm⟩
  | rset state _ => exact ⟨by rw [hf]; rfl, ⟨nofun, fun h => absurd h exempted_rset⟩⟩
  | refuse resp _ => exact ⟨by rw [hf]; rfl, he.trans (exempted_snoc rfl).symm⟩
  | deliver moment f resp _ _ _ _ =>
    refine ⟨by rw [hf]; rfl, ?_⟩
    rwa [append_cons, exempted_snoc rfl, exempted_snoc rfl]

/-- The allow list matches the client or the sender of the message, in both
readings of the sender. -/
def Trusted (p : SmtpProxy) (env : Env) (f : Forward) : Prop :=
  ∀ a ∈ readings f.mailFrom, p.allowList.matchesAny p.unicode env.peerIp a = true

instance (p : SmtpProxy) (env : Env) (f : Forward) : Decidable (Trusted p env f) :=
  inferInstanceAs (Decidable (∀ a ∈ _, _))

/-- **When only trusted messages skip the post-DATA checks.** -/
theorem bypass_scoped_iff (p : SmtpProxy) (env : Env) (early : Bool) (reads : List LineRead) :
    ForwardsMeet (fun _ f bypass => bypass = true → Trusted p env f) ((Session.start p early).run p env reads).trace ↔
      ForwardsMeet (fun h f _ => Exempted p env h → Trusted p env f)
        ((Session.start p early).run p env reads).trace := by
  refine forwardsMeet_iff_of_agree (mono ?_ (run_tracked (J := Flagged p env) ⟨rfl, nofun, ?_⟩ (fun _ _ _ _ _ => flagged_move) early reads))
  · rintro h f bypass ⟨v, ⟨-, hexempt⟩, -, -, rfl⟩
    rw [hexempt]
  · rintro ⟨before, arg, resp, after, heq, -⟩
    cases before <;> cases heq

/-- A message from an allow-listed sender exempts the next message of the
session, from another sender. -/
theorem bypass_outlives_message : ¬ ForwardsMeet (fun _ f bypass => bypass = true → Trusted (.withLists { senders := ["friend@example.com"] } {}) .quiet f)
      ((Session.start (.withLists { senders := ["friend@example.com"] } {}) false).run
        (.withLists { senders := ["friend@example.com"] } {}) .quiet
        [.ok "MAIL FROM:<friend@example.com>\r\n", .ok "RCPT TO:<user@example.org>\r\n", .ok "DATA\r\n", .ok ".\r\n",
          .ok "MAIL FROM:<other@example.net>\r\n", .ok "RCPT TO:<user@example.org>\r\n",
          .ok "DATA\r\n", .ok ".\r\n"]).trace := by
  decide +kernel

end

end ServerWall.Proxy
