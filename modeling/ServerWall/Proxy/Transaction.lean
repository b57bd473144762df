import ServerWall.Proxy.History

/-!
# Mail transactions

The envelope of a message should be the last accepted `MAIL` and the recipients after it
(`transaction`). In the session `MAIL` and a greeting do not forget recipients, and `RCPT` does not ask for
a `MAIL`; `envelope_transaction_iff`: right are the sessions whose commands are in `Order`.
-/

namespace ServerWall.Proxy

open Antispam Smtp List Option

/-! ## What the commands ask for -/

/-- The open transaction after one more event: its sender and recipients. -/
def transactionAfter (t : Option (Text × List Text)) : Event → Option (Text × List Text)
  | .command (.mailFrom arg) resp => if accepted resp then some (Session.address arg, []) else t
  | .command (.rcptTo arg) resp =>
    if accepted resp then t.map fun (sender, rcpts) => (sender, rcpts ++ [Session.address arg])
    else t
  | .command (.ehlo _) _ | .command (.helo _) _ => t.filter fun (_, rcpts) => rcpts.isEmpty
  | .command .rset _ | .endOfData _ => none
  | _ => t

def transaction (h : List Event) : Option (Text × List Text) := h.foldl transactionAfter none

/-- The message goes out with the envelope of the open transaction, and to
someone. -/
def EnvelopeOf (h : List Event) (f : SmtpProxy.Forward) : Prop :=
  transaction h = some (f.mailFrom, f.rcptTo) ∧ f.rcptTo ≠ []

instance (h : List Event) (f : SmtpProxy.Forward) : Decidable (EnvelopeOf h f) := inferInstanceAs (Decidable (_ ∧ _))

/-! ## The order of the commands -/

/-- Where the commands since the last `RSET` or end of a message have got to.
They are out of order from the first recipient without a `MAIL`, or the first
`MAIL` or greeting after a recipient. -/
inductive Order where
  | idle
  | opened
  | addressed
  | broken
  deriving DecidableEq

def Order.mail : Order → Order
  | .idle | .opened => .opened
  | .addressed | .broken => .broken

def Order.rcpt : Order → Order
  | .opened | .addressed => .addressed
  | .idle | .broken => .broken

def Order.greeting : Order → Order
  | .idle => .idle
  | .opened => .opened
  | .addressed | .broken => .broken

def Order.after (o : Order) : Event → Order
  | .command (.mailFrom _) resp => if accepted resp then o.mail else o
  | .command (.rcptTo _) resp => if accepted resp then o.rcpt else o
  | .command (.ehlo _) _ | .command (.helo _) _ => o.greeting
  | .command .rset _ | .endOfData _ => .idle
  | _ => o

def order (h : List Event) : Order := h.foldl Order.after .idle

/-! ## The variables -/

/-- How the session's sender and recipients stand to the open transaction. Out
of order there are recipients that no open transaction accounts for. -/
def Order.Fits (sender : Text) (rcpts : List Text) (t : Option (Text × List Text)) : Order → Prop
  | .idle => rcpts = [] ∧ t = none
  | .opened => rcpts = [] ∧ t = some (sender, [])
  | .addressed => rcpts ≠ [] ∧ t = some (sender, rcpts)
  | .broken => rcpts ≠ [] ∧ ∀ sender' rcpts', t = some (sender', rcpts') → rcpts'.length < rcpts.length

def Fitting (v : View) (h : List Event) : Prop := (order h).Fits v.mailFrom v.rcptTo (transaction h)

section

variable {o : Order} {sender : Text} {rcpts : List Text} {t : Option (Text × List Text)}

variable (hfit : o.Fits sender rcpts t)
include hfit

theorem Order.Fits.mail (sender' : Text) : o.mail.Fits sender' rcpts (some (sender', [])) := by
  cases o with
  | idle | opened => exact ⟨hfit.1, rfl⟩
  | addressed | broken =>
    refine ⟨hfit.1, ?_⟩
    rintro _ _ ⟨⟩
    exact length_pos_iff.mpr hfit.1

theorem Order.Fits.rcpt (addr : Text) :
    o.rcpt.Fits sender (rcpts ++ [addr]) (t.map fun (s, rs) => (s, rs ++ [addr])) := by
  cases o with
  | idle =>
    obtain ⟨-, rfl⟩ := hfit
    exact ⟨by simp, nofun⟩
  | opened =>
    obtain ⟨rfl, rfl⟩ := hfit
    exact ⟨by simp, rfl⟩
  | addressed =>
    obtain ⟨-, rfl⟩ := hfit
    exact ⟨by simp, rfl⟩
  | broken =>
    refine ⟨by simp, fun sender' rcpts' heq => ?_⟩
    obtain ⟨⟨s, rs⟩, ht, hp⟩ := map_eq_some_iff.mp heq
    have hlen := hfit.2 s rs ht
    cases hp
    simp only [length_append]
    omega

theorem Order.Fits.greeting : o.greeting.Fits sender rcpts (t.filter fun (_, rs) => rs.isEmpty) := by
  cases o with
  | idle | opened =>
    obtain ⟨rfl, rfl⟩ := hfit
    exact ⟨rfl, rfl⟩
  | addressed =>
    obtain ⟨hne, rfl⟩ := hfit
    refine ⟨hne, fun _ _ heq => ?_⟩
    have he := (filter_eq_some_iff.mp heq).2
    cases (filter_eq_some_iff.mp heq).1
    exact absurd (isEmpty_iff.mp he) hne
  | broken => exact ⟨hfit.1, fun s rs heq => hfit.2 s rs (filter_eq_some_iff.mp heq).1⟩

theorem Order.Fits.agree_iff : (t = some (sender, rcpts) ∧ rcpts ≠ []) ↔ o = .addressed := by
  cases o with
  | idle | opened => exact ⟨fun h => absurd hfit.1 h.2, nofun⟩
  | addressed => exact ⟨fun _ => rfl, fun _ => ⟨hfit.2, hfit.1⟩⟩
  | broken => exact ⟨fun h => absurd (hfit.2 _ _ h.1) (lt_irrefl _), nofun⟩

end

/-! ## Whole sessions -/

theorem idle_keeps (hi : Idle cmd resp) (o : Order) (t : Option (Text × List Text)) :
    o.after (.command cmd resp) = o ∧ transactionAfter t (.command cmd resp) = t := by
  cases hi with
  | mailBlocked sender =>
    have hno : accepted "550 5.7.1 Sender blocked\r\n" = false := by decide
    simp only [Order.after, transactionAfter, hno, Bool.false_eq_true, if_false, and_self]
  | rcptBlocked recipient =>
    have hno : accepted "550 5.7.1 Recipient blocked\r\n" = false := by decide
    simp only [Order.after, transactionAfter, hno, Bool.false_eq_true, if_false, and_self]
  | _ => exact ⟨rfl, rfl⟩

theorem fitting_move (hfit : Fitting v trace) (hm : Move p env v input v' es) : Fitting v' (trace ++ es) := by
  unfold Fitting order transaction
  rw [foldl_append, foldl_append]
  change ((es.foldl Order.after (order trace)).Fits _ _ (es.foldl transactionAfter (transaction trace)))
  cases hm with
  | silent | data | deliverCut => exact hfit
  | idle hi =>
    obtain ⟨ho, ht⟩ := idle_keeps hi (order trace) (transaction trace)
    simp only [foldl, ho, ht]
    exact hfit
  | @greet cmd resp hcmd =>
    cases cmd with
    | ehlo _ | helo _ => exact hfit.greeting
    | _ => cases hcmd
  | mail sender _ =>
    have hyes : accepted "250 2.1.0 Ok\r\n" = true := by decide
    simp only [foldl, Order.after, transactionAfter, hyes, if_true]
    exact hfit.mail _
  | rcpt recipient _ =>
    have hyes : accepted "250 2.1.5 Ok\r\n" = true := by decide
    simp only [foldl, Order.after, transactionAfter, hyes, if_true]
    exact hfit.rcpt _
  | rset | refuse | deliver => exact ⟨rfl, rfl⟩

/-- **When every message is forwarded with the envelope of its transaction.** -/
theorem envelope_transaction_iff (p : SmtpProxy) (env : Env) (early : Bool) (reads : List LineRead) :
    ForwardsMeet (fun h f _ => EnvelopeOf h f) ((Session.start p early).run p env reads).trace ↔
      ForwardsMeet (fun h _ _ => order h = .addressed) ((Session.start p early).run p env reads).trace := by
  refine forwardsMeet_iff_of_agree (ForwardsMeetFrom.mono ?_ (run_tracked (J := Fitting) ⟨rfl, rfl⟩ (fun _ _ _ _ _ => fitting_move) early reads))
  rintro h f _ ⟨v, hfit, hfrom, hrcpt, -⟩
  unfold EnvelopeOf
  rw [hfrom, hrcpt]
  exact hfit.agree_iff

/-- The recipient of an abandoned transaction gets the message of the next
one. -/
theorem envelope_keeps_recipient : ¬ ForwardsMeet (fun h f _ => EnvelopeOf h f)
      ((Session.start (.withLists {} {}) false).run (.withLists {} {}) .quiet
        [.ok "EHLO client\r\n", .ok "MAIL FROM:<a@example.com>\r\n", .ok "RCPT TO:<first@example.org>\r\n",
          .ok "MAIL FROM:<b@example.com>\r\n", .ok "RCPT TO:<second@example.org>\r\n", .ok "DATA\r\n",
          .ok "hello\r\n", .ok ".\r\n"]).trace := by
  decide +kernel

end ServerWall.Proxy
