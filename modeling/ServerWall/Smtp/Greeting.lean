import ServerWall.Proxy.History
import ServerWall.Relay.Submission

/-!
# A greeting first

What a session has come to by its turns is its `Standing`. A positive reply to `MAIL` or `DATA` needs a
greeting, one to `RCPT` also an accepted `MAIL`. The proxy asks for neither; the relay asks for both, but
takes `RSET` for a greeting (`greeted_iff`).
-/

namespace ServerWall.Smtp

open List

abbrev Turn : Type := SmtpCommand × Text

def positive (resp : Text) : Bool := resp.head? = some '2' || resp.head? = some '3'

structure Standing where
  greeted : Bool := false
  /-- There was an `RSET`. -/
  reset : Bool := false
  /-- A `MAIL` was accepted in the current transaction. -/
  mail : Bool := false

/-- A turn; an accepted `DATA` ends the transaction, as the next command comes after the
message. -/
def Standing.after (st : Standing) (x : Turn) : Standing :=
  match x.1 with
  | .ehlo _ | .helo _ => { st with greeted := true, mail := false }
  | .rset => { st with reset := true, mail := false }
  | .mailFrom _ => { st with mail := st.mail || positive x.2 }
  | .data => { st with mail := st.mail && !positive x.2 }
  | _ => st

def Standing.Due (st : Standing) : SmtpCommand → Prop
  | .mailFrom _ | .data => st.greeted = true
  | .rcptTo _ => st.greeted = true ∧ st.mail = true
  | _ => True

def Along (Q : Standing → Turn → Prop) : Standing → List Turn → Prop
  | _, [] => True
  | st, x :: xs => Q st x ∧ Along Q (st.after x) xs

def Lawful (st : Standing) (x : Turn) : Prop := positive x.2 = true → st.Due x.1

/-- A command that the server lets in has what it needs. -/
def Careful (admits : Standing → SmtpCommand → Bool) (st : Standing) (x : Turn) : Prop :=
  admits st x.1 = true → st.Due x.1

theorem along_concat : ∀ {xs : List Turn} {st : Standing},
    Along Q st (xs ++ [x]) ↔ Along Q st xs ∧ Q (xs.foldl .after st) x
  | [], st => by simp [Along]
  | y :: xs, st => by simp only [cons_append, Along, along_concat, foldl_cons, and_assoc]

/-- The law is the client's so far, and where it holds the standing is as `J` says. -/
structure Tallies (admits : Standing → SmtpCommand → Bool) (J : Standing → Prop) (xs : List Turn) : Prop where
  agree : Along Lawful {} xs ↔ Along (Careful admits) {} xs
  stands : Along Lawful {} xs → J (xs.foldl .after {})

section

variable {admits : Standing → SmtpCommand → Bool} {J J' : Standing → Prop} {xs : List Turn}

theorem Tallies.mono (h : Tallies admits J xs) (hJ : ∀ st, J st → J' st) : Tallies admits J' xs :=
  ⟨h.agree, fun hl => hJ _ (h.stands hl)⟩

theorem Tallies.concat (h : Tallies admits J xs)
    (hx : ∀ st, J st → (Lawful st x ↔ Careful admits st x) ∧ (Lawful st x → J' (st.after x))) :
    Tallies admits J' (xs ++ [x]) := by
  constructor
  · rw [along_concat, along_concat, ← h.agree]
    exact and_congr_right fun hl => (hx _ (h.stands hl)).1
  · rw [along_concat, foldl_append]
    exact fun ⟨hl, hla⟩ => (hx _ (h.stands hl)).2 hla

theorem lawful_iff_of_refused (hr : positive resp = false)
    (ha : admits st cmd = false) : Lawful st (cmd, resp) ↔ Careful admits st (cmd, resp) :=
  iff_of_true (fun h => absurd (hr.symm.trans h) Bool.false_ne_true)
    fun h => absurd (ha.symm.trans h) Bool.false_ne_true

theorem lawful_iff_of_due (hdue : st.Due x.1) : Lawful st x ↔ Careful admits st x :=
  iff_of_true (fun _ => hdue) fun _ => hdue

theorem greeted_after {st : Standing} (h : st.greeted) (x : Turn) : (st.after x).greeted := by
  unfold Standing.after
  split <;> first | exact h | rfl

end

end ServerWall.Smtp

/-! ## The proxy -/

namespace ServerWall.Proxy

open Smtp

def Event.turn : Event → Option Turn
  | .command cmd resp => some (cmd, resp)
  | _ => none

def admits (p : SmtpProxy) (env : Env) (_ : Standing) : SmtpCommand → Bool
  | .mailFrom a => !p.blockList.matchesAny p.unicode env.peerIp (Session.address a)
  | .rcptTo a => !p.blockList.containsRecipient p.unicode (Session.address a)
  | _ => false

/-- The phases with a `DATA` ahead come after a greeting. -/
def Opened (state : SmtpState) (st : Standing) : Prop := state = .mailFrom ∨ state = .rcptTo → st.greeted = true

theorem Opened.after (h : Opened state st) : Opened state (st.after x) := fun hs => greeted_after (h hs) x

def Tidy (p : SmtpProxy) (env : Env) (s : Session) : Prop :=
  Tallies (admits p env) (fun st => s.status = .running → Opened s.state st) (s.trace.filterMap Event.turn)

section

variable {p : SmtpProxy} {env : Env} {s : Session} {J : Standing → Prop} {cmd : SmtpCommand} {resp : Text}

theorem tidy_reply (h : Tallies (admits p env) J (s.trace.filterMap Event.turn))
    (hx : ∀ st, J st → (Lawful st (cmd, resp) ↔ Careful (admits p env) st (cmd, resp)) ∧
      (Lawful st (cmd, resp) → Opened s.state (st.after (cmd, resp)))) :
    Tidy p env (s.reply env (.command cmd) resp) := by
  unfold Session.reply Tidy
  split
  · rw [List.filterMap_append]
    exact h.concat fun st hst => ⟨(hx st hst).1, fun hl _ => (hx st hst).2 hl⟩
  · exact h.mono fun _ _ hrun => nomatch hrun

theorem tidy_leave {s' : Session} (h : Tidy p env s) (ht : s'.trace = s.trace) : Tidy p env s'.leave := by
  unfold Tidy
  rw [leave_trace, ht]
  exact h.mono fun _ _ hrun => absurd hrun (leave_status _)

theorem tidy_dispatch (h : Tallies (admits p env) (Opened s.state) (s.trace.filterMap Event.turn))
    (cmd : SmtpCommand) : Tidy p env (s.dispatch p env cmd) := by
  cases cmd with
  | mailFrom a =>
    simp only [Session.dispatch, Session.mail]
    split
    · next hb =>
      have ha : ∀ st, admits p env st (.mailFrom a) = false := fun _ => congrArg not hb
      exact tidy_leave (tidy_reply (s := { s with mailFrom := Session.address a }) h fun st hst =>
        ⟨lawful_iff_of_refused rfl (ha st), fun _ => hst.after⟩) rfl
    · next hb =>
      have ha : ∀ st, admits p env st (.mailFrom a) = true := fun _ => congrArg not (Bool.not_eq_true _ |>.mp hb)
      exact tidy_reply h fun st _ => ⟨⟨fun hl _ => hl rfl, fun hc _ => hc (ha st)⟩, fun hl _ => hl rfl⟩
  | rcptTo a =>
    simp only [Session.dispatch, Session.rcpt]
    split
    · next hb =>
      have ha : ∀ st, admits p env st (.rcptTo a) = false := fun _ => congrArg not hb
      exact tidy_reply h fun st hst => ⟨lawful_iff_of_refused rfl (ha st), fun _ => hst.after⟩
    · next hb =>
      have ha : ∀ st, admits p env st (.rcptTo a) = true := fun _ => congrArg not (Bool.not_eq_true _ |>.mp hb)
      exact tidy_reply h fun st _ => ⟨⟨fun hl _ => hl rfl, fun hc _ => hc (ha st)⟩, fun hl _ => (hl rfl).1⟩
  | data =>
    simp only [Session.dispatch, Session.data]
    split
    · exact tidy_reply h fun st hst => ⟨lawful_iff_of_refused rfl rfl, fun _ => hst.after⟩
    · next hs =>
      have ho : s.state = .mailFrom ∨ s.state = .rcptTo := by
        by_contra hno
        exact hs (not_or.mp hno).symm
      exact tidy_reply h fun st hst => ⟨lawful_iff_of_due (hst ho), fun _ => nofun⟩
  | rset =>
    refine tidy_reply h fun st hst => ⟨lawful_iff_of_due trivial, fun _ ho => ?_⟩
    split at ho
    · simp at ho
    · exact hst.after ho
  | ehlo domain | helo domain => exact tidy_reply h fun st _ => ⟨lawful_iff_of_due trivial, fun _ _ => rfl⟩
  | quit =>
    exact tidy_leave (s := s.reply env (.command .quit) _)
      (tidy_reply h fun st hst => ⟨lawful_iff_of_due trivial, fun _ => hst.after⟩) rfl
  | _ => exact tidy_reply h fun st hst => ⟨lawful_iff_of_due trivial, fun _ => hst.after⟩

theorem tidy_dataLine (h : Tidy p env s) (hs : s.state = .data) (line : Text) : Tidy p env (s.dataLine p env line) := by
  obtain ⟨v, es, hm, ht, hv⟩ := @makes_dataLine p env s hs line
  have hes : es.filterMap Event.turn = [] := by cases hm <;> rfl
  have hp : ¬ (v.state = .mailFrom ∨ v.state = .rcptTo) := by
    cases hm
    case silent | deliverCut => simp [Session.view, hs]
    all_goals simp
  unfold Tidy
  rw [ht, List.filterMap_append, hes, List.append_nil]
  refine h.mono fun st _ hrun ho => absurd ?_ hp
  rwa [← hv hrun]

theorem tidy_step (h : Tidy p env s) (r : LineRead) : Tidy p env (s.step p env r) := by
  by_cases hrun : s.status = .running
  · unfold Session.step
    rw [if_neg (not_not.mpr hrun)]
    cases r with
    | error e => exact h.mono fun _ _ hrun => nomatch hrun
    | ok line =>
      dsimp only
      split
      · next hs => exact tidy_dataLine (s := { s with moment := s.moment + 1 }) h hs line
      · unfold Session.commandLine
        split
        · exact tidy_leave h rfl
        · split
          · exact h.mono fun _ _ hrun => nomatch hrun
          · refine tidy_dispatch ?_ _
            exact h.mono fun st hst => hst hrun
  · rwa [show s.step p env r = s from if_pos hrun]

end

end ServerWall.Proxy

/-! ## The relay -/

namespace ServerWall.Relay

open Smtp

def SessionEvent.turn : SessionEvent → Option Smtp.Turn
  | .answered cmd resp => some (cmd, resp)
  | _ => none

open SessionEvent (turn)

namespace SmtpReceiver

/-- What the relay lets in that it should not: a `MAIL` after an `RSET`. -/
def admits (r : SmtpReceiver) (st : Standing) : SmtpCommand → Bool
  | .mailFrom a => st.reset && (r.policy.spfAlignment.check r.unicode (Text.lastPiece '@' (extractAddress a))).isOk
  | _ => false

structure Linked (state : SessionState) (receiving : Bool) (st : Standing) : Prop where
  connected : state ≠ .connected ↔ st.greeted = true ∨ st.reset = true
  opened : receiving = false → state.envelope.isSome = true → st.greeted = true ∧ st.mail = true
  message : receiving = true → state ≠ .connected

def Tidy (r : SmtpReceiver) (s : Session) : Prop :=
  Tallies r.admits (fun st => s.status = .running → Linked s.state s.receiving.isSome st)
    (s.trace.filterMap SessionEvent.turn)

section

variable {r : SmtpReceiver} {env : Surroundings} {s : Session} {state : SessionState} {st : Standing}

theorem positive_of_head (h : resp.head? = some '5') : positive resp = false := by
  simp [positive, h]

variable (h : Linked state false st)
include h

theorem Linked.mail_refused (hr : positive resp = false) : Linked state false (st.after (.mailFrom a, resp)) := by
  simpa [Standing.after, hr] using h

theorem linked_mail (a : Text) : (Lawful st (.mailFrom a, (r.respondMail state a).reply) ↔
        Careful r.admits st (.mailFrom a, (r.respondMail state a).reply)) ∧
      (Lawful st (.mailFrom a, (r.respondMail state a).reply) →
        Linked (r.respondMail state a).next false (st.after (.mailFrom a, (r.respondMail state a).reply))) := by
  by_cases hs : state = .connected
  · subst hs
    have hr : st.reset = false := by simpa using fun hr => h.connected.mpr (.inr hr) rfl
    have ha : r.admits st (.mailFrom a) = false := by rw [admits, hr, Bool.false_and]
    exact ⟨lawful_iff_of_refused rfl ha, fun _ => h.mail_refused rfl⟩
  cases hc : r.policy.spfAlignment.check r.unicode (Text.lastPiece '@' (extractAddress a)) with
  | error reason =>
    have han : r.respondMail state a = .plain (Text.fmt ["550 5.7.1 ", reason, "\r\n"]) state := by
      cases state with
      | connected => exact absurd rfl hs
      | _ => simp only [respondMail, hc]
    have ha : r.admits st (.mailFrom a) = false := by rw [admits, hc]; exact Bool.and_false _
    rw [han]
    exact ⟨lawful_iff_of_refused rfl ha, fun _ => h.mail_refused rfl⟩
  | ok _ =>
    have han : r.respondMail state a = .plain "250 2.1.0 OK\r\n" (.mailFrom (extractAddress a)) := by
      cases state with
      | connected => exact absurd rfl hs
      | _ => simp only [respondMail, hc]
    have ha : r.admits st (.mailFrom a) = st.reset := by rw [admits, hc]; exact Bool.and_true _
    rw [han]
    refine ⟨⟨fun hl _ => hl rfl, fun hca _ => ?_⟩, fun hl => ⟨?_, fun _ _ => ?_, nofun⟩⟩
    · exact (h.connected.mp hs).elim id fun hr => hca (ha.trans hr)
    · exact iff_of_true nofun (.inl (hl rfl))
    · exact ⟨hl rfl, Bool.or_true _⟩

theorem linked_rcpt (a : Text) :
    Lawful st (.rcptTo a, (r.respondRcpt state a).reply) ∧ Linked (r.respondRcpt state a).next false st := by
  rcases r.respondRcpt_cases state a with ⟨hr, hn⟩ | ⟨sender, rcpts, hs, -, ha⟩
  · refine ⟨fun hpos => ?_, hn.symm ▸ h⟩
    exact absurd ((positive_of_head hr).symm.trans hpos) Bool.false_ne_true
  · have ho := h.opened rfl (by rw [hs]; rfl)
    rw [ha]
    exact ⟨fun _ => ho, iff_of_true nofun (.inl ho.1), fun _ _ => ho, nofun⟩

theorem linked_data : Lawful st (.data, (respondData state).reply) ∧
      Linked state (respondData state).opened.isSome (st.after (.data, (respondData state).reply)) := by
  rcases respondData_cases state with ⟨hre, ho⟩ | ⟨e, hs, -, ho, -⟩
  · have hr := positive_of_head hre
    have ha : st.after (.data, (respondData state).reply) = st := by simp [Standing.after, hr]
    rw [ho, ha]
    exact ⟨fun hpos => absurd (hr.symm.trans hpos) Bool.false_ne_true, h⟩
  · rw [ho]
    refine ⟨fun _ => (h.opened rfl (by rw [hs]; rfl)).1, h.connected, nofun, fun _ heq => ?_⟩
    rw [heq] at hs
    cases hs

theorem linked_respond (cmd : SmtpCommand) :
    (Lawful st (cmd, (r.respond state cmd).reply) ↔ Careful r.admits st (cmd, (r.respond state cmd).reply)) ∧
      (Lawful st (cmd, (r.respond state cmd).reply) →
        Linked (r.respond state cmd).next (r.respond state cmd).opened.isSome
          (st.after (cmd, (r.respond state cmd).reply))) := by
  cases cmd with
  | mailFrom a =>
    show _ ∧ (_ → Linked _ (r.respondMail state a).opened.isSome _)
    rw [(r.respondMail_plain state a).1]
    exact linked_mail h a
  | rcptTo a =>
    obtain ⟨hl, hli⟩ := linked_rcpt (r := r) h a
    show _ ∧ (_ → Linked _ (r.respondRcpt state a).opened.isSome _)
    rw [(r.respondRcpt_plain state a).1]
    exact ⟨iff_of_true hl nofun, fun _ => hli⟩
  | data =>
    obtain ⟨hl, hli⟩ := linked_data h
    show _ ∧ (_ → Linked (respondData state).next _ _)
    rw [(respondData_plain state).1]
    exact ⟨iff_of_true hl nofun, fun _ => hli⟩
  | ehlo domain | helo domain =>
    exact ⟨lawful_iff_of_due trivial, fun _ => ⟨iff_of_true nofun (.inl rfl), fun _ => nofun, nofun⟩⟩
  | rset => exact ⟨lawful_iff_of_due trivial, fun _ => ⟨iff_of_true nofun (.inr rfl), fun _ => nofun, nofun⟩⟩
  | _ => exact ⟨lawful_iff_of_due trivial, fun _ => h⟩

omit h

theorem turns_endOfData (e : Envelope) (m : Bytes) :
    (r.endOfData env s e m).trace.filterMap turn = s.trace.filterMap turn := by
  cases hc : r.policy.check r.unicode r.decoder (env.counters s.moment) (env.clock s.moment)
      (Text.lastPiece '@' e.mailFrom) e.rcptTo.length m with
  | error reason =>
    rw [r.trace_endOfData_refused env s hc]
    split <;> simp [turn]
  | ok _ =>
    rw [r.trace_endOfData_passed env s hc]
    split <;> simp [turn]

theorem tidy_leave (h : r.Tidy s) : r.Tidy s.leave := by
  unfold Session.leave
  split
  · exact h.mono fun _ _ hrun => nomatch hrun
  · exact h

theorem tidy_dispatch (h : Tallies r.admits (Linked s.state false) (s.trace.filterMap turn))
    (hrun : s.status = .running) (hi : s.receiving = none) (cmd : SmtpCommand) : r.Tidy (r.dispatch env s cmd) := by
  by_cases hw : env.writable s.moment = true
  · rw [r.dispatch_written env hw cmd hrun hi]
    unfold Tidy answered
    rw [List.filterMap_append, Option.isSome_map]
    exact h.concat fun st hst => ⟨(linked_respond hst cmd).1, fun hl _ => (linked_respond hst cmd).2 hl⟩
  · obtain ⟨hs, ht⟩ := r.dispatch_unwritten env cmd (Bool.not_eq_true _ |>.mp hw)
    unfold Tidy
    rw [ht, hs]
    exact h.mono fun _ _ hrun => nomatch hrun

theorem tidy_step (h : r.Tidy s) (read) : r.Tidy (r.step env s read) := by
  by_cases hrun : s.status = .running
  · unfold step
    rw [if_neg (not_not.mpr hrun)]
    cases read with
    | error e => exact h.mono fun _ _ hrun => nomatch hrun
    | ok line =>
      dsimp only
      split
      · next e m hr =>
        unfold dataLine
        split
        · exact tidy_leave (s := { s with moment := s.moment + 1 }) h
        · split
          · unfold Tidy
            rw [turns_endOfData, state_endOfData, receiving_endOfData]
            refine h.mono fun st hst _ => ?_
            obtain ⟨hc, -, hm⟩ := hst hrun
            exact ⟨iff_of_true nofun (hc.mp (hm (by rw [hr]; rfl))), fun _ => nofun, nofun⟩
          · refine h.mono fun st hst _ => ?_
            rw [hr] at hst
            exact hst hrun
      · next hr =>
        unfold commandLine
        split
        · exact tidy_leave (s := { s with moment := s.moment + 1 }) h
        · split
          · exact h.mono fun _ _ hrun => nomatch hrun
          · refine tidy_dispatch (s := { s with moment := s.moment + 1 }) ?_ hrun hr _
            exact h.mono fun st hst => by simpa [hr] using hst hrun
  · rwa [show r.step env s read = s from if_pos hrun]

end

end SmtpReceiver

end ServerWall.Relay

namespace ServerWall.Smtp

def proxyTurns (p : Proxy.SmtpProxy) (env : Proxy.Env) (early : Bool) (reads : List Proxy.LineRead) : List Turn :=
  ((Proxy.Session.start p early).run p env reads).trace.filterMap Proxy.Event.turn

def relayTurns (r : Relay.SmtpReceiver) (env : Relay.Surroundings) (reads : List Relay.LineRead) : List Turn :=
  (r.run env (r.start env) reads).trace.filterMap Relay.SessionEvent.turn

theorem tallies_nil (h : J {}) : Tallies admits J [] := ⟨Iff.rfl, fun _ => h⟩

/-- **When a session is lawful.** -/
theorem greeted_iff (p : Proxy.SmtpProxy) (env : Proxy.Env) (early : Bool) (reads : List Proxy.LineRead)
    (r : Relay.SmtpReceiver) (around : Relay.Surroundings) (lines : List Relay.LineRead) :
    (Along Lawful {} (proxyTurns p env early reads) ↔
        Along (Careful (Proxy.admits p env)) {} (proxyTurns p env early reads)) ∧
      (Along Lawful {} (relayTurns r around lines) ↔ Along (Careful r.admits) {} (relayTurns r around lines)) := by
  constructor
  · have hstart : Proxy.Tidy p env (.start p early) := tallies_nil fun _ h => by simp [Proxy.Session.start] at h
    have hrun : Proxy.Tidy p env ((Proxy.Session.start p early).run p env reads) :=
      List.foldlRecOn reads _ hstart fun _ h read _ => Proxy.tidy_step h read
    exact hrun.agree
  · have hstart : r.Tidy (r.start around) := by
      unfold Relay.SmtpReceiver.start
      split <;> exact tallies_nil fun _ => ⟨by simp, fun _ => nofun, nofun⟩
    have hrun : r.Tidy (r.run around (r.start around) lines) :=
      List.foldlRecOn lines _ hstart fun _ h read _ => Relay.SmtpReceiver.tidy_step h read
    exact hrun.agree

/-- A client that sends a `RCPT` at once, and one that sends `RSET` and `MAIL`. -/
theorem ungreeted_accepted :
    ¬ Along Lawful {} (proxyTurns (.withLists {} {}) .quiet false [.ok "RCPT TO:<b@b.example>\r\n"]) ∧
    ¬ Along Lawful {} (relayTurns Relay.plainReceiver Relay.plainSurroundings [.ok "RSET\r\n", .ok "MAIL FROM:<a@a.example>\r\n"]) :=
  ⟨fun h => Bool.false_ne_true (h.1 rfl).1, fun h => Bool.false_ne_true (h.2.1 rfl)⟩

end ServerWall.Smtp
