import ServerWall.Proxy.Session

/-!
# The envelope automaton

The phase, the sender, the recipients and the bypass flag decide what is forwarded. `Move` says all that
one read can do to them (`step_moves`): `MAIL` and a greeting leave the recipients, and the flag survives
the end of a message.
-/

namespace ServerWall.Proxy

open Antispam Smtp Session

structure View where
  state : SmtpState
  mailFrom : Text
  rcptTo : List Text
  allowed : Bool

def Session.view (s : Session) : View := ⟨s.state, s.mailFrom, s.rcptTo, s.allowed⟩

def IsGreeting : SmtpCommand → Prop
  | .ehlo _ | .helo _ => True
  | _ => False

/-- A command that is answered and changes nothing: refused `MAIL`, `RCPT` and
`DATA`, and the commands without an effect on the envelope. -/
inductive Idle : SmtpCommand → Text → Prop
  | mailBlocked (sender : Text) : Idle (.mailFrom sender) "550 5.7.1 Sender blocked\r\n"
  | rcptBlocked (rcpt : Text) : Idle (.rcptTo rcpt) "550 5.7.1 Recipient blocked\r\n"
  | dataRefused : Idle .data "503 5.5.1 Bad sequence of commands\r\n"
  | startTls (resp : Text) : Idle .startTls resp
  | noop (resp : Text) : Idle .noop resp
  | quit (resp : Text) : Idle .quit resp
  | auth (arg resp : Text) : Idle (.auth arg) resp
  | xclient (arg resp : Text) : Idle (.xclient arg) resp
  | unknown (line resp : Text) : Idle (.unknown line) resp

/-- The checks let a message through with this report: the pre-DATA checks ran
to their end, the post-DATA checks gave a report, and its verdict is not spam. -/
def Passed (p : SmtpProxy) (report : SpamReport) : Prop := ∃ m msg decision score contribs,
    p.pipeline.runPreData m msg.envelope = (decision, score, contribs) ∧
      p.pipeline.runPostData p.unicode m msg score contribs {} = .ok report ∧ report.verdict ≠ .spam

/-- What one read does to the four variables, and the events it leaves. The
index before them is the command read; inside a message there is none. -/
inductive Move (p : SmtpProxy) (env : Env) (v : View) : Option SmtpCommand → View → List Event → Prop
  | silent {input : Option SmtpCommand} : Move p env v input v []
  | idle {cmd : SmtpCommand} {resp : Text} (h : Idle cmd resp) : Move p env v (some cmd) v [.command cmd resp]
  | greet {cmd : SmtpCommand} (resp : Text) (h : IsGreeting cmd) :
    Move p env v (some cmd) { v with state := .heloReceived } [.command cmd resp]
  | mail (sender : Text) (h : p.blockList.matchesAny p.unicode env.peerIp (Session.address sender) = false) :
    Move p env v (some (.mailFrom sender)) { v with state := .mailFrom, mailFrom := Session.address sender }
      [.command (.mailFrom sender) "250 2.1.0 Ok\r\n"]
  | rcpt (recipient : Text) (h : p.blockList.containsRecipient p.unicode (Session.address recipient) = false) :
    Move p env v (some (.rcptTo recipient))
      { state := .rcptTo, mailFrom := v.mailFrom, rcptTo := v.rcptTo ++ [Session.address recipient]
        allowed := v.allowed || p.allowList.matchesAny p.unicode env.peerIp v.mailFrom }
      [.command (.rcptTo recipient) "250 2.1.5 Ok\r\n"]
  | data (h : v.state = .rcptTo ∨ v.state = .mailFrom) : Move p env v (some .data) { v with state := .data }
      [.command .data "354 End data with <CR><LF>.<CR><LF>\r\n"]
  | rset (state : SmtpState) (h : state = .heloReceived ∨ state = v.state) :
    Move p env v (some .rset) ⟨state, [], [], false⟩ [.command .rset "250 2.0.0 Ok\r\n"]
  | refuse (resp : Text) (h : v.state = .data) : Move p env v none ⟨.heloReceived, [], [], v.allowed⟩ [.endOfData resp]
  | deliver (moment : Moment) (f : SmtpProxy.Forward) (resp : Text)
    (h : v.state = .data) (hfrom : f.mailFrom = v.mailFrom) (hrcpt : f.rcptTo = v.rcptTo)
    (hpass : v.allowed = true ∨ Passed p f.report) :
    Move p env v none ⟨.heloReceived, [], [], v.allowed⟩ [.forwarded moment f v.allowed, .endOfData resp]
  | deliverCut (moment : Moment) (f : SmtpProxy.Forward)
    (h : v.state = .data) (hfrom : f.mailFrom = v.mailFrom) (hrcpt : f.rcptTo = v.rcptTo)
    (hpass : v.allowed = true ∨ Passed p f.report) :
    -- the message went out, its answer did not: the session ends here
    Move p env v none v [.forwarded moment f v.allowed]

/-- A session `s` that comes out of a move from `v`, its trace continuing
`base`. A session that has ended keeps its events; its variables no longer
matter. -/
def Makes (p : SmtpProxy) (env : Env) (v : View) (input : Option SmtpCommand)
    (base : List Event) (s : Session) : Prop :=
  ∃ v' es, Move p env v input v' es ∧ s.trace = base ++ es ∧ (s.status = .running → s.view = v')

section

variable {p : SmtpProxy} {env : Env} {v : View} {base : List Event}

theorem makes_of_ended (h : s.status ≠ .running) (ht : s.trace = base) : Makes p env v input base s :=
  ⟨v, [], .silent, by rw [ht, List.append_nil], fun hrun => absurd hrun h⟩

variable {s : Session}

theorem makes_reply {resp : Text}
    (hm : Move p env v input v' [event resp]) (ht : s.trace = base) (hv : s.view = v') :
    Makes p env v input base (s.reply env event resp) := by
  unfold reply
  split
  · refine ⟨v', [event resp], hm, ?_, fun _ => hv⟩
    rw [ht]
  · exact makes_of_ended (by simp) ht

theorem leave_status (s : Session) : s.leave.status ≠ .running := by
  unfold leave
  split
  · simp
  · next h => exact h

theorem leave_trace (s : Session) : s.leave.trace = s.trace := by
  unfold leave
  split <;> rfl

theorem makes_leave {resp : Text} (hi : Idle cmd resp) (ht : s.trace = base) :
    Makes p env v (some cmd) base (leave { s.reply env (.command cmd) resp with state := .quit }) := by
  by_cases hw : env.writable s.moment = true
  · refine ⟨v, _, .idle hi, ?_, fun hrun => absurd hrun (leave_status _)⟩
    rw [leave_trace]
    simp only [reply, if_pos hw, ht]
  · refine makes_of_ended (leave_status _) ?_
    rw [leave_trace]
    simp only [reply, if_neg hw, ht]

/-! ## The end of a message -/

/-- The message of `v` has been dealt with: the session has ended, or what is
left is to forget the transaction. -/
def Settles (p : SmtpProxy) (env : Env) (v : View) (base : List Event) (s : Session) : Prop :=
  s.allowed = v.allowed ∧ ∃ v' es, s.trace = base ++ es ∧ Move p env v none v' es ∧
    (s.status = .running → v' = ⟨.heloReceived, [], [], v.allowed⟩)

theorem Settles.makes (h : Settles p env v base s) : Makes p env v none base s.clearTransaction := by
  obtain ⟨ha, v', es, ht, hm, hv⟩ := h
  refine ⟨v', es, hm, ht, fun hrun => ?_⟩
  rw [hv hrun]
  show View.mk .heloReceived [] [] s.allowed = _
  rw [ha]

theorem settles_reply (hs : v.state = .data) (ht : s.trace = base)
    (ha : s.allowed = v.allowed) (resp : Text) : Settles p env v base (s.reply env .endOfData resp) := by
  unfold reply
  split
  · refine ⟨ha, _, [.endOfData resp], ?_, .refuse resp hs, fun _ => rfl⟩
    rw [ht]
  · refine ⟨ha, v, [], ?_, .silent, nofun⟩
    rwa [List.append_nil]

variable (hs : s.state = .data)
include hs

theorem settles_forward (report)
    (hp : s.allowed ∨ Passed p report) : Settles p env s.view s.trace (s.forward p env report s.allowed) := by
  let f := s.forwardArgs env report
  let answer := (p.forwardToBackend (env.backend s.moment) f).clientAnswer
  unfold forward reply
  dsimp only
  split
  · refine ⟨rfl, _, _, ?_, .deliver s.moment f answer hs rfl rfl hp, fun _ => rfl⟩
    rw [List.append_assoc]
    rfl
  · exact ⟨rfl, _, _, rfl, .deliverCut s.moment f hs rfl rfl hp, nofun⟩

theorem settles_postData (ha : s.allowed = false) {decision : PipelineDecision}
    (hpre : p.pipeline.runPreData s.moment (s.envelope p env) = (decision, preScore, preContribs)) :
    Settles p env s.view s.trace (s.postData p env preScore preContribs) := by
  have hf : ∀ report, Passed p report → Settles p env s.view s.trace (s.forward p env report false) := by
    intro report hp
    have h := @settles_forward p env _ hs report (.inr hp)
    rwa [ha] at h
  unfold postData
  dsimp only
  split
  · exact settles_reply hs rfl rfl _
  · exact settles_reply hs rfl rfl _
  · next d hr ht hpo =>
    -- the pipeline stops early only with one of the two answers above
    rcases AntispamPipeline.runPostData_error hpo with ⟨code, reason, rfl⟩ | ⟨reason, rfl⟩
    · exact absurd rfl (hr code reason)
    · exact absurd rfl (ht reason)
  · next report hpo =>
    have hp : report.verdict ≠ .spam → Passed p report := fun hv => ⟨_, _, _, _, _, hpre, hpo, hv⟩
    split
    · exact settles_reply hs rfl rfl _
    · next hv => exact hf _ (hp (by rw [hv]; nofun))
    · next hv => exact hf _ (hp (by rw [hv]; nofun))

theorem makes_endOfData : Makes p env s.view none s.trace (s.endOfData p env) := by
  unfold endOfData
  split
  · exact (settles_reply hs rfl rfl _).makes
  · exact (settles_reply hs rfl rfl _).makes
  · next decision preScore preContribs _ _ hpre =>
    split
    · next ha =>
      have h := @settles_forward p env _ hs bypassReport (.inl ha)
      rw [ha] at h
      exact h.makes
    · next ha =>
      have hf : s.allowed = false := by simpa using ha
      have hse := settles_postData hs hf hpre
      obtain ⟨v', es, hm, ht, hv⟩ := hse.makes
      refine ⟨v', es, hm, ht, fun hrun => ?_⟩
      rw [← hv hrun]
      show View.mk _ _ _ false = View.mk _ _ _ (s.postData p env _ _).allowed
      rw [hse.1]
      exact congrArg _ hf.symm

/-! ## One read -/

theorem makes_dataLine (line : Text) : Makes p env s.view none s.trace (s.dataLine p env line) := by
  unfold dataLine
  split
  · exact makes_endOfData (s := { s with bytesFromClient := s.bytesFromClient + Text.len line }) hs
  · exact ⟨s.view, [], .silent, (List.append_nil _).symm, fun _ => rfl⟩

omit hs

theorem makes_mail (s : Session) (sender : Text) :
    Makes p env s.view (some (.mailFrom sender)) s.trace (s.mail p env sender) := by
  unfold mail
  dsimp only
  split
  · exact makes_leave (.mailBlocked sender) rfl
  · next h => exact makes_reply (.mail sender (by simpa using h)) rfl rfl

theorem makes_rcpt (s : Session) (recipient : Text) :
    Makes p env s.view (some (.rcptTo recipient)) s.trace (s.rcpt p env recipient) := by
  unfold rcpt
  dsimp only
  split
  · exact makes_reply (.idle (.rcptBlocked recipient)) rfl rfl
  · next h => exact makes_reply (.rcpt recipient (by simpa using h)) rfl rfl

theorem makes_data (s : Session) : Makes p env s.view (some .data) s.trace (s.data env) := by
  unfold data
  split
  · exact makes_reply (.idle .dataRefused) rfl rfl
  · next h =>
    have hs : s.view.state = .rcptTo ∨ s.view.state = .mailFrom := by
      by_contra hno
      exact h (not_or.mp hno)
    exact makes_reply (.data hs) rfl rfl

theorem makes_rset (s : Session) : Makes p env s.view (some .rset) s.trace (s.rset env) := by
  refine makes_reply (.rset _ ?_) rfl rfl
  split
  · exact .inl rfl
  · exact .inr rfl

theorem makes_dispatch (s : Session) (cmd : SmtpCommand) :
    Makes p env s.view (some cmd) s.trace (s.dispatch p env cmd) := by
  cases cmd with
  | ehlo domain | helo domain => exact makes_reply (.greet _ trivial) rfl rfl
  | mailFrom sender => exact makes_mail s sender
  | rcptTo recipient => exact makes_rcpt s recipient
  | data => exact makes_data s
  | rset => exact makes_rset s
  | quit => exact makes_leave (.quit _) rfl
  | noop => exact makes_reply (.idle (.noop _)) rfl rfl
  | startTls => exact makes_reply (.idle (.startTls _)) rfl rfl
  | auth arg => exact makes_reply (.idle (.auth arg _)) rfl rfl
  | xclient arg => exact makes_reply (.idle (.xclient arg _)) rfl rfl
  | unknown line => exact makes_reply (.idle (.unknown line _)) rfl rfl

theorem makes_commandLine (s : Session) (line : Text) :
    Makes p env s.view (if line = [] then none else parseCommand p.unicode line) s.trace
      (s.commandLine p env line) := by
  unfold commandLine
  split
  · exact makes_of_ended (leave_status s) (leave_trace s)
  · split
    · exact makes_of_ended (by simp) rfl
    · next cmd hcmd =>
      rw [hcmd]
      exact makes_dispatch { s with
        bytesFromClient := s.bytesFromClient + Text.len line, commandCount := s.commandCount + 1 } _

/-- **One read of a running session is one move.** -/
theorem step_moves (hrun : s.status = .running) (r : LineRead) :
    Makes p env s.view (s.commandAt p r) s.trace (s.step p env r) := by
  unfold step commandAt
  rw [if_neg (by simp [hrun])]
  cases r with
  | error e => exact makes_of_ended (by simp) rfl
  | ok line =>
    dsimp only
    by_cases hs : s.state = .data
    · rw [if_pos hs, if_pos (.inl hs)]
      exact makes_dataLine (s := { s with moment := s.moment + 1 }) hs _
    · simp only [hs, false_or, if_false]
      exact makes_commandLine { s with moment := s.moment + 1 } line

end

/-! ## Whole sessions -/

/-- An invariant of the automaton: it holds of the variables as long as the
session runs, and of the trace for some last value of the variables. -/
def Kept (I : View → List Event → Prop) (s : Session) : Prop := ∃ v, I v s.trace ∧ (s.status = .running → s.view = v)

/-- **The rule for sessions**: what every move keeps, every session keeps,
whatever the client sends and however the world answers. -/
theorem run_keeps (hmo : ∀ v trace input v' es, I v trace → Move p env v input v' es → I v' (trace ++ es)) :
    ∀ (reads : List LineRead) (s : Session), Kept I s → Kept I (s.run p env reads)
  | [], _, hs => hs
  | r :: reads, s, hs => by
    refine run_keeps hmo reads (s.step p env r) ?_
    obtain ⟨v, hv, hvi⟩ := hs
    by_cases hrun : s.status = .running
    · obtain ⟨v', es, hm, ht, hvi'⟩ : Makes p env _ _ _ (s.step p env r) := step_moves hrun r
      refine ⟨v', ?_, hvi'⟩
      rw [ht]
      exact hmo v s.trace _ v' es hv (hvi hrun ▸ hm)
    · rw [show s.step p env r = s by exact if_pos hrun]
      exact ⟨v, hv, hvi⟩

/-! ## Replies -/

def answered (trace : List Event) : List SmtpCommand := trace.filterMap fun
    | .command cmd _ => some cmd
    | _ => none

/-- The commands that a session reads, as long as it runs. -/
def asked (p : SmtpProxy) (env : Env) : Session → List LineRead → List SmtpCommand
  | _, [] => []
  | s, r :: reads => (if s.status = .running then (s.commandAt p r).toList else []) ++ asked p env (s.step p env r) reads

theorem answered_move (h : Move p env v input v' es) : (answered es).Sublist input.toList := by
  cases h <;> simp [answered]

end ServerWall.Proxy
