import ServerWall.Lib.Wire
import ServerWall.Relay.Host

/-!
# The sender

`SmtpSender` (`serverwall-relay/src/delivery/sender.rs`): one exchange with a remote host, which is what it
does in it (`Remote`). A reply is read up to a line whose fourth byte is a space or that is shorter, and
only its first character counts. A receiver that follows the standard finds the end of the text where
the sender put it (`data_stuffed`).
-/

namespace ServerWall.Relay

open List Wire EStateM Text

/-- What one `read_line` returns; the empty text is the end of the stream. -/
abbrev LineRead := Except IoError Text

/-- The part of an exchange that a write or a line belongs to. -/
inductive Exchange where
  | banner
  | ehlo
  | startTls
  | mail
  | rcpt
  | data
  | message
  | quit
  deriving DecidableEq

inductive LinkEvent where
  | wrote (part : Exchange) (chunk : Bytes)
  | heard (part : Exchange) (line : Text)
  deriving DecidableEq

structure Remote where
  refused : Option IoError
  replies : List LineRead
  writeBudget : Option Nat
  /-- The handshake, and what the host sends over TLS. -/
  upgraded : Except Text (List LineRead)

structure Link where
  replies : List LineRead
  writeBudget : Option Nat
  events : List LinkEvent

abbrev Sending := EStateM Failure Link

def writeAll (part : Exchange) (chunk : Bytes) : Sending Unit := fun link =>
  match link.writeBudget with
  | some 0 => .error (.io .brokenPipe) link
  | budget =>
    .ok () { link with
      writeBudget := budget.map (· - 1)
      events := link.events ++ [.wrote part chunk] }

def writeCmd (part : Exchange) (cmd : Text) : Sending Unit := do
  writeAll part (Text.bytes cmd)
  writeAll part (Text.bytes "\r\n")

def endsReply (line : Text) : Bool := (Text.bytes line)[3]? == some 32 || Text.len line < 4

def responseLoop (part : Exchange) : List LineRead → Text → Link → EStateM.Result Failure Link Text
  | [], _, link => .error (.context "connection closed unexpectedly") { link with replies := [] }
  | .error e :: rest, _, link => .error (.io e) { link with replies := rest }
  | .ok line :: rest, fullResponse, link =>
    let link := { link with replies := rest, events := link.events ++ [.heard part line] }
    if line = [] then .error (.context "connection closed unexpectedly") link
    else if endsReply line then .ok (Text.trim (fullResponse ++ line)) link
    else responseLoop part rest (fullResponse ++ line) link

def readResponse (part : Exchange) : Sending Text := fun link =>
  responseLoop part link.replies [] link

def ensurePositive (response : Text) : Sending Unit :=
  if response.head? = some '2' then pure () else throw (.context response)

/-! ## The conversation -/

def rcptCommand (rcpt : Text) : Text := Text.fmt ["RCPT TO:<", rcpt, ">"]

/-- `RCPT TO` for each recipient, until one is refused. -/
def offerRecipients : List Text → Sending Unit
  | [] => pure ()
  | rcpt :: rest => do
    writeCmd .rcpt (rcptCommand rcpt)
    let rcptResp ← readResponse .rcpt
    ensurePositive rcptResp
    offerRecipients rest

def openMessage (mailFrom : Text) (rcptTo : List Text) : Sending Unit := do
  writeCmd .mail (Text.fmt ["MAIL FROM:<", mailFrom, ">"])
  let fromResp ← readResponse .mail
  ensurePositive fromResp
  offerRecipients rcptTo
  writeCmd .data "DATA"
  let dataResp ← readResponse .data
  if dataResp.head? = some '3' then pure () else throw (.context dataResp)

def pieceChunks (piece : Bytes) : List Bytes :=
  let line := Wire.chopCr piece
  (if line.head? = some 46 then [[46]] else []) ++ [line, [13, 10]]

def messageChunks (message : Bytes) : List Bytes := (Wire.pieces message).flatMap pieceChunks ++ [[46, 13, 10]]

def writeChunks (part : Exchange) : List Bytes → Sending Unit
  | [] => pure ()
  | chunk :: rest => do
    writeAll part chunk
    writeChunks part rest

def quit : Sending Unit := fun link =>
  match (writeCmd .quit "QUIT").run link with
  | .ok _ link => .ok () link
  | .error _ link => .ok () link

def smtpConversation (mailFrom : Text) (rcptTo : List Text) (message : Bytes) : Sending Text := do
  openMessage mailFrom rcptTo
  writeChunks .message (messageChunks message)
  let finalResp ← readResponse .message
  ensurePositive finalResp
  quit
  pure finalResp

/-! ## The exchange -/

structure OutboundTls where
  opportunistic : Bool

structure SmtpSender where
  unicode : Unicode
  hostname : Text
  tls : Option OutboundTls

namespace SmtpSender

def socketText : IpAddr → Text
  | .v4 a b c d => Text.fmt [(IpAddr.v4 a b c d).toText, ":25"]
  | .v6 segments => Text.fmt ["[", (IpAddr.v6 segments).toText, "]:25"]

/-- The exchange over TLS, with a fresh `EHLO` whose reply is not looked at. -/
def upgrade (s : SmtpSender) (upgraded : Except Text (List LineRead)) (mailFrom : Text)
    (rcptTo : List Text) (message : Bytes) : Sending Text := do
  match upgraded with
  | .ok replies =>
    modify fun link => { link with replies }
    writeCmd .ehlo (Text.fmt ["EHLO ", s.hostname])
    let _ ← readResponse .ehlo
    smtpConversation mailFrom rcptTo message
  | .error e => throw (.context (Text.fmt ["STARTTLS handshake failed: ", e]))

def converse (s : SmtpSender) (upgraded : Except Text (List LineRead)) (mailFrom : Text)
    (rcptTo : List Text) (message : Bytes) : Sending Text := do
  let banner ← readResponse .banner
  ensurePositive banner
  writeCmd .ehlo (Text.fmt ["EHLO ", s.hostname])
  let ehloResp ← readResponse .ehlo
  ensurePositive ehloResp
  if ("STARTTLS" : Text) <:+: s.unicode.toUppercase ehloResp ∧ s.tls.any (·.opportunistic) then
    writeCmd .startTls "STARTTLS"
    let tlsResp ← readResponse .startTls
    -- a refused upgrade goes on in plain text
    if tlsResp.head? = some '2' then s.upgrade upgraded mailFrom rcptTo message
    else smtpConversation mailFrom rcptTo message
  else smtpConversation mailFrom rcptTo message

def sendInner (s : SmtpSender) (remote : Remote) (addr : IpAddr) (mailFrom : Text)
    (rcptTo : List Text) (message : Bytes) : EStateM.Result Failure Link Text :=
  let link : Link := { replies := remote.replies, writeBudget := remote.writeBudget, events := [] }
  match remote.refused with
  | some _ => .error (.context (Text.fmt ["failed to connect to ", socketText addr])) link
  | none => (s.converse remote.upgraded mailFrom rcptTo message).run link

/-- `SmtpSender::send`: the text of an error that starts with a 5 is a permanent
failure, any other a temporary one. -/
def send (s : SmtpSender) (remote : Remote) (addr : IpAddr) (mailFrom : Text)
    (rcptTo : List Text) (message : Bytes) : DeliveryResult :=
  match s.sendInner remote addr mailFrom rcptTo message with
  | .ok response _ => .success response
  | .error e _ =>
    if e.display.head? = some '5' ∧ Text.len e.display > 2 then .permFail e.display
    else .tempFail e.display

end SmtpSender

def record {α : Type} : EStateM.Result Failure Link α → List LinkEvent
  | .ok _ link => link.events
  | .error _ link => link.events

def octetsOf (part : Exchange) (events : List LinkEvent) : Bytes := events.flatMap fun
    | .wrote p chunk => if p = part then chunk else []
    | .heard _ _ => []

def completed {α : Type} : EStateM.Result Failure Link α → Bool
  | .ok _ _ => true
  | .error _ _ => false

def linkAfter {α : Type} : EStateM.Result Failure Link α → Link
  | .ok _ link => link
  | .error _ link => link

/-! ## What the code puts on record -/

section

variable {α β : Type}

/-- The code adds only events that satisfy `P`, and takes no write for a lost one
on a connection that takes every write. -/
structure Adds (P : LinkEvent → Prop) (x : Sending α) : Prop where
  events : ∀ link, ∃ more, record (x.run link) = link.events ++ more ∧ ∀ e ∈ more, P e
  opens : ∀ link, link.writeBudget = none → (linkAfter (x.run link)).writeBudget = none

theorem adds_pure (v : α) : Adds P (pure v : Sending α) where
  events _ := ⟨[], (append_nil _).symm, fun _ h => absurd h not_mem_nil⟩
  opens _ h := h

theorem adds_throw (f : Failure) : Adds P (throw f : Sending α) where
  events _ := ⟨[], (append_nil _).symm, fun _ h => absurd h not_mem_nil⟩
  opens _ h := h

theorem Adds.bind (hx : Adds P x) (hf : ∀ v, Adds P (f v)) : Adds P (x >>= f) := by
  constructor
  · intro link
    obtain ⟨more, hm, hP⟩ := hx.events link
    rw [run_bind]
    cases hres : x.run link with
    | error e link' =>
      rw [hres] at hm
      exact ⟨more, hm, hP⟩
    | ok v link' =>
      rw [hres] at hm
      obtain ⟨more', hm', hP'⟩ := (hf v).events link'
      refine ⟨more ++ more', ?_, fun e he => ?_⟩
      · rwa [← append_assoc, ← hm]
      · rcases mem_append.mp he with he | he
        · exact hP e he
        · exact hP' e he
  · intro link ho
    have ho' := hx.opens link ho
    rw [run_bind]
    cases hres : x.run link with
    | error e link' =>
      rw [hres] at ho'
      exact ho'
    | ok v link' =>
      rw [hres] at ho'
      exact (hf v).opens link' ho'

theorem adds_writeAll (h : P (.wrote part chunk)) : Adds P (writeAll part chunk) := by
  constructor
  · intro link
    unfold run writeAll
    split
    · exact ⟨[], (append_nil _).symm, fun _ he => absurd he not_mem_nil⟩
    · refine ⟨[.wrote part chunk], rfl, fun e he => ?_⟩
      rwa [mem_singleton.mp he]
  · intro link ho
    simp [run, writeAll, ho, linkAfter]

theorem adds_writeCmd (h : P (.wrote part (bytes cmd)))
    (hend : P (.wrote part (bytes "\r\n"))) : Adds P (writeCmd part cmd) :=
  (adds_writeAll h).bind fun _ => adds_writeAll hend

theorem responseLoop_record (part : Exchange) (replies : List LineRead) : ∀ (full : Text) (link : Link), ∃ more,
      record (responseLoop part replies full link) = link.events ++ more ∧
      (∀ e ∈ more, ∃ line, e = .heard part line) ∧
      (linkAfter (responseLoop part replies full link)).writeBudget = link.writeBudget := by
  induction replies with
  | nil => exact fun full link => ⟨[], (append_nil _).symm, fun _ he => absurd he not_mem_nil, rfl⟩
  | cons reply rest ih =>
    intro full link
    cases reply with
    | error e => exact ⟨[], (append_nil _).symm, fun _ he => absurd he not_mem_nil, rfl⟩
    | ok line =>
      have hone : ∀ e ∈ [LinkEvent.heard part line], ∃ line', e = .heard part line' :=
        fun e he => ⟨line, mem_singleton.mp he⟩
      unfold responseLoop
      split
      · exact ⟨[.heard part line], rfl, hone, rfl⟩
      · split
        · exact ⟨[.heard part line], rfl, hone, rfl⟩
        · obtain ⟨more, hm, hh, hb⟩ := ih (full ++ line)
            { link with replies := rest, events := link.events ++ [.heard part line] }
          refine ⟨.heard part line :: more, ?_, fun e he => ?_, hb⟩
          · rw [hm]
            simp
          · rcases mem_cons.mp he with rfl | he
            · exact ⟨line, rfl⟩
            · exact hh e he

theorem adds_readResponse (h : ∀ line, P (.heard part line)) : Adds P (readResponse part) := by
  constructor
  · intro link
    obtain ⟨more, hm, hh, -⟩ := responseLoop_record part link.replies [] link
    refine ⟨more, hm, fun e he => ?_⟩
    obtain ⟨line, rfl⟩ := hh e he
    exact h line
  · intro link ho
    obtain ⟨more, -, -, hb⟩ := responseLoop_record part link.replies [] link
    exact hb.trans ho

theorem adds_ensurePositive (response : Text) : Adds P (ensurePositive response) := by
  unfold ensurePositive
  split
  · exact adds_pure ()
  · exact adds_throw _

theorem adds_offerRecipients (rcpts : List Text) (ho : ∀ rcpt ∈ rcpts, P (.wrote .rcpt (bytes (rcptCommand rcpt))))
    (hend : P (.wrote .rcpt (bytes "\r\n"))) (hh : ∀ line, P (.heard .rcpt line)) :
    Adds P (offerRecipients rcpts) := by
  induction rcpts with
  | nil => exact adds_pure ()
  | cons rcpt rest ih =>
    refine (adds_writeCmd (ho rcpt mem_cons_self) hend).bind fun _ => ?_
    refine (adds_readResponse hh).bind fun resp => ?_
    exact (adds_ensurePositive resp).bind fun _ =>
      ih fun r hr => ho r (mem_cons_of_mem _ hr)

theorem adds_openMessage (mailFrom : Text) (rcptTo : List Text)
    (hp : ∀ part chunk, part = .mail ∨ part = .data → P (.wrote part chunk)) (hh : ∀ part line, P (.heard part line))
    (ho : ∀ rcpt ∈ rcptTo, P (.wrote .rcpt (bytes (rcptCommand rcpt))))
    (hend : P (.wrote .rcpt (bytes "\r\n"))) : Adds P (openMessage mailFrom rcptTo) := by
  refine (adds_writeCmd (hp _ _ (.inl rfl)) (hp _ _ (.inl rfl))).bind fun _ => ?_
  refine (adds_readResponse (hh _)).bind fun resp => ?_
  refine (adds_ensurePositive resp).bind fun _ => ?_
  refine (adds_offerRecipients rcptTo ho hend (hh _)).bind fun _ => ?_
  refine (adds_writeCmd (hp _ _ (.inr rfl)) (hp _ _ (.inr rfl))).bind fun _ => ?_
  refine (adds_readResponse (hh _)).bind fun resp => ?_
  split
  · exact adds_pure ()
  · exact adds_throw _

theorem adds_quit (h : ∀ chunk, P (.wrote .quit chunk)) : Adds P quit := by
  have hcmd : Adds P (writeCmd .quit "QUIT") := adds_writeCmd (h _) (h _)
  have hq : ∀ link, record (quit.run link) = record ((writeCmd .quit "QUIT").run link) ∧
      linkAfter (quit.run link) = linkAfter ((writeCmd .quit "QUIT").run link) := by
    intro link
    have hrun : quit.run link =
        match (writeCmd .quit "QUIT").run link with
        | .ok _ link' => .ok () link'
        | .error _ link' => .ok () link' := rfl
    rw [hrun]
    cases (writeCmd .quit "QUIT").run link <;> exact ⟨rfl, rfl⟩
  constructor
  · intro link
    rw [(hq link).1]
    exact hcmd.events link
  · intro link ho
    rw [(hq link).2]
    exact hcmd.opens link ho

end

/-! ## The message text -/

@[simp] theorem octetsOf_append (part : Exchange) (events more : List LinkEvent) :
    octetsOf part (events ++ more) = octetsOf part events ++ octetsOf part more :=
  flatMap_append

theorem octetsOf_chunks (part : Exchange) (chunks : List Bytes) :
    octetsOf part (chunks.map (.wrote part)) = chunks.flatten := by
  induction chunks with
  | nil => rfl
  | cons chunk rest ih =>
    rw [map_cons, flatten_cons, ← ih]
    simp [octetsOf]

theorem octetsOf_foreign (h : ∀ e ∈ events, ∀ chunk, e ≠ .wrote part chunk) : octetsOf part events = [] := by
  induction events with
  | nil => rfl
  | cons e rest ih =>
    have hr := ih fun e' he' => h e' (mem_cons_of_mem _ he')
    cases e with
    | heard p line => exact hr
    | wrote p chunk =>
      have hp : p ≠ part := by
        rintro rfl
        exact h _ mem_cons_self chunk rfl
      show (if p = part then chunk else []) ++ octetsOf part rest = []
      rw [if_neg hp, hr]
      rfl

theorem writeAll_open (part : Exchange) (chunk : Bytes) (ho : link.writeBudget = none) :
    (writeAll part chunk).run link = .ok () { link with events := link.events ++ [.wrote part chunk] } := by
  simp [run, writeAll, ho]

theorem writeChunks_open (part : Exchange) (chunks : List Bytes) :
    ∀ link : Link, link.writeBudget = none → (writeChunks part chunks).run link =
      .ok () { link with events := link.events ++ chunks.map (.wrote part) } := by
  induction chunks with
  | nil => simp [writeChunks]
  | cons chunk rest ih =>
    intro link ho
    rw [writeChunks, run_bind, writeAll_open part chunk ho]
    dsimp only
    rw [ih { link with events := link.events ++ [.wrote part chunk] } ho]
    simp

theorem pieceChunks_flatten (piece : Bytes) : (pieceChunks piece).flatten = stuffDot (chopCr piece) ++ [13, 10] := by
  unfold pieceChunks stuffDot
  by_cases h : (chopCr piece).head? = some 46 <;> simp [h]

theorem messageChunks_flatten (message : Bytes) : (messageChunks message).flatten = closed (stuffed message) := by
  have hp : ∀ ps : List Bytes, (ps.flatMap pieceChunks).flatten =
      joinLines ((ps.map chopCr).map stuffDot) := by
    intro ps
    induction ps with
    | nil => rfl
    | cons p ps ih =>
      rw [flatMap_cons, flatten_append, ih, pieceChunks_flatten]
      simp [joinLines]
  rw [messageChunks, flatten_append, hp]
  simp [closed, stuffed, chopped]

/-- **What is written after the reply to `DATA`** is the message, piece by piece,
and its closing dot. -/
theorem octetsOf_message (message : Bytes) (hop : link.writeBudget = none) (hnew : octetsOf .message link.events = [])
    (hd : completed ((openMessage mailFrom rcptTo).run link)) :
    octetsOf .message (record ((smtpConversation mailFrom rcptTo message).run link)) = closed (stuffed message) := by
  have hf : Adds (fun e => ∀ chunk, e ≠ .wrote .message chunk) (openMessage mailFrom rcptTo) := by
    apply adds_openMessage
    · rintro part chunk (rfl | rfl) chunk' <;> exact nofun
    · exact fun _ _ _ h => by cases h
    · exact fun _ _ _ h => by cases h
    · exact fun _ h => by cases h
  -- what follows the message hears the verdict and says goodbye
  have hr : Adds (fun e => ∀ chunk, e ≠ .wrote .message chunk) (do
        let finalResp ← readResponse .message
        ensurePositive finalResp
        quit
        pure finalResp : Sending Text) := by
    refine (adds_readResponse fun _ _ h => by cases h).bind fun resp => ?_
    refine (adds_ensurePositive resp).bind fun _ => ?_
    exact (adds_quit fun _ _ h => by cases h).bind fun _ => adds_pure _
  have hb := hf.opens link hop
  obtain ⟨before, hbe, hq⟩ := hf.events link
  cases ho : (openMessage mailFrom rcptTo).run link with
  | error e link₁ =>
    rw [ho] at hd
    cases hd
  | ok u link₁ =>
    rw [ho] at hb hbe
    have hrun : (smtpConversation mailFrom rcptTo message).run link = (do
          let finalResp ← readResponse .message
          ensurePositive finalResp
          quit
          pure finalResp : Sending Text).run
          { link₁ with events := link₁.events ++ (messageChunks message).map (.wrote .message) } := by
      rw [smtpConversation, run_bind, ho]
      dsimp only
      rw [run_bind, writeChunks_open _ _ link₁ hb]
    obtain ⟨after, ha, hq'⟩ := hr.events
      { link₁ with events := link₁.events ++ (messageChunks message).map (.wrote .message) }
    have hl₁ : link₁.events = link.events ++ before := hbe
    rw [hrun, ha, octetsOf_append, octetsOf_append, octetsOf_chunks, hl₁, octetsOf_append,
      hnew, octetsOf_foreign hq, octetsOf_foreign hq', messageChunks_flatten]
    simp

/-! ## A host that agrees -/

def agreed : LineRead := .ok "250 OK\r\n"

/-- The replies of a host that takes the sender and the recipients and asks for the
text. -/
def agreeing (recipients : Nat) : List LineRead :=
  agreed :: (List.replicate recipients agreed ++ [.ok "354 Go ahead\r\n"])

theorem readResponse_line (part : Exchange)
    (hl : line ≠ []) (he : endsReply line) (hn : link.replies = .ok line :: rest) :
    (readResponse part).run link = .ok (trim line)
      { link with replies := rest, events := link.events ++ [.heard part line] } := by
  show responseLoop part link.replies [] link = _
  rw [hn]
  simp [responseLoop, hl, he]

/-- A connection further on: it takes every write, these lines are still to come,
and what was on record still is. -/
structure Link.Onward (link : Link) (rest : List LineRead) (link' : Link) : Prop where
  opens : link'.writeBudget = none
  replies : link'.replies = rest
  kept : link.events ⊆ link'.events

theorem Link.Onward.trans {link link' link'' : Link} {rest rest' : List LineRead}
    (h : link.Onward rest link') (h' : link'.Onward rest' link'') : link.Onward rest' link'' :=
  ⟨h'.opens, h'.replies, fun _ he => h'.kept (h.kept he)⟩

theorem ask_line {α : Type} (part : Exchange) (cmd : Text) (next : Text → Sending α) (hl : line ≠ []) (hen : endsReply line)
    (ho : link.writeBudget = none) (hn : link.replies = .ok line :: rest) :
    ∃ link', link.Onward rest link' ∧ .wrote part (bytes cmd) ∈ link'.events ∧ (do
        writeCmd part cmd
        let resp ← readResponse part
        next resp : Sending α).run link = (next (trim line)).run link' := by
  let asked : Link := { link with
    events := link.events ++ [.wrote part (bytes cmd)] ++ [.wrote part (bytes "\r\n")] }
  have hw : (writeCmd part cmd).run link = .ok () asked := by
    rw [writeCmd, run_bind, writeAll_open part _ ho]
    exact writeAll_open part _ ho
  have hr : (readResponse part).run asked = .ok (trim line)
      { asked with replies := rest, events := asked.events ++ [.heard part line] } :=
    readResponse_line part hl hen hn
  refine ⟨{ asked with replies := rest, events := asked.events ++ [.heard part line] },
    ⟨ho, rfl, fun e he => ?_⟩, ?_, ?_⟩
  · simp [asked, he]
  · simp [asked]
  · rw [run_bind, hw]
    dsimp only
    rw [run_bind, hr]

theorem ask_agreed {α : Type} (part : Exchange) (cmd : Text) (next : Sending α) (ho : link.writeBudget = none)
    (hn : link.replies = agreed :: rest) :
    ∃ link', link.Onward rest link' ∧ .wrote part (bytes cmd) ∈ link'.events ∧ (do
        writeCmd part cmd
        let resp ← readResponse part
        ensurePositive resp
        next : Sending α).run link = next.run link' := by
  obtain ⟨link', hon, hw, hrun⟩ := ask_line part cmd
    (fun resp => do ensurePositive resp; next) (by decide) (by decide +kernel) ho hn
  have hp : ensurePositive (trim "250 OK\r\n") = pure () := by exact if_pos (by decide +kernel)
  refine ⟨link', hon, hw, hrun.trans ?_⟩
  rfl

theorem offerRecipients_agreed (rcpts : List Text) : ∀ (link : Link) (rest : List LineRead), link.writeBudget = none →
      link.replies = List.replicate rcpts.length agreed ++ rest →
      ∃ link', link.Onward rest link' ∧ (offerRecipients rcpts).run link = .ok () link' ∧
        ∀ rcpt ∈ rcpts, .wrote .rcpt (bytes (rcptCommand rcpt)) ∈ link'.events := by
  induction rcpts with
  | nil =>
    intro link rest ho hre
    exact ⟨link, ⟨ho, hre, fun _ he => he⟩, rfl, fun _ h => absurd h not_mem_nil⟩
  | cons rcpt rcpts ih =>
    intro link rest ho hre
    obtain ⟨link₁, hon₁, hw, hrun₁⟩ := ask_agreed .rcpt (rcptCommand rcpt) (offerRecipients rcpts) ho hre
    obtain ⟨link₂, hon₂, hrun₂, hof⟩ := ih link₁ rest hon₁.opens hon₁.replies
    refine ⟨link₂, hon₁.trans hon₂, ?_, fun r hr => ?_⟩
    · rw [offerRecipients, hrun₁, hrun₂]
    · rcases mem_cons.mp hr with rfl | hr
      · exact hon₂.kept hw
      · exact hof r hr

theorem openMessage_agreed (mailFrom : Text) (rcpts : List Text) {link : Link} (hop : link.writeBudget = none)
    (hre : link.replies = agreeing rcpts.length ++ rest) :
    ∃ link', link.Onward rest link' ∧ (openMessage mailFrom rcpts).run link = .ok () link' ∧
      ∀ rcpt ∈ rcpts, .wrote .rcpt (bytes (rcptCommand rcpt)) ∈ link'.events := by
  rw [agreeing, cons_append, append_assoc] at hre
  obtain ⟨link₁, hon₁, -, hrun₁⟩ := ask_agreed .mail (fmt ["MAIL FROM:<", mailFrom, ">"]) (do
      offerRecipients rcpts
      writeCmd .data "DATA"
      let dataResp ← readResponse .data
      if dataResp.head? = some '3' then pure () else throw (.context dataResp)) hop hre
  obtain ⟨link₂, hon₂, hrun₂, ho⟩ := offerRecipients_agreed rcpts link₁ _ hon₁.opens hon₁.replies
  obtain ⟨link₃, hon₃, -, hrun₃⟩ := ask_line .data "DATA"
    (fun dataResp => if dataResp.head? = some '3' then pure () else throw (.context dataResp))
    (by decide) (by decide +kernel) hon₂.opens hon₂.replies
  have hgo : (trim "354 Go ahead\r\n").head? = some '3' := by decide +kernel
  refine ⟨link₃, hon₁.trans (hon₂.trans hon₃), ?_, fun r hr => hon₃.kept (ho r hr)⟩
  rwa [openMessage, hrun₁, run_bind, hrun₂]

/-- A text a receiver of SMTP can take for nothing else than these lines. -/
structure Framed (lines : List Bytes) (out : Bytes) : Prop where
  crBeforeLf : ∀ x y, out = x ++ 10 :: y → x.getLast? = some 13
  /-- The text closes with a dot on a line of its own, -/
  terminated : ∃ x, out = x ++ [13, 10, 46, 13, 10]
  once : ∀ x y, out = x ++ [13, 10, 46, 13, 10] ++ y → y = []
  notFirst : ¬ [46, 13, 10] <+: out
  unstuffed : Wire.receive out = some (lines, [])

theorem framed_closed (message : Bytes) : Framed ((pieces message).map chopCr) (closed (stuffed message)) := by
  have hlf : ∀ l ∈ stuffed message, (10 : UInt8) ∉ l := fun _ hl => lf_not_mem_stuffed hl
  have hdot := dot_not_mem_stuffed message
  have hne := stuffed_ne_nil message
  constructor
  · intro x y h
    rw [closed_eq_join] at h
    refine cr_before_lf (fun l hl => ?_) h
    rcases mem_append.mp hl with hl | hl
    · exact hlf l hl
    · rw [mem_singleton.mp hl]
      decide
  · obtain ⟨x, hx⟩ := terminator_suffix hne
    exact ⟨x, hx.symm⟩
  · exact fun x y h => closed_ends hlf hdot h
  · exact closed_not_dot hlf hdot hne
  · rw [receive_closed hlf hdot, strip_stuffed]
    rfl

/-- **Dot-stuffing is safe for every message.** -/
theorem data_stuffed (mailFrom : Text) (rcptTo : List Text) (message : Bytes) (replies : List LineRead)
    (hdata : completed ((openMessage mailFrom rcptTo).run ⟨replies, none, []⟩) = true) :
    Framed ((Wire.pieces message).map Wire.chopCr) (octetsOf .message (record ((smtpConversation mailFrom rcptTo message).run ⟨replies, none, []⟩))) := by
  rw [octetsOf_message message rfl rfl hdata]
  exact framed_closed message

theorem data_stuffed_bareEnds : Framed [[46], [], [97, 13, 98], [46, 13]]
      (octetsOf .message (record ((smtpConversation "a@b.example" ["c@d.example"]
        [46, 10, 13, 10, 97, 13, 98, 13, 10, 46, 13, 13]).run
        ⟨[.ok "250 OK\r\n", .ok "250 OK\r\n", .ok "354 go ahead\r\n"], none, []⟩))) :=
  data_stuffed "a@b.example" ["c@d.example"] [46, 10, 13, 10, 97, 13, 98, 13, 10, 46, 13, 13]
    [.ok "250 OK\r\n", .ok "250 OK\r\n", .ok "354 go ahead\r\n"] (by decide +kernel)

end ServerWall.Relay
