import ServerWall.Proxy.Backend

/-!
# Undisturbed conversations

With a backend that is reached and takes every write, the call to
`forward_to_backend` is a function of the lines the backend sends. `converse`
is that function: the turns of the script take their lines from the front, and
nothing a line says changes what is written next.
-/

namespace ServerWall.Proxy

open List Conn SmtpProxy

/-- A connection on which nothing has failed or will, with these lines still to
be read. -/
structure Conn.Open (c : Conn) (lines : List Text) : Prop where
  failure : c.failure = none
  writeBudget : c.writeBudget = none
  replies : c.replies = lines.map .ok

/-- The lines the `EHLO` loop reads, and those it leaves. -/
def ehloLines : List Text → List Text × List Text
  | [] => ([], [])
  | l :: ls => if l = [] || endsEhlo l then ([l], ls) else (l :: (ehloLines ls).1, (ehloLines ls).2)

def taken : Stage → List Text → List Text × List Text
  | .ehlo, lines => ehloLines lines
  | _, lines => (lines.take 1, lines.drop 1)

def converse : List (Stage × List Bytes) → List Text → List BackendEvent
  | [], _ => []
  | t :: ts, lines =>
    t.2.map (.sent t.1) ++ (taken t.1 lines).1.map (.received t.1) ++ converse ts (taken t.1 lines).2

section

variable {c : Conn} {lines : List Text}

theorem open_start (lines : List Text) : (start (.answering lines)).Open lines := ⟨rfl, rfl, rfl⟩

theorem write_open (ho : c.Open lines) (stage) (chunk : Bytes) :
    c.write stage chunk = { c with events := c.events ++ [.sent stage chunk] } := by
  obtain ⟨replies, budget, failure, events, bytes, resp⟩ := c
  obtain ⟨rfl, rfl, rfl⟩ := ho
  rfl

theorem writes_open (stage) : ∀ (chunks : List Bytes) {c : Conn}, c.Open lines →
    chunks.foldl (fun c chunk => c.write stage chunk) c = { c with events := c.events ++ chunks.map (.sent stage) }
  | [], c, _ => by rw [List.foldl, map_nil, append_nil]
  | chunk :: chunks, c, ho => by
    have hn : Open { c with events := c.events ++ [.sent stage chunk] } lines := ⟨ho.1, ho.2, ho.3⟩
    rw [foldl_cons, write_open ho, writes_open stage chunks hn]
    simp

theorem ehloLoop_open : ∀ (lines : List Text) {c : Conn}, c.failure = none → c.writeBudget = none →
    (ehloLoop (lines.map .ok) c).Open (ehloLines lines).2 ∧
      (ehloLoop (lines.map .ok) c).events = c.events ++ (ehloLines lines).1.map (.received .ehlo)
  | [], c, hf, hb => ⟨⟨hf, hb, rfl⟩, by simp [ehloLoop, ehloLines]⟩
  | l :: ls, c, hf, hb => by
    rw [map_cons, ehloLoop, ehloLines]
    split
    · exact ⟨⟨hf, hb, rfl⟩, rfl⟩
    · obtain ⟨ho, he⟩ := ehloLoop_open ls (c := c.receive .ehlo l (ls.map .ok)) hf hb
      exact ⟨ho, he.trans (by simp [receive])⟩

theorem readReply_open (ho : c.Open lines) (stage) : (c.readReply stage).Open (taken stage lines).2 ∧
      (c.readReply stage).events = c.events ++ (taken stage lines).1.map (.received stage) := by
  obtain ⟨replies, budget, failure, events, bytes, resp⟩ := c
  obtain ⟨rfl, rfl, rfl⟩ := ho
  cases stage with
  | ehlo => exact ehloLoop_open lines rfl rfl
  | _ =>
    cases lines with
    | nil => exact ⟨⟨rfl, rfl, rfl⟩, by simp [readReply, readLine, readQuit, taken]⟩
    | cons l ls => exact ⟨⟨rfl, rfl, rfl⟩, rfl⟩

theorem turn_open (ho : c.Open lines) (t : Stage × List Bytes) : (c.turn t).Open (taken t.1 lines).2 ∧
      (c.turn t).events = c.events ++ (t.2.map (.sent t.1) ++ (taken t.1 lines).1.map (.received t.1)) := by
  rw [turn, writes_open t.1 t.2 ho]
  obtain ⟨ho', he⟩ := readReply_open (c := { c with events := c.events ++ t.2.map (.sent t.1) }) ⟨ho.1, ho.2, ho.3⟩ t.1
  exact ⟨ho', he.trans (append_assoc _ _ _)⟩

def leftAfter : List (Stage × List Bytes) → List Text → List Text
  | [], lines => lines
  | t :: ts, lines => leftAfter ts (taken t.1 lines).2

theorem turns_open : ∀ (ts : List (Stage × List Bytes)) {c : Conn} {lines : List Text}, c.Open lines →
      (ts.foldl turn c).Open (leftAfter ts lines) ∧ (ts.foldl turn c).events = c.events ++ converse ts lines
  | [], c, lines, ho => ⟨ho, by simp [converse]⟩
  | t :: ts, c, lines, ho => by
    obtain ⟨ho', he⟩ := turn_open ho t
    obtain ⟨hre, hr⟩ := turns_open ts ho'
    refine ⟨hre, hr.trans ?_⟩
    rw [he, converse, append_assoc]

end

/-! ## The message turn -/

def messageBytes (events : List BackendEvent) : Bytes := events.flatMap fun
    | .sent .message chunk => chunk
    | _ => []

theorem messageBytes_append (es es' : List BackendEvent) :
    messageBytes (es ++ es') = messageBytes es ++ messageBytes es' :=
  flatMap_append

theorem messageBytes_received (stage) (lines : List Text) :
    messageBytes (lines.map (.received stage)) = [] := by
  simp [messageBytes, flatMap_eq_nil_iff]

theorem messageBytes_sent_other (h : stage ≠ .message) (chunks : List Bytes) :
    messageBytes (chunks.map (.sent stage)) = [] := by
  cases stage with
  | message => exact absurd rfl h
  | _ => simp [messageBytes, flatMap_eq_nil_iff]

theorem messageBytes_sent_message (chunks : List Bytes) :
    messageBytes (chunks.map (.sent .message)) = chunks.flatten := by
  rw [messageBytes, flatMap_map]
  exact flatMap_id

theorem messageBytes_converse : ∀ (ts : List (Stage × List Bytes)) (lines : List Text),
    messageBytes (converse ts lines) = ts.flatMap fun t => if t.1 = .message then t.2.flatten else []
  | [], _ => rfl
  | (stage, chunks) :: ts, lines => by
    rw [converse, messageBytes_append, messageBytes_append, messageBytes_received,
      messageBytes_converse ts, append_nil, flatMap_cons]
    by_cases h : stage = .message
    · subst h
      rw [messageBytes_sent_message, if_pos rfl]
    · rw [messageBytes_sent_other h, if_neg h]

theorem rcptTurns_stage : ∀ (i : Nat) (rcpts : List Text), ∀ t ∈ rcptTurns i rcpts, ∃ j, t.1 = .rcpt j
  | _, [], _, ht => by cases ht
  | i, _ :: rcpts, t, ht => by
    rcases mem_cons.mp ht with rfl | ht
    · exact ⟨i, rfl⟩
    · exact rcptTurns_stage (i + 1) rcpts t ht

/-- **Whatever the backend answers, the message turn writes the injected
headers, the data and the terminator.** -/
theorem messageBytes_forward (p : SmtpProxy) (f : Forward) (answers : List Text) :
    messageBytes (p.forwardToBackend (.answering answers) f).events = (p.messageChunks f).flatten := by
  have hr : ((rcptTurns 0 f.rcptTo).flatMap fun t => if t.1 = .message then t.2.flatten else []) = [] := by
    rw [flatMap_eq_nil_iff]
    intro t ht
    obtain ⟨j, hj⟩ := rcptTurns_stage 0 f.rcptTo t ht
    rw [hj, if_neg nofun]
  rw [forwardToBackend, (turns_open (p.script f) (open_start answers)).2, messageBytes_append, messageBytes_converse]
  simp [script, hr, messageBytes, start]

end ServerWall.Proxy
