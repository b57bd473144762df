import ServerWall.Relay.Sender

/-!
# Reading replies

A reply of RFC 5321 is any number of lines with a hyphen after the code and a last line, which is the
code alone or the code, a space and a text. `read_response` stops at a line whose fourth byte is a
space or that has less than four bytes, line ending included. A bare code has five: `replies_framed_iff`
says that a sequence of replies is read as such if and only if none of them ends in one.
-/

namespace ServerWall.Relay

open List Text EStateM

/-- A reply: its code, the texts after a hyphen, and that of the last line if it has one. -/
structure HostReply where
  code : Text
  more : List Text
  last : Option Text
  digits : code.length = 3 ∧ code.all Char.isDigit
  oneLine : ∀ t ∈ more ++ last.toList, '\n' ∉ t

namespace HostReply

def hyphenLine (r : HostReply) (text : Text) : Text := r.code ++ '-' :: (text ++ ['\r'])

def lastLine (r : HostReply) : Text := r.code ++ (r.last.elim [] (' ' :: ·) ++ ['\r'])

/-- The lines of a reply, each up to its line feed. -/
def lines (r : HostReply) : List Text := (r.more.map r.hyphenLine ++ [r.lastLine]).map (· ++ ['\n'])

def stream (r : HostReply) : Text := r.lines.flatten

variable (r : HostReply)

theorem bytes_code : ∃ a b c, bytes r.code = [a, b, c] := by
  obtain ⟨hlen, hall⟩ := r.digits
  obtain ⟨a, b, c, hcode⟩ := length_eq_three.mp hlen
  rw [hcode] at hall ⊢
  simp only [all_cons, all_nil, Bool.and_true, Bool.and_eq_true] at hall
  have hone : ∀ d : Char, d.isDigit = true → ∃ x, String.utf8EncodeChar d = [x] := fun d hd =>
    ⟨_, utf8EncodeChar_ascii (Nat.lt_of_le_of_lt (Char.isDigit_iff_toNat.mp hd).2 (by decide))⟩
  obtain ⟨x, hx⟩ := hone a hall.1
  obtain ⟨y, hy⟩ := hone b hall.2.1
  obtain ⟨z, hz⟩ := hone c hall.2.2
  exact ⟨x, y, z, by simp [hx, hy, hz]⟩

theorem endsReply_code (hc : c.toNat < 128) (rest : Text) :
    endsReply (r.code ++ c :: rest) = (UInt8.ofNat c.toNat == 32) := by
  obtain ⟨x, y, z, hcode⟩ := r.bytes_code
  rw [endsReply, len, bytes_append, bytes_cons, hcode, utf8EncodeChar_ascii hc]
  simp

theorem endsReply_hyphenLine (text) : endsReply (r.hyphenLine text ++ ['\n']) = false := by
  rw [hyphenLine, append_assoc]
  exact r.endsReply_code (by decide) _

theorem endsReply_lastLine : endsReply (r.lastLine ++ ['\n']) = r.last.isSome := by
  rw [lastLine, append_assoc]
  cases r.last with
  | none | some text => exact r.endsReply_code (by decide) _

theorem lines_oneLine : ∀ line ∈ r.more.map r.hyphenLine ++ [r.lastLine], '\n' ∉ line := by
  have hcode : '\n' ∉ r.code := fun h => by simpa using all_eq_true.mp r.digits.2 _ h
  have htext := r.oneLine
  rw [forall_mem_append] at htext ⊢
  refine ⟨?_, ?_⟩
  · rw [forall_mem_map]
    intro text ht
    simp [hyphenLine, hcode, htext.1 text ht]
  · rw [forall_mem_singleton]
    cases hlast : r.last with
    | none => simp [lastLine, hlast, hcode]
    | some text => simp [lastLine, hlast, hcode, htext.2 text (by simp [hlast])]

end HostReply

open HostReply (lines stream)

theorem splitAfter_lines {lines : List Text} (h : ∀ line ∈ lines, '\n' ∉ line) (rest : Text) :
    splitAfter '\n' ((lines.map (· ++ ['\n'])).flatten ++ rest) =
      lines.map (· ++ ['\n']) ++ splitAfter '\n' rest := by
  induction lines with
  | nil => rfl
  | cons line lines ih =>
    rw [forall_mem_cons] at h
    rw [map_cons, flatten_cons, append_assoc, append_assoc, singleton_append, splitAfter_line h.1,
      ih h.2, cons_append]

/-- What the reader gets to see of a sequence of replies, line by line. -/
def incoming (rs : List HostReply) : List LineRead := (Text.splitAfter '\n' (rs.flatMap HostReply.stream)).map .ok

theorem incoming_cons (r : HostReply) (rs : List HostReply) : incoming (r :: rs) = r.lines.map .ok ++ incoming rs := by
  rw [incoming, flatMap_cons, stream, lines, splitAfter_lines r.lines_oneLine, map_append, incoming]

def readReplies (part : Exchange) : Nat → Sending (List Text)
  | 0 => pure []
  | n + 1 => do
    let reply ← readResponse part
    let rest ← readReplies part n
    pure (reply :: rest)

variable {part : Exchange} {link : Link}

theorem responseLoop_skip {lines : List Text} (h : ∀ line ∈ lines, line ≠ [] ∧ endsReply line = false)
    (rest : List LineRead) (full : Text) (link) : ∃ link', responseLoop part (lines.map .ok ++ rest) full link =
        responseLoop part rest (full ++ lines.flatten) link' := by
  induction lines generalizing full link with
  | nil => exact ⟨link, by simp⟩
  | cons line lines ih =>
    rw [forall_mem_cons] at h
    obtain ⟨link', hrun⟩ := ih h.2 (full ++ line)
      { link with replies := lines.map .ok ++ rest, events := link.events ++ [.heard part line] }
    refine ⟨link', ?_⟩
    rw [flatten_cons, ← append_assoc, ← hrun]
    simp [responseLoop, h.1]

theorem readResponse_reply {r : HostReply} (hlast : r.last.isSome) {rest : List LineRead}
    (hlink : link.replies = r.lines.map .ok ++ rest) : ∃ link',
      (readResponse part).run link = .ok (trim r.stream) link' ∧ link'.replies = rest := by
  have hmore : ∀ line ∈ (r.more.map r.hyphenLine).map (· ++ ['\n']), line ≠ [] ∧ endsReply line = false := by
    rw [map_map, forall_mem_map]
    exact fun text _ => ⟨by simp, r.endsReply_hyphenLine text⟩
  rw [lines, map_append, map_append, append_assoc] at hlink
  obtain ⟨link', hrun⟩ := responseLoop_skip hmore (.ok (r.lastLine ++ ['\n']) :: rest) [] link
  refine ⟨{ link' with replies := rest, events := link'.events ++ [.heard part (r.lastLine ++ ['\n'])] }, ?_, rfl⟩
  show responseLoop part link.replies [] link = _
  rw [hlink]
  refine hrun.trans ?_
  simp [responseLoop, r.endsReply_lastLine, hlast, stream, lines]

def endsAt : LineRead → Bool
  | .ok line => endsReply line
  | .error _ => false

theorem countP_of_responseLoop (h : responseLoop part replies full link = .ok v link') :
    replies.countP endsAt = link'.replies.countP endsAt + 1 := by
  induction replies generalizing full link with
  | nil => cases h
  | cons reply rest ih =>
    cases reply with
    | error e => cases h
    | ok line =>
      unfold responseLoop at h
      split at h
      · cases h
      · split at h
        · next he =>
          cases h
          exact countP_cons_of_pos he
        · next he =>
          have hat : ¬ endsAt (.ok line) = true := he
          rw [countP_cons_of_neg hat, ih h]

theorem le_of_readReplies (h : (readReplies part n).run link = .ok texts link') : n ≤ link.replies.countP endsAt := by
  induction n generalizing link texts link' with
  | zero => exact Nat.zero_le _
  | succ n ih =>
    rw [readReplies, run_bind] at h
    cases hread : (readResponse part).run link with
    | error e link₁ => rw [hread] at h; cases h
    | ok reply link₁ =>
      rw [hread] at h
      dsimp only at h
      rw [run_bind] at h
      cases hrest : (readReplies part n).run link₁ with
      | error e link₂ => rw [hrest] at h; cases h
      | ok rest link₂ =>
        rw [countP_of_responseLoop hread]
        exact Nat.succ_le_succ (ih hrest)

theorem countP_incoming (rs : List HostReply) : (incoming rs).countP endsAt = rs.countP (·.last.isSome) := by
  induction rs with
  | nil => rfl
  | cons r rs ih =>
    have hmore : (r.more.map fun text => (.ok (r.hyphenLine text ++ ['\n']) : LineRead)).countP endsAt = 0 := by
      simp [endsAt, r.endsReply_hyphenLine]
    have hlines : r.lines.map Except.ok = (r.more.map fun text => (.ok (r.hyphenLine text ++ ['\n']) : LineRead)) ++
        [.ok (r.lastLine ++ ['\n'])] := by simp [lines]
    rw [incoming_cons, hlines, countP_append, countP_append, hmore, ih, countP_singleton, countP_cons, endsAt,
      r.endsReply_lastLine]
    omega

/-- **Replies are read one by one if and only if none ends in a bare code.** -/
theorem replies_framed_iff (part : Exchange) (rs : List HostReply) (link : Link) :
    (∃ link', (readReplies part rs.length).run { link with replies := incoming rs } =
      .ok (rs.map fun r => Text.trim r.stream) link' ∧ link'.replies = []) ↔
    ∀ r ∈ rs, r.last.isSome = true := by
  constructor
  · rintro ⟨link', hrun, -⟩
    have hle := le_of_readReplies hrun
    rw [countP_incoming] at hle
    exact countP_eq_length.mp (Nat.le_antisymm countP_le_length hle)
  · intro h
    generalize hlink : ({ link with replies := incoming rs } : Link) = start
    replace hlink : start.replies = incoming rs := by rw [← hlink]
    induction rs generalizing start with
    | nil => exact ⟨start, rfl, hlink⟩
    | cons r rs ih =>
      rw [forall_mem_cons] at h
      rw [incoming_cons] at hlink
      obtain ⟨link₁, hread, hrest⟩ := readResponse_reply h.1 hlink
      obtain ⟨link₂, hrun, hdone⟩ := ih h.2 link₁ hrest
      refine ⟨link₂, ?_, hdone⟩
      rw [length_cons, readReplies, run_bind, hread]
      dsimp only
      rw [run_bind, hrun]
      rfl

/-- The reply to `MAIL` is a bare code: the call that should read it reads the next one as well. -/
theorem bare_code_swallows_reply :
    let bare : HostReply := ⟨"250", [], none, by decide, by simp⟩
    let ok : HostReply := ⟨"250", [], some "OK", by decide, by decide⟩
    let link : Link := ⟨incoming [bare, ok], none, []⟩
    (∃ link', (readResponse .mail).run link = .ok "250\r\n250 OK" link') ∧
    completed ((readReplies .mail 2).run link) = false :=
  ⟨⟨_, rfl⟩, rfl⟩

end ServerWall.Relay
