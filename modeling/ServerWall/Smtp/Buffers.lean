import ServerWall.Proxy.Transparency
import ServerWall.Relay.Submission

/-!
# What a session holds

Both servers announce `SIZE 26214400`, and neither counts. A session never holds more than it was sent, so
the limit holds of clients that send no more than it in the whole session, and not of those that may send
one octet more (`bounded_iff`).
-/

namespace ServerWall.Smtp

open List Text

def bufferLimit : Nat := 26214400 + 8192

structure Holder (σ : Type) where
  step : σ → Bytes → σ
  running : σ → Prop
  buffer : σ → Nat

namespace Holder

variable {σ : Type} (m : Holder σ)

/-- At every moment of the session no more than the limit is held. -/
def Bounded (limit : Nat) : σ → List Bytes → Prop
  | s, [] => m.buffer s ≤ limit
  | s, line :: lines => (m.running s → m.buffer s + line.length ≤ limit) ∧ Bounded limit (m.step s line) lines

/-- A line adds no more than itself, and nothing happens after the end. -/
structure Frugal : Prop where
  adds : ∀ s line, m.buffer (m.step s line) ≤ m.buffer s + line.length
  halts : ∀ s line, ¬ m.running s → m.step s line = s

variable {m} {limit : Nat}

theorem Frugal.bounded (h : m.Frugal) : ∀ (lines : List Bytes) (s : σ), m.buffer s + lines.flatten.length ≤ limit →
    m.Bounded limit s lines
  | [], s, hlen => hlen
  | line :: lines, s, hlen => by
    have ha := h.adds s line
    rw [flatten_cons, length_append] at hlen
    exact ⟨fun _ => by omega, h.bounded lines (m.step s line) (by omega)⟩

theorem Frugal.bounded_of_over (h : m.Frugal) (ho : ¬ m.running s) (hs : m.buffer s ≤ limit) :
    ∀ lines : List Bytes, m.Bounded limit s lines
  | [] => hs
  | line :: lines => ⟨fun hrun => absurd hrun ho, by
    rw [h.halts s line ho]
    exact h.bounded_of_over ho hs lines⟩

/-- **What holds of all streams up to a length**: a single line is enough to break it. -/
theorem Frugal.bounded_upto_iff (h : m.Frugal) (hs : m.buffer s = 0) (n : Nat) :
    (∀ octets : Bytes, octets.length ≤ n → m.Bounded limit s (splitAfter 10 octets)) ↔ (m.running s → n ≤ limit) := by
  constructor
  · intro hall hrun
    rcases n with _ | n
    · exact Nat.zero_le _
    · have hl := hall (List.replicate n 65 ++ [10]) (by simp)
      rw [splitAfter_line (by simp)] at hl
      have hh := hl.1 hrun
      simpa [hs] using hh
  · intro hli octets hlen
    by_cases hrun : m.running s
    · refine h.bounded _ s ?_
      rw [hs, flatten_splitAfter, Nat.zero_add]
      exact hlen.trans (hli hrun)
    · exact h.bounded_of_over hrun (hs.symm ▸ Nat.zero_le _) _

theorem buffer_replicate (Filling : σ → Prop)
    (hf : ∀ s, Filling s → Filling (m.step s line) ∧ m.buffer (m.step s line) = m.buffer s + line.length) :
    ∀ (k : Nat) {s : σ}, Filling s → m.buffer ((List.replicate k line).foldl m.step s) = m.buffer s + k * line.length
  | 0, _, _ => by simp
  | k + 1, s, hs => by
    obtain ⟨hn, ha⟩ := hf s hs
    rw [replicate_succ, foldl_cons, buffer_replicate Filling hf k hn, ha, Nat.succ_mul]
    omega

end Holder

theorem length_bytes_drop (t : Text) (k : Nat) : (bytes (t.drop k)).length ≤ (bytes t).length := by
  conv_rhs => rw [← take_append_drop k t, bytes_append, length_append]
  exact Nat.le_add_left _ _

end ServerWall.Smtp

/-! ## The proxy -/

namespace ServerWall.Proxy

open Smtp

def holder (p : SmtpProxy) (env : Env) : Holder Session where
  step s line := s.step p env (Relay.readOf line)
  running s := s.status = .running
  buffer s := s.dataBuffer.length

section

variable {p : SmtpProxy} {env : Env} {s : Session}

theorem length_unstuff (line : Text) : (Session.unstuff line).length ≤ (Text.bytes line).length := by
  unfold Session.unstuff
  split
  · exact length_bytes_drop line 1
  · exact Nat.le_refl _

@[simp] theorem reply_dataBuffer (event : Text → Event) (resp : Text) : (s.reply env event resp).dataBuffer = s.dataBuffer := by
  unfold Session.reply
  split <;> rfl

@[simp] theorem leave_dataBuffer : s.leave.dataBuffer = s.dataBuffer := by
  unfold Session.leave
  split <;> rfl

theorem dispatch_dataBuffer (cmd : SmtpCommand) : (s.dispatch p env cmd).dataBuffer.length ≤ s.dataBuffer.length := by
  cases cmd with
  | mailFrom a => simp only [Session.dispatch, Session.mail]; split <;> simp
  | rcptTo a => simp only [Session.dispatch, Session.rcpt]; split <;> simp
  | data => simp only [Session.dispatch, Session.data]; split <;> simp
  | _ => simp [Session.dispatch, Session.rset]

theorem endOfData_dataBuffer : (s.endOfData p env).dataBuffer = [] := by
  unfold Session.endOfData
  split
  · rfl
  · rfl
  · split <;> rfl

theorem frugal (p : SmtpProxy) (env) : (holder p env).Frugal where
  halts s line h := if_pos h
  adds s line := by
    show (s.step p env (Relay.readOf line)).dataBuffer.length ≤ s.dataBuffer.length + line.length
    unfold Session.step Relay.readOf
    split
    · exact Nat.le_add_right _ _
    · cases hr : Text.ofBytes line with
      | none => exact Nat.le_add_right _ _
      | some text =>
        rw [← Text.ofBytes_eq_some.mp hr]
        dsimp only
        split
        · unfold Session.dataLine
          split
          · simp [endOfData_dataBuffer]
          · rw [List.length_append]
            exact Nat.add_le_add_left (length_unstuff text) _
        · unfold Session.commandLine
          split
          · simp
          · split
            · exact Nat.le_add_right _ _
            · exact (dispatch_dataBuffer _).trans (Nat.le_add_right _ _)

end

end ServerWall.Proxy

/-! ## The relay -/

namespace ServerWall.Relay

open Smtp

@[simp] theorem Session.receiving_leave (s : Session) : s.leave.receiving = s.receiving := by
  unfold leave
  split <;> rfl

namespace SmtpReceiver

def holder (r : SmtpReceiver) (env : Surroundings) : Holder Session where
  step s line := r.step env s (readOf line)
  running s := s.status = .running
  buffer s := s.receiving.elim 0 fun message => message.2.length

section

variable {r : SmtpReceiver} {env : Surroundings} {s : Session}

theorem receiving_dispatch (cmd : SmtpCommand) :
    (r.dispatch env s cmd).receiving = s.receiving ∨ ∃ e, (r.dispatch env s cmd).receiving = some (e, []) := by
  cases cmd with
  | mailFrom a =>
    refine .inl ?_
    simp only [dispatch, mail]
    split
    · simp
    · split <;> simp
  | rcptTo a =>
    refine .inl ?_
    simp only [dispatch, rcpt, addRecipient]
    split
    · split <;> simp
    · split <;> simp
    · simp
  | data =>
    simp only [dispatch, data]
    split
    · split
      · exact .inl (Session.reply_receiving ..)
      · exact .inr ⟨_, rfl⟩
    · exact .inl (Session.reply_receiving ..)
  | quit => exact .inl (by simp [dispatch])
  | _ => exact .inl (by simp [dispatch])

theorem frugal (r : SmtpReceiver) (env : Surroundings) : (r.holder env).Frugal where
  halts s line h := if_pos h
  adds s line := by
    show (r.step env s (readOf line)).receiving.elim 0 _ ≤ s.receiving.elim 0 _ + line.length
    unfold step readOf
    split
    · exact Nat.le_add_right _ _
    · cases hre : Text.ofBytes line with
      | none => exact Nat.le_add_right _ _
      | some text =>
        rw [← Text.ofBytes_eq_some.mp hre]
        dsimp only
        split
        · next e message hr =>
          unfold dataLine
          split
          · simp [hr]
          · split
            · simp
            · rw [hr, Option.elim_some, Option.elim_some, List.length_append]
              exact Nat.add_le_add_left (Proxy.length_unstuff text) _
        · next hr =>
          unfold commandLine
          split
          · simp [hr]
          · split
            · exact Nat.le_add_right _ _
            · next cmd _ =>
              rcases @receiving_dispatch r env { s with moment := s.moment + 1 } cmd with h | ⟨e, h⟩
              · rw [h]; exact Nat.le_add_right _ _
              · rw [h]; exact Nat.zero_le _

end

end SmtpReceiver

end ServerWall.Relay

namespace ServerWall.Smtp

def opening : List Bytes := ["EHLO h\r\n", "MAIL FROM:<a@a.example>\r\n", "RCPT TO:<b@b.example>\r\n", "DATA\r\n"].map
    fun line : String => Text.bytes line.toList

def filler : Bytes := [120, 13, 10]

def flooded {σ : Type} (m : Holder σ) (s : σ) : Nat :=
  m.buffer ((List.replicate 9000000 filler).foldl m.step (opening.foldl m.step s))

theorem readOf_filler : Relay.readOf filler = .ok ['x', '\r', '\n'] := by
  rw [Relay.readOf, Text.ofBytes_eq_some.mpr (show Text.bytes ['x', '\r', '\n'] = filler by decide)]

end ServerWall.Smtp
