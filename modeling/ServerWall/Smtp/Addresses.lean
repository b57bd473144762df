import ServerWall.Proxy.History
import ServerWall.Relay.Receiver

/-!
# Addresses with parameters

Both servers invite parameters after the address of `MAIL` and `RCPT` (`SIZE`, `8BITMIME`). The proxy
takes the angle brackets off the ends of all that follows the verb, the relay off the ends of what has
one at both. So a mailbox is taken as it stands if and only if nothing follows it (`address_kept_iff`).
-/

namespace ServerWall.Smtp

open List Text Proxy.Session Relay

def bracket (c : Char) : Bool := c == '<' || c == '>'

/-- A mailbox, or the empty sender: it may have brackets in a quoted part, but not at its ends. -/
def Mailbox (a : Text) : Prop := (∀ c ∈ a.head?, ¬ bracket c) ∧ ∀ c ∈ a.getLast?, ¬ bracket c

instance (a : Text) : Decidable (Mailbox a) := inferInstanceAs (Decidable (_ ∧ _))

def Parameter (p : Text) : Prop := p ≠ [] ∧ ∀ c ∈ p, Text.isWhitespace c = false

def path (a : Text) (params : List Text) : Text := '<' :: (a ++ '>' :: params.flatMap (' ' :: ·))

def commandLine (verb a : Text) (params : List Text) : Text := verb ++ path a params ++ ['\r', '\n']

/-- Both servers use the address itself, as sender and as recipient. -/
def Kept (u : Unicode) (a : Text) (params : List Text) : Prop :=
  (∃ arg, parseCommand u (commandLine "MAIL FROM:" a params) = some (.mailFrom arg) ∧
    address arg = a ∧ extractAddress arg = a) ∧
  ∃ arg, parseCommand u (commandLine "RCPT TO:" a params) = some (.rcptTo arg) ∧
    address arg = a ∧ extractAddress arg = a

section

variable {u : Unicode} {a : Text} {params : List Text}

theorem getLast_path (hp : ∀ p ∈ params, Parameter p) : ∀ c ∈ (path a params).getLast?, isWhitespace c = false := by
  rcases eq_nil_or_concat params with rfl | ⟨params, p, rfl⟩
  · have hs : path a [] = ('<' :: a) ++ ['>'] := by simp [path]
    rw [hs, getLast?_append_of_ne_nil _ (cons_ne_nil _ _)]
    intro c hc
    cases hc
    decide
  · obtain ⟨hne, hw⟩ := hp p (by simp)
    have hs : path a (params.concat p) = ('<' :: (a ++ '>' :: params.flatMap (' ' :: ·)) ++ [' ']) ++ p := by
      simp [path]
    rw [hs, getLast?_append_of_ne_nil _ hne]
    exact fun c hc => hw c (mem_of_getLast? hc)

theorem trim_path (hp : ∀ p ∈ params, Parameter p) : trim (path a params) = path a params := by
  have h : trim (path a params ++ []) = path a params :=
    trim_append (fun c hc => by cases hc; decide) (getLast_path hp) nofun
  rwa [append_nil] at h

theorem spelled_commandLine (verb : Text) (hv : ∀ c ∈ verb.head?, isWhitespace c = false)
    (hca : verb.map Char.toUpper = verb) (hp : ∀ p ∈ params, Parameter p) :
    Spelled verb (trim (commandLine verb a params)) ∧
      trim ((trim (commandLine verb a params)).drop verb.length) = path a params := by
  have ht : trim (commandLine verb a params) = verb ++ path a params := by
    refine trim_append ?_ ?_ (forall_mem_cons.mpr ⟨by decide, forall_mem_singleton.mpr rfl⟩)
    · intro c hc
      cases verb with
      | nil => cases hc; decide
      | cons v verb => exact hv c hc
    · have hne : path a params ≠ [] := cons_ne_nil _ _
      rw [getLast?_append_of_ne_nil verb hne]
      exact getLast_path hp
  rw [ht, Spelled, map_append, hca, drop_left, trim_path hp]
  exact ⟨prefix_append _ _, rfl⟩

theorem parse_mail_path (hp : ∀ p ∈ params, Parameter p) :
    parseCommand u (commandLine "MAIL FROM:" a params) = some (.mailFrom (path a params)) := by
  obtain ⟨hs, harg⟩ := spelled_commandLine (a := a) "MAIL FROM:" (fun c hc => by cases hc; decide) (by decide) hp
  exact (parseCommand_mailFrom hs).trans (congrArg (fun arg => some (SmtpCommand.mailFrom arg)) harg)

theorem parse_rcpt_path (hp : ∀ p ∈ params, Parameter p) :
    parseCommand u (commandLine "RCPT TO:" a params) = some (.rcptTo (path a params)) := by
  obtain ⟨hs, harg⟩ := spelled_commandLine (a := a) "RCPT TO:" (fun c hc => by cases hc; decide) (by decide) hp
  exact (parseCommand_rcptTo hs).trans (congrArg (fun arg => some (SmtpCommand.rcptTo arg)) harg)

/-! ## Taking the brackets off -/

theorem address_alone (ha : Mailbox a) : address (path a []) = a := by
  show trimMatches bracket ('<' :: (a ++ ['>'])) = a
  unfold trimMatches
  cases a with
  | nil => rfl
  | cons c a =>
    rw [dropWhile_cons_of_pos rfl, cons_append, dropWhile_cons_of_neg (ha.1 c rfl),
      ← cons_append, rdropWhile_append_of_pos (forall_mem_singleton.mpr rfl), rdropWhile_eq_self_iff]
    exact fun hne => ha.2 _ (getLast?_eq_some_getLast hne)

theorem extractAddress_alone : extractAddress (path a []) = a := by
  have hs : path a [] = '<' :: (a ++ ['>']) := rfl
  have hl : (path a []).getLast? = some '>' := by
    rw [hs, ← cons_append, getLast?_append_of_ne_nil _ (cons_ne_nil _ _)]
    rfl
  rw [extractAddress, trim_path (forall_mem_nil _), if_pos ⟨rfl, hl⟩, hs, tail_cons, dropLast_concat]

theorem length_lt_rdropWhile (hc : ¬ p c) (w y : Text) : w.length < ((w ++ c :: y).rdropWhile p).length := by
  induction y using List.reverseRecOn with
  | nil => simp [rdropWhile_concat_neg _ _ _ hc]
  | append_singleton y d ih =>
    rw [← cons_append, ← append_assoc]
    by_cases hd : p d = true
    · rwa [rdropWhile_concat_pos _ _ _ hd]
    · rw [rdropWhile_concat_neg _ _ _ hd]
      simp only [length_append, length_cons]
      omega

theorem address_followed (ha : Mailbox a) (hne : params ≠ []) : address (path a params) ≠ a := by
  obtain ⟨p, params, rfl⟩ := exists_cons_of_ne_nil hne
  show ((a ++ '>' :: ' ' :: (p ++ params.flatMap (' ' :: ·))).dropWhile bracket).rdropWhile bracket ≠ a
  generalize p ++ params.flatMap (' ' :: ·) = y
  refine fun heq => Nat.lt_irrefl a.length ?_
  cases a with
  | nil => exact Nat.lt_of_lt_of_eq (length_lt_rdropWhile (by decide) [] y) (congrArg List.length heq)
  | cons c a =>
    rw [cons_append, dropWhile_cons_of_neg (ha.1 c rfl), ← cons_append, append_cons] at heq
    have hl := length_lt_rdropWhile (p := bracket) (c := ' ') (by decide) (c :: a ++ ['>']) y
    rw [heq, length_append] at hl
    omega

end

/-- **The servers use the address of `MAIL` and `RCPT` itself if and only if no parameter follows it.** -/
theorem address_kept_iff (u : Unicode) (a : Text) (params : List Text) (ha : Mailbox a)
    (hparams : ∀ p ∈ params, Parameter p) : Kept u a params ↔ params = [] := by
  unfold Kept
  rw [parse_mail_path hparams, parse_rcpt_path hparams]
  constructor
  · rintro ⟨⟨arg, harg, haddress, -⟩, -⟩
    cases harg
    by_contra hne
    exact address_followed ha hne haddress
  · rintro rfl
    exact ⟨⟨_, rfl, address_alone ha, extractAddress_alone⟩, _, rfl, address_alone ha, extractAddress_alone⟩

theorem kept_alone : Mailbox "a@b.c" ∧ Kept .ascii "a@b.c" [] := by
  have hm : Mailbox "a@b.c" := ⟨fun c hc => by cases hc; decide, fun c hc => by cases hc; decide⟩
  exact ⟨hm, (address_kept_iff .ascii "a@b.c" [] hm (forall_mem_nil _)).mpr rfl⟩

def blocking : Proxy.SmtpProxy := .withLists {} { senders := ["bad@spam.example"] }

def answers (line : Text) : List Proxy.Event :=
  ((start blocking false).run blocking .quiet [.ok "EHLO h\r\n", .ok line]).trace.drop 1

/-- A blocked sender is let in with a parameter, and the relay keeps the parameter with the address. -/
theorem parameter_unblocks : answers (commandLine "MAIL FROM:" "bad@spam.example" []) =
      [.command (.mailFrom "<bad@spam.example>") "550 5.7.1 Sender blocked\r\n"] ∧
    answers (commandLine "MAIL FROM:" "bad@spam.example" ["SIZE=1"]) =
      [.command (.mailFrom "<bad@spam.example> SIZE=1") "250 2.1.0 Ok\r\n"] ∧
    Relay.extractAddress (path "bad@spam.example" ["SIZE=1"]) = path "bad@spam.example" ["SIZE=1"] :=
  ⟨rfl, rfl, rfl⟩

end ServerWall.Smtp
