import ServerWall.Lib.Text

/-!
# SMTP commands

`parse_command` of `serverwall-core/src/proto/smtp.rs`. The verbs are compared on the upper-cased line,
from which `EHLO`, `HELO`, `AUTH` and `XCLIENT` take their argument; `MAIL FROM:` and `RCPT TO:` slice the
original at the byte length of the verb, which panics off a character boundary (`none`).
-/

namespace ServerWall.Smtp

open List Text Option Unicode

inductive SmtpCommand where
  | ehlo (domain : Text)
  | helo (domain : Text)
  | mailFrom (addr : Text)
  | rcptTo (addr : Text)
  | data
  | quit
  | rset
  | noop
  | startTls
  | auth (rest : Text)
  | xclient (rest : Text)
  | unknown (line : Text)
  deriving DecidableEq, Repr

def argument (verb trimmed : Text) : Option Text := (sliceFrom (len verb) trimmed).map trim

def bareCommand (upper : Text) : Option SmtpCommand := if upper = ("DATA" : Text) then some .data
  else if upper = ("QUIT" : Text) then some .quit
  else if upper = ("RSET" : Text) then some .rset
  else if upper = ("NOOP" : Text) then some .noop
  else if upper = ("STARTTLS" : Text) then some .startTls
  else none

def parseCommand (u : Unicode) (line : Text) : Option SmtpCommand :=
  let trimmed := trim line
  let upper := u.toUppercase trimmed
  match stripPrefix "EHLO " upper with
  | some domain => some (.ehlo (trim domain))
  | none =>
  match stripPrefix "HELO " upper with
  | some domain => some (.helo (trim domain))
  | none =>
  if ("MAIL FROM:" : Text) <+: upper then (argument "MAIL FROM:" trimmed).map .mailFrom
  else if ("RCPT TO:" : Text) <+: upper then (argument "RCPT TO:" trimmed).map .rcptTo
  else
  match bareCommand upper with
  | some cmd => some cmd
  | none =>
  match stripPrefix "AUTH " upper with
  | some rest => some (.auth (trim rest))
  | none =>
  match stripPrefix "XCLIENT " upper with
  | some rest => some (.xclient (trim rest))
  | none => some (.unknown trimmed)

example : parseCommand .ascii "mail from:<a@B> \r\n" = some (.mailFrom "<a@B>") := by decide
example : parseCommand .ascii "Ehlo Host\r\n" = some (.ehlo "HOST") := by decide
example : parseCommand .ascii " quit\n" = some .quit := by decide

def SmtpCommand.plain : SmtpCommand → Bool
  | .ehlo _ => false
  | .helo _ => false
  | .mailFrom _ => false
  | .rcptTo _ => false
  | _ => true

theorem parseCommand_cases (u : Unicode) (line : Text) :
    let t := trim line
    let upper := u.toUppercase t
    ("EHLO " : Text) <+: upper ∧ parseCommand u line = some (.ehlo (trim (upper.drop 5))) ∨
    ("HELO " : Text) <+: upper ∧ parseCommand u line = some (.helo (trim (upper.drop 5))) ∨
    ("MAIL FROM:" : Text) <+: upper ∧ parseCommand u line = (argument "MAIL FROM:" t).map .mailFrom ∨
    ("RCPT TO:" : Text) <+: upper ∧ parseCommand u line = (argument "RCPT TO:" t).map .rcptTo ∨
    ¬ ("EHLO " : Text) <+: upper ∧ ¬ ("HELO " : Text) <+: upper ∧ ¬ ("MAIL FROM:" : Text) <+: upper ∧
      ¬ ("RCPT TO:" : Text) <+: upper ∧ ∃ cmd, parseCommand u line = some cmd ∧ cmd.plain = true := by
  unfold parseCommand stripPrefix
  dsimp only
  by_cases he : ("EHLO " : Text) <+: u.toUppercase (trim line)
  · exact .inl ⟨he, by rw [if_pos he]; rfl⟩
  by_cases hh : ("HELO " : Text) <+: u.toUppercase (trim line)
  · exact .inr (.inl ⟨hh, by rw [if_neg he, if_pos hh]; rfl⟩)
  rw [if_neg he, if_neg hh]
  dsimp only
  by_cases hm : ("MAIL FROM:" : Text) <+: u.toUppercase (trim line)
  · exact .inr (.inr (.inl ⟨hm, if_pos hm⟩))
  by_cases hr : ("RCPT TO:" : Text) <+: u.toUppercase (trim line)
  · exact .inr (.inr (.inr (.inl ⟨hr, by rw [if_neg hm, if_pos hr]⟩)))
  refine .inr (.inr (.inr (.inr ⟨he, hh, hm, hr, ?_⟩)))
  rw [if_neg hm, if_neg hr]
  split
  · next cmd hb =>
    refine ⟨cmd, rfl, ?_⟩
    unfold bareCommand at hb
    repeat' split at hb
    all_goals cases hb <;> rfl
  · split
    · exact ⟨_, rfl, rfl⟩
    · split <;> exact ⟨_, rfl, rfl⟩

theorem argument_of_mailFrom (h : parseCommand u line = some (.mailFrom addr)) :
    argument "MAIL FROM:" (trim line) = some addr := by
  rcases parseCommand_cases u line with ⟨-, heq⟩ | ⟨-, heq⟩ | ⟨-, heq⟩ | ⟨-, heq⟩ | ⟨-, -, -, -, cmd, heq, hp⟩
  · cases h.symm.trans heq
  · cases h.symm.trans heq
  · obtain ⟨_, harg, hcmd⟩ := map_eq_some_iff.mp (heq.symm.trans h)
    cases hcmd
    exact harg
  · obtain ⟨_, -, hcmd⟩ := map_eq_some_iff.mp (heq.symm.trans h)
    cases hcmd
  · cases h.symm.trans heq
    cases hp

theorem lf_not_mem_mailFrom (hl : '\n' ∉ line.dropLast)
    (h : parseCommand u line = some (.mailFrom addr)) : '\n' ∉ addr := by
  obtain ⟨rest, hs, rfl⟩ := map_eq_some_iff.mp (argument_of_mailFrom h)
  exact fun hlf => lf_not_mem_trim hl ((sliceFrom_suffix hs).subset (( trim_infix rest).subset hlf))

/-! ## The slices

The offset at which `MAIL FROM:` and `RCPT TO:` are sliced off is a character
boundary of the original line. The only character outside ASCII that can stand
for a letter of the two verbs is the dotless i. -/

/-- Whether a text may begin with a part of the upper case of one character
outside ASCII. -/
def clash : Text → Bool
  | [] => true
  | [a] => a.isUpper
  | a :: b :: _ => a == 'I' || a == 'S' || a.isUpper && (128 ≤ b.toNat || a == 'F' && ['F', 'I', 'L'].contains b)

variable {u : Unicode}

theorem upper_front (hu : u.Standard) (h : a :: w <+: u.toUppercase t) : ∃ c t', t = c :: t' ∧
      (c.toNat < 128 ∧ c.toUpper = a ∧ w <+: u.toUppercase t' ∨
        128 ≤ c.toNat ∧ ∃ rest, u.upper c = a :: rest ∧ w <+: rest ++ u.toUppercase t') := by
  cases t with
  | nil => exact absurd (prefix_nil.mp h) (cons_ne_nil _ _)
  | cons c t =>
    refine ⟨c, t, rfl, ?_⟩
    rw [toUppercase_cons] at h
    rcases Nat.lt_or_ge c.toNat 128 with hc | hc
    · rw [u.upper_ascii c hc, singleton_append, cons_prefix_cons] at h
      exact .inl ⟨hc, h.1.symm, h.2⟩
    · cases hup : u.upper c with
      | nil => exact absurd hup (hu.upper_ne_nil c)
      | cons b rest =>
        rw [hup, cons_append, cons_prefix_cons] at h
        exact .inr ⟨hc, rest, by rw [h.1], h.2⟩

theorem ascii_of_not_clash (hu : u.Standard) (ha : a.toNat < 128)
    (hcl : clash (a :: w) = false) (h : a :: w <+: u.toUppercase t) :
    ∃ c t', t = c :: t' ∧ c.toNat < 128 ∧ c.toUpper = a ∧ w <+: u.toUppercase t' := by
  obtain ⟨c, t', rfl, has | ⟨hc, rest, hup, hw⟩⟩ := upper_front hu h
  · exact ⟨c, t', rfl, has⟩
  · obtain ⟨hl, hca⟩ := hu.upper_foreign c a rest hc hup ha
    cases w with
    | nil =>
      rw [clash, hl] at hcl
      cases hcl
    | cons b w =>
      simp only [clash, hl, Bool.true_and, Bool.or_eq_false_iff, beq_eq_false_iff_ne,
        decide_eq_false_iff_not, Nat.not_le] at hcl
      rcases hca with ⟨-, rfl, -⟩ | rfl | ⟨b', more, rfl, hb⟩
      · exact absurd rfl hcl.1.1
      · exact absurd rfl hcl.1.2
      · rw [cons_append, cons_prefix_cons] at hw
        obtain ⟨rfl, -⟩ := hw
        rcases hb with hb | ⟨rfl, hb⟩
        · omega
        · simp_all

theorem ascii_front (hu : u.Standard) (k : Nat) (ha : w.all (·.toNat < 128))
    (hc : ∀ i < k, clash (w.drop i) = false) (h : w <+: u.toUppercase t) :
    ∃ s t', t = s ++ t' ∧ s.map Char.toUpper = w.take k ∧ w.drop k <+: u.toUppercase t' := by
  induction k generalizing w t with
  | zero => exact ⟨[], t, rfl, rfl, h⟩
  | succ k ih =>
    cases w with
    | nil => exact ⟨[], t, rfl, rfl, h⟩
    | cons a w =>
      rw [all_cons, Bool.and_eq_true, decide_eq_true_iff] at ha
      obtain ⟨c, t', rfl, -, hup, hw⟩ := ascii_of_not_clash hu ha.1 (hc 0 (Nat.succ_pos k)) h
      obtain ⟨s, t'', rfl, hs, hr⟩ := ih ha.2 (fun i hi => hc (i + 1) (Nat.succ_lt_succ hi)) hw
      exact ⟨c :: s, t'', rfl, by rw [map_cons, hup, hs]; rfl, hr⟩

/-! ## Spelled verbs

A line is spelled with a verb if it begins with it up to ASCII case. That is what the parser
recognises, but for a dotless i in `MAIL`. -/

def Spelled (verb t : Text) : Prop := verb <+: t.map Char.toUpper

instance (verb t : Text) : Decidable (Spelled verb t) := inferInstanceAs (Decidable (verb <+: _))

/-- `MAIL FROM:` with a dotless i, which the tables make a capital I. -/
def Dotless (u : Unicode) (t : Text) : Prop :=
  u.upper 'ı' = ['I'] ∧ ∃ s t', t = s ++ 'ı' :: t' ∧ s.map Char.toUpper = "MA" ∧ Spelled "L FROM:" t'

theorem toUppercase_append_ascii (hs : ∀ c ∈ s, c.toNat < 128) (t : Text) :
    u.toUppercase (s ++ t) = s.map Char.toUpper ++ u.toUppercase t := by
  induction s with
  | nil => rfl
  | cons c s ih =>
    rw [cons_append, toUppercase_cons, u.upper_ascii c (hs c mem_cons_self),
      ih fun d hd => hs d (mem_cons_of_mem _ hd)]
    rfl

theorem ascii_of_toUpper {s verb : Text} (ha : verb.all (·.toNat < 128)) (h : s.map Char.toUpper = verb) :
    ∀ c ∈ s, c.toNat < 128 := by
  refine fun c hc => Nat.lt_of_not_le fun hf => ?_
  have hs : c.toUpper = c := toUpper_foreign hf
  have hu := all_eq_true.mp ha _ (h ▸ mem_map_of_mem hc)
  rw [hs, decide_eq_true_eq] at hu
  omega

theorem Spelled.split {verb t : Text} (ha : verb.all (·.toNat < 128)) (h : Spelled verb t) :
    ∃ s t', t = s ++ t' ∧ s.map Char.toUpper = verb ∧ ∀ c ∈ s, c.toNat < 128 := by
  obtain ⟨rest, hr⟩ := h
  obtain ⟨s, t', rfl, hs, -⟩ := map_eq_append_iff.mp hr.symm
  exact ⟨s, t', rfl, hs, ascii_of_toUpper ha hs⟩

theorem Spelled.upper (ha : verb.all (·.toNat < 128)) (h : Spelled verb t) : verb <+: u.toUppercase t := by
  obtain ⟨s, t', rfl, hs, hsa⟩ := h.split ha
  rw [toUppercase_append_ascii hsa, hs]
  exact prefix_append _ _

theorem spelled_of_upper (hu : u.Standard) (ha : verb.all (·.toNat < 128))
    (hc : ∀ i < verb.length, clash (verb.drop i) = false) (h : verb <+: u.toUppercase t) : Spelled verb t := by
  obtain ⟨s, t', rfl, hs, -⟩ := ascii_front hu verb.length ha hc h
  exact ⟨t'.map Char.toUpper, by rw [map_append, hs, take_length]⟩

theorem mailFrom_upper_iff (hu : u.Standard) :
    ("MAIL FROM:" : Text) <+: u.toUppercase t ↔ Spelled "MAIL FROM:" t ∨ Dotless u t := by
  constructor
  · intro h
    obtain ⟨s, t₁, rfl, hs, hr⟩ := ascii_front hu 2 (by decide) (by decide) h
    obtain ⟨c, t₂, rfl, ⟨-, hi, hw⟩ | ⟨hc, rest, hup, hw⟩⟩ := upper_front hu hr
    · obtain ⟨rest, hr⟩ := spelled_of_upper hu (by decide) (by decide) hw
      exact .inl ⟨rest, by rw [map_append, map_cons, hs, hi, ← hr]; rfl⟩
    · obtain ⟨-, ⟨rfl, -, rfl⟩ | hs | ⟨b, more, rfl, hb⟩⟩ := hu.upper_foreign c 'I' rest hc hup (by decide)
      · exact .inr ⟨hup, s, t₂, rfl, hs, spelled_of_upper hu (by decide) (by decide) hw⟩
      · cases hs
      · obtain rfl : 'L' = b := (cons_prefix_cons.mp hw).1
        rcases hb with hb | ⟨hb, -⟩
        · exact absurd hb (by decide)
        · cases hb
  · rintro (h | ⟨hup, s, t', rfl, hs, hsp⟩)
    · exact h.upper (by decide)
    · obtain ⟨rest, hr⟩ := hsp.upper (u := u) (by decide)
      rw [toUppercase_append_ascii (ascii_of_toUpper (by decide) hs), toUppercase_cons, hup, hs, ← hr]
      exact ⟨rest, rfl⟩

theorem sliceFrom_spelled (ha : verb.all (·.toNat < 128)) (h : Spelled verb t) :
    sliceFrom verb.length t = some (t.drop verb.length) := by
  obtain ⟨s, t', rfl, hs, hsa⟩ := h.split ha
  rw [← hs, length_map, drop_left]
  exact (sliceFrom_ascii hsa 0 t').trans (sliceFrom_zero t')

theorem argument_spelled (ha : verb.all (·.toNat < 128)) (hlen : len verb = verb.length)
    (h : Spelled verb t) : argument verb t = some (trim (t.drop verb.length)) := by
  rw [argument, hlen, sliceFrom_spelled ha h]
  rfl

theorem argument_dotless {t : Text} (h : Dotless u t) : (argument "MAIL FROM:" t).isSome := by
  obtain ⟨-, s, t', rfl, hs, hsp⟩ := h
  have hv : len "MAIL FROM:" = s.length + (2 + 6) := by
    rw [← length_map Char.toUpper, hs]
    decide +kernel
  have hr := @sliceFrom_spelled "L FROM" _ (by decide) (List.IsPrefix.trans ⟨[':'], rfl⟩ hsp)
  rw [argument, hv, sliceFrom_ascii (ascii_of_toUpper (by decide) hs),
    sliceFrom_cons (by decide +kernel) Nat.two_pos]
  exact congrArg (fun o => (o.map trim).isSome) hr

/-- **No line makes the parser panic.** -/
theorem parseCommand_isSome (hu : u.Standard) (line : Text) : (parseCommand u line).isSome := by
  rcases parseCommand_cases u line with ⟨-, heq⟩ | ⟨-, heq⟩ | ⟨h, heq⟩ | ⟨h, heq⟩ | ⟨-, -, -, -, cmd, heq, -⟩ <;> rw [heq]
  · rfl
  · rfl
  · rw [isSome_map]
    rcases (mailFrom_upper_iff hu).mp h with hs | hd
    · rw [argument_spelled (by decide) (by decide +kernel) hs]
      rfl
    · exact argument_dotless hd
  · rw [isSome_map, argument_spelled (by decide) (by decide +kernel)
      (spelled_of_upper hu (by decide) (by decide) h)]
    rfl
  · rfl

theorem not_both_prefixes {v w t : Text} (hne : (v.head?.any fun a => w.head?.any (a != ·)) = true) (hv : v <+: t) :
    ¬ w <+: t := by
  intro hw
  cases v with
  | nil => cases hne
  | cons a v =>
    cases w with
    | nil => cases hne
    | cons b w =>
      cases t with
      | nil => cases prefix_nil.mp hv
      | cons c t =>
        obtain ⟨rfl, -⟩ := cons_prefix_cons.mp hv
        obtain ⟨rfl, -⟩ := cons_prefix_cons.mp hw
        simp at hne

theorem parseCommand_mailFrom {line : Text} (h : Spelled "MAIL FROM:" (trim line)) :
    parseCommand u line = some (.mailFrom (trim ((trim line).drop 10))) := by
  have hup := h.upper (u := u) (by decide)
  rcases parseCommand_cases u line with ⟨h', -⟩ | ⟨h', -⟩ | ⟨-, heq⟩ | ⟨h', -⟩ | ⟨-, -, h', -⟩
  · exact absurd hup (not_both_prefixes (by decide) h')
  · exact absurd hup (not_both_prefixes (by decide) h')
  · rw [heq, argument_spelled (by decide) (by decide +kernel) h]
    rfl
  · exact absurd hup (not_both_prefixes (by decide) h')
  · exact absurd hup h'

theorem parseCommand_rcptTo {line : Text} (h : Spelled "RCPT TO:" (trim line)) :
    parseCommand u line = some (.rcptTo (trim ((trim line).drop 8))) := by
  have hup := h.upper (u := u) (by decide)
  rcases parseCommand_cases u line with ⟨h', -⟩ | ⟨h', -⟩ | ⟨h', -⟩ | ⟨-, heq⟩ | ⟨-, -, -, h', -⟩
  · exact absurd hup (not_both_prefixes (by decide) h')
  · exact absurd hup (not_both_prefixes (by decide) h')
  · exact absurd hup (not_both_prefixes (by decide) h')
  · rw [heq, argument_spelled (by decide) (by decide +kernel) h]
    rfl
  · exact absurd hup h'

/-! ## The client's text -/

/-- The command that a trimmed line spells, with the text of the client after the verb. -/
def spelledCommand (t : Text) : Option SmtpCommand := if Spelled "EHLO " t then some (.ehlo (trim (t.drop 5)))
  else if Spelled "HELO " t then some (.helo (trim (t.drop 5)))
  else if Spelled "MAIL FROM:" t then some (.mailFrom (trim (t.drop 10)))
  else if Spelled "RCPT TO:" t then some (.rcptTo (trim (t.drop 8)))
  else none

/-- The parser answers with the command that is spelled, and with none of these commands if none is. -/
def Faithful (u : Unicode) (line : Text) : Prop :=
  match spelledCommand (trim line) with
  | some cmd => parseCommand u line = some cmd
  | none => ∃ cmd, parseCommand u line = some cmd ∧ cmd.plain = true

theorem argument_upper (ha : verb.all (·.toNat < 128)) (h : Spelled verb t) :
    (u.toUppercase t).drop verb.length = u.toUppercase (t.drop verb.length) := by
  obtain ⟨s, t', rfl, hs, hsa⟩ := h.split ha
  rw [toUppercase_append_ascii hsa, hs, drop_left, ← hs, length_map, drop_left]

theorem Dotless.not_spelled (h : Dotless u t) : ¬ Spelled "MAIL FROM:" t := by
  obtain ⟨-, s, t', rfl, hs, -⟩ := h
  rintro ⟨rest, hr⟩
  rw [map_append, hs] at hr
  cases hr

/-- **The parser keeps to the client's text but for a dotless i in `MAIL` and the letters after `EHLO`
and `HELO` that have another upper case.** -/
theorem faithful_iff (u : Unicode) (hu : u.Standard) (line : Text) : Faithful u line ↔ ¬ Dotless u (Text.trim line) ∧
    (Spelled "EHLO " (Text.trim line) ∨ Spelled "HELO " (Text.trim line) →
      Text.trim (u.toUppercase ((Text.trim line).drop 5)) = Text.trim ((Text.trim line).drop 5)) := by
  have hcases := parseCommand_cases u line
  unfold Faithful spelledCommand
  generalize trim line = t at hcases ⊢
  have hup : ∀ {verb : Text}, verb.all (·.toNat < 128) → (∀ i < verb.length, clash (verb.drop i) = false) →
      (Spelled verb t ↔ verb <+: u.toUppercase t) :=
    fun hascii hclash => ⟨Spelled.upper hascii, spelled_of_upper hu hascii hclash⟩
  have hehlo : Spelled "EHLO " t ↔ _ := hup (by decide) (by decide)
  have hhelo : Spelled "HELO " t ↔ _ := hup (by decide) (by decide)
  have hrcpt : Spelled "RCPT TO:" t ↔ _ := hup (by decide) (by decide)
  have hmail := mailFrom_upper_iff hu (t := t)
  rcases hcases with ⟨h, heq⟩ | ⟨h, heq⟩ | ⟨h, heq⟩ | ⟨h, heq⟩ | ⟨h₁, h₂, h₃, h₄, hplain⟩
  · have hs := hehlo.mpr h
    have hnot := fun hd => not_both_prefixes (by decide) h (hmail.mpr (.inr hd))
    rw [if_pos hs, heq, show (u.toUppercase t).drop 5 = _ from argument_upper (by decide) hs]
    exact ⟨fun h => ⟨hnot, fun _ => SmtpCommand.ehlo.inj (some.inj h)⟩, fun h => congrArg (fun d => some (SmtpCommand.ehlo d)) (h.2 (.inl hs))⟩
  · have hs := hhelo.mpr h
    have hnot := fun hd => not_both_prefixes (by decide) h (hmail.mpr (.inr hd))
    rw [if_neg (hehlo.not.mpr (not_both_prefixes (by decide) h)), if_pos hs, heq,
      show (u.toUppercase t).drop 5 = _ from argument_upper (by decide) hs]
    exact ⟨fun h => ⟨hnot, fun _ => SmtpCommand.helo.inj (some.inj h)⟩, fun h => congrArg (fun d => some (SmtpCommand.helo d)) (h.2 (.inr hs))⟩
  · have hnoe := hehlo.not.mpr (not_both_prefixes (by decide) h)
    have hnoh := hhelo.not.mpr (not_both_prefixes (by decide) h)
    have hnor := hrcpt.not.mpr (not_both_prefixes (by decide) h)
    rw [if_neg hnoe, if_neg hnoh, heq]
    rcases hmail.mp h with hs | hd
    · rw [if_pos hs, argument_spelled (by decide) (by decide +kernel) hs]
      exact iff_of_true rfl ⟨fun hd => hd.not_spelled hs, fun hname => (not_or.mpr ⟨hnoe, hnoh⟩ hname).elim⟩
    · obtain ⟨a, ha⟩ := isSome_iff_exists.mp (argument_dotless hd)
      rw [if_neg hd.not_spelled, if_neg hnor, ha]
      refine iff_of_false ?_ fun hnot => hnot.1 hd
      rintro ⟨cmd, hcmd, hplain⟩
      cases hcmd
      cases hplain
  · have hs := hrcpt.mpr h
    have hnoe := hehlo.not.mpr (not_both_prefixes (by decide) h)
    have hnoh := hhelo.not.mpr (not_both_prefixes (by decide) h)
    have hnom := not_or.mp (hmail.not.mp (not_both_prefixes (by decide) h))
    rw [if_neg hnoe, if_neg hnoh, if_neg hnom.1, if_pos hs, heq, argument_spelled (by decide) (by decide +kernel) hs]
    exact iff_of_true rfl ⟨hnom.2, fun hname => (not_or.mpr ⟨hnoe, hnoh⟩ hname).elim⟩
  · have hnoe := hehlo.not.mpr h₁
    have hnoh := hhelo.not.mpr h₂
    have hnom := not_or.mp (hmail.not.mp h₃)
    rw [if_neg hnoe, if_neg hnoh, if_neg hnom.1, if_neg (hrcpt.not.mpr h₄)]
    exact iff_of_true hplain ⟨hnom.2, fun hname => (not_or.mpr ⟨hnoe, hnoh⟩ hname).elim⟩

theorem faithful_capitals : Unicode.ascii.Standard ∧ Faithful .ascii "ehlo HOST" :=
  ⟨standard_ascii, (faithful_iff .ascii standard_ascii "ehlo HOST").mpr
    ⟨fun h => absurd h.1 (by decide), fun _ => by decide⟩⟩

/-- The name in an `EHLO` command comes back in capitals. -/
theorem ehlo_not_faithful : parseCommand .ascii "EHLO host" = some (.ehlo "HOST") ∧ ¬ Faithful .ascii "EHLO host" := by
  have hupper : parseCommand .ascii "EHLO host" = some (.ehlo "HOST") := by decide
  refine ⟨hupper, fun h => ?_⟩
  have hkept : parseCommand .ascii "EHLO host" = some (.ehlo "host") := h
  exact absurd (hupper.symm.trans hkept) (by decide)

end ServerWall.Smtp
