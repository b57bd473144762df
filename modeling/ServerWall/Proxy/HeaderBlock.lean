import ServerWall.Lib.HeaderLines
import ServerWall.Proxy.Transparency

/-!
# The headers that are put before a message

`forward_to_backend` writes its headers before the message. The descriptions of a spam report quote what
the sender chose, and nothing is taken out; the value of `Received` repeats the name of its header.
`headers_intact_iff` says when what is written is one header for each pair (`attachment_ends_headers`).
-/

namespace ServerWall.Proxy

open Antispam HeaderLines List Text SmtpProxy

def Intact (p : SmtpProxy) (f : SmtpProxy.Forward) : Prop :=
  ∃ block : Text, headerBlock p f = Text.bytes block ∧
    IsBlock ((p.injectedHeaders f.report f.clientIp f.date).map Prod.fst) block

/-- The value stays in its header, and does not name it again. -/
def Contained (header : Text × Text) : Prop := folded header.2 = true ∧ ¬ (header.1 ++ [':'] <+: header.2)

section

variable (p : SmtpProxy) (f : SmtpProxy.Forward)

theorem headerLine_eq (header : Text × Text) : headerLine header = field header := by
  have hc : ("\r\n" : Text) = ['\r', '\n'] := by decide
  simp [headerLine, field, fmt, hc]

theorem headerBlock_eq : headerBlock p f = bytes ((p.injectedHeaders f.report f.clientIp f.date).flatMap field) := by
  unfold headerBlock bytes
  rw [flatMap_assoc]
  exact flatMap_congr fun header _ => by rw [headerLine_eq]

theorem bytes_injective (h : bytes s = bytes t) : s = t :=
  Option.some.inj ((ofBytes_eq_some.mpr h).symm.trans (ofBytes_eq_some.mpr rfl))

end

/-! ## The pairs -/

section

open SpamHeaderBuilder

variable {P : Text × Text → Prop} {p : SmtpProxy} {report : SpamReport} {clientIp : IpAddr} {date : Text}

theorem forall_mem_if {b : Bool} {header : Text × Text} :
    (∀ h ∈ if b then [header] else [], P h) ↔ (b → P header) := by
  cases b with
  | true =>
    rw [if_pos rfl, forall_mem_singleton]
    exact ⟨fun h _ => h, fun h => h rfl⟩
  | false => exact ⟨fun _ h => absurd h (by decide), fun _ h hmem => absurd hmem not_mem_nil⟩

def statusText (report : SpamReport) : Text :=
  Text.fmt [statusWord report.verdict, ", score=", decimal1 report.score.value, " tests=[",
    testsText report.contributions, "]"]

def receivedText (p : SmtpProxy) (date : Text) : Text :=
  Text.fmt ["Received: from unknown by ", p.hostname, " (id=", p.backendTag, "); ", date]

theorem forall_buildHeaders : (∀ h ∈ buildHeaders report authservId, P h) ↔
      P (header "X-Spam-Score" (decimal1 report.score.value)) ∧ P (header "X-Spam-Flag" (flag report.verdict)) ∧
      P (header "X-Spam-Status" (statusText report)) ∧
      (report.contributions.isEmpty = false → P (header "X-Spam-Report" (reportText report.contributions))) ∧
      P (header "Authentication-Results" (authenticationResults authservId report.authResults)) := by
  unfold buildHeaders
  rw [forall_mem_append, forall_mem_append, forall_mem_cons, forall_mem_cons,
    forall_mem_singleton, forall_mem_singleton, and_assoc, and_assoc, and_assoc]
  cases report.contributions.isEmpty with
  | true => simp only [if_pos, not_mem_nil, false_imp_iff, implies_true, true_and, Bool.true_eq_false, statusText]
  | false => simp only [Bool.false_eq_true, if_false, forall_mem_singleton, forall_const, statusText]

theorem forall_injectedHeaders : (∀ h ∈ p.injectedHeaders report clientIp date, P h) ↔
      (p.smtpHeaders.addReceived → P (header "Received" (receivedText p date))) ∧
      (p.smtpHeaders.xForwardedFor → P (header "X-Forwarded-For" clientIp.toText)) ∧
      (report.verdict = .suspect → ∀ h ∈ buildHeaders report p.hostname, P h) ∧
      (report.verdict = .clean → P (header "Authentication-Results"
        (authenticationResults p.hostname report.authResults))) := by
  unfold injectedHeaders
  rw [forall_mem_append, forall_mem_append, forall_mem_if, forall_mem_if, and_assoc]
  refine and_congr_right' (and_congr_right' ?_)
  cases report.verdict with
  | clean => simp only [forall_mem_singleton, reduceCtorEq, false_imp_iff, true_and, forall_const]
  | suspect => simp only [forall_const, reduceCtorEq, false_imp_iff, and_true]
  | spam => simp only [not_mem_nil, false_imp_iff, implies_true, reduceCtorEq, and_true]

theorem proper_injected : ∀ h ∈ p.injectedHeaders report clientIp date, Proper h.1 := by
  rw [forall_injectedHeaders, forall_buildHeaders]
  have hr : Proper ("Authentication-Results" : Text) := proper_of rfl rfl
  refine ⟨fun _ => ?_, fun _ => ?_, fun _ => ⟨?_, ?_, ?_, fun _ => ?_, hr⟩, fun _ => hr⟩
  all_goals exact proper_of rfl rfl

end

section

variable (p : SmtpProxy) (f : SmtpProxy.Forward)

/-- **The block is intact exactly if every value is contained.** -/
theorem intact_iff_contained :
    Intact p f ↔ ∀ header ∈ p.injectedHeaders f.report f.clientIp f.date, Contained header := by
  refine Iff.trans ?_ (isBlock_iff proper_injected)
  constructor
  · rintro ⟨block, hby, hb⟩
    rw [headerBlock_eq] at hby
    exact bytes_injective hby ▸ hb
  · intro hb
    exact ⟨_, headerBlock_eq p f, hb⟩

end

/-! ## The values -/

theorem not_repeated_of_head (hn : name.head? = some c)
    (hv : value.head? = some d) (hne : c ≠ d) : ¬ (name ++ [':'] <+: value) := by
  obtain ⟨name, rfl⟩ := head?_eq_some_iff.mp hn
  obtain ⟨value, rfl⟩ := head?_eq_some_iff.mp hv
  exact fun h => hne (cons_prefix_cons.mp h).1

/-- Characters that neither end a line nor open a name. -/
def Inner (c : Char) : Prop := plain c = true ∧ c ≠ 'X'

theorem inner_digitChar (k : Nat) : Inner (Nat.digitChar k) :=
  digitChar_of_digits (P := fun c => plain c = true ∧ c ≠ 'X') (by decide) (by decide) k

theorem contained_of_inner (hn : name.head? = some 'X') (h : ∀ c ∈ value, Inner c) : Contained (name, value) := by
  refine ⟨folded_of_plain (all_eq_true.mpr fun c hc => (h c hc).1), fun hr => ?_⟩
  obtain ⟨name, rfl⟩ := head?_eq_some_iff.mp hn
  exact (h 'X' (hr.subset mem_cons_self)).2 rfl

theorem inner_toText (ip : IpAddr) : ∀ c ∈ ip.toText, Inner c := by
  intro c hc
  obtain ⟨k, rfl⟩ | rfl | rfl := IpAddr.inText_toText ip c hc
  · exact inner_digitChar k
  · exact ⟨by decide, by decide⟩
  · exact ⟨by decide, by decide⟩

theorem inner_decimal1 (x : ℚ) : ∀ c ∈ decimal1 x, Inner c := by
  have hdec : ∀ n, ∀ c ∈ dec n, Inner c := by
    intro n c hc
    obtain ⟨k, rfl⟩ := mem_toDigits hc
    exact inner_digitChar k
  have hs : ∀ c ∈ (if x < 0 then "-" else "" : Text), Inner c := by
    split
    · exact fun c hc => mem_singleton.mp hc ▸ ⟨by decide, by decide⟩
    · exact fun c hc => absurd hc not_mem_nil
  have hdot : ∀ c ∈ ("." : Text), Inner c := fun c hc => mem_singleton.mp hc ▸ ⟨by decide, by decide⟩
  intro c hc
  obtain ⟨part, hp, hc⟩ := mem_flatten.mp hc
  simp only [mem_cons, not_mem_nil, or_false] at hp
  obtain rfl | rfl | rfl | rfl := hp
  · exact hs c hc
  · exact hdec _ c hc
  · exact hdot c hc
  · exact hdec _ c hc

theorem plain_decimal1 (x : ℚ) : (decimal1 x).all plain :=
  all_eq_true.mpr fun c hc => (inner_decimal1 x c hc).1

section

open SpamHeaderBuilder

variable {report : SpamReport} {contributions : List ScoreContribution}

theorem not_contained_received (p : SmtpProxy) (date : Text) :
    ¬ Contained (header "Received" (receivedText p date)) := by
  intro h
  refine h.2 ⟨fmt [" from unknown by ", p.hostname, " (id=", p.backendTag, "); ", date], ?_⟩
  rfl

theorem folded_testsText : folded (testsText contributions) = contributions.all fun c => folded c.checkName := by
  have ht : ∀ c : ScoreContribution,
      folded (fmt [c.checkName, "=", decimal1 c.score]) = folded c.checkName := by
    intro c
    have hfmt : fmt [c.checkName, "=", decimal1 c.score] = c.checkName ++ '=' :: decimal1 c.score := by
      simp [fmt]
    rw [hfmt, folded_append (by decide) _ (.inl (by decide)), folded_of_plain (plain_decimal1 _), Bool.and_true]
  unfold testsText
  split
  · next he =>
    rw [isEmpty_iff.mp he]
    rfl
  · refine (folded_intercalate (fun _ _ => folded_append (by decide) _ (.inl rfl)) _).trans ?_
    rw [all_map]
    exact congrArg (contributions.all ·) (funext ht)

theorem contained_status (hv : report.verdict = .suspect) : Contained (header "X-Spam-Status" (statusText report)) ↔
      ∀ c ∈ report.contributions, folded c.checkName := by
  have hw : statusWord report.verdict = "Maybe" := by rw [hv]; rfl
  have hs : statusText report = ("Maybe, score=" : Text) ++ (decimal1 report.score.value ++ ((" tests=[" : Text) ++ (testsText report.contributions ++ ']' :: []))) := by
    rw [statusText, hw]
    simp [fmt]
  have hf : folded (statusText report) = report.contributions.all fun c => folded c.checkName := by
    rw [hs, folded_plain_append (by decide), folded_plain_append (plain_decimal1 _),
      folded_plain_append (by decide), folded_append (by decide) _ (.inl (by decide)),
      folded_testsText]
    exact Bool.and_true _
  rw [← all_eq_true, ← hf]
  refine ⟨And.left, fun h => ⟨h, ?_⟩⟩
  exact not_repeated_of_head (c := 'X') (d := 'M') rfl (hs ▸ rfl) (by decide)

theorem reportLine_eq (c : ScoreContribution) :
    fmt ["* ", decimal1 c.score, " ", c.checkName, " -- ", c.description] =
      '*' :: ((" " : Text) ++ (decimal1 c.score ++ ((" " : Text) ++
        (c.checkName ++ ' ' :: (("-- " : Text) ++ c.description))))) := by
  simp [fmt]

theorem head_reportText (hne : contributions.isEmpty = false) : (reportText contributions).head? = some '*' := by
  match contributions, hne with
  | [c], _ =>
    rw [reportText, map_singleton, intercalate_singleton, reportLine_eq]
    rfl
  | c :: c' :: rest, _ =>
    rw [reportText, map_cons, map_cons, intercalate_cons_cons, reportLine_eq]
    rfl

theorem contained_report (hne : contributions.isEmpty = false) (hn : ∀ c ∈ contributions, folded c.checkName) :
    Contained (header "X-Spam-Report" (reportText contributions)) ↔ ∀ c ∈ contributions, folded c.description := by
  have hl : ∀ c ∈ contributions,
      folded (fmt ["* ", decimal1 c.score, " ", c.checkName, " -- ", c.description]) =
        folded c.description := by
    intro c hc
    rw [reportLine_eq, folded_plain (by decide), folded_plain_append (by decide),
      folded_plain_append (plain_decimal1 _), folded_plain_append (by decide),
      folded_append (by decide) _ (.inr (hn c hc)), hn c hc, Bool.true_and,
      folded_plain_append (by decide)]
  have hf : folded (reportText contributions) = true ↔ ∀ c ∈ contributions, folded c.description = true := by
    -- each contribution but the first is on a line of its own
    have hfo : ∀ a b, folded (a ++ (['\r', '\n', '\t'] ++ b)) = (folded a && folded b) :=
      fun a b => (folded_fold a ('\t' :: b)).trans (congrArg (folded a && ·) (folded_plain (by decide) b))
    rw [reportText]
    refine (Bool.eq_iff_iff.mp (folded_intercalate hfo _)).trans ?_
    rw [all_map, all_eq_true]
    exact forall₂_congr fun c hc => by rw [Function.comp_apply, hl c hc]
  rw [← hf]
  refine ⟨And.left, fun h => ⟨h, ?_⟩⟩
  exact not_repeated_of_head (c := 'X') (d := '*') rfl (head_reportText hne) (by decide)

theorem starts_append (hc : c ∉ w) : w <+: a ++ c :: b ↔ w <+: a := by
  refine ⟨fun h => ?_, fun h => h.trans (prefix_append _ _)⟩
  rcases prefix_or_prefix_of_prefix h (prefix_append a (c :: b)) with hle | ⟨u, rfl⟩
  · exact hle
  · cases u with
    | nil => rw [append_nil]
    | cons d u =>
      have hd : d = c := (cons_prefix_cons.mp ((prefix_append_right_inj a).mp h)).1
      exact absurd (mem_append_right a (hd ▸ mem_cons_self)) hc

theorem contained_results (hostname : Text) (auth) :
    Contained (header "Authentication-Results" (authenticationResults hostname auth)) ↔
      folded hostname ∧ ¬ (("Authentication-Results:" : Text) <+: hostname) := by
  have hp : ∀ result : AuthResult, result.toText.all plain = true := by
    intro result
    cases result <;> decide
  have hv : authenticationResults hostname auth = hostname ++ ';' :: ((" spf=" : Text) ++
      (auth.spf.toText ++ ((" ; dkim=" : Text) ++ (auth.dkim.toText ++ ((" ; dmarc=" : Text) ++
        (auth.dmarc.toText ++ ((" ; arc=" : Text) ++ auth.arc.toText))))))) := by
    simp [authenticationResults, fmt]
  have hf : folded (authenticationResults hostname auth) = folded hostname := by
    rw [hv, folded_append (by decide) _ (.inl (by decide)), folded_plain_append (by decide),
      folded_plain_append (hp _), folded_plain_append (by decide),
      folded_plain_append (hp _), folded_plain_append (by decide),
      folded_plain_append (hp _), folded_plain_append (by decide),
      folded_of_plain (hp _), Bool.and_true]
  refine and_congr (hf ▸ Iff.rfl) (not_congr ?_)
  show ("Authentication-Results:" : Text) <+: authenticationResults hostname auth ↔ _
  rw [hv]
  exact starts_append (by decide)

end

/-! ## The block -/

/-- **When the headers hold**: exactly if none names itself and nothing in them breaks a line. -/
theorem headers_intact_iff (p : SmtpProxy) (f : SmtpProxy.Forward) : Intact p f ↔ p.smtpHeaders.addReceived = false ∧
      (f.report.verdict ≠ .spam → folded p.hostname = true ∧ ¬ (("Authentication-Results:" : Text) <+: p.hostname)) ∧
      (f.report.verdict = .suspect → ∀ c ∈ f.report.contributions,
        folded c.checkName = true ∧ folded c.description = true) := by
  have hresults := contained_results p.hostname f.report.authResults
  rw [intact_iff_contained, forall_injectedHeaders, forall_buildHeaders]
  constructor
  · rintro ⟨hreceived, -, hsuspect, hclean⟩
    refine ⟨?_, ?_, ?_⟩
    · exact Bool.eq_false_iff.mpr fun h => not_contained_received p f.date (hreceived h)
    · intro hspam
      cases hverdict : f.report.verdict with
      | clean => exact hresults.mp (hclean hverdict)
      | suspect => exact hresults.mp (hsuspect hverdict).2.2.2.2
      | spam => exact absurd hverdict hspam
    · intro hverdict
      obtain ⟨-, -, hstatus, hreport, -⟩ := hsuspect hverdict
      have hnames := (contained_status hverdict).mp hstatus
      intro c hc
      have hne : f.report.contributions.isEmpty = false := isEmpty_eq_false_iff.mpr (ne_nil_of_mem hc)
      exact ⟨hnames c hc, (contained_report hne hnames).mp (hreport hne) c hc⟩
  · rintro ⟨hreceived, hhost, hcontributions⟩
    refine ⟨?_, ?_, ?_, ?_⟩
    · intro h
      cases hreceived.symm.trans h
    · exact fun _ => contained_of_inner rfl (inner_toText _)
    · intro hverdict
      have hnames := fun c hc => (hcontributions hverdict c hc).1
      have hflag : ∀ c ∈ SpamHeaderBuilder.flag f.report.verdict, Inner c := by
        rw [hverdict]
        intro c hc
        rcases mem_pair.mp hc with rfl | rfl <;> exact ⟨by decide, by decide⟩
      refine ⟨contained_of_inner rfl (inner_decimal1 _), contained_of_inner rfl hflag,
        (contained_status hverdict).mpr hnames, fun hne => ?_, hresults.mpr (hhost ?_)⟩
      · exact (contained_report hne hnames).mpr fun c hc => (hcontributions hverdict c hc).2
      · rw [hverdict]
        decide
    · intro hverdict
      refine hresults.mpr (hhost ?_)
      rw [hverdict]
      decide

def forwardWith (report : SpamReport) : SmtpProxy.Forward where
  messageData := Text.bytes "Subject: hello\r\n\r\nhello\r\n"
  mailFrom := "a@example.com"
  rcptTo := ["user@example.org"]
  report := report
  clientIp := .v4 192 0 2 1
  date := "Thu, 1 Jan 2026 00:00:00 +0000"

/-- What a check says of an attachment whose name has an empty line in it. -/
def attachmentReport : SpamReport where
  score := ⟨6⟩
  verdict := .suspect
  contributions :=
    [{ checkName := "attachment/dangerous_ext", category := .content, score := 6,
       description := "Dangerous extension: .exe in a\r\n\r\nb.exe" }]
  authResults := {}

theorem bypass_intact : Intact (.withLists {} {}) (forwardWith Session.bypassReport) := by
  refine (headers_intact_iff _ _).mpr ⟨rfl, fun _ => ⟨by decide, by decide⟩, fun hverdict => ?_⟩
  cases hverdict

/-- The name of an attachment ends the headers; and a proxy that adds `Received` names it twice. -/
theorem attachment_ends_headers : (¬ Intact (.withLists {} {}) (forwardWith attachmentReport) ∧
      (lines (((SmtpProxy.withLists {} {}).injectedHeaders attachmentReport (.v4 192 0 2 1)
        []).flatMap field)).any (·.contains []) = true) ∧
    ¬ Intact { SmtpProxy.withLists {} {} with
        smtpHeaders := { addReceived := true, xForwardedFor := false } }
      (forwardWith Session.bypassReport) := by
  refine ⟨⟨?_, by decide +kernel⟩, ?_⟩
  · rw [intact_iff_contained, forall_injectedHeaders, forall_buildHeaders]
    rintro ⟨-, -, hsuspect, -⟩
    have hreport := (hsuspect rfl).2.2.2.1 rfl
    exact absurd hreport.1 (by decide +kernel)
  · rw [intact_iff_contained, forall_injectedHeaders]
    rintro ⟨hreceived, -⟩
    exact not_contained_received _ _ (hreceived rfl)

end ServerWall.Proxy
