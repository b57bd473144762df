import ServerWall.Antispam.Pipeline
import ServerWall.Lib.Regex

/-!
# Senders at home

`residential.rs` of `serverwall-antispam`: a client without a name, or with that of a home connection,
needs its sender's domain to speak for it. A lookup that fails is taken for the answer that there is no
record; `residential_lawful_iff` says when that decides.
-/

namespace ServerWall.Antispam

open Text

inductive Lookup (α : Type) where
  | answer (a : α)
  /-- The authoritative answer that there is no record. -/
  | noRecord
  | failed

structure Resolvers where
  reverseLookup : Moment → IpAddr → Lookup (List Text)
  lookupIp : Moment → Text → Lookup (List IpAddr)
  verifySpfSender : Moment → IpAddr → Text → Text → Text → AuthResult

structure ResidentialSenderCheck where
  weight : ℚ
  (reject checkPbl : Bool)
  pblZone : Text
  (softfailTriggers neutralTriggers : Bool)

/-- `RESIDENTIAL_PATTERN`, with groups that capture nothing. -/
def residentialPattern : Text :=
  r"(?i)(?:^|[.\-])(?:dynamic|dyn|dhcp|dsl|cable|adsl|broadband|ppp|pppoe|dial|mob|mobile|gprs|lte|residential|home|fiber|fibre)[.\-]"

namespace ResidentialSenderCheck

variable (tables : CharTables) (dns : Resolvers) (c : ResidentialSenderCheck) (m : Moment) (ctx : EnvelopeContext)

def isResidentialName (name : Text) : Bool := (Regex.parse residentialPattern).any (·.isMatch tables name)

example : isResidentialName .ascii "pool-12-34.Dynamic.isp.com" = true := by decide +kernel
example : isResidentialName .ascii "mail.dynamics.com" = false := by decide +kernel

def queryDnsbl (zone : Text) : IpAddr → Bool
  | .v4 a b c d =>
    let dot (octet : UInt8) := fmt [dec octet.toNat, "."]
    match dns.lookupIp m (fmt [dot d, dot c, dot b, dot a, zone]) with
    | .answer _ => true
    | _ => false
  | .v6 _ => false

/-- The first stage: why the client is taken for a home, if it is. -/
def residentialReason : Option Text :=
  let byName := match dns.reverseLookup m ctx.clientIp with
    | .answer names =>
      let names := names.map (trimEndMatches '.')
      if names.isEmpty then some ("no PTR record" : Text)
      else (names.find? (isResidentialName tables)).map fun name => fmt ["residential PTR: ", name]
    | _ => some ("no PTR record" : Text)
  byName.or (if c.checkPbl && queryDnsbl dns m c.pblZone ctx.clientIp then some (fmt ["listed in ", c.pblZone]) else none)

def sender : Text := trim ctx.mailFrom

def senderDomain : Option Text :=
  (rsplitOnce '@' (sender ctx)).map fun (_, domain) => trimEndMatches '>' domain

def scored (outcome : CheckOutcome) (score : ℚ) (description : Text) : CheckOutcome × Option ScoreContribution :=
  (outcome, some ⟨"residential_spf", .reputation, score, description⟩)

def rejectOutcome (domain reason detail : Text) : CheckOutcome × Option ScoreContribution :=
  let reason := fmt ["Residential sender (", reason, ") with ", detail, " for ", domain, " from ",
    ctx.clientIp.toText]
  scored (if c.reject then .reject reason else .hit c.weight reason) c.weight reason

def softOutcome (triggers : Bool) (share : ℚ) (domain reason detail : Text) : CheckOutcome × Option ScoreContribution :=
  if triggers then rejectOutcome c ctx domain reason detail
  else scored (.hit (c.weight * share) (fmt ["Residential sender (", reason, ") with ", detail, " for ", domain]))
    (c.weight * share) (fmt ["Residential IP ", ctx.clientIp.toText, " ", detail, " for ", domain])

def enforce (domain reason : Text) : AuthResult → CheckOutcome × Option ScoreContribution
  | .pass => (.skip (fmt ["residential IP ", ctx.clientIp.toText, " has valid SPF for ", domain, " — allowed"]), none)
  | .fail => rejectOutcome c ctx domain reason "SPF fail"
  | .softFail => softOutcome c ctx c.softfailTriggers (1 / 2) domain reason "SPF softfail"
  | .neutral => softOutcome c ctx c.neutralTriggers (3 / 10) domain reason "SPF neutral"
  | .none => rejectOutcome c ctx domain reason "no SPF record"
  | .tempError => (.tempFail (fmt ["Residential IP ", ctx.clientIp.toText, " but SPF lookup failed for ",
      domain, " — deferring"]), none)
  | .permError => (.skip (fmt ["SPF PermError for ", domain, " — skipping residential enforcement"]), none)

def spf (domain : Text) : AuthResult := dns.verifySpfSender m ctx.clientIp ctx.heloDomain domain (sender ctx)

def check : CheckOutcome × Option ScoreContribution :=
  if sender ctx = [] ∨ sender ctx = "<>" then (.skip "null MAIL FROM (bounce)", none)
  else match senderDomain ctx with
    | none => (.skip "no domain in MAIL FROM", none)
    | some domain => match residentialReason tables dns c m ctx with
      | none => (.skip "non-residential IP", none)
      | some reason => enforce c ctx domain reason (spf dns m ctx domain)

/-! ## When the check rejects -/

def triggers : AuthResult → Bool
  | .fail => true
  | .none => true
  | .softFail => c.softfailTriggers
  | .neutral => c.neutralTriggers
  | _ => false

def Listed : Prop := c.checkPbl = true ∧ queryDnsbl dns m c.pblZone ctx.clientIp = true

/-- The client is at home by an answer of the name servers: it has no name, it has the name of a home
connection, or it is listed. -/
def Definite : Prop := (match dns.reverseLookup m ctx.clientIp with
    | .answer names => names = [] ∨ ∃ name ∈ names, isResidentialName tables (trimEndMatches '.' name) = true
    | .noRecord => True
    | .failed => False) ∨ Listed dns c m ctx

/-- Resolvers that may answer where others fail, and agree with them elsewhere. -/
structure Completes (dns' : Resolvers) : Prop where
  reverse : ∀ ip, dns.reverseLookup m ip ≠ .failed → dns'.reverseLookup m ip = dns.reverseLookup m ip
  forward : ∀ name, dns.lookupIp m name ≠ .failed → dns'.lookupIp m name = dns.lookupIp m name
  spf : ∀ ip helo domain sender, dns.verifySpfSender m ip helo domain sender ≠ .tempError →
    dns'.verifySpfSender m ip helo domain sender = dns.verifySpfSender m ip helo domain sender

/-- A rejection rests on definite answers, and would stand had the failed lookups been answered. -/
def Lawful : Prop := (check tables dns c m ctx).1.isReject = true →
    Definite tables dns c m ctx ∧ (∃ domain, senderDomain ctx = some domain ∧
      triggers c (spf dns m ctx domain) = true) ∧
    ∀ dns', Completes dns m dns' → (check tables dns' c m ctx).1.isReject = true

variable {tables dns c m ctx}

theorem residentialReason_isSome_iff : (residentialReason tables dns c m ctx).isSome ↔
    dns.reverseLookup m ctx.clientIp = .failed ∨ Definite tables dns c m ctx := by
  have hl : (if c.checkPbl && queryDnsbl dns m c.pblZone ctx.clientIp then some (fmt ["listed in ", c.pblZone]) else none).isSome = true ↔ Listed dns c m ctx := by
    rw [Listed, ← Bool.and_eq_true]
    split <;> simp [*]
  unfold residentialReason Definite
  rw [Option.isSome_or, Bool.or_eq_true, hl, ← or_assoc]
  refine or_congr_left ?_
  cases dns.reverseLookup m ctx.clientIp with
  | answer names =>
    by_cases hnil : names = []
    · simp [hnil]
    · simp [hnil, List.find?_isSome]
  | noRecord | failed => simp

theorem isReject_enforce_iff : (enforce c ctx domain reason result).1.isReject ↔ c.reject ∧ triggers c result := by
  have hr : ∀ detail, (rejectOutcome c ctx domain reason detail).1.isReject = true ↔ c.reject = true := by
    intro detail
    unfold rejectOutcome scored
    split
    · next h => exact iff_of_true rfl h
    · next h => exact iff_of_false nofun h
  have hs : ∀ triggers share detail, (softOutcome c ctx triggers share domain reason detail).1.isReject = true ↔
      c.reject = true ∧ triggers = true := by
    intro triggers share detail
    unfold softOutcome
    split
    · next h => rw [hr, and_iff_left h]
    · next h => exact iff_of_false nofun fun hand => h hand.2
  cases result with
  | fail | none => exact (hr _).trans (and_iff_left rfl).symm
  | softFail | neutral => exact hs _ _ _
  | pass | tempError | permError => exact iff_of_false nofun fun h => nomatch h.2

theorem isReject_check_iff : (check tables dns c m ctx).1.isReject ↔
    (residentialReason tables dns c m ctx).isSome ∧ c.reject ∧
      ∃ domain, senderDomain ctx = some domain ∧ triggers c (spf dns m ctx domain) := by
  unfold check
  split
  · next hn =>
    refine iff_of_false nofun ?_
    rintro ⟨-, -, domain, hd, -⟩
    rcases hn with h | h <;> rw [senderDomain, h] at hd <;> cases hd
  · cases hd : senderDomain ctx with
    | none => exact iff_of_false nofun (by simp)
    | some domain =>
      cases residentialReason tables dns c m ctx with
      | none => exact iff_of_false nofun (by simp)
      | some reason => simp [isReject_enforce_iff]

theorem Completes.definite (h : Completes dns m dns') (hdef : Definite tables dns c m ctx) :
    Definite tables dns' c m ctx := by
  rcases hdef with hn | ⟨hpbl, hq⟩
  · left
    have hs : dns.reverseLookup m ctx.clientIp ≠ .failed := by
      intro hf
      rw [hf] at hn
      exact hn
    rwa [h.reverse _ hs]
  · refine .inr ⟨hpbl, ?_⟩
    cases hip : ctx.clientIp with
    | v6 segments =>
      rw [hip] at hq
      cases hq
    | v4 a b c d =>
      rw [hip] at hq
      simp only [queryDnsbl] at hq ⊢
      rwa [h.forward]
      intro hf
      rw [hf] at hq
      cases hq

end ResidentialSenderCheck

open ResidentialSenderCheck in
/-- **A rejection rests on definite answers unless the name of the client could not be looked up and
nothing but that makes it a home.** -/
theorem residential_lawful_iff (tables : CharTables) (dns : Resolvers) (c : ResidentialSenderCheck)
    (m : Moment) (ctx : EnvelopeContext) : Lawful tables dns c m ctx ↔
      ¬ (dns.reverseLookup m ctx.clientIp = .failed ∧ ¬ Listed dns c m ctx ∧ c.reject = true ∧
        ∃ domain, senderDomain ctx = some domain ∧ triggers c (spf dns m ctx domain) = true) := by
  unfold Lawful
  rw [isReject_check_iff, residentialReason_isSome_iff]
  constructor
  · rintro h ⟨hfailed, hlisted, hrest⟩
    rcases (h ⟨.inl hfailed, hrest⟩).1 with hname | hpbl
    · rw [hfailed] at hname
      exact hname
    · exact hlisted hpbl
  · rintro h ⟨hwhy, hreject, domain, hdomain, htriggers⟩
    have hdef : Definite tables dns c m ctx := by
      rcases hwhy with hfailed | hdef
      · exact .inr (by_contra fun hlisted => h ⟨hfailed, hlisted, hreject, domain, hdomain, htriggers⟩)
      · exact hdef
    refine ⟨hdef, ⟨domain, hdomain, htriggers⟩, fun dns' hdns => isReject_check_iff.mpr ?_⟩
    have hspf : spf dns' m ctx domain = spf dns m ctx domain := by
      refine hdns.spf _ _ _ _ fun htemp => ?_
      have htemp : spf dns m ctx domain = .tempError := htemp
      rw [htemp] at htriggers
      cases htriggers
    exact ⟨residentialReason_isSome_iff.mpr (.inr (hdns.definite hdef)), hreject, domain, hdomain, hspf ▸ htriggers⟩

/-- Name servers of which the one for names of clients is down. -/
def reverseDown : Resolvers where
  reverseLookup _ _ := .failed
  lookupIp _ _ := .noRecord
  verifySpfSender _ _ _ _ _ := .none

/-- A client whose name server does not answer is turned away for good. -/
theorem outage_rejects : reverseDown.reverseLookup 0 (.v4 192 0 2 1) = .failed ∧
    (ResidentialSenderCheck.check .ascii reverseDown ⟨1, true, true, "pbl.example", true, true⟩ 0
      ⟨.v4 192 0 2 1, "host", "a@b.c", [], false, 0, 0, 0, false, none⟩).1 =
    .reject "Residential sender (no PTR record) with no SPF record for b.c from 192.0.2.1" :=
  ⟨rfl, rfl⟩

end ServerWall.Antispam
