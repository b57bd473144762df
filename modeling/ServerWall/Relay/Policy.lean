import ServerWall.Relay.Delivery

/-!
# Outbound policy

`serverwall-relay/src/outbound_policy`: the checks of a submitted message by the domain of its sender,
the number of its recipients, the rate of its domain, and its content. The rate limiter keeps the
times of the last messages of every domain, shared by all sessions.
-/

namespace ServerWall.Relay

open List Text

structure OutboundPolicyConfig where
  /-- Nothing reads the switch. -/
  enabled : Bool
  (maxMessageSize maxRecipientsPerMessage : Nat)
  allowedSenderDomains : List Text
  maxMessagesPerDomainPerHour : Nat
  (blockDangerousAttachments checkUrls : Bool)

/-! ## Sender domain -/

/-- The domains that may send; none listed, all may. They are kept in lower
case. -/
structure SpfAlignmentCheck where
  allowedDomains : List Text

namespace SpfAlignmentCheck

def new (u : Unicode) (allowedDomains : List Text) : SpfAlignmentCheck := ⟨allowedDomains.map u.toLowercase⟩

def check (c : SpfAlignmentCheck) (u : Unicode) (senderDomain : Text) : Except Text Unit :=
  if c.allowedDomains.isEmpty then .ok ()
  else if c.allowedDomains.contains (u.toLowercase senderDomain) then .ok ()
  else .error (Text.fmt ["sender domain '", senderDomain, "' is not in allowed_sender_domains"])

end SpfAlignmentCheck

/-! ## Number of recipients -/

structure RecipientLimit where
  maxRecipients : Nat

def RecipientLimit.check (l : RecipientLimit) (recipientCount : Nat) : Except Text Unit :=
  if recipientCount > l.maxRecipients then
    .error (Text.fmt ["too many recipients: ", Text.dec recipientCount, " exceeds limit of ", Text.dec l.maxRecipients])
  else .ok ()

theorem RecipientLimit.le_of_check {l : RecipientLimit} (h : l.check n = .ok u) : n ≤ l.maxRecipients := by
  unfold check at h
  split at h
  · cases h
  · omega

/-! ## Rate -/

/-- The times of the last messages, by domain, in nanoseconds of the monotonic
clock. -/
abbrev Counters := Text → List Int

structure OutboundRateLimit where
  maxPerHour : Nat

/-- The verdict, and the counters with this message in them if it may go. -/
def OutboundRateLimit.check (l : OutboundRateLimit) (u : Unicode) (counters : Counters) (now : Int)
    (senderDomain : Text) : Except Text Unit × Counters :=
  let domain := u.toLowercase senderDomain
  let oneHourAgo := now - 3600 * TimeDelta.second
  let entries := (counters domain).filter fun ts => oneHourAgo < ts
  if entries.length ≥ l.maxPerHour then
    (.error (Text.fmt ["rate limit exceeded for domain ", senderDomain, ": ",
      Text.dec entries.length, "/", Text.dec l.maxPerHour, " per hour"]), Function.update counters domain entries)
  else (.ok (), Function.update counters domain (entries ++ [now]))

/-! ## Content -/

def dangerousTypes : List Text :=
  ["exe", "scr", "bat", "cmd", "ps1", "vbs", "js", "msi", "dll", "hta", "pif", "com", "cpl",
    "wsf", "wsh"].map String.toList

/-- The content policy; its fields are private, so that it blocks types of the
list above only. -/
structure OutboundContentPolicy where
  dangerousExtensions : List Text
  checkUrls : Bool
  maxMessageSize : Nat
  known : dangerousExtensions ⊆ dangerousTypes

namespace OutboundContentPolicy

def new (config : OutboundPolicyConfig) : OutboundContentPolicy where
  dangerousExtensions := if config.blockDangerousAttachments then dangerousTypes else []
  checkUrls := config.checkUrls
  maxMessageSize := config.maxMessageSize
  known := by
    split
    · exact List.Subset.refl _
    · exact nil_subset _

/-- One line of `str::lines`: without its line feed, and without the carriage
return before that. -/
def lineText (line : Text) : Text :=
  match Text.stripSuffix '\n' line with
  | none => line
  | some rest => (Text.stripSuffix '\r' rest).getD rest

def dangerous (p : OutboundContentPolicy) (u : Unicode) (line : Text) : Option Text :=
  let lower := u.toLowercase line
  if ("filename=" : Text) <:+: lower ∨ ("name=" : Text) <:+: lower then
    p.dangerousExtensions.find? fun ext => decide (('.' :: ext) <:+: lower)
  else none

def suspiciousPatterns : List Text := ["data:text/html", "javascript:", ".tk/", ".ml/", "bit.ly/"].map String.toList

def check (p : OutboundContentPolicy) (u : Unicode) (d : Decoder) (message : Bytes) :
    Except Text Unit :=
  if message.length > p.maxMessageSize then
    .error (Text.fmt ["message size ", Text.dec message.length, " exceeds limit ", Text.dec p.maxMessageSize])
  else
    let msgStr := d.lossy message
    match ((Text.splitAfter '\n' msgStr).map lineText).findSome? (p.dangerous u) with
    | some ext => .error (Text.fmt ["dangerous attachment type blocked: .", ext])
    | none =>
      if p.checkUrls then
        match suspiciousPatterns.find? fun pattern => decide (pattern <:+: msgStr) with
        | some pattern => .error (Text.fmt ["suspicious URL pattern detected: ", pattern])
        | none => .ok ()
      else .ok ()

end OutboundContentPolicy

/-! ## All of them -/

structure OutboundPolicyChecker where
  rateLimit : OutboundRateLimit
  contentPolicy : OutboundContentPolicy
  spfAlignment : SpfAlignmentCheck
  recipientLimit : RecipientLimit

def OutboundPolicyChecker.ofConfig (u : Unicode) (config : OutboundPolicyConfig) : OutboundPolicyChecker where
  rateLimit := ⟨config.maxMessagesPerDomainPerHour⟩
  contentPolicy := .new config
  spfAlignment := .new u config.allowedSenderDomains
  recipientLimit := ⟨config.maxRecipientsPerMessage⟩

/-- The checks in their order, up to the first that fails. -/
def OutboundPolicyChecker.check (p : OutboundPolicyChecker) (u : Unicode) (d : Decoder)
    (counters : Counters) (now : Int) (senderDomain : Text) (recipientCount : Nat)
    (message : Bytes) : Except Text Unit := do
  p.spfAlignment.check u senderDomain
  p.recipientLimit.check recipientCount
  (p.rateLimit.check u counters now senderDomain).1
  p.contentPolicy.check u d message

/-! ## Reasons

A reason goes into a reply, so it has to be one line. -/

theorem excess_oneLine (hw : '\n' ∉ what) (hl : '\n' ∉ limit)
    (n max : Nat) : '\n' ∉ fmt [what, dec n, limit, dec max] := by
  apply lf_not_mem_fmt
  simp only [mem_cons, not_mem_nil, or_false]
  rintro p (rfl | rfl | rfl | rfl)
  · exact hw
  · exact lf_not_mem_dec _
  · exact hl
  · exact lf_not_mem_dec _

variable {senderDomain reason : Text}

theorem SpfAlignmentCheck.reason_oneLine {c : SpfAlignmentCheck}
    (hd : '\n' ∉ senderDomain) (h : c.check u senderDomain = .error reason) : '\n' ∉ reason := by
  unfold check at h
  split at h
  · cases h
  · split at h
    · cases h
    · cases h
      apply lf_not_mem_fmt
      simp only [mem_cons, not_mem_nil, or_false]
      rintro p (rfl | rfl | rfl)
      · decide
      · exact hd
      · decide

theorem RecipientLimit.reason_oneLine {l : RecipientLimit} (h : l.check n = .error reason) : '\n' ∉ reason := by
  unfold check at h
  split at h
  · cases h
    exact excess_oneLine (by decide) (by decide) _ _
  · cases h

theorem OutboundRateLimit.reason_oneLine {l : OutboundRateLimit} {counters : Counters}
    {now : Int} (hd : '\n' ∉ senderDomain)
    (h : (l.check u counters now senderDomain).1 = .error reason) : '\n' ∉ reason := by
  unfold check at h
  dsimp only at h
  split at h
  · cases h
    apply lf_not_mem_fmt
    simp only [mem_cons, not_mem_nil, or_false]
    rintro p (rfl | rfl | rfl | rfl | rfl | rfl | rfl)
    · decide
    · exact hd
    · decide
    · exact lf_not_mem_dec _
    · decide
    · exact lf_not_mem_dec _
    · decide
  · cases h

variable {p : OutboundContentPolicy}

theorem OutboundContentPolicy.mem_of_dangerous
    {lines : List Text} {ext : Text} (h : lines.findSome? (p.dangerous u) = some ext) : ext ∈ dangerousTypes := by
  obtain ⟨line, -, hl⟩ := exists_of_findSome?_eq_some h
  unfold dangerous at hl
  dsimp only at hl
  split at hl
  · exact p.known (mem_of_find?_eq_some hl)
  · cases hl

theorem OutboundContentPolicy.reason_oneLine
    {message : Bytes} (h : p.check u d message = .error reason) : '\n' ∉ reason := by
  have ht : ∀ ext ∈ dangerousTypes, '\n' ∉ ext := by decide
  have hp : ∀ pattern ∈ suspiciousPatterns, '\n' ∉ pattern := by decide
  unfold check at h
  split at h
  · cases h
    exact excess_oneLine (by decide) (by decide) _ _
  · dsimp only at h
    split at h
    · rename_i ext hf
      cases h
      apply lf_not_mem_fmt
      simp only [mem_cons, not_mem_nil, or_false]
      rintro p (rfl | rfl)
      · decide
      · exact ht _ (mem_of_dangerous hf)
    · split at h
      · split at h
        · rename_i pattern hf
          cases h
          apply lf_not_mem_fmt
          simp only [mem_cons, not_mem_nil, or_false]
          rintro p (rfl | rfl)
          · decide
          · exact hp _ (mem_of_find?_eq_some hf)
        · cases h
      · cases h

theorem OutboundPolicyChecker.reason_oneLine {p : OutboundPolicyChecker}
    {counters : Counters} {now : Int} {count : Nat} {message : Bytes} (hd : '\n' ∉ senderDomain)
    (h : p.check u d counters now senderDomain count message = .error reason) : '\n' ∉ reason := by
  unfold check at h
  cases hspf : p.spfAlignment.check u senderDomain with
  | error e =>
    rw [hspf] at h
    cases h
    exact SpfAlignmentCheck.reason_oneLine hd hspf
  | ok _ =>
    cases hl : p.recipientLimit.check count with
    | error e =>
      rw [hspf, hl] at h
      cases h
      exact RecipientLimit.reason_oneLine hl
    | ok _ =>
      cases hr : (p.rateLimit.check u counters now senderDomain).1 with
      | error e =>
        rw [hspf, hl, hr] at h
        cases h
        exact OutboundRateLimit.reason_oneLine hd hr
      | ok _ =>
        rw [hspf, hl, hr] at h
        exact OutboundContentPolicy.reason_oneLine h

end ServerWall.Relay
