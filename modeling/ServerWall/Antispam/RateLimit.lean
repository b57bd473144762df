import ServerWall.Antispam.Pipeline

/-!
# The rate limit of the SMTP frontends

`rate_limit.rs` of `serverwall-antispam`: sliding windows for the address of the client, the sender and
its domain, of which only the first rejects. A rejected call counts as well: the count of a call is the
number of calls with its key in the window that ends with it (`serve_ipMap`).
-/

namespace ServerWall.Antispam

open List Text

/-- `SmtpRateLimitCheck`; the window and all times in one unit. -/
structure SmtpRateLimitCheck where
  weight : ℚ
  (maxPerIp maxPerDomain maxPerSender window : Nat)

/-- The times kept for each key, none for a key that was never seen. -/
abbrev WindowMap := Text → List Nat

structure Windows where
  (ipMap senderMap domainMap : WindowMap := fun _ => [])

def record (now window : Nat) (timestamps : List Nat) : List Nat := timestamps.filter (now - · < window) ++ [now]

def count (now window : Nat) (timestamps : List Nat) : Nat := (timestamps.filter (now - · < window)).length

/-- **Pruning loses nothing that a later window could hold.** -/
theorem count_record (h : t ≤ now) (timestamps : List Nat) : count now window (record t window timestamps) =
      count now window timestamps + if now - t < window then 1 else 0 := by
  rw [count, record, filter_append, length_append, filter_filter]
  congr 1
  · -- what is in the window now was in the window of the call
    refine congrArg length (filter_congr fun s _ => ?_)
    rw [Bool.and_eq_left_iff_imp, decide_eq_true_eq, decide_eq_true_eq]
    omega
  · simp [filter_cons, apply_ite length]

/-- `entry(key).or_insert_with(..)` and `record`. -/
def WindowMap.recorded (map : WindowMap) (key : Text) (now window : Nat) : WindowMap :=
  fun k => if k = key then record now window (map key) else map k

def WindowMap.entered (map : WindowMap) (key : Option Text) (now window : Nat) : WindowMap :=
  match key with
  | none => map
  | some k => map.recorded k now window

structure Call where
  time : Nat
  ctx : EnvelopeContext

/-- A property of every call of a sequence, with the calls before it. -/
def EachCall (p : List Call → Call → Prop) (calls : List Call) : Prop :=
  ∀ before call rest, calls = before ++ call :: rest → p before call

theorem EachCall.of_append (h : EachCall p (calls ++ [call])) : EachCall p calls ∧ p calls call :=
  ⟨fun before c rest he => h before c (rest ++ [call]) (by rw [he, append_assoc, cons_append]), h calls call [] rfl⟩

namespace SmtpRateLimitCheck

def contribution (score : ℚ) (description : Text) : ScoreContribution := ⟨"rate_limit", .rateLimit, score, description⟩

def hit (severity : ℚ) (detail description : Text) : CheckOutcome × Option ScoreContribution :=
  (.hit severity detail, some (contribution severity description))

def outOf (count max : Nat) : Text := fmt [" (", dec count, "/", dec max, ")"]

def checkDomain (l : SmtpRateLimitCheck) (u : Unicode) (st : Windows) (now : Nat) (ctx : EnvelopeContext) :
    (CheckOutcome × Option ScoreContribution) × Windows :=
  match rsplitOnce '@' ctx.mailFrom with
  | none => ((.pass, none), st)
  | some (_, domain) =>
    let key := u.toLowercase (trimEndMatches '>' domain)
    let st := { st with domainMap := st.domainMap.recorded key now l.window }
    let n := count now l.window (st.domainMap key)
    if n > l.maxPerDomain then
      (hit (l.weight * (6 / 10)) (fmt ["Domain rate limit: ", key, outOf n l.maxPerDomain])
        (fmt ["Domain ", key, " rate limit"]), st)
    else ((.pass, none), st)

def checkSender (l : SmtpRateLimitCheck) (u : Unicode) (st : Windows) (now : Nat) (ctx : EnvelopeContext) :
    (CheckOutcome × Option ScoreContribution) × Windows :=
  if ctx.mailFrom.isEmpty then l.checkDomain u st now ctx
  else
    let key := u.toLowercase ctx.mailFrom
    let st := { st with senderMap := st.senderMap.recorded key now l.window }
    let n := count now l.window (st.senderMap key)
    if n > l.maxPerSender then
      (hit (l.weight * (8 / 10)) (fmt ["Sender rate limit: ", ctx.mailFrom, outOf n l.maxPerSender])
        (fmt ["Sender ", ctx.mailFrom, " rate limit"]), st)
    else l.checkDomain u st now ctx

def check (l : SmtpRateLimitCheck) (u : Unicode) (st : Windows) (call : Call) :
    (CheckOutcome × Option ScoreContribution) × Windows :=
  let key := call.ctx.clientIp.toText
  let st := { st with ipMap := st.ipMap.recorded key call.time l.window }
  let n := count call.time l.window (st.ipMap key)
  if n > l.maxPerIp then
    ((.reject (fmt ["Rate limit exceeded for IP ", key, outOf n l.maxPerIp]),
      some (contribution (l.weight * 1) (fmt ["IP ", key, " rate limit exceeded"]))), st)
  else l.checkSender u st call.time call.ctx

/-- The maps after a sequence of calls, and the calls that were not rejected. -/
def serve (l : SmtpRateLimitCheck) (u : Unicode) (calls : List Call) : Windows × List Call :=
  calls.foldl (fun (st, passed) call =>
    let (answer, st) := l.check u st call
    (st, if answer.1.isReject then passed else passed ++ [call])) ({}, [])

def rejects (l : SmtpRateLimitCheck) (u : Unicode) (before : List Call) (call : Call) : Bool :=
  (l.check u (l.serve u before).1 call).1.1.isReject

variable (l : SmtpRateLimitCheck) (u : Unicode)

/-! ## What a call counts -/

theorem checkSender_ip (st : Windows) (now : Nat) (ctx : EnvelopeContext) :
    (l.checkSender u st now ctx).2.ipMap = st.ipMap ∧ (l.checkSender u st now ctx).1.1.isReject = false := by
  have hd : ∀ st : Windows, (l.checkDomain u st now ctx).2.ipMap = st.ipMap ∧
      (l.checkDomain u st now ctx).1.1.isReject = false := by
    intro st
    unfold checkDomain
    split
    · exact ⟨rfl, rfl⟩
    · dsimp only
      split <;> exact ⟨rfl, rfl⟩
  unfold checkSender
  split
  · exact hd st
  · dsimp only
    split
    · exact ⟨rfl, rfl⟩
    · exact hd _

theorem check_ip (st : Windows) (call) :
    let ipMap := st.ipMap.recorded call.ctx.clientIp.toText call.time l.window
    (l.check u st call).2.ipMap = ipMap ∧ ((l.check u st call).1.1.isReject = true ↔
      l.maxPerIp < count call.time l.window (ipMap call.ctx.clientIp.toText)) := by
  unfold check
  dsimp only
  split
  · next ho => exact ⟨rfl, iff_of_true rfl ho⟩
  · next ho =>
    have hs := l.checkSender_ip u
    exact ⟨(hs _ _ _).1, iff_of_false (by simp [hs]) ho⟩

theorem serve_append (calls : List Call) (call) : l.serve u (calls ++ [call]) =
    ((l.check u (l.serve u calls).1 call).2,
      if l.rejects u calls call then (l.serve u calls).2 else (l.serve u calls).2 ++ [call]) := by
  rw [serve, foldl_append]
  rfl

/-- Did a call come from an address, in the window that ends at a time? -/
def inWindow (ip : IpAddr) (now : Nat) (call : Call) : Bool := call.ctx.clientIp = ip && now - call.time < l.window

theorem count_of_entered {l : SmtpRateLimitCheck} {u : Unicode} (map : Windows → WindowMap)
    (key : Call → Option Text) {now : Nat} {calls : List Call}
    (hstep : EachCall (fun before call => map (l.check u (l.serve u before).1 call).2 =
      (map (l.serve u before).1).entered (key call) call.time l.window) calls)
    (hnew : map {} = fun _ => []) (hle : ∀ c ∈ calls, c.time ≤ now) (k : Text) :
    count now l.window (map (l.serve u calls).1 k) =
      calls.countP fun c => key c = some k && now - c.time < l.window := by
  induction calls using reverseRecOn with
  | nil =>
    show count now l.window (map {} k) = 0
    rw [hnew]
    rfl
  | append_singleton calls call ih =>
    rw [forall_mem_append, forall_mem_singleton] at hle
    obtain ⟨hbefore, hcall⟩ := hstep.of_append
    rw [serve_append, hcall, countP_append, ← ih hbefore hle.1]
    cases hkey : key call with
    | none => simp [WindowMap.entered, hkey]
    | some entry =>
      unfold WindowMap.entered WindowMap.recorded
      by_cases hk : k = entry
      · subst hk
        dsimp only
        rw [if_pos rfl, count_record hle.2]
        simp [hkey, countP_cons]
      · simp [hk, hkey, Ne.symm hk]

theorem serve_ipMap (ip : IpAddr) {now : Nat} {calls : List Call} (hle : ∀ call ∈ calls, call.time ≤ now) :
    count now l.window ((l.serve u calls).1.ipMap ip.toText) = calls.countP (l.inWindow ip now) := by
  rw [count_of_entered (·.ipMap) (fun c => some c.ctx.clientIp.toText) (fun _ _ _ _ => (l.check_ip u _ _).1) rfl hle]
  refine countP_congr fun c _ => ?_
  simp [inWindow, IpAddr.toText_injective.eq_iff]

theorem passed_sublist (calls : List Call) : (l.serve u calls).2.Sublist calls := by
  induction calls using reverseRecOn with
  | nil => exact Sublist.slnil
  | append_singleton calls call ih =>
    rw [serve_append]
    split
    · exact ih.trans (sublist_append_left _ _)
    · exact ih.append_right _

variable {l u} {before : List Call} {call : Call}

theorem rejects_iff (hle : ∀ c ∈ before, c.time ≤ call.time) : l.rejects u before call ↔
    l.maxPerIp < (before ++ [call]).countP (l.inWindow call.ctx.clientIp call.time) := by
  have hall : ∀ c ∈ before ++ [call], c.time ≤ call.time := by
    rw [forall_mem_append, forall_mem_singleton]
    exact ⟨hle, Nat.le_refl _⟩
  have hc := l.serve_ipMap u call.ctx.clientIp hall
  rw [serve_append, (l.check_ip u _ _).1] at hc
  rw [← hc]
  exact (l.check_ip u _ _).2

theorem passed_bounded (ip : IpAddr) (inside : Nat → Bool) (hcl : ∀ s t, inside s → inside t → t - s < l.window)
    (hm : calls.Pairwise (·.time ≤ ·.time)) :
    (l.serve u calls).2.countP (fun c => c.ctx.clientIp = ip && inside c.time) ≤ l.maxPerIp := by
  induction calls using reverseRecOn with
  | nil => exact Nat.zero_le _
  | append_singleton calls call ih =>
    obtain ⟨hb, -, hl⟩ := pairwise_append.mp hm
    rw [serve_append]
    split
    · exact ih hb
    · next hp =>
      rw [rejects_iff fun c hc => hl c hc call (mem_singleton_self _), Nat.not_lt] at hp
      by_cases hca : call.ctx.clientIp = ip ∧ inside call.time = true
      · -- a call that passes has seen all that passed before it
        refine Nat.le_trans (Nat.le_trans ?_ ((l.passed_sublist u calls).append_right [call]).countP_le) hp
        refine countP_mono_left fun c _ hc => ?_
        rw [Bool.and_eq_true, decide_eq_true_eq] at hc
        rw [inWindow, hca.1, hc.1]
        simpa using hcl _ _ hc.2 hca.2
      · have hout : [call].countP (fun c => c.ctx.clientIp = ip && inside c.time) = 0 := by simpa using hca
        rw [countP_append, hout]
        exact ih hb

/-- **The sliding window for addresses**, and the only reason for a rejection. -/
theorem sliding_window (l : SmtpRateLimitCheck) (u : Unicode) (calls : List Call)
    (hmono : calls.Pairwise (·.time ≤ ·.time)) :
    (∀ ip start, (l.serve u calls).2.countP (fun c =>
        c.ctx.clientIp = ip && (start ≤ c.time && c.time < start + l.window)) ≤ l.maxPerIp ∧
      (l.serve u calls).2.countP (fun c =>
        c.ctx.clientIp = ip && (start < c.time && c.time ≤ start + l.window)) ≤ l.maxPerIp) ∧
    ∀ before call rest, calls = before ++ call :: rest → l.rejects u before call = true →
      l.maxPerIp < (before ++ [call]).countP fun c =>
        c.ctx.clientIp = call.ctx.clientIp && call.time - c.time < l.window := by
  refine ⟨fun ip start => ⟨?_, ?_⟩, ?_⟩
  · refine passed_bounded ip (fun t => start ≤ t && t < start + l.window) (fun s t hs ht => ?_) hmono
    simp only [Bool.and_eq_true, decide_eq_true_eq] at hs ht
    omega
  · refine passed_bounded ip (fun t => start < t && t ≤ start + l.window) (fun s t hs ht => ?_) hmono
    simp only [Bool.and_eq_true, decide_eq_true_eq] at hs ht
    omega
  · rintro before call rest rfl hrejects
    have hlast := (pairwise_append.mp hmono).2.2
    exact (rejects_iff fun c hc => hlast c hc call mem_cons_self).mp hrejects

def envelopeFrom (clientIp : IpAddr) : EnvelopeContext where
  clientIp
  heloDomain := "host"
  mailFrom := "a@b.c"
  rcptTo := []
  earlyTalker := false
  connectTime := 0
  bannerSentTime := 0
  commandCount := 0
  pipeliningDetected := false
  ja3Fingerprint := none

def turns : List Call :=
  [⟨0, envelopeFrom (.v4 192 0 2 1)⟩, ⟨3, envelopeFrom (.v4 192 0 2 2)⟩, ⟨5, envelopeFrom (.v4 192 0 2 1)⟩]

theorem sliding_window_turns : turns.Pairwise (·.time ≤ ·.time) ∧
    (serve ⟨1, 1, 9, 9, 10⟩ .ascii turns).2.countP (fun c => c.ctx.clientIp = .v4 192 0 2 1 && (0 ≤ c.time && c.time < 0 + 10)) ≤ 1 :=
  ⟨by decide, ((sliding_window ⟨1, 1, 9, 9, 10⟩ .ascii turns (by decide)).1 (.v4 192 0 2 1) 0).1⟩

end SmtpRateLimitCheck

end ServerWall.Antispam
