import ServerWall.Relay.Policy

/-!
# The hourly quota

The limiter keeps of a domain the times of the calls it let pass in the last hour (`serve_live`,
`hourly_limit`). It is asked before the content is looked at, so a refusal for the content is counted, and
no other (`refusal_free_iff`).
-/

namespace ServerWall.Relay

open List

def hour : Int := 3600 * TimeDelta.second

/-- The entries of a domain that a call at a time still counts. -/
def Counters.live (counters : Counters) (domain : Text) (now : Int) : List Int :=
  (counters domain).filter fun ts => now - hour < ts

namespace OutboundRateLimit

structure Call where
  time : Int
  domain : Text

/-- The counters after a sequence of calls, and the calls that were answered with `Ok`. -/
def serve (l : OutboundRateLimit) (u : Unicode) (calls : List Call) : Counters × List Call :=
  calls.foldl (fun st call =>
    let checked := l.check u st.1 call.time call.domain
    (checked.2, if checked.1.isOk then st.2 ++ [call] else st.2)) (fun _ => [], [])

def refuses (l : OutboundRateLimit) (u : Unicode) (before : List Call) (call : Call) : Bool :=
  !(l.check u (l.serve u before).1 call.time call.domain).1.isOk

/-- A call for the domain, up to case, at a time that satisfies `p`. -/
def within (u : Unicode) (domain : Text) (p : Int → Bool) (c : Call) : Bool :=
  u.toLowercase c.domain = u.toLowercase domain && p c.time

variable (l : OutboundRateLimit) (u : Unicode)

theorem check_isOk (counters) (now : Int) (domain : Text) : (l.check u counters now domain).1.isOk ↔
      (counters.live (u.toLowercase domain) now).length < l.maxPerHour := by
  unfold check
  dsimp only
  split
  · next h => exact iff_of_false Bool.false_ne_true (Nat.not_lt.mpr h)
  · next h => exact iff_of_true rfl (Nat.lt_of_not_le h)

/-- What a call leaves of the entries that a later one counts. -/
theorem live_check (counters) {now t : Int} (h : now ≤ t) (domain key : Text) :
    (l.check u counters now domain).2.live key t = counters.live key t ++
      if (l.check u counters now domain).1.isOk ∧ u.toLowercase domain = key then
        [now].filter (t - hour < ·) else [] := by
  have hprune : ∀ ts : List Int, (ts.filter fun ts => now - 3600 * TimeDelta.second < ts).filter
      (fun ts => t - hour < ts) = ts.filter fun ts => t - hour < ts := by
    intro ts
    rw [filter_filter]
    refine filter_congr fun s _ => ?_
    rw [Bool.and_eq_left_iff_imp, decide_eq_true_eq, decide_eq_true_eq]
    unfold hour
    omega
  by_cases hkey : u.toLowercase domain = key
  · subst hkey
    unfold check Counters.live
    dsimp only
    split
    · simp [hprune, Except.isOk, Except.toBool]
    · simp [hprune, Except.isOk, Except.toBool]
  · unfold check Counters.live
    dsimp only
    split <;> simp [hkey, Function.update_of_ne (Ne.symm hkey)]

theorem serve_append (calls : List Call) (call) : l.serve u (calls ++ [call]) =
    ((l.check u (l.serve u calls).1 call.time call.domain).2,
      if l.refuses u calls call then (l.serve u calls).2 else (l.serve u calls).2 ++ [call]) := by
  rw [serve, foldl_append, foldl_cons, foldl_nil, ← serve]
  dsimp only
  unfold refuses
  cases (l.check u (l.serve u calls).1 call.time call.domain).1.isOk <;> rfl

/-- **The limiter keeps the calls that passed**, as far as a later call counts them. -/
theorem serve_live (domain : Text) {now : Int} (hle : ∀ c ∈ calls, c.time ≤ now) :
    (l.serve u calls).1.live (u.toLowercase domain) now =
      ((l.serve u calls).2.filter (within u domain (now - hour < ·))).map (·.time) := by
  induction calls using List.reverseRecOn with
  | nil => rfl
  | append_singleton calls call ih =>
    rw [forall_mem_append, forall_mem_singleton] at hle
    rw [serve_append, live_check l u _ hle.2, ih hle.1]
    unfold refuses
    cases (l.check u (l.serve u calls).1 call.time call.domain).1.isOk with
    | false => simp
    | true =>
      by_cases hkey : u.toLowercase call.domain = u.toLowercase domain
      · by_cases ht : now - hour < call.time <;> simp [within, hkey, ht]
      · simp [within, hkey]

variable {l u} {calls before : List Call} {call : Call}

theorem refuses_iff (hle : ∀ c ∈ before, c.time ≤ call.time) : l.refuses u before call ↔
    l.maxPerHour ≤ (l.serve u before).2.countP (within u call.domain (call.time - hour < ·)) := by
  rw [refuses, Bool.not_eq_true', Bool.eq_false_iff, Ne, check_isOk, Nat.not_lt, l.serve_live u _ hle,
    length_map, countP_eq_length_filter]

theorem time_le_of_passed (hle : ∀ c ∈ calls, c.time ≤ call.time) : ∀ c ∈ (l.serve u calls).2, c.time ≤ call.time := by
  suffices (l.serve u calls).2.Sublist calls from fun c hc => hle c (this.subset hc)
  clear hle
  induction calls using List.reverseRecOn with
  | nil => exact List.Sublist.slnil
  | append_singleton calls call ih =>
    rw [serve_append]
    split
    · exact ih.trans (sublist_append_left _ _)
    · exact ih.append_right _

/-- Of calls at times less than an hour apart so many pass. -/
theorem passed_le (domain : Text) (hclose : ∀ s t, inside s → inside t → t - hour < s)
    (hmono : calls.Pairwise (·.time ≤ ·.time)) :
    (l.serve u calls).2.countP (within u domain inside) ≤ l.maxPerHour := by
  induction calls using List.reverseRecOn with
  | nil => exact Nat.zero_le _
  | append_singleton calls call ih =>
    obtain ⟨hbefore, -, hlast⟩ := pairwise_append.mp hmono
    have hle : ∀ c ∈ calls, c.time ≤ call.time := fun c hc => hlast c hc call (mem_singleton_self _)
    rw [serve_append]
    split
    · exact ih hbefore
    · next hpass =>
      rw [refuses_iff hle, Nat.not_le] at hpass
      rw [countP_append, countP_singleton]
      split
      · next hin =>
        -- whatever passed before it in the same stretch is still counted by the call
        obtain ⟨hkey, ht⟩ := Bool.and_eq_true_iff.mp hin
        refine Nat.lt_of_le_of_lt (countP_mono_left fun c _ hc => ?_) hpass
        obtain ⟨hc, hs⟩ := Bool.and_eq_true_iff.mp hc
        rw [decide_eq_true_eq] at hkey hc
        simpa [within, hc, hkey] using hclose _ _ hs ht
      · exact ih hbefore

/-- **The hourly limit**, and the only reason for a refusal. -/
theorem hourly_limit (l : OutboundRateLimit) (u : Unicode) (calls : List Call)
    (hmono : calls.Pairwise (·.time ≤ ·.time)) : (∀ domain start,
      (l.serve u calls).2.countP (within u domain fun t => start ≤ t && t < start + hour) ≤ l.maxPerHour ∧
      (l.serve u calls).2.countP (within u domain fun t => start < t && t ≤ start + hour) ≤ l.maxPerHour) ∧
    ∀ before call rest, calls = before ++ call :: rest → l.refuses u before call = true → (l.serve u before).2.countP
        (within u call.domain fun t => call.time - hour < t && t ≤ call.time) = l.maxPerHour := by
  refine ⟨fun domain start => ⟨passed_le domain (fun s t hs ht => ?_) hmono,
    passed_le domain (fun s t hs ht => ?_) hmono⟩, ?_⟩
  · simp only [Bool.and_eq_true, decide_eq_true_eq] at hs ht
    omega
  · simp only [Bool.and_eq_true, decide_eq_true_eq] at hs ht
    omega
  · rintro before call rest rfl hrefused
    obtain ⟨hbefore, -, hlast⟩ := pairwise_append.mp hmono
    have hle : ∀ c ∈ before, c.time ≤ call.time := fun c hc => hlast c hc call mem_cons_self
    refine Nat.le_antisymm (passed_le call.domain (fun s t hs ht => ?_) hbefore) ?_
    · simp only [Bool.and_eq_true, decide_eq_true_eq] at hs ht
      omega
    · refine Nat.le_trans ((refuses_iff hle).mp hrefused) (countP_mono_left fun c hc h => ?_)
      simpa [within, time_le_of_passed hle c hc] using h

theorem hourly_limit_burst : [(⟨0, "a.example"⟩ : Call), ⟨1, "A.EXAMPLE"⟩].Pairwise (·.time ≤ ·.time) ∧
    (serve ⟨1⟩ .ascii [⟨0, "a.example"⟩]).2.countP (within .ascii "A.EXAMPLE" fun t => 1 - hour < t && t ≤ 1) = 1 :=
  ⟨by decide, (hourly_limit ⟨1⟩ .ascii [⟨0, "a.example"⟩, ⟨1, "A.EXAMPLE"⟩] (by decide)).2
    [⟨0, "a.example"⟩] ⟨1, "A.EXAMPLE"⟩ [] rfl (by decide +kernel)⟩

end OutboundRateLimit

/-! ## What a refusal costs -/

namespace OutboundPolicyChecker

variable (p : OutboundPolicyChecker) (u : Unicode) (d : Decoder) (counters : Counters) (now : Int)
  (senderDomain : Text) (recipientCount : Nat) (message : Bytes)

/-- The check of a message up to the limiter, with the counters it leaves. -/
def limited : Except Text Unit × Counters :=
  match p.spfAlignment.check u senderDomain with
  | .error reason => (.error reason, counters)
  | .ok _ =>
    match p.recipientLimit.check recipientCount with
    | .error reason => (.error reason, counters)
    | .ok _ => p.rateLimit.check u counters now senderDomain

def checked : Except Text Unit × Counters :=
  match p.limited u counters now senderDomain recipientCount with
  | (.error reason, counters) => (.error reason, counters)
  | (.ok _, counters) => (p.contentPolicy.check u d message, counters)

theorem checked_fst : (p.checked u d counters now senderDomain recipientCount message).1 =
    p.check u d counters now senderDomain recipientCount message := by
  unfold checked limited check
  cases p.spfAlignment.check u senderDomain with
  | error reason => rfl
  | ok _ =>
    cases p.recipientLimit.check recipientCount with
    | error reason => rfl
    | ok _ => rcases p.rateLimit.check u counters now senderDomain with ⟨_ | _, _⟩ <;> rfl

/-- How many messages a domain may still send at a time. -/
def quota (counters : Counters) (domain : Text) (t : Int) : Nat :=
  p.rateLimit.maxPerHour - (counters.live (u.toLowercase domain) t).length

variable {p u d counters now senderDomain recipientCount message}

/-- The first three checks leave the quota alone where they refuse, and only there. -/
theorem quota_limited_iff :
    (∀ domain t, now ≤ t → p.quota u (p.limited u counters now senderDomain recipientCount).2 domain t =
      p.quota u counters domain t) ↔ (p.limited u counters now senderDomain recipientCount).1.isOk = false := by
  unfold limited
  split
  · exact iff_of_true (fun _ _ _ => rfl) rfl
  · split
    · exact iff_of_true (fun _ _ _ => rfl) rfl
    · cases hok : (p.rateLimit.check u counters now senderDomain).1.isOk with
      | false =>
        refine iff_of_true (fun domain t ht => ?_) rfl
        simp [quota, p.rateLimit.live_check u counters ht, hok]
      | true =>
        refine iff_of_false (fun h => ?_) Bool.noConfusion
        have hroom := (p.rateLimit.check_isOk u counters now senderDomain).mp hok
        have hnow : now - hour < now := Int.sub_lt_self now (by decide)
        have := h senderDomain now (Int.le_refl _)
        simp only [quota, p.rateLimit.live_check u counters (Int.le_refl now), hok, true_and, if_true,
          filter_cons, decide_eq_true hnow, filter_nil, length_append, length_singleton] at this
        omega

/-- **A refusal costs a domain nothing unless it is for the content**: the number of messages each
domain may still send is the same at every later time. -/
theorem refusal_free_iff (p : OutboundPolicyChecker) (u : Unicode) (d : Decoder) (counters : Counters)
    (now : Int) (senderDomain : Text) (recipientCount : Nat) (message : Bytes) :
    ((p.check u d counters now senderDomain recipientCount message).isOk = false → ∀ domain t, now ≤ t →
        p.quota u (p.checked u d counters now senderDomain recipientCount message).2 domain t =
          p.quota u counters domain t) ↔
    ¬ ((p.spfAlignment.check u senderDomain).isOk = true ∧ (p.recipientLimit.check recipientCount).isOk = true ∧
      (p.rateLimit.check u counters now senderDomain).1.isOk = true ∧
      (p.contentPolicy.check u d message).isOk = false) := by
  have hsnd : (p.checked u d counters now senderDomain recipientCount message).2 =
      (p.limited u counters now senderDomain recipientCount).2 := by
    unfold checked
    split <;> next h => rw [h]
  rw [hsnd, quota_limited_iff, ← checked_fst]
  unfold checked limited
  cases p.spfAlignment.check u senderDomain with
  | error reason => exact iff_of_true (fun _ => rfl) fun h => Bool.noConfusion h.1
  | ok _ =>
    cases p.recipientLimit.check recipientCount with
    | error reason => exact iff_of_true (fun _ => rfl) fun h => Bool.noConfusion h.2.1
    | ok _ =>
      rcases p.rateLimit.check u counters now senderDomain with ⟨_ | _, _⟩ <;>
        simp [Except.isOk, Except.toBool]

/-- A message over the size limit is refused, and it was the one the domain might send. -/
theorem oversize_spends_quota :
    let p : OutboundPolicyChecker := ⟨⟨1⟩, ⟨[], false, 0, nil_subset _⟩, ⟨[]⟩, ⟨1⟩⟩
    (p.check .ascii .ascii (fun _ => []) 0 "a.example" 1 [0]).isOk = false ∧
    p.quota .ascii (fun _ => []) "a.example" 0 = 1 ∧
    p.quota .ascii (p.checked .ascii .ascii (fun _ => []) 0 "a.example" 1 [0]).2 "a.example" 0 = 0 :=
  ⟨by decide, by decide, by decide⟩

end OutboundPolicyChecker

end ServerWall.Relay
