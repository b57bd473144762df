import ServerWall.Lib.Metered
import ServerWall.Lib.Text

/-!
# Rate limits

`serverwall-waf/src/rate_limit`: a token bucket for each key, full at first. Amounts and times are rational.
A bucket is locked meanwhile, so calls with one key come one after the other (`Clocked`) and are a meter
(`Metered`): an interval admits the capacity and what the rate gives (`admitted_le`).
-/

namespace ServerWall.Waf

open List Function

/-! ## Buckets -/

structure TokenBucket where
  (tokens maxTokens refillRate lastRefill : ℚ)

namespace TokenBucket

def new (maxTokens refillRate now : ℚ) : TokenBucket where
  tokens := maxTokens
  maxTokens := maxTokens
  refillRate := refillRate
  lastRefill := now

def refill (bucket : TokenBucket) (now : ℚ) : TokenBucket :=
  let elapsed := now - bucket.lastRefill
  if 0 < elapsed then
    { bucket with
      tokens := min (bucket.tokens + elapsed * bucket.refillRate) bucket.maxTokens
      lastRefill := now }
  else bucket

def tryConsume (bucket : TokenBucket) (now : ℚ) : Bool × TokenBucket :=
  let bucket := bucket.refill now
  if 1 ≤ bucket.tokens then (true, { bucket with tokens := bucket.tokens - 1 })
  else (false, bucket)

end TokenBucket

/-! ## The limiter -/

structure RateLimiter where
  buckets : Text → Option TokenBucket
  (maxRequests refillRate : ℚ)
  max_nonneg : 0 ≤ maxRequests
  rate_nonneg : 0 ≤ refillRate

structure Call where
  key : Text
  (created now : ℚ)
  ordered : created ≤ now

namespace RateLimiter

def withLimits (maxRequests windowSecs : Nat) : RateLimiter where
  buckets _ := none
  maxRequests := maxRequests
  refillRate := if 0 < windowSecs then maxRequests / windowSecs else maxRequests
  max_nonneg := Nat.cast_nonneg _
  rate_nonneg := by
    split
    · exact div_nonneg (Nat.cast_nonneg _) (Nat.cast_nonneg _)
    · exact Nat.cast_nonneg _

def entry (limiter : RateLimiter) (call : Call) : TokenBucket :=
  (limiter.buckets call.key).getD (.new limiter.maxRequests limiter.refillRate call.created)

def checkKey (limiter : RateLimiter) (call : Call) : Bool × RateLimiter :=
  let result := (limiter.entry call).tryConsume call.now
  (result.1, { limiter with buckets := Function.update limiter.buckets call.key result.2 })

def serve : RateLimiter → List Call → List (Call × Bool)
  | _, [] => []
  | limiter, call :: calls => (call, (limiter.checkKey call).1) :: serve (limiter.checkKey call).2 calls

def after (limiter : RateLimiter) (calls : List Call) : RateLimiter :=
  calls.foldl (fun limiter call => (limiter.checkKey call).2) limiter

/-- The calls with one key read the clock one after the other. -/
def Clocked (calls : List Call) : Prop := calls.Pairwise fun a b => a.key = b.key → a.now ≤ b.created

def Fresh (limiter : RateLimiter) : Prop := ∀ key, limiter.buckets key = none

theorem fresh_withLimits (maxRequests windowSecs : Nat) : (withLimits maxRequests windowSecs).Fresh := fun _ => rfl

/-! ## Tokens -/

/-- The bucket is one of the limiter's, with its tokens in bounds. -/
structure Holds (limiter : RateLimiter) (bucket : TokenBucket) : Prop where
  max : bucket.maxTokens = limiter.maxRequests
  rate : bucket.refillRate = limiter.refillRate
  nonneg : 0 ≤ bucket.tokens
  le_max : bucket.tokens ≤ limiter.maxRequests

section

variable {limiter : RateLimiter} {bucket : TokenBucket} {now created : ℚ}

theorem Holds.refill (hb : limiter.Holds bucket) (now : ℚ) : limiter.Holds (bucket.refill now) := by
  unfold TokenBucket.refill
  simp only
  split
  · rename_i he
    refine ⟨hb.max, hb.rate, ?_, ?_⟩
    · refine le_min ?_ (hb.max ▸ limiter.max_nonneg)
      refine add_nonneg hb.nonneg (mul_nonneg (le_of_lt he) ?_)
      rw [hb.rate]
      exact limiter.rate_nonneg
    · exact (min_le_right _ _).trans (le_of_eq hb.max)
  · exact hb

theorem Holds.tryConsume (hb : limiter.Holds bucket) (now : ℚ) : limiter.Holds (bucket.tryConsume now).2 := by
  have hr := hb.refill now
  unfold TokenBucket.tryConsume
  simp only
  split
  · rename_i ht
    have hle := hr.le_max
    exact ⟨hr.max, hr.rate, by linarith, by linarith⟩
  · exact hr

def Sound (limiter : RateLimiter) : Prop := ∀ key bucket, limiter.buckets key = some bucket → limiter.Holds bucket

theorem Fresh.sound (hf : limiter.Fresh) : limiter.Sound := by
  intro key bucket hb
  cases (hf key).symm.trans hb

theorem Sound.entry (hs : limiter.Sound) (call) : limiter.Holds (limiter.entry call) := by
  unfold RateLimiter.entry
  cases hb : limiter.buckets call.key with
  | none => exact ⟨rfl, rfl, limiter.max_nonneg, le_refl _⟩
  | some bucket => exact hs call.key bucket hb

theorem Sound.checkKey (hs : limiter.Sound) (call) : (limiter.checkKey call).2.Sound := by
  intro key bucket hb
  have hb : update limiter.buckets call.key
      (some ((limiter.entry call).tryConsume call.now).2) key = some bucket := hb
  rw [update_apply] at hb
  split at hb
  · cases hb
    obtain ⟨hmax, hr, hn, hle⟩ := (hs.entry call).tryConsume call.now
    exact ⟨hmax, hr, hn, hle⟩
  · obtain ⟨hmax, hr, hn, hle⟩ := hs key bucket hb
    exact ⟨hmax, hr, hn, hle⟩

theorem Sound.after (hs : limiter.Sound) (calls : List Call) : (limiter.after calls).Sound := by
  induction calls generalizing limiter with
  | nil => exact hs
  | cons call calls ih => exact ih (hs.checkKey call)

theorem maxRequests_after (calls : List Call) : (limiter.after calls).maxRequests = limiter.maxRequests := by
  induction calls generalizing limiter with
  | nil => rfl
  | cons call calls ih => exact ih

end

/-! ## Keys by themselves -/

section

variable {limiter limiter' : RateLimiter} {key : Text}

structure AlikeFor (key : Text) (limiter limiter' : RateLimiter) : Prop where
  bucket : limiter'.buckets key = limiter.buckets key
  max : limiter'.maxRequests = limiter.maxRequests
  rate : limiter'.refillRate = limiter.refillRate

theorem AlikeFor.entry (ha : AlikeFor key limiter limiter') {call : Call}
    (hkey : call.key = key) : limiter'.entry call = limiter.entry call := by
  unfold RateLimiter.entry
  rw [hkey, ha.bucket, ha.max, ha.rate]

theorem AlikeFor.checkKey (ha : AlikeFor key limiter limiter') {call : Call} (hkey : call.key = key) :
    AlikeFor key (limiter.checkKey call).2 (limiter'.checkKey call).2 where
  bucket := by
    show update limiter'.buckets call.key _ key = update limiter.buckets call.key _ key
    rw [hkey, update_self, update_self, ha.entry hkey]
  max := ha.max
  rate := ha.rate

theorem AlikeFor.other (ha : AlikeFor key limiter limiter')
    (hkey : call.key ≠ key) : AlikeFor key (limiter.checkKey call).2 limiter' where
  bucket := by
    show limiter'.buckets key = update limiter.buckets call.key _ key
    rw [update_of_ne (Ne.symm hkey)]
    exact ha.bucket
  max := ha.max
  rate := ha.rate

/-- **The decisions for a key** are those of the calls with that key alone. -/
theorem serve_filter (ha : AlikeFor key limiter limiter') (calls : List Call) :
    (limiter.serve calls).filter (fun d => d.1.key = key) =
      limiter'.serve (calls.filter fun call => call.key = key) := by
  induction calls generalizing limiter limiter' with
  | nil => rfl
  | cons call calls ih =>
    by_cases hkey : call.key = key
    · have hd : (limiter'.checkKey call).1 = (limiter.checkKey call).1 := by
        unfold RateLimiter.checkKey
        simp only [ha.entry hkey]
      rw [filter_cons_of_pos (by simpa using hkey), serve, filter_cons_of_pos (by simpa using hkey), serve, hd,
        ih (ha.checkKey hkey)]
    · rw [filter_cons_of_neg (by simpa using hkey), serve, filter_cons_of_neg (by simpa using hkey)]
      exact ih (ha.other hkey)

end

/-! ## The meter of a key -/

section

variable {limiter : RateLimiter} {bucket : TokenBucket} {now : ℚ}

theorem lastRefill_refill (hc : bucket.lastRefill ≤ now) : (bucket.refill now).lastRefill = now := by
  unfold TokenBucket.refill
  simp only
  split
  · rfl
  · rename_i he
    exact le_antisymm hc (by linarith)

theorem tokens_refill_le (hb : limiter.Holds bucket) (hc : bucket.lastRefill ≤ now) :
    (bucket.refill now).tokens ≤ bucket.tokens + limiter.refillRate * (now - bucket.lastRefill) := by
  have hr : 0 ≤ limiter.refillRate * (now - bucket.lastRefill) := mul_nonneg limiter.rate_nonneg (sub_nonneg.mpr hc)
  unfold TokenBucket.refill
  simp only
  split
  · refine (min_le_left _ _).trans (le_of_eq ?_)
    rw [hb.rate, mul_comm]
  · linarith

theorem tokens_tryConsume : (bucket.tryConsume now).2.tokens =
      (bucket.refill now).tokens - spent (bucket.tryConsume now).1 := by
  unfold TokenBucket.tryConsume
  simp only
  split <;> simp [spent]

theorem spent_le_tokens (hb : limiter.Holds bucket) : spent (bucket.tryConsume now).1 ≤ (bucket.refill now).tokens := by
  unfold TokenBucket.tryConsume
  simp only
  split
  · rename_i ht
    simpa [spent] using ht
  · simpa [spent] using (hb.refill now).nonneg

theorem lastRefill_tryConsume (hc : bucket.lastRefill ≤ now) : (bucket.tryConsume now).2.lastRefill = now := by
  have hr := lastRefill_refill hc
  unfold TokenBucket.tryConsume
  simp only
  split <;> exact hr

/-- **One call is one event of the meter.** -/
theorem metered_tryConsume (hb : limiter.Holds bucket) (hc : bucket.lastRefill ≤ now) {rest : List (ℚ × Bool)}
    (hr : Metered limiter.maxRequests limiter.refillRate (bucket.tryConsume now).2.tokens now rest) :
    Metered limiter.maxRequests limiter.refillRate bucket.tokens bucket.lastRefill
      ((now, (bucket.tryConsume now).1) :: rest) := by
  rw [tokens_tryConsume] at hr
  exact .cons hc (hb.refill now).le_max (tokens_refill_le hb hc) (spent_le_tokens hb) hr

def events (limiter : RateLimiter) (calls : List Call) : List (ℚ × Bool) :=
  (limiter.serve calls).map fun d => (d.1.now, d.2)

theorem entry_checkKey (limiter : RateLimiter) {call next : Call} (hkey : next.key = call.key) :
    (limiter.checkKey call).2.entry next = ((limiter.entry call).tryConsume call.now).2 := by
  show (update limiter.buckets call.key _ next.key).getD _ = _
  rw [hkey, update_self, Option.getD_some]

theorem metered_events (hs : limiter.Sound) {call : Call} (hk : ∀ c ∈ calls, c.key = call.key)
    (hcl : (call :: calls).Pairwise fun a b => a.now ≤ b.created)
    (hnow : (limiter.entry call).lastRefill ≤ call.now) :
    Metered limiter.maxRequests limiter.refillRate (limiter.entry call).tokens
      (limiter.entry call).lastRefill (limiter.events (call :: calls)) := by
  refine metered_tryConsume (hs.entry call) hnow ?_
  induction calls generalizing limiter call with
  | nil => exact .nil _ _
  | cons next calls ih =>
    obtain ⟨hf, hcl⟩ := pairwise_cons.mp hcl
    have hkey : next.key = call.key := hk next mem_cons_self
    have he := entry_checkKey limiter hkey
    have hl : ((limiter.checkKey call).2.entry next).lastRefill = call.now := by
      rw [he]
      exact lastRefill_tryConsume hnow
    have hn : ((limiter.checkKey call).2.entry next).lastRefill ≤ next.now := by
      rw [hl]
      exact (hf next mem_cons_self).trans next.ordered
    have hr := ih (hs.checkKey call) (fun c hc => (hk c (mem_cons_of_mem _ hc)).trans hkey.symm) hcl hn
    have hst : Metered limiter.maxRequests limiter.refillRate ((limiter.checkKey call).2.entry next).tokens
        ((limiter.checkKey call).2.entry next).lastRefill
        ((limiter.checkKey call).2.events (next :: calls)) :=
      metered_tryConsume ((hs.checkKey call).entry next) hn hr
    rw [hl, he] at hst
    exact hst

/-- **The calls with one key are a meter.** -/
theorem metered_fresh (hf : limiter.Fresh) (hk : ∀ call ∈ calls, call.key = key)
    (hcl : calls.Pairwise fun a b => a.now ≤ b.created) :
    ∃ level last, Metered limiter.maxRequests limiter.refillRate level last (limiter.events calls) := by
  cases calls with
  | nil => exact ⟨0, 0, .nil _ _⟩
  | cons call calls =>
    have hnow : (limiter.entry call).lastRefill ≤ call.now := by
      rw [entry, hf call.key]
      exact call.ordered
    refine ⟨_, _, metered_events hf.sound (fun c hc => ?_) hcl hnow⟩
    exact (hk c (mem_cons_of_mem _ hc)).trans (hk call mem_cons_self).symm

end

/-! ## The bound -/

def admitted (limiter : RateLimiter) (calls : List Call) (key : Text) (s t : ℚ) : Nat :=
  (limiter.serve calls).countP fun d =>
    d.1.key = key && d.2 && decide (s ≤ d.1.now) && decide (d.1.now ≤ t)

theorem admitted_eq {limiter : RateLimiter} (calls : List Call) (key : Text) (s t : ℚ) :
    limiter.admitted calls key s t = admittedIn s t (limiter.events (calls.filter fun call => call.key = key)) := by
  unfold admitted admittedIn events
  rw [countP_map, ← serve_filter ⟨rfl, rfl, rfl⟩, countP_filter]
  apply countP_congr
  intro d _
  simp [and_comm, and_assoc, and_left_comm]

end RateLimiter

/-- **The token bucket bound**, with tokens in bounds and keys independent of each other. -/
theorem admitted_le (limiter : RateLimiter) (hfresh : limiter.Fresh) (calls : List Call)
    (hclock : RateLimiter.Clocked calls) (key : Text) (s t : ℚ) (hst : s ≤ t) :
    (limiter.admitted calls key s t : ℚ) ≤ limiter.maxRequests + limiter.refillRate * (t - s) ∧
    (∀ key bucket, (limiter.after calls).buckets key = some bucket →
      0 ≤ bucket.tokens ∧ bucket.tokens ≤ limiter.maxRequests) ∧
    (limiter.serve calls).filter (fun d => d.1.key = key) =
      limiter.serve (calls.filter fun call => call.key = key) := by
  have hkeys : ∀ call ∈ calls.filter (fun call => call.key = key), call.key = key := by
    intro call hcall
    simpa using (mem_filter.mp hcall).2
  have hordered : (calls.filter fun call => call.key = key).Pairwise fun a b => a.now ≤ b.created := by
    refine List.Pairwise.imp_of_mem ?_ (hclock.filter _)
    intro a b ha hb hab
    exact hab ((hkeys a ha).trans (hkeys b hb).symm)
  obtain ⟨level, last, hmetered⟩ := RateLimiter.metered_fresh hfresh hkeys hordered
  refine ⟨?_, ?_, RateLimiter.serve_filter ⟨rfl, rfl, rfl⟩ calls⟩
  · rw [RateLimiter.admitted_eq]
    exact hmetered.admittedIn_le limiter.rate_nonneg limiter.max_nonneg hst
  · intro key bucket hbucket
    have hholds := hfresh.sound.after calls key bucket hbucket
    exact ⟨hholds.nonneg, hholds.le_max.trans (le_of_eq (RateLimiter.maxRequests_after calls))⟩

def burst : List Call := [⟨"192.0.2.1", 0, 0, le_refl 0⟩, ⟨"192.0.2.1", 0, 0, le_refl 0⟩,
    ⟨"192.0.2.1", 0, 0, le_refl 0⟩]

theorem burst_admitted : (RateLimiter.withLimits 2 1).admitted burst "192.0.2.1" 0 0 = 2 ∧
      ((RateLimiter.withLimits 2 1).admitted burst "192.0.2.1" 0 0 : ℚ) ≤
        (RateLimiter.withLimits 2 1).maxRequests + (RateLimiter.withLimits 2 1).refillRate * (0 - 0) := by
  refine ⟨by decide +kernel, ?_⟩
  refine (admitted_le _ (RateLimiter.fresh_withLimits 2 1) burst ?_ "192.0.2.1" 0 0 (le_refl 0)).1
  simp [RateLimiter.Clocked, burst]

end ServerWall.Waf
