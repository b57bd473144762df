import ServerWall.Relay.Freshness

/-!
# The size of the queue

`max_queue_size` is read, shown and set, and nothing else. The only bound on the queue is the number of
ids, so it is kept exactly if it is at least 2^48 or the start panics (`capped_iff_ids`, `queue_overrun`).
-/

namespace ServerWall.Relay

open List World Text

/-! ## The configuration -/

structure BounceConfig where
  sender : Option Text
  includeOriginalHeaders : Bool

/-- The relay section of the configuration, as far as the queue is set up from it. -/
structure RelayConfig where
  spoolDir : Text
  (maxQueueSize deliveryThreads : Nat)
  retry : RetryConfig
  bounce : BounceConfig

/-- What the relay is built from; `none` is a panic of the scheduler. -/
def buildRelay (decoder : Decoder) (config : RelayConfig) : Option Config := do
  let scheduler ← RetryScheduler.new config.retry
  pure
    { spoolDir := config.spoolDir
      scheduler
      bounceGen := .new config.bounce.sender config.bounce.includeOriginalHeaders
      decoder
      deliveryThreads := config.deliveryThreads }

/-! ## The property -/

/-- There are at most `n` messages in the spool: metadata marks a message that is in. -/
def World.Within (w : World) (n : Nat) : Prop :=
  ∀ ids : List Text, ids.Nodup → (∀ id ∈ ids, (w.files (.metaPath id)).isSome = true) → ids.length ≤ n

/-- The queue never holds more messages than it is configured for. A session answers 250
only for a message that it has put into the spool, so one that would not fit can only be
refused. -/
def Capped (decoder : Decoder) (config : RelayConfig) : Prop :=
  ∀ cfg, buildRelay decoder config = some cfg → ∀ labels s, runRelay cfg labels = some s →
    s.world.Within config.maxQueueSize

/-! ## The ids there are -/

def Named (m : Text) : Prop := ∃ ts random, m = queueId ts random

theorem hexValue_queueId (ts : Instant) (random : Nat) : hexValue (queueId ts random) =
      ts.timestampMillis % 2 ^ 32 * 2 ^ 16 + random % 2 ^ 16 := by
  have hlow : random % 2 ^ 16 < 16 ^ 4 := Nat.mod_lt _ (by decide)
  rw [queueId, hexValue_append, hexValue_hexUpper, hexValue_hexUpper,
    length_hexUpper (by decide) hlow, show (16 : Nat) ^ 4 = 2 ^ 16 from rfl]

theorem Named.value_lt (h : Named m) : hexValue m < 2 ^ 48 := by
  obtain ⟨ts, random, rfl⟩ := h
  rw [hexValue_queueId]
  have hh : ts.timestampMillis % 2 ^ 32 < 2 ^ 32 := Nat.mod_lt _ (by decide)
  have hlow : random % 2 ^ 16 < 2 ^ 16 := Nat.mod_lt _ (by decide)
  omega

theorem Named.ext (h : Named m) (h' : Named m') (hv : hexValue m = hexValue m') : m = m' := by
  obtain ⟨ts, random, rfl⟩ := h
  obtain ⟨ts', random', rfl⟩ := h'
  rw [hexValue_queueId, hexValue_queueId] at hv
  have hlow : random % 2 ^ 16 < 2 ^ 16 := Nat.mod_lt _ (by decide)
  have hlow' : random' % 2 ^ 16 < 2 ^ 16 := Nat.mod_lt _ (by decide)
  have hp : ts.timestampMillis % 2 ^ 32 = ts'.timestampMillis % 2 ^ 32 ∧
      random % 2 ^ 16 = random' % 2 ^ 16 := by omega
  rw [queueId, queueId, hp.1, hp.2]

theorem within_of_named {w : World} (h : ∀ m, w.files (.metaPath m) ≠ none → Named m) (hn : 2 ^ 48 ≤ n) : w.Within n := by
  intro ids hno ht
  have hna : ∀ id ∈ ids, Named id := fun id hid =>
    h id (Option.isSome_iff_ne_none.mp (ht id hid))
  have hv : (ids.map hexValue).Nodup :=
    List.Nodup.map_on (fun id hid id' hid' => (hna id hid).ext (hna id' hid')) hno
  have hr : ids.map hexValue ⊆ List.range (2 ^ 48) := by
    intro value hva
    obtain ⟨id, hid, rfl⟩ := mem_map.mp hva
    exact mem_range.mpr (hna id hid).value_lt
  have hl := (subperm_of_subset hv hr).length_le
  rw [length_map, length_range] at hl
  exact hl.trans hn

/-! ## Every message is under such an id -/

/-- Metadata, what is being stored and what was read are all under ids of the generator. -/
structure Naming (v : Scene) : Prop where
  file : ∀ {m}, v.world.files (.metaPath m) ≠ none → Named m
  enq : ∀ {pid role a m}, v.Live pid role a → a.enq.id? = some m → Named m
  copy : ∀ {pid role a m q}, v.Live pid role a → a.copy = some (m, q) → Named m

variable {cfg : Config} {v : Scene} {e : Happening}

section

variable {role : Role} {a a' : Agent} {op : Op} {r : Res op}

theorem named_of_taken (hto : Told (relay cfg) v.log (.did pid role op r))
    (hd : Deed role a v.world w' op r a') (ht : Case.taken op r = some m) : Named m := by
  have hr := hd.storer ht
  obtain ⟨fd, heq⟩ := taken_eq_some ht
  cases heq
  cases role with
  | receive envelope message => exact (told_receive hto).2
  | task m' => exact (told_task hto).1.2
  | _ => cases hr

theorem Naming.deed (h : Naming v) (hto : Told (relay cfg) v.log (.did pid role op r))
    (hl : v.Live pid role a) (hd : Deed role a v.world w' op r a') : Naming (v.advance pid role a' e w') := by
  constructor
  · intro m hth
    by_cases hbe : v.world.files (.metaPath m) = none
    · rcases hd.appears hbe with hn | ⟨hmay, -⟩
      · exact absurd hn hth
      · rcases hmay with hs | ⟨⟨q, hc⟩, -⟩
        · exact h.enq hl (by rw [hs]; rfl)
        · exact h.copy hl hc
    · exact h.file hbe
  · intro t role' b m hb hm
    rcases hb.of_advance with ⟨rfl, rfl, rfl⟩ | ⟨ht, hb₀⟩
    · rcases hd.id_cases hm with hta | ⟨-, hm⟩
      · exact named_of_taken hto hd hta
      · exact h.enq hl hm
    · exact h.enq hb₀ hm
  · intro t role' b m q hb hc
    rcases hb.of_advance with ⟨rfl, rfl, rfl⟩ | ⟨ht, hb₀⟩
    · rcases hd.copied hc with hold | ⟨ino, hf⟩
      · exact h.copy hl hold
      · exact h.file (by simp [hf])
    · exact h.copy hb₀ hc

end

theorem Naming.frame (h : Naming v) (hf : v'.world.files = v.world.files)
    (hba : ∀ {q role b}, v'.Live q role b → v.Live q role b ∨ b = {}) : Naming v' := by
  constructor
  · rw [hf]
    exact h.file
  · intro t role b m hb hm
    rcases hba hb with hb | rfl
    · exact h.enq hb hm
    · cases hm
  · intro t role b m q hb hc
    rcases hba hb with hb | rfl
    · exact h.copy hb hc
    · cases hc

theorem Naming.launch (h : Naming v) (role) : Naming (v.launch (protocol cfg) role) := by
  refine h.frame rfl fun hb => ?_
  rcases hb.of_launch with hb | ⟨-, -, hb⟩
  · exact .inl hb
  · exact .inr hb

theorem Naming.step (h : Naming v) (ht : Told (relay cfg) v.log e) (hs : Step cfg v e v') : Naming v' := by
  cases hs with
  | began role => exact h.launch role
  | did pid role a op r a' w' hl hd => exact h.deed ht hl hd
  | spawned pid a id w' hl hh hse hf => exact (h.deed ht hl (.spawned id hh rfl hse hf)).launch (.task id)
  | ended pid role a x => exact h.frame rfl fun hb => .inl hb.of_retire
  | crashed lost w' hf => exact h.frame hf fun hb => .inl hb.of_restart

theorem naming_of_run (hrun : runRelay cfg labels = some s) : Naming s.view := by
  have hp : Naming (plant cfg).view := ⟨fun ht => absurd rfl ht, of_live_plant, of_live_plant⟩
  exact (run_told (D := fun _ _ => true) Naming hp
    (fun h _ hto _ hs => ⟨h.step hto hs, rfl⟩) hrun (System.along_true labels _ hrun)).1

/-! ## A row of sessions

One receiver session after the other, each under an id of its own. -/

/-- A reading of the clock in the first 2^32 milliseconds. -/
def instantAt (ms : Nat) : Instant where
  ns := ms % 2 ^ 32 * 1000000
  bound := by
    have hms : ms % 2 ^ 32 < 2 ^ 32 := Nat.mod_lt _ (by decide)
    omega

def nthId (i : Nat) : Text := queueId (instantAt (i / 2 ^ 16)) i

/-- What the environment decides for that session: the clock and the random bits, and
that every file operation succeeds. -/
def sessionAt (i : Nat) : List Outcome :=
  [.clock (instantAt (i / 2 ^ 16)), .random i, .clock (instantAt (i / 2 ^ 16)), .ok, .ok, .ok, .ok, .ok, .ok]

def flood : Nat → Schedule
  | 0 => []
  | k + 1 => flood k ++ .launch (.receive letter [72, 105]) :: (acts k (sessionAt k) ++ [.finish k])

theorem hexValue_nthId (hi : i < 2 ^ 48) : hexValue (nthId i) = i := by
  have hm : (instantAt (i / 2 ^ 16)).timestampMillis = i / 2 ^ 16 := by
    show i / 2 ^ 16 % 2 ^ 32 * 1000000 / 1000000 = i / 2 ^ 16
    omega
  rw [nthId, hexValue_queueId, hm]
  omega

theorem World.openFile_some (w : World) (h : p' = p ∨ (w.files p').isSome) : ((w.openFile p).2.files p').isSome := by
  have hput : ∀ (w : World) f, ((w.put p (some f)).files p').isSome ↔ p' = p ∨ (w.files p').isSome := by
    intro w f
    by_cases hp : p' = p
    · simp [put, hp]
    · simp [put, hp]
  unfold openFile
  split
  · exact (hput w _).mpr h
  · exact (hput w _).mpr h

theorem World.writeInode_some (w : World) (h : (w.files p').isSome) : ((w.writeInode p fd f).files p').isSome := by
  unfold writeInode
  split
  · split
    · by_cases hp : p' = p
      · simp [put, hp]
      · simpa [put, hp] using h
    · exact h
  · exact h

theorem session_stores (cfg : Config) (i : Nat) (w : World) :
    ∃ w', ((relay cfg).code (.receive letter [72, 105])).play (relay cfg) (sessionAt i) w = some (.pure .none, w') ∧
      (w'.files (.metaPath (nthId i))).isSome ∧ ∀ p, (w.files p).isSome → (w'.files p).isSome := by
  refine ⟨_, rfl, ?_, fun p hp => ?_⟩
  · exact writeInode_some _ (openFile_some _ (.inl rfl))
  · exact writeInode_some _ (openFile_some _ (.inr (writeInode_some _ (openFile_some _ (.inr hp)))))

theorem flood_stores (cfg : Config) (k : Nat) : ∃ s, runRelay cfg (flood k) = some s ∧ s.next = k ∧
      ∀ i < k, (s.world.files (.metaPath (nthId i))).isSome := by
  induction k with
  | zero => exact ⟨plant cfg, rfl, rfl, fun i hi => absurd hi (Nat.not_lt_zero i)⟩
  | succ k ih =>
    obtain ⟨s, hrun, hn, hst⟩ := ih
    obtain ⟨w', hp, hnew, hk⟩ := session_stores cfg k s.world
    obtain ⟨s', hs, hw, hn'⟩ := System.run_solo (P := protocol cfg) (M := relay cfg) (s := s) rfl hp
    rw [hn] at hs hn'
    refine ⟨s', System.run_append hrun hs, hn', fun i hi => ?_⟩
    rw [hw]
    rcases Nat.lt_succ_iff_lt_or_eq.mp hi with hi | rfl
    · exact hk _ (hst i hi)
    · exact hnew

theorem flood_exceeds (cfg : Config) (hn : n < 2 ^ 48) :
    ∃ s, runRelay cfg (flood (n + 1)) = some s ∧ ¬ s.world.Within n := by
  obtain ⟨s, hrun, -, hs⟩ := flood_stores cfg (n + 1)
  refine ⟨s, hrun, fun hw => ?_⟩
  have hno : ((List.range (n + 1)).map nthId).Nodup := by
    refine List.Nodup.map_on (fun i hi j hj hij => ?_) nodup_range
    have hv := congrArg hexValue hij
    rw [mem_range] at hi hj
    rwa [hexValue_nthId (by omega), hexValue_nthId (by omega)] at hv
  have hl := hw _ hno fun id hid => by
    obtain ⟨i, hi, rfl⟩ := mem_map.mp hid
    exact hs i (mem_range.mp hi)
  rw [length_map, length_range] at hl
  omega

/-! ## The result -/

/-- **When the queue stays within its size**: exactly if that is no less than the number
of ids there can be, or nothing runs. -/
theorem capped_iff_ids (decoder : Decoder) (config : RelayConfig) : Capped decoder config ↔
      buildRelay decoder config = none ∨ 2 ^ 48 ≤ config.maxQueueSize := by
  constructor
  · intro hcapped
    cases hbuild : buildRelay decoder config with
    | none => exact .inl rfl
    | some cfg =>
      refine .inr (Nat.le_of_not_lt fun hlt => ?_)
      obtain ⟨s, hrun, hover⟩ := flood_exceeds cfg hlt
      exact hover (hcapped cfg hbuild _ s hrun)
  · rintro (hnone | hsize) cfg hbuild labels s hrun
    · cases hnone.symm.trans hbuild
    · exact within_of_named (fun m hthere => (naming_of_run hrun).file hthere) hsize

/-- The defaults of the configuration, with room for one message. -/
def roomForOne : RelayConfig where
  spoolDir := "/opt/serverwall/var/spool"
  maxQueueSize := 1
  deliveryThreads := 4
  retry :=
    { intervals := ["5m", "10m", "30m", "1h", "2h", "4h", "8h", "12h"]
      maxAge := "5d"
      maxAttempts := 25 }
  bounce := ⟨none, true⟩

def answers250 (m : Text) : Happening → Bool
  | .did _ _ (.reply (.queued id)) _ => id = m
  | _ => false

/-- **The queue overruns**: with room for one message, two sessions are answered with 250
and both messages are in the spool. -/
theorem queue_overrun : ∃ cfg s, buildRelay .ascii roomForOne = some cfg ∧ runRelay cfg (flood 2) = some s ∧
      (s.log.any (answers250 (nthId 0)) && s.log.any (answers250 (nthId 1))) = true ∧
      ¬ s.world.Within roomForOne.maxQueueSize := by
  have hboth : (buildRelay .ascii roomForOne).any (fun cfg => (runRelay cfg (flood 2)).any fun s =>
      (s.log.any (answers250 (nthId 0)) && s.log.any (answers250 (nthId 1))) &&
        ((s.world.files (.metaPath (nthId 0))).isSome &&
          (s.world.files (.metaPath (nthId 1))).isSome)) = true := by decide +kernel
  obtain ⟨cfg, hbuild, hrun⟩ := (Option.any_eq_true _ _).mp hboth
  obtain ⟨s, hs, hcheck⟩ := (Option.any_eq_true _ _).mp hrun
  rw [Bool.and_eq_true] at hcheck
  obtain ⟨hanswered, hfiles⟩ := hcheck
  obtain ⟨hfirst, hsecond⟩ := Bool.and_eq_true_iff.mp hfiles
  refine ⟨cfg, s, hbuild, hs, hanswered, fun hwithin => ?_⟩
  have hlength := hwithin [nthId 0, nthId 1] (by decide +kernel) (by simp [hfirst, hsecond])
  exact absurd hlength (by decide)

end ServerWall.Relay
