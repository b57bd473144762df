import ServerWall.Core.Locking

/-!
# When the lock is in the way

Where every caller that takes the lock lives to give it back, it is found taken only while held
(`refused_while_held`). A lock that a lost caller left behind looks the same, and every later call is
refused (`refused_by_nobody`).
-/

namespace ServerWall.Core

open Schema List View

variable {Octet : Type}

/-- No crash takes a caller that holds the lock, and the lock is removed when the guard
is dropped. -/
def lockGivenBack (path : Text) (v : Scene Octet) : Happening Octet → Bool
  | .crashed lost => !v.exists? fun pid p => lost pid p.role && p.agent.lock?.isSome
  | .did _ _ (.removeFile p) (.error _) => p != lockPath path
  | _ => true

/-- A lock that is there is held by a caller that lives. -/
structure Attended (path : Text) (v : Scene Octet) : Prop where
  bounded : v.Bounded
  holder : v.world.names (lockPath path) ≠ none → ∃ pid caller a, v.Live pid caller a ∧ a.lock? ≠ none

section

variable {crates : Crates Octet} {path : Text} {e : Happening Octet}
variable {a a' : Stage Octet}
variable {op : FileOp Octet} {r : op.Res}

theorem Deed.lock (hd : Deed crates path caller a w op r a' w') :
    (w'.names (lockPath path) = w.names (lockPath path) ∧ (a.lock? ≠ none → a'.lock? ≠ none)) ∨
    a'.lock? ≠ none ∨ w'.names (lockPath path) = none ∨
    ∃ err, (⟨op, r⟩ : Σ op : FileOp Octet, op.Res) = ⟨.removeFile (lockPath path), .error err⟩ := by
  cases hd with
  | loaded => exact .inl ⟨rfl, fun h => absurd rfl h⟩
  | unread | still => exact .inl ⟨rfl, id⟩
  | refused ha | barred ha => rcases ha with rfl | rfl <;> exact .inl ⟨rfl, fun h => absurd rfl h⟩
  | acquired | emptied | opened | wrote | spoilt | installed | cleaned => exact .inr (.inl (Option.some_ne_none _))
  | dropped => exact .inr (.inr (.inl (Function.update_self _ _ _)))
  | stuck => exact .inr (.inr (.inr ⟨_, rfl⟩))

theorem Attended.did (h : Attended path v) (hl : v.Live pid caller a)
    (hd : Deed crates path caller a v.world op r a' w') (hba : lockGivenBack path v (.did pid caller op r)) :
    Attended path (v.did pid caller op r a' w') := by
  refine ⟨h.bounded.advance hl, fun ht => ?_⟩
  rcases hd.lock with ⟨hn, hk⟩ | hh | hf | ⟨err, he⟩
  · obtain ⟨q, c, b, hb, hlo⟩ := h.holder (hn ▸ ht)
    by_cases hq : q = pid
    · subst hq
      obtain ⟨rfl, rfl⟩ := hl.unique hb
      exact ⟨q, c, a', live_self, hk hlo⟩
    · exact ⟨q, c, b, live_other hq hb, hlo⟩
  · exact ⟨pid, caller, a', live_self, hh⟩
  · exact absurd hf ht
  · cases he
    rw [lockGivenBack, bne_self_eq_false] at hba
    cases hba

theorem Stage.Returns.lock (h : a.Returns x) : a.lock? = none := by
  cases a with
  | locked | writing | botched | installed => exact h.elim
  | _ => rfl

theorem Attended.step (h : Attended path v) (hba : lockGivenBack path v e)
    (hst : Step crates path v e v') : Attended path v' := by
  cases hst with
  | began caller =>
    refine ⟨h.bounded.launch, fun ht => ?_⟩
    obtain ⟨q, c, b, hb, hl⟩ := h.holder ht
    exact ⟨q, c, b, hb.launch h.bounded, hl⟩
  | did pid caller a op r a' w' hli hd => exact h.did hli hd hba
  | ended pid caller a x hli hr =>
    refine ⟨h.bounded.fewer rfl fun hb => hb.of_retire, fun ht => ?_⟩
    obtain ⟨q, c, b, hb, hl⟩ := h.holder ht
    refine ⟨q, c, b, live_retire.mpr ⟨?_, hb⟩, hl⟩
    rintro rfl
    obtain ⟨-, rfl⟩ := hli.unique hb
    exact hl hr.lock
  | crashed lost =>
    refine ⟨h.bounded.fewer rfl fun hb => hb.of_restart, fun ht => ?_⟩
    obtain ⟨q, c, b, hb, hl⟩ := h.holder ht
    rw [lockGivenBack, Bool.not_eq_true'] at hba
    have hs := (exists?_eq_false h.bounded).mp hba q c b hb
    rw [Bool.and_eq_false_iff] at hs
    refine ⟨q, c, b, live_restart.mpr ⟨hb, hs.resolve_right ?_⟩, hl⟩
    rwa [Option.isSome_eq_false_iff, Option.isNone_iff_eq_none]

theorem attended_start (hf : disk.names (lockPath path) = none) : Attended path (System.view { world := disk }) where
  bounded _ _ _ h := absurd h not_live_start
  holder h := absurd hf h

theorem Attended.refused (h : Attended path v)
    (hs : Step crates path v (.did pid caller (.createNew (lockPath path)) .taken) v') :
    ∃ q c b, q ≠ pid ∧ v.Live q c b ∧ b.lock? ≠ none := by
  cases hs with
  | did pid caller a op r a' w' hli hd =>
    cases hd with
    | still hq | spoilt ha hq => cases hq
    | refused ha ht =>
      obtain ⟨q, c, b, hb, hl⟩ := h.holder ht
      refine ⟨q, c, b, ?_, hb, hl⟩
      rintro rfl
      obtain ⟨-, rfl⟩ := hli.unique hb
      rcases ha with rfl | rfl <;> exact hl rfl

end

theorem refused_of_returned {crates : Crates Octet} {path : Text} {v : Scene Octet} (hta : v.Accounts (conduct crates path) (Tally path))
    (ha : ∃ c r, Event.did pid c (.createNew (lockPath path)) r ∈ v.log)
    (he : Event.ended pid caller (.error lockedByAnother) ∈ v.log) :
    ∃ c, Event.did pid c (.createNew (lockPath path)) .taken ∈ v.log := by
  obtain ⟨a, ht, hr⟩ := hta.ended he
  obtain ⟨c, r, hmem⟩ := ha
  have hd := ht.asked (mem_historyOf.mpr ⟨c, hmem⟩)
  -- the other stages that return have nothing to say about the lock
  cases a with
  | idle | ready => cases hd
  | waiting config => exact mem_historyOf.mp (ht.refused rfl)
  | barred =>
    obtain ⟨io, hio⟩ := hr
    cases hio
  | locked | writing | botched | installed => exact hr.elim
  | released replaced =>
    cases replaced with
    | true => cases hr
    | false =>
      obtain ⟨io, hio⟩ := hr
      cases hio

/-- **A call is refused only while another caller holds the lock.** -/
theorem refused_while_held (crates : Crates Octet) (path : Text) (disk : Disk Octet)
    (hfree : disk.names (lockPath path) = none) (labels : Schedule) (s : Site Octet)
    (hrun : runCallers crates path disk labels = some s)
    (hmeets : runMeets crates path disk (lockGivenBack path) labels = true) (pid : Nat)
    (caller : Caller) (hasked : ∃ c r, Event.did pid c (.createNew (lockPath path)) r ∈ s.log)
    (hended : Event.ended pid caller (.error lockedByAnother) ∈ s.log) :
    ∃ s₁ c s₂, System.Passes (callers crates path) (conduct crates path) { world := disk } labels
        s₁ (.did pid c (.createNew (lockPath path)) .taken) s₂ ∧
      ∃ q c' b, q ≠ pid ∧ s₁.view.Live q c' b ∧ b.lock? ≠ none := by
  obtain ⟨c, hmem⟩ := refused_of_returned (run_tally hrun) hasked hended
  obtain ⟨s₁, s₂, hpasses⟩ := System.passes_of_did hrun (fun h => by cases h) hmem
  obtain ⟨⟨before, hbefore, hmeets₁⟩, -, hstep, -⟩ := passes_step hrun hmeets hpasses
  have hattended : Attended path s₁.view := run_invariant (Attended path) (attended_start hfree)
    (fun h hC hstep => h.step hC hstep) hbefore hmeets₁
  exact ⟨s₁, c, s₂, hpasses, hattended.refused hstep⟩

/-- The five attempts of a caller at a lock that stays, and the pauses between. -/
def fiveAttempts (pid : Nat) : Schedule := List.replicate 9 (.act pid .ok) ++ [.finish pid]

theorem gives_up_while_held : ∃ s : Site ServerWallConfig,
      runCallers .verbatim "/etc/serverwall.toml" (.ofFiles fun _ => none)
        ([.launch (.write 7 {}), .act 0 .ok, .launch (.write 8 {})] ++ fiveAttempts 1) = some s ∧
      ∃ s₁ c s₂, System.Passes (callers .verbatim "/etc/serverwall.toml")
          (conduct .verbatim "/etc/serverwall.toml") { world := .ofFiles fun _ => none }
          ([.launch (.write 7 {}), .act 0 .ok, .launch (.write 8 {})] ++ fiveAttempts 1) s₁
          (.did 1 c (.createNew (lockPath "/etc/serverwall.toml")) .taken) s₂ ∧
        ∃ q c' b, q ≠ 1 ∧ s₁.view.Live q c' b ∧ b.lock? ≠ none := by
  have hrun : ∃ s : Site ServerWallConfig, runCallers .verbatim "/etc/serverwall.toml" (.ofFiles fun _ => none)
        ([.launch (.write 7 {}), .act 0 .ok, .launch (.write 8 {})] ++ fiveAttempts 1) = some s ∧
      (∃ c r, Event.did 1 c (.createNew (lockPath "/etc/serverwall.toml")) r ∈ s.log) ∧
      Event.ended 1 (.write 8 {}) (.error lockedByAnother) ∈ s.log := by
    refine ⟨_, rfl, ⟨.write 8 {}, .taken, ?_⟩, mem_append_right _ (mem_singleton_self _)⟩
    exact mem_append_left _ (mem_append_right _ (mem_singleton_self _))
  obtain ⟨s, hrun, hasked, hended⟩ := hrun
  exact ⟨s, hrun, refused_while_held .verbatim "/etc/serverwall.toml" _ rfl _ s hrun rfl 1 _ hasked hended⟩

/-- A caller is lost with the lock. Nobody lives, and the next caller is told that the
configuration is locked by another process. -/
theorem refused_by_nobody : ∃ s₁ s₂ : Site ServerWallConfig,
      runCallers .verbatim "/etc/serverwall.toml" (.ofFiles fun _ => none)
        [.launch (.write 7 {}), .act 0 .ok, .crash 7] = some s₁ ∧ (∀ pid caller a, ¬ s₁.view.Live pid caller a) ∧
      s₁.run (callers .verbatim "/etc/serverwall.toml") (conduct .verbatim "/etc/serverwall.toml")
        (.launch (.write 8 {}) :: fiveAttempts 1) = some s₂ ∧
      Event.ended 1 (.write 8 {}) (.error lockedByAnother) ∈ s₂.log := by
  refine ⟨_, _, rfl, ?_, rfl, mem_append_right _ (mem_singleton_self _)⟩
  intro pid caller a hlive
  cases pid with
  | zero | succ pid => cases hlive

end ServerWall.Core
