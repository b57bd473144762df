import ServerWall.Relay.Runs

/-!
# Who writes a file

What one operation does to one file (`Impact`), and the invariant that holds as long as nobody opens a
file that another process is writing (`soleWriter`): an open file has one writer, and is blank or
unlinked until it is written (`Writers`). The code does not ensure the condition, so the writes of two
commands on one message can mix.
-/

namespace ServerWall.Relay

open Agent

open Function

open Enqueuing

def Path.id : Path → Text
  | .metaPath id => id
  | .msgPath id => id

def World.status (w : World) (m : Text) : Option QueueStatus :=
  match w.files (.metaPath m) with
  | some ⟨_, .record q⟩ => some q.metadata.status
  | _ => none

theorem World.status_of_record {w : World} {ino : Nat} {q : QueuedMessage}
    (h : w.files (.metaPath m) = some ⟨ino, .record q⟩) : w.status m = some q.metadata.status := by
  rw [World.status, h]

/-- Where an enqueue stands once it has written the file. -/
def Path.written : Path → Enqueuing
  | .metaPath id => .stored id
  | .msgPath id => .saved id

/-- What an operation did to the file at `p`, and to the handle on it. -/
inductive Impact (p : Path) (role : Role) (a : Agent) (w w' : World) : (op : Op) → Res op → Agent → Prop
  | spared {op : Op} {r : Res op} {a' : Agent} (hfile : w'.files p = w.files p)
      (hbefore : ∀ fd, a.handle ≠ some (p, fd)) (hafter : ∀ fd, a'.handle ≠ some (p, fd))
      (henq : a'.enq = p.written → a.enq = p.written) :
      Impact p role a w w' op r a'
  | opened (fd : Nat) (hhandle : a.handle = none) (hmay : MayOpen role a p) (hfile : w'.files p = some ⟨fd, .blank⟩) :
      Impact p role a w w' (.create p) (.ok fd) (a.opens p fd)
  | wrote (fd : Nat) (c : Content) (hhandle : a.handle = some (p, fd)) (hmay : MayStore role a p c)
      (hlands : Lands w w' p fd c true) :
      Impact p role a w w' (.write p fd c) (.ok ()) (a.wrote role p)
  | botched (fd : Nat) (c : Content) (e : IoError) (hhandle : a.handle = some (p, fd))
      (hmay : MayStore role a p c) (hlands : Lands w w' p fd c false) :
      Impact p role a w w' (.write p fd c) (.error e) { a with handle := none, failed := a.failed || a.stage.critical }
  | unlinked {a' : Agent} (hhandle : a'.handle = none) (henq : a'.enq = a.enq)
      (hmay : MayRemove role a p.id) (hfile : w'.files p = none) (hbefore : a.handle = none) :
      Impact p role a w w' (.unlink p) (.ok ()) a'

section

variable {role : Role} {a a' : Agent} {op : Op} {r : Res op}

theorem Agent.wrote_enq (h : (a.wrote role p).enq = p'.written) (hp : p' ≠ p) : a.enq = p'.written := by
  cases p with
  | msgPath id =>
    cases p' with
    | msgPath id' => exact absurd (by rw [saved.inj h]) hp
    | metaPath id' => cases h
  | metaPath id =>
    by_cases hs : a.enq = .saved id
    · rw [wrote_of_saved hs] at h
      cases p' with
      | msgPath id' => cases h
      | metaPath id' => exact absurd (by rw [stored.inj h]) hp
    · rw [wrote_of_not_saved hs] at h
      exact h

theorem Agent.opens_enq {p p' : Path} (h : (a.opens p fd).enq = p'.written) : a.enq = p'.written := by
  cases p with
  | msgPath id => cases p' <;> cases h
  | metaPath id => exact h

/-- **What an operation does to a file** is one of five things. -/
theorem Deed.impact (h : Deed role a w w' op r a') (p : Path) : Impact p role a w w' op r a' := by
  have hs : ∀ {b : Agent}, b.handle = none → ∀ fd, b.handle ≠ some (p, fd) := by
    intro b hb fd h
    cases hb.symm.trans h
  have he : ∀ {b : Agent} {p' : Path} {fd : Nat}, p ≠ p' → b.handle = some (p', fd) →
      ∀ fd', b.handle ≠ some (p, fd') := by
    intro b p' fd hp hb fd' h
    rw [hb] at h
    exact hp (Prod.mk.inj (Option.some.inj h)).1.symm
  cases h with
  | quiet _ hh hf | turned _ _ hh hf | spawned _ hh _ _ hf | replied _ hh _ hf | remarked _ hh _ hf =>
    exact .spared (by rw [hf]) (hs hh) (hs hh) id
  | readMeta _ _ _ hh _ hf => exact .spared (by rw [hf]) (hs hh) (hs hh) id
  | opened p' fd hh hmay hf =>
    by_cases hp : p = p'
    · subst hp
      exact .opened fd hh hmay (by rw [hf, update_self])
    · exact .spared (by rw [hf, update_of_ne hp]) (hs hh) (he hp (a.opens_handle p' fd)) opens_enq
  | wrote p' fd c hh hmay hl =>
    by_cases hp : p = p'
    · subst hp
      exact .wrote fd c hh hmay hl
    · exact .spared (hl.other p hp) (he hp hh) (hs (wrote_handle p')) fun h => wrote_enq h hp
  | botched p' fd c e hh hmay hl =>
    by_cases hp : p = p'
    · subst hp
      exact .botched fd c e hh hmay hl
    · exact .spared (hl.other p hp) (he hp hh) (hs rfl) id
  | unlinkedMeta id hh hmay hf =>
    by_cases hp : p = .metaPath id
    · subst hp
      exact .unlinked hh rfl hmay (by rw [hf, update_self]) hh
    · exact .spared (by rw [hf, update_of_ne hp]) (hs hh) (hs hh) fun h => h
  | unlinkedMsg id hh hmay hf =>
    by_cases hp : p = .msgPath id
    · subst hp
      exact .unlinked hh rfl hmay (by rw [hf, update_self]) hh
    · exact .spared (by rw [hf, update_of_ne hp]) (hs hh) (hs hh) fun h => h

theorem Deed.copied (h : Deed role a w w' op r a') (hc : a'.copy = some (m, q)) :
    a.copy = some (m, q) ∨ ∃ ino, w.files (.metaPath m) = some ⟨ino, .record q⟩ := by
  cases h with
  | readMeta id q' ino _ hf =>
    cases hc
    exact .inr ⟨ino, hf⟩
  | opened p fd =>
    rw [opens_copy] at hc
    exact .inl hc
  | wrote p fd c =>
    rw [wrote_copy] at hc
    exact .inl hc
  | _ => exact .inl hc

def unlinks (p : Path) : Happening → Bool
  | .did _ _ (.unlink p') (.ok _) => p' = p
  | _ => false

variable (h : Deed role a w w' op r a')
include h

theorem Deed.kept (hs : (w.files p).isSome) (pid : Nat) : (w'.files p).isSome ∨ unlinks p (.did pid role op r) := by
  have hla : ∀ {fd c whole}, Lands w w' p fd c whole → (w'.files p).isSome := by
    intro fd c whole hl
    refine Option.isSome_iff_ne_none.mpr fun hn => ?_
    rw [hl.absent.mp hn] at hs
    cases hs
  cases h.impact p with
  | spared hf =>
    rw [hf]
    exact .inl hs
  | opened fd _ _ hf =>
    rw [hf]
    exact .inl rfl
  | wrote fd c _ _ hl | botched fd c err _ _ hl => exact .inl (hla hl)
  | unlinked => exact .inr (decide_eq_true rfl)

theorem Deed.appears (hn : w.files p = none) : w'.files p = none ∨ (MayOpen role a p ∧ a.handle = none ∧
      ∃ fd, (⟨op, r⟩ : Σ op, Res op) = ⟨.create p, .ok fd⟩) := by
  cases h.impact p with
  | spared hf => exact .inl (hf.trans hn)
  | opened fd hh hmay => exact .inr ⟨hmay, hh, fd, rfl⟩
  | wrote fd c _ _ hl | botched fd c err _ _ hl => exact .inl (hl.absent.mpr hn)
  | unlinked _ _ _ hf => exact .inl hf

theorem Deed.storing (hm : a'.enq = .drawn m ∨ a'.enq = .saved m) :
    (a.enq = .drawn m ∨ a.enq = .saved m) ∨ ∃ fd, (⟨op, r⟩ : Σ op, Res op) = ⟨.create (.msgPath m), .ok fd⟩ := by
  cases h with
  | opened p fd =>
    cases p with
    | metaPath id => exact .inl hm
    | msgPath id =>
      rcases hm with hm | hm
      · obtain rfl := drawn.inj hm
        exact .inr ⟨fd, rfl⟩
      · cases hm
  | wrote p fd c _ hmay =>
    cases p with
    | msgPath id =>
      rcases hm with hm | hm
      · cases hm
      · obtain rfl := saved.inj hm
        exact .inl (.inl hmay.1)
    | metaPath id =>
      by_cases hs : a.enq = .saved id
      · rw [wrote_of_saved hs] at hm
        rcases hm with hm | hm <;> cases hm
      · rw [wrote_of_not_saved hs] at hm
        exact .inl hm
  | _ => exact .inl hm

end

/-! ## One writer at a time -/

/-- Nobody opens a file that another process is writing. -/
def soleWriter (v : Scene) : Happening → Bool
  | .did pid _ (.create p) (.ok _) => !v.exists? fun q party => q ≠ pid && party.agent.handle.any fun h => h.1 = p
  | _ => true

structure Writers (v : Scene) : Prop where
  bounded : v.Bounded
  blank : ∀ {pid role a p fd}, v.Live pid role a → a.handle = some (p, fd) →
    v.world.files p = none ∨ v.world.files p = some ⟨fd, .blank⟩
  sole : ∀ {pid role a pid' role' a' p fd fd'}, v.Live pid role a → v.Live pid' role' a' →
    a.handle = some (p, fd) → a'.handle = some (p, fd') → pid = pid'

variable {e : Happening}

section

variable {role : Role} {a a' : Agent} {op : Op} {r : Res op}

/-- Whoever has the file open after an operation: the process that just opened
it, or the one that had it open before. -/
theorem Writers.writer (h : Writers v) (hs : soleWriter v (.did pid role op r))
    (hl : v.Live pid role a) (hd : Deed role a v.world w' op r a')
    (hb : (v.advance pid role a' e w').Live q role' b) (hfd : b.handle = some (p, fd)) :
    (q = pid ∧ w'.files p = some ⟨fd, .blank⟩ ∧
      ∀ q' role'' b' fd', v.Live q' role'' b' → b'.handle = some (p, fd') → q' = pid) ∨
    (∃ b₀, v.Live q role' b₀ ∧ b₀.handle = some (p, fd) ∧ (w'.files p = none ∨ w'.files p = v.world.files p)) := by
  have hc := hb.of_advance
  -- a write closes the file for its process, which was the only one to have it
  have hcl : ∀ {fd' : Nat}, a.handle = some (p, fd') → a'.handle = none → False := by
    intro fd' hh hsh
    rcases hc with ⟨rfl, rfl, rfl⟩ | ⟨hq, hb₀⟩
    · cases hsh.symm.trans hfd
    · exact hq (h.sole hb₀ hl hfd hh)
  cases hd.impact p with
  | spared hf _ ha =>
    rcases hc with ⟨rfl, rfl, rfl⟩ | ⟨-, hb₀⟩
    · exact absurd hfd (ha fd)
    · exact .inr ⟨b, hb₀, hfd, .inr hf⟩
  | opened fd' hh hmay hf =>
    have hfr : ∀ q' role'' b' fd'', v.Live q' role'' b' → b'.handle = some (p, fd'') → q' = pid := by
      intro q' role'' b' fd'' hb' hfd'
      rw [soleWriter, Bool.not_eq_true', View.exists?_eq_false h.bounded] at hs
      have hq' := hs q' role'' b' hb'
      simpa [hfd'] using hq'
    rcases hc with ⟨rfl, rfl, rfl⟩ | ⟨hq, hb₀⟩
    · rw [opens_handle] at hfd
      obtain rfl := (Prod.mk.inj (Option.some.inj hfd)).2
      exact .inl ⟨rfl, hf, hfr⟩
    · exact absurd (hfr q role' b fd hb₀ hfd) hq
  | wrote fd' c hh => exact (hcl hh (wrote_handle p)).elim
  | botched fd' c err hh => exact (hcl hh rfl).elim
  | unlinked hh _ _ hf =>
    rcases hc with ⟨rfl, rfl, rfl⟩ | ⟨-, hb₀⟩
    · cases hh.symm.trans hfd
    · exact .inr ⟨b, hb₀, hfd, .inl hf⟩

theorem Writers.deed (h : Writers v) (hl : v.Live pid role a) (hd : Deed role a v.world w' op r a')
    (hs : soleWriter v (.did pid role op r)) : Writers (v.advance pid role a' e w') := by
  refine ⟨h.bounded.advance hl, ?_, ?_⟩
  · intro q role' b p fd hb hfd
    rcases h.writer hs hl hd hb hfd with ⟨-, hf, -⟩ | ⟨b₀, hb₀, hfd₀, hf | hf⟩
    · exact .inr hf
    · exact .inl hf
    · show w'.files p = none ∨ w'.files p = _
      rw [hf]
      exact h.blank hb₀ hfd₀
  · intro q role' b q' role'' b' p fd fd' hb hb' hfd hfd'
    rcases h.writer hs hl hd hb hfd with ⟨rfl, -, hfr⟩ | ⟨b₀, hb₀, hfd₀, -⟩ <;>
      rcases h.writer hs hl hd hb' hfd' with ⟨rfl, -, hfr'⟩ | ⟨b₀', hb₀', hfd₀', -⟩
    · rfl
    · exact (hfr _ _ _ _ hb₀' hfd₀').symm
    · exact hfr' _ _ _ _ hb₀ hfd₀
    · exact h.sole hb₀ hb₀' hfd₀ hfd₀'

end

variable (h : Writers v)
include h

theorem Writers.launch : Writers (v.launch (protocol cfg) role) := by
  have hba : ∀ {q role' b p fd}, (v.launch (protocol cfg) role).Live q role' b →
      b.handle = some (p, fd) → v.Live q role' b := by
    intro q role' b p fd hb hfd
    rcases hb.of_launch with hb | ⟨-, -, rfl⟩
    · exact hb
    · cases hfd
  refine ⟨h.bounded.launch, ?_, ?_⟩
  · exact fun hb hfd => h.blank (hba hb hfd) hfd
  · exact fun hb hb' hfd hfd' => h.sole (hba hb hfd) (hba hb' hfd') hfd hfd'

theorem Writers.fewer (hn : v'.next = v.next) (hf : v'.world.files = v.world.files)
    (hba : ∀ {q role b}, v'.Live q role b → v.Live q role b) : Writers v' := by
  refine ⟨h.bounded.fewer hn hba, ?_, ?_⟩
  · intro q role b p fd hb hfd
    rw [hf]
    exact h.blank (hba hb) hfd
  · exact fun hb hb' hfd hfd' => h.sole (hba hb) (hba hb') hfd hfd'

theorem Writers.retire (pid : Nat) : Writers (v.retire pid e) :=
  h.fewer rfl rfl fun hb => hb.of_retire

theorem Writers.restart {lost : Nat → Role → Bool} (hf : w'.files = v.world.files) : Writers (v.restart lost w') :=
  h.fewer rfl hf fun hb => hb.of_restart

/-- **A file has one writer** along every step, as long as nobody opens a file
that is being written. -/
theorem Writers.step (hs : soleWriter v e) (hst : Step cfg v e v') : Writers v' := by
  cases hst with
  | began role => exact h.launch
  | did pid role a op r a' w' hl hd => exact h.deed hl hd hs
  | spawned pid a id w' hl hh hse hf => exact (h.deed hl (.spawned id hh rfl hse hf) hs).launch
  | ended pid role a x => exact h.retire pid
  | crashed lost w' hf => exact h.restart hf

omit h

theorem writers_plant : Writers (plant cfg).view := by
  refine ⟨?_, ?_, ?_⟩
  · exact fun _ _ _ => of_live_plant
  · exact of_live_plant
  · exact of_live_plant

end ServerWall.Relay
