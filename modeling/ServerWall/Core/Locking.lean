import ServerWall.Core.Conduct
import ServerWall.Lib.Histories

/-!
# Callers at the same time

What one step of interleaved callers can do (`Step`), and the order that every run keeps (`Order`): who
believes to hold the lock does, no two do, and a temporary file holds what its caller wrote. `Tally`
relates the stage of a call to its history in the log.
-/

namespace ServerWall.Core

open Schema List Option Function Disk
open Caller (loads)

variable {Octet : Type}

abbrev Scene (Octet : Type) := View (FileOp Octet) FileOp.Res Caller (Stage Octet) (Disk Octet) (Result Unit)

abbrev Site (Octet : Type) := System (FileOp Octet) FileOp.Res Caller (Stage Octet) (Disk Octet) (Result Unit)

abbrev Happening (Octet : Type) := Event (FileOp Octet) FileOp.Res Caller (Result Unit)

abbrev Schedule := List (Label Caller Outcome Nat)

section

variable (crates : Crates Octet) (path : Text) (disk : Disk Octet)

/-- A run that starts with nobody on the given disk. -/
def runCallers (labels : Schedule) : Option (Site Octet) :=
  System.run (callers crates path) (conduct crates path) { world := disk } labels

def runMeets (C : Scene Octet → Happening Octet → Bool) (labels : Schedule) : Bool :=
  System.along (callers crates path) (conduct crates path) C { world := disk } labels

end

/-! ## What one step can do -/

/-- The calls that come to nothing on the disk and that no result is about. -/
def FileOp.quiet : (op : FileOp Octet) → op.Res → Bool
  | .sleep _, _ => true
  | .create _, .error _ => true
  | .write _ _, _ => true
  | .syncAll _, _ => true
  | .rename _ _, .error _ => true
  | .removeFile _, .error _ => true
  | _, _ => false

section

variable (crates : Crates Octet) (path : Text)

inductive Deed (caller : Caller) :
    Stage Octet → Disk Octet → (op : FileOp Octet) → op.Res → Stage Octet → Disk Octet → Prop
  | loaded {w os op loaded config} (hcaller : caller = .edit os op)
      (hload : loadConfig crates w path = .ok loaded) (hedit : edited crates op loaded = .ok config) :
      Deed caller .idle w (.load path) (.ok loaded) (.ready config) w
  | unread {w r} : Deed caller .idle w (.load path) r .idle w
  | still {a w op r} (hquiet : op.quiet r = true) : Deed caller a w op r a w
  | refused {a w config} (ha : a = .ready config ∨ a = .waiting config) (htaken : w.names (lockPath path) ≠ none) :
      Deed caller a w (.createNew (lockPath path)) .taken (.waiting config) w
  | barred {a w config e} (ha : a = .ready config ∨ a = .waiting config) :
      Deed caller a w (.createNew (lockPath path)) (.failed e) .barred w
  | acquired {a w config} (ha : a = .ready config ∨ a = .waiting config) (hfree : w.names (lockPath path) = none) :
      Deed caller a w (.createNew (lockPath path)) (.created (.made w.made))
        (.locked config (.made w.made)) (w.make (lockPath path))
  | emptied {w config lock tmp file} (htmp : caller.IsTmp path tmp) (hname : w.names tmp = some file) :
      Deed caller (.locked config lock) w (.create tmp) (.ok file) (.writing config lock file []) (w.store file [])
  | opened {w config lock tmp} (htmp : caller.IsTmp path tmp) (hname : w.names tmp = none) :
      Deed caller (.locked config lock) w (.create tmp) (.ok (.made w.made))
        (.writing config lock (.made w.made) []) (w.make tmp)
  | wrote {w config lock file written octets n} (hn : n ≠ 0) :
      Deed caller (.writing config lock file written) w (.write file octets) (.ok n)
        (.writing config lock file (written ++ octets.take n))
        (w.store file (w.data file ++ octets.take n))
  | spoilt {a w op r config lock} (ha : a = .locked config lock ∨ ∃ file written, a = .writing config lock file written)
      (hquiet : op.quiet r = true) : Deed caller a w op r (.botched config lock) w
  | installed {w config lock file written tmp found} (htmp : caller.IsTmp path tmp)
      (hdoc : serialize crates config = .ok written) (hname : w.names tmp = some found) :
      Deed caller (.writing config lock file written) w (.rename tmp path) (.ok ())
        (.installed config lock) (w.move tmp path found)
  | cleaned {w config lock tmp} (htmp : caller.IsTmp path tmp) :
      Deed caller (.botched config lock) w (.removeFile tmp) (.ok ()) (.botched config lock) (w.unlink tmp)
  | dropped {a w config lock replaced} (ha : (a = .botched config lock ∧ replaced = false) ∨ (a = .installed config lock ∧ replaced = true)) :
      Deed caller a w (.removeFile (lockPath path)) (.ok ()) (.released replaced) (w.unlink (lockPath path))
  | stuck {a w config lock replaced e} (ha : (a = .botched config lock ∧ replaced = false) ∨ (a = .installed config lock ∧ replaced = true)) :
      Deed caller a w (.removeFile (lockPath path)) (.error e) (.released replaced) w

inductive Step (v : Scene Octet) : Happening Octet → Scene Octet → Prop
  | began (caller : Caller) : Step v (.began v.next caller) (v.launch (conduct crates path) caller)
  | did (pid : Nat) (caller : Caller) (a : Stage Octet) (op : FileOp Octet) (r : op.Res)
      (a' : Stage Octet) (w' : Disk Octet) (hlive : v.Live pid caller a)
      (hdeed : Deed crates path caller a v.world op r a' w') :
      Step v (.did pid caller op r) (v.advance pid caller a' (.did pid caller op r) w')
  | ended (pid : Nat) (caller : Caller) (a : Stage Octet) (x : Result Unit)
      (hlive : v.Live pid caller a) (hreturns : a.Returns x) :
      Step v (.ended pid caller x) (v.retire pid (.ended pid caller x))
  | crashed (lost : Nat → Caller → Bool) : Step v (.crashed lost) (v.restart lost v.world)

variable {crates path} {a : Stage Octet}

theorem load_deed (he : exec crates (.load path) out w = some (r, w')) :
    Deed crates path (.edit os op) .idle w (.load path) r (loads crates (.edit os op) r) w' := by
  have hf : ∀ r : Result ServerWallConfig, loads crates (.edit os op) r = .idle →
      Deed crates path (.edit os op) .idle w (.load path) r (loads crates (.edit os op) r) w := by
    intro r hi
    rw [hi]
    exact .unread
  cases out with
  | part n => cases he
  | fail e =>
    cases he
    exact hf _ rfl
  | ok =>
    cases he
    cases hlo : loadConfig crates w path with
    | error e => exact hf _ rfl
    | ok loaded =>
      cases hed : edited crates op loaded with
      | error e =>
        refine hf _ ?_
        rw [loads]
        simp only [hed]
      | ok config =>
        have hl : loads crates (.edit os op) (.ok loaded) = (.ready config : Stage Octet) := by
          rw [loads]
          simp only [hed]
        rw [hl]
        exact .loaded rfl hlo hed

theorem attempt_deed (ha : a = .ready config ∨ a = .waiting config)
    (he : exec crates (.createNew (lockPath path)) out w = some (r, w')) :
    Deed crates path caller a w (.createNew (lockPath path)) r (.attempt config r) w' := by
  cases out with
  | part n => cases he
  | fail e =>
    cases he
    exact .barred ha
  | ok =>
    rw [exec_createNew] at he
    split at he
    · rename_i ht
      cases he
      exact .refused ha (isSome_iff_ne_none.mp ht)
    · rename_i hf
      cases he
      exact .acquired ha (not_isSome_iff_eq_none.mp hf)

theorem drop_deed (ha : (a = .botched config lock ∧ replaced = false) ∨ (a = .installed config lock ∧ replaced))
    (he : exec crates (.removeFile (lockPath path)) out w = some (r, w')) :
    Deed crates path caller a w (.removeFile (lockPath path)) r (.released replaced) w' := by
  cases out with
  | part n => cases he
  | fail e =>
    cases he
    exact .stuck ha
  | ok =>
    rw [exec_removeFile] at he
    split at he <;> cases he
    · exact .dropped ha
    · exact .stuck ha

/-- **What a permitted system call does.** One case per pair of a stage and a call
that the protocol permits. -/
theorem act_deed (hpe : Permits crates path caller a op) (he : exec crates op out w = some (r, w')) :
    Deed crates path caller a w op r (Stage.track crates path caller a op r) w' := by
  cases a with
  | idle =>
    cases op with
    | load p =>
      obtain ⟨rfl, os, op, rfl⟩ := hpe
      exact load_deed he
    | _ => exact hpe.elim
  | ready config =>
    cases op with
    | createNew p =>
      obtain ⟨rfl, -⟩ := hpe
      exact attempt_deed (.inl rfl) he
    | _ => exact hpe.elim
  | waiting config =>
    cases op with
    | createNew p =>
      obtain ⟨rfl, -⟩ := hpe
      exact attempt_deed (.inr rfl) he
    | sleep n =>
      cases out <;> cases he
      exact .still rfl
    | _ => exact hpe.elim
  | barred | released replaced => exact hpe.elim
  | locked config lock =>
    cases op with
    | create p =>
      cases out with
      | part n => cases he
      | fail e =>
        cases he
        exact .spoilt (.inl rfl) rfl
      | ok =>
        rw [exec_create] at he
        split at he
        · rename_i file hna
          cases he
          exact .emptied hpe hna
        · rename_i hna
          cases he
          exact .opened hpe hna
    | _ => exact hpe.elim
  | writing config lock file written =>
    have hs : ∀ {op : FileOp Octet} {r : op.Res}, op.quiet r = true →
        Deed crates path caller (.writing config lock file written) w op r (.botched config lock) w :=
      fun hq => .spoilt (.inr ⟨file, written, rfl⟩) hq
    cases op with
    | write f octets =>
      obtain ⟨rfl, -⟩ := hpe
      cases out with
      | ok => cases he
      | fail e =>
        cases he
        exact hs rfl
      | part n =>
        rw [exec_write] at he
        split at he
        · cases he
          rw [Stage.track]
          split
          · -- a write that takes nothing
            rename_i hn
            subst hn
            rw [take_zero, append_nil, store_self]
            exact hs rfl
          · rename_i hn
            exact .wrote hn
        · cases he
    | syncAll f =>
      cases out with
      | part n => cases he
      | fail e =>
        cases he
        exact hs rfl
      | ok =>
        cases he
        exact .still rfl
    | rename source target =>
      obtain ⟨htmp, rfl, hdoc⟩ := hpe
      cases out with
      | part n => cases he
      | fail e =>
        cases he
        exact hs rfl
      | ok =>
        rw [exec_rename] at he
        split at he
        · rename_i found hna
          cases he
          exact .installed htmp hdoc hna
        · cases he
          exact hs rfl
    | _ => exact hpe.elim
  | botched config lock =>
    cases op with
    | removeFile p =>
      rw [track_botched]
      by_cases hp : p = lockPath path
      · subst hp
        rw [if_pos rfl]
        exact drop_deed (.inl ⟨rfl, rfl⟩) he
      · rw [if_neg hp]
        have htmp : caller.IsTmp path p := hpe.resolve_right hp
        cases out with
        | part n => cases he
        | fail e =>
          cases he
          exact .still rfl
        | ok =>
          rw [exec_removeFile] at he
          split at he <;> cases he
          · exact .cleaned htmp
          · exact .still rfl
    | _ => exact hpe.elim
  | installed config lock =>
    cases op with
    | removeFile p =>
      obtain rfl : p = lockPath path := hpe
      exact drop_deed (.inr ⟨rfl, rfl⟩) he
    | _ => exact hpe.elim

theorem moves_step (hm : Moves (callers crates path) (conduct crates path) v e v') : Step crates path v e v' := by
  cases hm with
  | launch caller => exact .began caller
  | act pid caller a op out r w' hl ha he => exact .did pid caller a op r _ w' hl (act_deed ha he)
  | spawn pid caller a op out r w' child hl ha he hs => cases hs
  | finish pid caller a x hl hen => exact .ended pid caller a x hl hen
  | crash fault => exact .crashed _

/-- **Invariants of runs**: what holds on the disk at the start and survives every
step that meets the condition holds wherever a run of such steps leads. -/
theorem run_invariant (I : Scene Octet → Prop) (hi : I (System.view { world := disk }))
    (hs : ∀ {v v' e}, I v → C v e → Step crates path v e v' → I v')
    (hrun : runCallers crates path disk labels = some s)
    (hm : runMeets crates path disk C labels) : I s.view := by
  have hr : Reach (callers crates path) (conduct crates path) C (System.view { world := disk }) s.view :=
    System.run_reach code_follows labels _ (fun _ _ h => by cases h) .init hrun hm
  exact reach_invariant I hi (fun h hC hmo => hs h hC (moves_step hmo)) hr

theorem run_reaches (hrun : runCallers crates path disk labels = some s) :
    Reach (callers crates path) (conduct crates path) (fun _ _ => true) (System.view { world := disk }) s.view :=
  System.run_reach code_follows labels _ (fun _ _ h => by cases h) .init hrun (System.along_true labels _ hrun)

theorem passes_step (hrun : runCallers crates path disk labels = some s) (hm : runMeets crates path disk C labels)
    (hp : System.Passes (callers crates path) (conduct crates path) { world := disk } labels s₁ e s₂) :
    (∃ before, runCallers crates path disk before = some s₁ ∧ runMeets crates path disk C before) ∧
    C s₁.view e ∧ Step crates path s₁.view e s₂.view ∧ e ∈ s.log := by
  obtain ⟨before, l, after, hb, hm', hs, hc, ha⟩ := hp.split hrun hm
  have hso : s₁.Sound (conduct crates path) := System.run_sound code_follows (fun _ _ h => by cases h) hb
  obtain ⟨hmo, -⟩ := System.step_moves code_follows hso hs
  refine ⟨⟨before, hb, hm'⟩, hc, moves_step hmo, System.run_log ha ?_⟩
  obtain ⟨rest, hlog, -⟩ := System.step_log hs
  rw [hlog]
  exact mem_append_right _ mem_cons_self

end

/-! ## Disks without links -/

structure Disk.Tidy (disk : Disk Octet) : Prop where
  fresh : ∀ {p n}, disk.names p = some (.made n) → n < disk.made
  distinct : ∀ {p q file}, disk.names p = some file → disk.names q = some file → p = q

section

variable {disk : Disk Octet} {p q : Text} {file : Ino}

theorem Disk.tidy_ofFiles (files : Text → Option (List Octet))
    (dirs : Text → Option (List (DropIn Octet))) : (ofFiles files dirs).Tidy where
  fresh {p n} h := by
    have h' : (files p).map (fun _ => Ino.original p) = some (.made n) := h
    cases hp : files p <;> rw [hp] at h' <;> cases h'
  distinct {p q file} hp hq := by
    have hp' : (files p).map (fun _ => Ino.original p) = some file := hp
    have hq' : (files q).map (fun _ => Ino.original q) = some file := hq
    obtain ⟨_, -, rfl⟩ := map_eq_some_iff.mp hp'
    obtain ⟨_, -, hq'⟩ := map_eq_some_iff.mp hq'
    exact (Ino.original.inj hq').symm

theorem Disk.Tidy.store (h : disk.Tidy) (file : Ino) (octets : List Octet) :
    (disk.store file octets).Tidy := ⟨h.fresh, h.distinct⟩

theorem update_eq_some {names : Text → Option Ino} (h : update names p o j = some f) :
    (j = p ∧ o = some f) ∨ (j ≠ p ∧ names j = some f) := by
  by_cases hjp : j = p
  · rw [hjp, update_self] at h
    exact .inl ⟨hjp, h⟩
  · rw [update_of_ne hjp] at h
    exact .inr ⟨hjp, h⟩

theorem Disk.make_names (hj : (disk.make p).names j = some f) :
    (j = p ∧ f = .made disk.made) ∨ (j ≠ p ∧ disk.names j = some f) := by
  rcases update_eq_some hj with ⟨hp, hf⟩ | h
  · exact .inl ⟨hp, (some.inj hf).symm⟩
  · exact .inr h

theorem Disk.Tidy.make (h : disk.Tidy) (p : Text) : (disk.make p).Tidy where
  fresh {j n} hj := by
    rcases make_names hj with ⟨-, hn⟩ | ⟨-, hj⟩
    · cases hn
      exact Nat.lt_succ_self _
    · exact Nat.lt_succ_of_lt (h.fresh hj)
  distinct {j k f} hj hk := by
    rcases make_names hj with ⟨rfl, rfl⟩ | ⟨-, hj'⟩ <;>
      rcases make_names hk with ⟨rfl, hf⟩ | ⟨-, hk'⟩
    · rfl
    · exact absurd (h.fresh hk') (Nat.lt_irrefl _)
    · exact absurd (h.fresh (hf ▸ hj')) (Nat.lt_irrefl _)
    · exact h.distinct hj' hk'

theorem Disk.unlink_names (hj : (disk.unlink p).names j = some f) : j ≠ p ∧ disk.names j = some f :=
  (update_eq_some hj).resolve_left fun h => by cases h.2

theorem Disk.Tidy.unlink (h : disk.Tidy) (p : Text) : (disk.unlink p).Tidy where
  fresh hj := h.fresh (unlink_names hj).2
  distinct hj hk := h.distinct (unlink_names hj).2 (unlink_names hk).2

theorem Disk.move_names (hj : (disk.move p q file).names j = some f) :
    (j = q ∧ f = file) ∨ (j ≠ q ∧ j ≠ p ∧ disk.names j = some f) := by
  rcases update_eq_some hj with ⟨hq, hf⟩ | ⟨hq, hj⟩
  · exact .inl ⟨hq, (some.inj hf).symm⟩
  · exact .inr ⟨hq, unlink_names hj⟩

theorem Disk.Tidy.move (h : disk.Tidy) (hp : disk.names p = some file) (q : Text) : (disk.move p q file).Tidy where
  fresh {j n} hj := by
    rcases move_names hj with ⟨-, hn⟩ | ⟨-, -, hj⟩
    · exact h.fresh (hn ▸ hp)
    · exact h.fresh hj
  distinct {j k f} hj hk := by
    rcases move_names hj with ⟨rfl, rfl⟩ | ⟨-, hjp, hj'⟩ <;>
      rcases move_names hk with ⟨rfl, hf⟩ | ⟨-, hkp, hk'⟩
    · rfl
    · exact absurd (h.distinct hk' hp) hkp
    · exact absurd (h.distinct hj' (hf ▸ hp)) hjp
    · exact h.distinct hj' hk'

end

/-! ## The order among callers -/

/-- Who believes to hold the lock does, and nobody else; the temporary file of who
writes has its name and holds what was written. -/
structure Order (path : Text) (v : Scene Octet) : Prop where
  tidy : v.world.Tidy
  held : ∀ {pid caller a lock}, v.Live pid caller a → a.lock? = some lock → v.world.names (lockPath path) = some lock
  sole : ∀ {pid caller a pid' caller' a'}, v.Live pid caller a → v.Live pid' caller' a' →
    a.lock? ≠ none → a'.lock? ≠ none → pid = pid'
  file : ∀ {pid caller config lock file written}, v.Live pid caller (.writing config lock file written) →
    ∃ tmp, caller.IsTmp path tmp ∧ v.world.names tmp = some file ∧ v.world.data file = written

section

variable {crates : Crates Octet} {path : Text} {v' : Scene Octet} {e : Happening Octet}
variable {caller : Caller} {a a' : Stage Octet}

theorem Order.others (h : Order path v) (hl : v.Live pid caller a) (hlo : a.lock? ≠ none) :
    ∀ q c b, q ≠ pid → v.Live q c b → b.lock? = none := by
  intro q c b hq hb
  by_contra hh
  exact hq (h.sole hb hl hh hlo)

theorem Order.nobody (h : Order path v) (hf : v.world.names (lockPath path) = none) (hb : v.Live q c b) : b.lock? = none := by
  cases hl : b.lock? with
  | none => rfl
  | some lock =>
    have hh := h.held hb hl
    cases hf.symm.trans hh

theorem Order.advance (h : Order path v) (hli : v.Live pid caller a) (ht : w'.Tidy)
    (ho : w' = v.world ∨ ∀ q c b, q ≠ pid → v.Live q c b → b.lock? = none)
    (hh : ∀ lock, a'.lock? = some lock → w'.names (lockPath path) = some lock)
    (hso : a'.lock? ≠ none → a.lock? ≠ none ∨ ∀ q c b, q ≠ pid → v.Live q c b → b.lock? = none)
    (hfi : ∀ config lock file written, a' = .writing config lock file written →
      ∃ tmp, caller.IsTmp path tmp ∧ w'.names tmp = some file ∧ w'.data file = written) :
    Order path (v.advance pid caller a' e w') := by
  -- when the caller holds the lock after the call, the others do not
  have hf : a'.lock? ≠ none → ∀ q c b, q ≠ pid → v.Live q c b → b.lock? = none := by
    intro hl
    rcases hso hl with ha | hf
    · exact h.others hli ha
    · exact hf
  constructor
  · exact ht
  · intro q c b lock hb hl
    rcases hb.of_advance with ⟨-, rfl, rfl⟩ | ⟨hq, hb⟩
    · exact hh lock hl
    · rcases ho with hs | hn
      · rw [hs]
        exact h.held hb hl
      · cases (hn q c b hq hb).symm.trans hl
  · intro q c b q' c' b' hb hb' hl hl'
    rw [View.live_advance] at hb hb'
    split at hb <;> split at hb'
    · rename_i hq hq'
      exact hq.trans hq'.symm
    · rename_i hq hq'
      obtain ⟨rfl, rfl⟩ := hb
      exact absurd (hf hl q' c' b' hq' hb') hl'
    · rename_i hq hq'
      obtain ⟨rfl, rfl⟩ := hb'
      exact absurd (hf hl' q c b hq hb) hl
    · exact h.sole hb hb' hl hl'
  · intro q c config lock file written hb
    rw [View.live_advance] at hb
    split at hb
    · obtain ⟨rfl, hb⟩ := hb
      exact hfi config lock file written hb.symm
    · rename_i hq
      rcases ho with hs | hn
      · rw [hs]
        exact h.file hb
      · cases hn q c _ hq hb

theorem Order.idle (h : Order path v) (hli : v.Live pid caller a) (hl : a'.lock? = none ∨ a'.lock? = a.lock?)
    (hw : ∀ config lock file written, a' = .writing config lock file written → a = a') :
    Order path (v.advance pid caller a' e v.world) := by
  have hb : ∀ lock, a'.lock? = some lock → a.lock? = some lock := by
    intro lock hl'
    rcases hl with hn | hs
    · rw [hn] at hl'
      cases hl'
    · rw [← hs, hl']
  refine h.advance hli h.tidy (.inl rfl) (fun lock hl' => h.held hli (hb lock hl')) ?_ ?_
  · intro hne
    obtain ⟨lock, hl'⟩ := ne_none_iff_exists'.mp hne
    rw [hb lock hl']
    exact .inl (some_ne_none _)
  · intro config lock file written ha'
    obtain rfl := hw config lock file written ha'
    subst ha'
    exact h.file hli

theorem Order.working (h : Order path v) (hli : v.Live pid caller a)
    (hl : a.lock? = some lock) (hl' : a'.lock? = some lock) (ht : w'.Tidy)
    (hn : w'.names (lockPath path) = v.world.names (lockPath path))
    (hf : ∀ config lock file written, a' = .writing config lock file written →
      ∃ tmp, caller.IsTmp path tmp ∧ w'.names tmp = some file ∧ w'.data file = written) :
    Order path (v.advance pid caller a' e w') := by
  have hne : a.lock? ≠ none := by
    rw [hl]
    exact some_ne_none _
  refine h.advance hli ht (.inr (h.others hli hne)) ?_ (fun _ => .inl hne) hf
  intro lock' h'
  obtain rfl := some.inj (hl'.symm.trans h')
  rw [hn]
  exact h.held hli hl

theorem Caller.IsTmp.ne_lockPath (h : caller.IsTmp path tmp) : lockPath path ≠ tmp := by
  obtain ⟨dir, -, rfl⟩ := h
  exact (tmpPath_ne_lockPath _ _ _).symm

theorem Order.deed (h : Order path v) (hl : v.Live pid caller a) (hd : Deed crates path caller a v.world op r a' w') :
    Order path (v.advance pid caller a' e w') := by
  cases hd with
  | loaded | unread | refused | barred | stuck ha => exact h.idle hl (.inl rfl) (fun _ _ _ _ h => by cases h)
  | still => exact h.idle hl (.inr rfl) (fun _ _ _ _ _ => rfl)
  | acquired ha hf =>
    have hno : ∀ q c b, q ≠ pid → v.Live q c b → b.lock? = none := fun q c b _ hb => h.nobody hf hb
    refine h.advance hl (h.tidy.make _) (.inr hno) ?_ (fun _ => .inr hno) (fun _ _ _ _ h => by cases h)
    intro lock hlo
    cases hlo
    exact update_self _ _ _
  | @emptied w config lock tmp file htmp hna =>
    refine h.working hl rfl rfl (h.tidy.store _ _) rfl ?_
    intro _ _ _ _ heq
    cases heq
    exact ⟨tmp, htmp, hna, store_data _ _ _⟩
  | @opened w config lock tmp htmp hna =>
    refine h.working hl rfl rfl (h.tidy.make _) (update_of_ne htmp.ne_lockPath _ _) ?_
    intro _ _ _ _ heq
    cases heq
    exact ⟨tmp, htmp, update_self _ _ _, update_self _ _ _⟩
  | @wrote w config lock file written octets n hn =>
    obtain ⟨tmp, htmp, hna, hda⟩ := h.file hl
    refine h.working hl rfl rfl (h.tidy.store _ _) rfl ?_
    intro _ _ _ _ heq
    cases heq
    refine ⟨tmp, htmp, hna, ?_⟩
    rw [store_data, hda]
  | spoilt ha =>
    refine h.idle hl (.inr ?_) (fun _ _ _ _ h => by cases h)
    rcases ha with rfl | ⟨file, written, rfl⟩ <;> rfl
  | @installed w config lock file written tmp found htmp hdoc hna =>
    refine h.working hl rfl rfl (h.tidy.move hna path) ?_ (fun _ _ _ _ h => by cases h)
    exact (update_of_ne (lockPath_ne path) _ _).trans (update_of_ne htmp.ne_lockPath _ _)
  | cleaned htmp =>
    exact h.working hl rfl rfl (h.tidy.unlink _) (update_of_ne htmp.ne_lockPath _ _) (fun _ _ _ _ h => by cases h)
  | dropped ha =>
    have hne : a.lock? ≠ none := by rcases ha with ⟨rfl, -⟩ | ⟨rfl, -⟩ <;> exact some_ne_none _
    exact h.advance hl (h.tidy.unlink _) (.inr (h.others hl hne)) nofun (fun h => absurd rfl h) (fun _ _ _ _ h => by cases h)

theorem Order.fewer (h : Order path v) (hw : v'.world = v.world)
    (hba : ∀ {q c b}, v'.Live q c b → v.Live q c b ∨ b = c.stage) : Order path v' := by
  have hlo : ∀ {q c b}, v'.Live q c b → b.lock? ≠ none → v.Live q c b := by
    intro q c b hb hl
    rcases hba hb with hb | rfl
    · exact hb
    · cases c <;> exact absurd rfl hl
  constructor
  · rw [hw]
    exact h.tidy
  · intro q c b lock hb hl
    rw [hw]
    exact h.held (hlo hb (by rw [hl]; exact some_ne_none _)) hl
  · intro q c b q' c' b' hb hb' hl hl'
    exact h.sole (hlo hb hl) (hlo hb' hl') hl hl'
  · intro q c config lock file written hb
    rw [hw]
    exact h.file (hlo hb (some_ne_none _))

/-- **Every step keeps the order.** -/
theorem Order.step (h : Order path v) (hs : Step crates path v e v') : Order path v' := by
  cases hs with
  | began caller =>
    refine h.fewer rfl fun hb => ?_
    rcases hb.of_launch with hb | ⟨-, rfl, rfl⟩
    · exact .inl hb
    · exact .inr rfl
  | did pid caller a op r a' w' hl hd => exact h.deed hl hd
  | ended pid caller a x hl hr => exact h.fewer rfl fun hb => .inl hb.of_retire
  | crashed lost => exact h.fewer rfl fun hb => .inl hb.of_restart

theorem not_live_start : ¬ (System.view { world := disk } : Scene Octet).Live pid caller a := by
  nofun

theorem order_start (ht : disk.Tidy) : Order path (System.view { world := disk }) where
  tidy := ht
  held h := absurd h not_live_start
  sole h := absurd h not_live_start
  file h := absurd h not_live_start

end

/-! ## What a call has done, by its stage -/

def Stage.asked : Stage Octet → Bool
  | .idle => false
  | .ready _ => false
  | _ => true

def installs : (Σ op : FileOp Octet, op.Res) → Bool
  | ⟨.rename _ _, .ok _⟩ => true
  | _ => false

/-- What the stage of a call says of its history, and the other way round. -/
structure Tally (path : Text) (_ : Caller) (a : Stage Octet)
    (h : History (FileOp Octet) FileOp.Res) : Prop where
  asked : ∀ {p r}, ⟨.createNew p, r⟩ ∈ h → a.asked = true
  refused : ∀ {config}, a = .waiting config → ⟨.createNew (lockPath path), .taken⟩ ∈ h
  made : ∀ {lock}, a.lock? = some lock → ⟨.createNew (lockPath path), .created lock⟩ ∈ h
  installed : h.countP installs = a.replaced.toNat

section

variable {crates : Crates Octet} {path : Text} {a a' : Stage Octet}
variable {op : FileOp Octet} {r : op.Res}

theorem installs_quiet (hq : op.quiet r) : installs ⟨op, r⟩ = false := by
  cases op with
  | rename source target =>
    cases r with
    | ok _ => cases hq
    | error _ => rfl
  | _ => rfl

theorem Deed.installs (hd : Deed crates path caller a w op r a' w') :
    a.replaced.toNat + (Core.installs ⟨op, r⟩).toNat = a'.replaced.toNat := by
  cases hd with
  | loaded | unread | emptied | opened | wrote | installed | cleaned => rfl
  | still hq => rw [installs_quiet hq, Bool.toNat_false, Nat.add_zero]
  | refused ha | barred ha | acquired ha => rcases ha with rfl | rfl <;> rfl
  | spoilt ha hq =>
    rw [installs_quiet hq]
    rcases ha with rfl | ⟨_, _, rfl⟩ <;> rfl
  | dropped ha | stuck ha => rcases ha with ⟨rfl, rfl⟩ | ⟨rfl, rfl⟩ <;> rfl

theorem Deed.made (hd : Deed crates path caller a w op r a' w') (h : a'.lock? = some lock) :
    a.lock? = some lock ∨ (⟨op, r⟩ : Σ op : FileOp Octet, op.Res) = ⟨.createNew (lockPath path), .created lock⟩ := by
  cases hd with
  | loaded | unread | refused | barred | dropped | stuck => cases h
  | still | emptied | opened | wrote | installed | cleaned => exact .inl h
  | acquired =>
    cases h
    exact .inr rfl
  | spoilt ha => rcases ha with rfl | ⟨_, _, rfl⟩ <;> exact .inl h

theorem Deed.removes (hd : Deed crates path caller a w (.removeFile (lockPath path)) (.ok ()) a' w') : ∃ lock, a.lock? = some lock := by
  cases hd with
  | still hq | spoilt ha hq => cases hq
  | cleaned htmp => exact ⟨_, rfl⟩
  | dropped ha => rcases ha with ⟨rfl, -⟩ | ⟨rfl, -⟩ <;> exact ⟨_, rfl⟩

theorem Deed.refusal (hd : Deed crates path caller a w op r a' w') (h : a' = .waiting config) :
    a = .waiting config ∨ (⟨op, r⟩ : Σ op : FileOp Octet, op.Res) = ⟨.createNew (lockPath path), .taken⟩ := by
  cases hd with
  | still => exact .inl h
  | refused => exact .inr rfl
  | _ => cases h

theorem Deed.asks (hd : Deed crates path caller a w op r a' w') (h : a.asked) : a'.asked := by
  cases hd with
  | loaded | unread => cases h
  | still => exact h
  | _ => rfl

theorem Deed.asked {r : Creation} (hd : Deed crates path caller a w (.createNew p) r a' w') : a'.asked := by
  cases hd with
  | still hq => cases hq
  | _ => rfl

theorem Tally.deed (ht : Tally path caller a h) (hd : Deed crates path caller a w op r a' w') :
    Tally path caller a' (h ++ [⟨op, r⟩]) := by
  have hold : ∀ {x : Σ op : FileOp Octet, op.Res}, x ∈ h → x ∈ h ++ [⟨op, r⟩] := fun hmem => mem_append_left _ hmem
  have hnew : ⟨op, r⟩ ∈ h ++ [⟨op, r⟩] := mem_append_right _ (mem_singleton_self _)
  constructor
  · intro p x hmem
    rcases mem_append.mp hmem with hmem | hmem
    · exact hd.asks (ht.asked hmem)
    · cases mem_singleton.mp hmem
      exact hd.asked
  · intro config hw
    rcases hd.refusal hw with hb | he
    · exact hold (ht.refused hb)
    · rwa [← he]
  · intro lock hl
    rcases hd.made hl with hb | he
    · exact hold (ht.made hb)
    · rwa [← he]
  · rw [countP_append, ht.installed, countP_singleton, ← hd.installs]
    cases Core.installs ⟨op, r⟩ <;> rfl

theorem tally_start (path : Text) (caller) : Tally path caller (caller.stage : Stage Octet) [] where
  asked h := by cases h
  refused h := by cases caller <;> cases h
  made h := by cases caller <;> cases h
  installed := by cases caller <;> rfl

theorem Tally.replaced (ht : Tally path caller a h) (hmem : ⟨.rename source target, .ok ()⟩ ∈ h) : a.replaced := by
  have hpos : 0 < h.countP Core.installs := countP_pos_iff.mpr ⟨_, hmem, rfl⟩
  rw [ht.installed] at hpos
  cases hr : a.replaced with
  | true => rfl
  | false =>
    rw [hr] at hpos
    exact absurd hpos (Nat.lt_irrefl _)

/-- **The histories of a run**: of the callers that run and of those that have
returned. -/
theorem run_tally (hrun : runCallers crates path disk labels = some s) :
    s.view.Accounts (conduct crates path) (Tally path) := by
  refine reach_invariant _ ?_ (fun h _ hm => h.step (tally_start path) ?_ hm) (run_reaches hrun)
  · constructor
    · exact fun _ _ _ h => absurd h not_live_start
    · exact fun _ _ => rfl
    · exact nofun
    · exact fun h => absurd h not_live_start
    · exact fun h => absurd h not_live_start
    · exact nofun
  · intro caller a h op out r w w' ht hp he
    exact ht.deed (act_deed hp he)

end

end ServerWall.Core
