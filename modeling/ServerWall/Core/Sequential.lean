import ServerWall.Core.Writer

/-!
# One caller at a time

A call that returns `Ok` with nobody interfering found no lock and leaves exactly its document
(`ends_document`); one that finds no lock and has a document and a directory can return `Ok`
(`exists_ends`). `Serial` is the meaning of calls one after the other.
-/

namespace ServerWall.Core

open Schema List Function Disk Option ExceptT
open Prog (ends_bind ends_exceptT_bind_ok ends_perform ends_pure perform)

variable {Octet : Type}

/-! ## Names -/

theorem lockPath_ne (path : Text) : lockPath path ≠ path := by
  intro h
  exact absurd (append_right_eq_self.mp h) (by decide)

theorem tmpPath_ne_lockPath (dir path : Text) (os : Nat) : tmpPath dir os ≠ lockPath path := by
  have ht : ∃ stem : Text, tmpPath dir os = stem ++ (".toml" : Text) := by
    unfold tmpPath joinPath
    split
    · exact ⟨dir ++ ((".serverwall_cfg_tmp_" : Text) ++ Text.dec os), by simp only
        [Text.fmt, flatten_cons, flatten_nil, append_nil, append_assoc]⟩
    · exact ⟨dir ++ '/' :: ((".serverwall_cfg_tmp_" : Text) ++ Text.dec os), by simp only
        [Text.fmt, flatten_cons, flatten_nil, append_nil, append_assoc, cons_append]⟩
  obtain ⟨stem, hs⟩ := ht
  rw [hs]
  intro h
  exact absurd (append_inj_right' h (by decide)) (by decide)

/-! ## Disks -/

section

variable {disk : Disk Octet} {path : Text}

theorem Disk.store_self (disk : Disk Octet) (file : Ino) : disk.store file (disk.data file) = disk := by
  simp [store]

theorem Disk.store_store (disk : Disk Octet) (file : Ino) (a b : List Octet) :
    (disk.store file a).store file b = disk.store file b := by
  simp [store]

@[simp] theorem Disk.store_data (disk : Disk Octet) (file : Ino) (a : List Octet) :
    (disk.store file a).data file = a := by
  simp [store]

theorem Disk.content_move (disk : Disk Octet) (source target : Text) (file : Ino) :
    (disk.move source target file).content target = some (disk.data file) := by
  simp [content, move]

theorem Disk.content_unlink (hne : path ≠ other) : (disk.unlink other).content path = disk.content path := by
  simp [content, unlink, update_of_ne hne]

theorem loadConfig_congr (crates : Crates Octet)
    (hc : disk.content path = disk'.content path) (hd : disk.dirs = disk'.dirs) :
    loadConfig crates disk path = loadConfig crates disk' path := by
  have hf : ∀ dir, loadFragments crates disk dir = loadFragments crates disk' dir := by
    intro dir
    unfold loadFragments
    rw [hd]
  unfold loadConfig
  simp only [hc, hf]

end

/-! ## What the calls leave -/

section

variable {crates : Crates Octet} {path : Text}

theorem ends_call : (call op).run.Ends (callers crates path) w (.ok r) w' ↔
      ∃ out, exec crates op out w = some (r, w') := by
  have hrun : (call op).run = perform op >>= fun r => pure (.ok r) := rfl
  rw [hrun, ends_bind]
  constructor
  · rintro ⟨r', w₁, hop, hre⟩
    obtain ⟨hr, rfl⟩ := ends_pure.mp hre
    cases hr
    exact (ends_perform rfl).mp hop
  · intro h
    exact ⟨r, w', (ends_perform rfl).mpr h, ends_pure.mpr ⟨rfl, rfl⟩⟩

theorem ends_result {α : Type} {x : Result α} {v : α} :
    (mk (pure x) : Calls Octet α).run.Ends (callers crates path) w (.ok v) w' ↔ x = .ok v ∧ w' = w := by
  have hrun : (mk (pure x) : Calls Octet α).run = pure x := rfl
  rw [hrun, ends_pure, eq_comm]

theorem ends_orIo {α : Type} {x : Except IoError α} {v : α} :
    (orIo x : Calls Octet α).run.Ends (callers crates path) w (.ok v) w' ↔ x = .ok v ∧ w' = w := by
  cases x with
  | ok a =>
    have hrun : (orIo (.ok a) : Calls Octet α).run = pure (.ok a) := rfl
    rw [hrun, ends_pure, eq_comm, Except.ok.injEq, Except.ok.injEq]
  | error e =>
    have hrun : (orIo (.error e) : Calls Octet α).run = pure (.error (.io e)) := rfl
    rw [hrun, ends_pure]
    simp

theorem acquireLock_ends (h : (acquireLock lock attempts).run.Ends (callers crates path) w (.ok ()) w') :
    w.names lock = none ∧ w' = w.make lock := by
  induction attempts generalizing w with
  | zero => cases h
  | succ attempts ih =>
    rw [acquireLock, ends_exceptT_bind_ok] at h
    obtain ⟨answer, w₁, hc, hr⟩ := h
    obtain ⟨out, he⟩ := ends_call.mp hc
    cases out with
    | part n => cases he
    | fail e =>
      cases he
      cases hr
    | ok =>
      rw [exec_createNew] at he
      split at he
      · -- taken: the lock is still there at the next attempt, and so on
        cases he
        obtain ⟨_, w₂, hs, ha⟩ := ends_exceptT_bind_ok.mp hr
        have hw : w₂ = w := by
          unfold pause at hs
          split at hs
          · exact (ends_pure.mp hs).2
          · obtain ⟨out, he⟩ := ends_call.mp hs
            cases out <;> cases he
            rfl
        subst hw
        exact ih ha
      · rename_i hf
        cases he
        obtain ⟨-, rfl⟩ := ends_pure.mp hr
        exact ⟨not_isSome_iff_eq_none.mp hf, rfl⟩

theorem writeAll_ends {file : Ino} {calls : Nat} {octets : List Octet}
    (h : (writeAll file calls octets).run.Ends (callers crates path) w (.ok ()) w') :
    w' = w.store file (w.data file ++ octets) := by
  induction calls generalizing w octets with
  | zero =>
    cases octets with
    | nil =>
      obtain ⟨-, rfl⟩ := ends_pure.mp h
      rw [append_nil, store_self]
    | cons octet octets => cases h
  | succ calls ih =>
    cases octets with
    | nil =>
      obtain ⟨-, rfl⟩ := ends_pure.mp h
      rw [append_nil, store_self]
    | cons octet octets =>
      rw [writeAll, ends_exceptT_bind_ok] at h
      obtain ⟨answer, w₁, hc, hr⟩ := h
      obtain ⟨n, w₂, hn, hl⟩ := ends_exceptT_bind_ok.mp hr
      obtain ⟨rfl, rfl⟩ := ends_orIo.mp hn
      obtain ⟨out, he⟩ := ends_call.mp hc
      cases out with
      | ok | fail e => cases he
      | part m =>
        rw [exec_write] at he
        split at he
        · obtain ⟨hm, rfl⟩ := Prod.mk.inj (some.inj he)
          cases hm
          split at hl
          · cases hl
          · rw [ih hl, store_data, store_store, append_assoc, take_append_drop]
        · cases he

theorem create_ends (h : exec crates (.create tmp) out w = some (.ok file, w')) :
    w'.names tmp = some file ∧ w'.data file = [] ∧ w'.dirs = w.dirs ∧ ∀ p, p ≠ tmp → w'.names p = w.names p := by
  cases out with
  | part n | fail e => cases h
  | ok =>
    rw [exec_create] at h
    split at h
    · rename_i existing hn
      obtain ⟨hf, rfl⟩ := Prod.mk.inj (some.inj h)
      cases hf
      exact ⟨hn, store_data _ _ _, rfl, fun _ _ => rfl⟩
    · obtain ⟨hf, rfl⟩ := Prod.mk.inj (some.inj h)
      cases hf
      refine ⟨update_self _ _ _, update_self _ _ _, rfl, ?_⟩
      intro p hp
      exact update_of_ne hp _ _

theorem replaceFile_ends {tmp : Text} (h : (replaceFile path tmp doc).run.Ends (callers crates path) w (.ok ()) w') :
    w'.content path = some doc ∧ w'.dirs = w.dirs ∧ ∀ p, p ≠ tmp → p ≠ path → w'.names p = w.names p := by
  obtain ⟨created, _, hc, h₁⟩ := ends_exceptT_bind_ok.mp h
  obtain ⟨file, w₁, hf, h₂⟩ := ends_exceptT_bind_ok.mp h₁
  obtain ⟨rfl, rfl⟩ := ends_orIo.mp hf
  obtain ⟨_, w₂, hw, h₃⟩ := ends_exceptT_bind_ok.mp h₂
  obtain ⟨synced, _, hsy, h₄⟩ := ends_exceptT_bind_ok.mp h₃
  obtain ⟨_, w₃, hs, h₅⟩ := ends_exceptT_bind_ok.mp h₄
  obtain ⟨rfl, rfl⟩ := ends_orIo.mp hs
  obtain ⟨moved, w₄, hm, h₆⟩ := ends_exceptT_bind_ok.mp h₅
  obtain ⟨out, he⟩ := ends_call.mp hc
  obtain ⟨hn, hem, hd, ho⟩ := create_ends he
  have hw₂ : w₂ = w₁.store file doc := by rw [writeAll_ends hw, hem, nil_append]
  have hw₃ : w₃ = w₂ := by
    obtain ⟨out, he⟩ := ends_call.mp hsy
    cases out <;> cases he
    rfl
  subst hw₃ hw₂
  obtain ⟨out, he⟩ := ends_call.mp hm
  cases out with
  | part n => cases he
  | fail e =>
    cases he
    obtain ⟨_, _, -, ht⟩ := ends_exceptT_bind_ok.mp h₆
    cases ht
  | ok =>
    have hn' : (w₁.store file doc).names tmp = some file := hn
    rw [exec_rename, hn'] at he
    obtain ⟨hok, rfl⟩ := Prod.mk.inj (some.inj he)
    cases hok
    obtain ⟨-, rfl⟩ := ends_pure.mp h₆
    refine ⟨?_, hd, ?_⟩
    · rw [content_move, store_data]
    · intro p htmp hpa
      have hp : ((w₁.store file doc).move tmp path file).names p = w₁.names p := by
        show update (update w₁.names tmp none) path (some file) p = _
        rw [update_of_ne hpa, update_of_ne htmp]
      rw [hp, ho p htmp]

/-- **A call of the writer that returns `Ok`** found no lock and left its document
at the path, and nothing else of what a load reads has changed. -/
theorem writeConfigAtomic_ends {os : Nat} {config : ServerWallConfig}
    (h : (writeConfigAtomic crates path os config).run.Ends (callers crates path) w (.ok ()) w') :
    ∃ doc, serialize crates config = .ok doc ∧ w'.content path = some doc ∧ w'.dirs = w.dirs := by
  obtain ⟨doc, _, hs, h₁⟩ := ends_exceptT_bind_ok.mp h
  obtain ⟨hdoc, rfl⟩ := ends_result.mp hs
  obtain ⟨dir, w₂, hdir, h₂⟩ := ends_exceptT_bind_ok.mp h₁
  obtain ⟨-, rfl⟩ := ends_result.mp hdir
  obtain ⟨_, w₃, hl, h₃⟩ := ends_exceptT_bind_ok.mp h₂
  obtain ⟨-, rfl⟩ := acquireLock_ends hl
  obtain ⟨result, w₄, hb, h₄⟩ := ends_exceptT_bind_ok.mp h₃
  obtain ⟨removed, w₅, hre, h₅⟩ := ends_exceptT_bind_ok.mp h₄
  obtain ⟨rfl, rfl⟩ := ends_result.mp h₅
  have hb' : (replaceFile path (tmpPath dir os) doc).run.Ends (callers crates path)
      (w₂.make (lockPath path)) (.ok ()) w₄ := by
    obtain ⟨r, w₆, hrun, hp⟩ := ends_bind.mp hb
    obtain ⟨hr, rfl⟩ := ends_pure.mp hp
    cases hr
    exact hrun
  obtain ⟨hc, hd, -⟩ := replaceFile_ends hb'
  refine ⟨doc, hdoc, ?_⟩
  -- whatever became of the lock, it is not the configuration
  obtain ⟨out, he⟩ := ends_call.mp hre
  cases out with
  | part n => cases he
  | fail e =>
    cases he
    exact ⟨hc, hd⟩
  | ok =>
    rw [exec_removeFile] at he
    split at he
    · cases he
      rw [content_unlink (lockPath_ne path).symm]
      exact ⟨hc, hd⟩
    · cases he
      exact ⟨hc, hd⟩

/-! ## Calls that succeed -/

theorem acquireLock_free (hf : w.names lock = none) :
    (acquireLock lock (attempts + 1)).run.Ends (callers crates path) w (.ok ()) (w.make lock) := by
  have he : exec crates (.createNew lock) .ok w = some (.created (.made w.made), w.make lock) := by
    simp [exec_createNew, hf]
  rw [acquireLock, ends_exceptT_bind_ok]
  exact ⟨_, _, ends_call.mpr ⟨.ok, he⟩, ends_pure.mpr ⟨rfl, rfl⟩⟩

theorem writeAll_whole (file : Ino) (octets : List Octet) :
    (writeAll file octets.length octets).run.Ends (callers crates path) w (.ok ())
      (w.store file (w.data file ++ octets)) := by
  cases octets with
  | nil =>
    rw [append_nil, store_self]
    exact ends_pure.mpr ⟨rfl, rfl⟩
  | cons octet octets =>
    have he : exec crates (.write file (octet :: octets)) (.part (octets.length + 1)) w =
        some (.ok (octets.length + 1), w.store file (w.data file ++ octet :: octets)) := by
      simp [exec_write]
    rw [length_cons, writeAll, ends_exceptT_bind_ok]
    refine ⟨_, _, ends_call.mpr ⟨_, he⟩, ?_⟩
    rw [ends_exceptT_bind_ok]
    refine ⟨_, _, ends_orIo.mpr ⟨rfl, rfl⟩, ?_⟩
    rw [if_neg (Nat.succ_ne_zero _), drop_of_length_le (by simp)]
    cases octets.length <;> exact ends_pure.mpr ⟨rfl, rfl⟩

theorem replaceFile_succeeds (crates : Crates Octet) (path tmp : Text) (doc : List Octet) (w : Disk Octet) :
    ∃ w', (replaceFile path tmp doc).run.Ends (callers crates path) w (.ok ()) w' := by
  have hc : ∃ file w₁, exec crates (.create tmp) .ok w = some (.ok file, w₁) := by
    cases hn : w.names tmp with
    | some file => exact ⟨file, w.store file [], by rw [exec_create, hn]⟩
    | none => exact ⟨.made w.made, w.make tmp, by rw [exec_create, hn]⟩
  obtain ⟨file, w₁, hc⟩ := hc
  obtain ⟨hn, -, -, -⟩ := create_ends hc
  have hr : exec crates (.rename tmp path) .ok (w₁.store file (w₁.data file ++ doc)) =
      some (.ok (), (w₁.store file (w₁.data file ++ doc)).move tmp path file) := by
    have hn' : (w₁.store file (w₁.data file ++ doc)).names tmp = some file := hn
    rw [exec_rename, hn']
  refine ⟨(w₁.store file (w₁.data file ++ doc)).move tmp path file, ?_⟩
  unfold replaceFile
  rw [ends_exceptT_bind_ok]
  refine ⟨_, _, ends_call.mpr ⟨.ok, hc⟩, ?_⟩
  rw [ends_exceptT_bind_ok]
  refine ⟨_, _, ends_orIo.mpr ⟨rfl, rfl⟩, ?_⟩
  rw [ends_exceptT_bind_ok]
  refine ⟨_, _, writeAll_whole file doc, ?_⟩
  rw [ends_exceptT_bind_ok]
  refine ⟨.ok (), _, ends_call.mpr ⟨.ok, rfl⟩, ?_⟩
  rw [ends_exceptT_bind_ok]
  refine ⟨_, _, ends_orIo.mpr ⟨rfl, rfl⟩, ?_⟩
  rw [ends_exceptT_bind_ok]
  exact ⟨_, _, ends_call.mpr ⟨.ok, hr⟩, ends_pure.mpr ⟨rfl, rfl⟩⟩

theorem writeConfigAtomic_succeeds (os : Nat) {config : ServerWallConfig} {doc : List Octet} (hdoc : serialize crates config = .ok doc) (hdir : directory path = .ok dir)
    (hf : w.names (lockPath path) = none) :
    ∃ w', (writeConfigAtomic crates path os config).run.Ends (callers crates path) w (.ok ()) w' ∧
      w'.names (lockPath path) = none := by
  obtain ⟨w₁, hb⟩ := replaceFile_succeeds crates path (tmpPath dir os) doc (w.make (lockPath path))
  -- neither the temporary file nor the configuration is the lock, so it is still there
  have hh : w₁.names (lockPath path) = some (.made w.made) := by
    obtain ⟨-, -, ho⟩ := replaceFile_ends hb
    rw [ho _ (tmpPath_ne_lockPath dir path os).symm (lockPath_ne path)]
    exact update_self _ _ _
  have hr : exec crates (.removeFile (lockPath path)) .ok w₁ = some (.ok (), w₁.unlink (lockPath path)) := by
    simp [exec_removeFile, hh]
  refine ⟨w₁.unlink (lockPath path), ?_, update_self _ _ _⟩
  unfold writeConfigAtomic
  rw [ends_exceptT_bind_ok]
  refine ⟨_, _, ends_result.mpr ⟨hdoc, rfl⟩, ?_⟩
  rw [ends_exceptT_bind_ok]
  refine ⟨_, _, ends_result.mpr ⟨hdir, rfl⟩, ?_⟩
  unfold withLock
  rw [ends_exceptT_bind_ok]
  refine ⟨_, _, acquireLock_free hf, ?_⟩
  rw [ends_exceptT_bind_ok]
  refine ⟨.ok (), _, ends_bind.mpr ⟨_, _, hb, ends_pure.mpr ⟨rfl, rfl⟩⟩, ?_⟩
  rw [ends_exceptT_bind_ok]
  exact ⟨_, _, ends_call.mpr ⟨.ok, hr⟩, ends_result.mpr ⟨rfl, rfl⟩⟩

theorem ends_load : (mk (perform (.load path : FileOp Octet)) : Calls Octet _).run.Ends
        (callers crates path) w (.ok config) w' ↔ loadConfig crates w path = .ok config ∧ w' = w := by
  have hrun : (mk (perform (.load path : FileOp Octet)) : Calls Octet _).run =
      perform (.load path : FileOp Octet) := rfl
  rw [hrun, ends_perform rfl]
  constructor
  · rintro ⟨out, he⟩
    cases out with
    | part n | fail e => cases he
    | ok =>
      obtain ⟨hl, rfl⟩ := Prod.mk.inj (some.inj he)
      exact ⟨hl, rfl⟩
  · rintro ⟨hl, rfl⟩
    refine ⟨.ok, ?_⟩
    show some (loadConfig crates w' path, w') = _
    rw [hl]

end

/-! ## The meaning of a call -/

section

variable (crates : Crates Octet) (path : Text)

def Caller.config (caller : Caller) (disk : Disk Octet) : Result ServerWallConfig :=
  match caller with
  | .write _ config => pure config
  | .edit _ op => loadConfig crates disk path >>= edited crates op

def Caller.document (caller : Caller) (disk : Disk Octet) : Result (List Octet) :=
  caller.config crates path disk >>= serialize crates

/-- The callers run one after the other, and each returns `Ok`. -/
def Serial : Disk Octet → List Caller → Disk Octet → Prop
  | w, [], w' => w' = w
  | w, caller :: rest, w' =>
    ∃ w₁, (caller.code crates path).run.Ends (callers crates path) w (.ok ()) w₁ ∧ Serial w₁ rest w'

variable {crates path}

theorem Serial.concat (h : Serial crates path w callers₁ w')
    (hl : (caller.code crates path).run.Ends (callers crates path) w' (.ok ()) w'') :
    Serial crates path w (callers₁ ++ [caller]) w'' := by
  induction callers₁ generalizing w with
  | nil =>
    obtain rfl : w' = w := h
    exact ⟨w'', hl, rfl⟩
  | cons c cs ih =>
    obtain ⟨w₁, hc, hcs⟩ := h
    exact ⟨w₁, hc, ih hcs⟩

/-- **What a call that returns `Ok` leaves**: its document at the path, the drop-in
files as they were. -/
theorem ends_document (caller : Caller) (h : (caller.code crates path).run.Ends (callers crates path) w (.ok ()) w') :
    ∃ doc, caller.document crates path w = .ok doc ∧ w'.content path = some doc ∧ w'.dirs = w.dirs := by
  cases caller with
  | write os config => exact writeConfigAtomic_ends h
  | edit os op =>
    have hrun : (runEdit crates path os op).run.Ends (callers crates path) w (.ok ()) w' := h
    obtain ⟨config, _, he, h₁⟩ := ends_exceptT_bind_ok.mp hrun
    obtain ⟨hl, rfl⟩ := ends_load.mp he
    obtain ⟨config', w₂, he', h₂⟩ := ends_exceptT_bind_ok.mp h₁
    obtain ⟨hed, rfl⟩ := ends_result.mp he'
    obtain ⟨doc, hdoc, hc, hd⟩ := writeConfigAtomic_ends h₂
    refine ⟨doc, ?_, hc, hd⟩
    exact bind_eq_ok.mpr ⟨config', bind_eq_ok.mpr ⟨config, hl, hed⟩, hdoc⟩

/-- **A call can return `Ok`** if it has a document, a directory and no lock in its
way, and it then leaves no lock. -/
theorem exists_ends {caller : Caller}
    (hdoc : caller.document crates path w = .ok doc) (hdir : directory path = .ok dir)
    (hf : w.names (lockPath path) = none) :
    ∃ w', (caller.code crates path).run.Ends (callers crates path) w (.ok ()) w' ∧ w'.names (lockPath path) = none := by
  obtain ⟨config, hc, hs⟩ := bind_eq_ok.mp hdoc
  obtain ⟨w', hw, hr⟩ := writeConfigAtomic_succeeds caller.os hs hdir hf
  refine ⟨w', ?_, hr⟩
  cases caller with
  | write os c =>
    cases hc
    exact hw
  | edit os op =>
    obtain ⟨config₀, hl, he⟩ := bind_eq_ok.mp hc
    show (runEdit crates path os op).run.Ends (callers crates path) w (.ok ()) w'
    unfold runEdit
    rw [ends_exceptT_bind_ok]
    refine ⟨_, _, ends_load.mpr ⟨hl, rfl⟩, ?_⟩
    rw [ends_exceptT_bind_ok]
    exact ⟨_, _, ends_result.mpr ⟨he, rfl⟩, hw⟩

end

end ServerWall.Core
