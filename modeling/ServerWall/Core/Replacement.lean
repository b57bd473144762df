import ServerWall.Core.Locking

/-!
# The configuration is replaced, never changed

At every moment of every run the configuration is the whole of one document (`Genuine`,
`atomic_replacement`), provided no caller's temporary file is the configuration itself. A power failure
is not part of this.
-/

namespace ServerWall.Core

open Schema List Disk Event Function

variable {Octet : Type}

/-! ## The content of the configuration -/

section

variable {disk : Disk Octet} {path p : Text} {file : Ino}

theorem Disk.content_make (ht : disk.Tidy) (hne : path ≠ p) : (disk.make p).content path = disk.content path := by
  have hn : (disk.make p).names path = disk.names path := update_of_ne hne _ _
  unfold content
  rw [hn]
  cases hp : disk.names path with
  | none => rfl
  | some f =>
    have hf : f ≠ .made disk.made := by
      rintro rfl
      exact absurd (ht.fresh hp) (Nat.lt_irrefl _)
    exact congrArg some (update_of_ne hf _ _)

theorem Disk.content_store (hne : disk.names path ≠ some file) :
    (disk.store file octets).content path = disk.content path := by
  have hn : (disk.store file octets).names path = disk.names path := rfl
  unfold content
  rw [hn]
  cases hp : disk.names path with
  | none => rfl
  | some f =>
    have hf : f ≠ file := by
      rintro rfl
      exact hne hp
    exact congrArg some (update_of_ne hf _ _)

theorem Disk.content_ofFiles (files : Text → Option (List Octet))
    (dirs : Text → Option (List (DropIn Octet))) (path : Text) : (ofFiles files dirs).content path = files path := by
  show ((files path).map fun _ => Ino.original path).map (ofFiles files dirs).data = _
  cases hf : files path with
  | none => rfl
  | some octets =>
    show some ((files path).getD []) = _
    rw [hf]
    rfl

end

theorem Caller.IsTmp.unique {caller : Caller} {path tmp tmp' : Text} (h : caller.IsTmp path tmp)
    (h' : caller.IsTmp path tmp') : tmp' = tmp := by
  obtain ⟨dir, hdir, rfl⟩ := h
  obtain ⟨dir', hdir', rfl⟩ := h'
  rw [Except.ok.inj (hdir.symm.trans hdir')]

def Stage.config? : Stage Octet → Option ServerWallConfig
  | .ready config => some config
  | .waiting config => some config
  | .locked config _ => some config
  | .writing config _ _ _ => some config
  | .botched config _ => some config
  | .installed config _ => some config
  | _ => none

section

variable {crates : Crates Octet} {path : Text} {v : Scene Octet}
variable {a a' : Stage Octet} {op : FileOp Octet} {r : op.Res}

/-- A call either leaves the content of the configuration as it is, or it puts the
whole document of its caller in place. -/
theorem Deed.content (ho : Order path v) (hl : v.Live pid caller a) (hap : ∀ tmp, caller.IsTmp path tmp → tmp ≠ path)
    (hd : Deed crates path caller a v.world op r a' w') :
    (w'.content path = v.world.content path ∧ Core.installs ⟨op, r⟩ = false) ∨
      ∃ config lock file written tmp, a = .writing config lock file written ∧
        (⟨op, r⟩ : Σ op : FileOp Octet, op.Res) = ⟨.rename tmp path, .ok ()⟩ ∧
        serialize crates config = .ok written ∧ w'.content path = some written := by
  cases hd with
  | loaded | unread | refused | barred | stuck => exact .inl ⟨rfl, rfl⟩
  | still hq | spoilt ha hq => exact .inl ⟨rfl, installs_quiet hq⟩
  | acquired => exact .inl ⟨content_make ho.tidy (lockPath_ne path).symm, rfl⟩
  | emptied htmp hn =>
    refine .inl ⟨content_store fun hp => ?_, rfl⟩
    exact hap _ htmp (ho.tidy.distinct hn hp)
  | opened htmp hn => exact .inl ⟨content_make ho.tidy (hap _ htmp).symm, rfl⟩
  | wrote =>
    obtain ⟨tmp, htmp, hn, -⟩ := ho.file hl
    refine .inl ⟨content_store fun hp => ?_, rfl⟩
    exact hap _ htmp (ho.tidy.distinct hn hp)
  | @installed w config lock file written tmp found htmp hdoc hn =>
    -- the file under the temporary name is the one that was written
    obtain ⟨tmp', htmp', hn', hda⟩ := ho.file hl
    obtain rfl := htmp.unique htmp'
    obtain rfl := Option.some.inj (hn.symm.trans hn')
    refine .inr ⟨config, lock, found, written, tmp', rfl, rfl, hdoc, ?_⟩
    rw [content_move, hda]
  | cleaned htmp => exact .inl ⟨content_unlink (hap _ htmp).symm, rfl⟩
  | dropped => exact .inl ⟨content_unlink (lockPath_ne path).symm, rfl⟩

theorem Deed.config (hd : Deed crates path caller a v.world op r a' w')
    {config : ServerWallConfig} (h : a'.config? = some config) :
    (a.config? = some config ∧ ∀ p, op ≠ .load p) ∨ ∃ os edit loaded, caller = .edit os edit ∧
      (⟨op, r⟩ : Σ op : FileOp Octet, op.Res) = ⟨.load path, .ok loaded⟩ ∧
      loadConfig crates v.world path = .ok loaded ∧ edited crates edit loaded = .ok config := by
  have hn : op.quiet r = true → ∀ p, op ≠ .load p := by
    rintro hq p rfl
    cases hq
  cases hd with
  | @loaded w os edit loaded config' hc hl he =>
    cases h
    exact .inr ⟨os, edit, loaded, hc, rfl, hl, he⟩
  | unread | barred | dropped | stuck => cases h
  | still hq => exact .inl ⟨h, hn hq⟩
  | refused ha | acquired ha => rcases ha with rfl | rfl <;> exact .inl ⟨h, nofun⟩
  | emptied | opened | wrote | installed | cleaned => exact .inl ⟨h, nofun⟩
  | spoilt ha hq => rcases ha with rfl | ⟨_, _, rfl⟩ <;> exact .inl ⟨h, hn hq⟩

end

/-! ## What was passed to the writer -/

/-- The writer was called with the configuration, or an editor made it of what it
loaded. -/
def Passed (crates : Crates Octet) (path : Text) (log : List (Happening Octet)) (config : ServerWallConfig) : Prop :=
  (∃ pid os, began pid (.write os config) ∈ log) ∨
  ∃ pid os op loaded, did pid (.edit os op) (.load path) (.ok loaded) ∈ log ∧ edited crates op loaded = .ok config

theorem Passed.mono (h : Passed crates path log config) (hsub : log ⊆ log') : Passed crates path log' config := by
  rcases h with ⟨pid, os, hmem⟩ | ⟨pid, os, op, loaded, hmem, he⟩
  · exact .inl ⟨pid, os, hsub hmem⟩
  · exact .inr ⟨pid, os, op, loaded, hsub hmem, he⟩

/-- No caller's temporary file is the configuration. -/
def apart (path : Text) (_ : Scene Octet) : Happening Octet → Bool
  | .began _ caller => match directory path with
    | .ok dir => tmpPath dir caller.os != path
    | .error _ => true
  | _ => true

theorem apart_began (h : apart path v (.began pid caller)) (htmp : caller.IsTmp path tmp) : tmp ≠ path := by
  obtain ⟨dir, hdir, rfl⟩ := htmp
  rw [apart, hdir] at h
  exact bne_iff_ne.mp h

/-- The order, with no temporary file in the place of the configuration. -/
structure Sheltered (path : Text) (v : Scene Octet) : Prop where
  order : Order path v
  apart : ∀ {pid caller a tmp}, v.Live pid caller a → caller.IsTmp path tmp → tmp ≠ path

/-- The configuration holds a whole document that is no accident. -/
structure Genuine (crates : Crates Octet) (path : Text) (doc₀ : List Octet) (v : Scene Octet) : Prop where
  passed : ∀ {pid caller a config}, v.Live pid caller a → a.config? = some config → Passed crates path v.log config
  content : ∃ doc, v.world.content path = some doc ∧
    (doc = doc₀ ∨ ∃ config, Passed crates path v.log config ∧ serialize crates config = .ok doc)

section

variable {crates : Crates Octet} {path : Text}
variable {e : Happening Octet} {a a' : Stage Octet}
variable {op : FileOp Octet} {r : op.Res}

theorem Sheltered.step (h : Sheltered path v) (ha : Core.apart path v e)
    (hs : Step crates path v e v') : Sheltered path v' := by
  refine ⟨h.order.step hs, ?_⟩
  intro q c b tmp hb htmp
  cases hs with
  | began caller =>
    rcases hb.of_launch with hb | ⟨-, rfl, -⟩
    · exact h.apart hb htmp
    · exact apart_began ha htmp
  | did pid caller a op r a' w' hl hd =>
    obtain ⟨b₀, hb₀⟩ := View.live_back hl hb
    exact h.apart hb₀ htmp
  | ended pid caller a x hl hr => exact h.apart hb.of_retire htmp
  | crashed lost => exact h.apart hb.of_restart htmp

theorem sheltered_start (ht : disk.Tidy) : Sheltered path (System.view { world := disk }) where
  order := order_start ht
  apart h := absurd h not_live_start

theorem Genuine.did (h : Genuine crates path doc₀ v) (hs : Sheltered path v)
    (hl : v.Live pid caller a) (hd : Deed crates path caller a v.world op r a' w') :
    Genuine crates path doc₀ (v.did pid caller op r a' w') := by
  have hsub : v.log ⊆ v.log ++ [.did pid caller op r] := subset_append_left _ _
  constructor
  · intro q c b config hb hco
    rcases hb.of_advance with ⟨-, rfl, rfl⟩ | ⟨-, hb⟩
    · rcases hd.config hco with ⟨hold, -⟩ | ⟨os, edit, loaded, rfl, he, -, hed⟩
      · exact (h.passed hl hold).mono hsub
      · cases he
        refine .inr ⟨pid, os, edit, loaded, ?_, hed⟩
        exact mem_append_right _ (mem_singleton_self _)
    · exact (h.passed hb hco).mono hsub
  · rcases hd.content hs.order hl fun _ => hs.apart hl with
      ⟨hsa, -⟩ | ⟨config, lock, file, written, tmp, rfl, -, hdoc, hc⟩
    · obtain ⟨doc, hc, hdoc⟩ := h.content
      refine ⟨doc, hsa.trans hc, ?_⟩
      rcases hdoc with rfl | ⟨config, hp, hse⟩
      · exact .inl rfl
      · exact .inr ⟨config, hp.mono hsub, hse⟩
    · exact ⟨written, hc, .inr ⟨config, (h.passed hl rfl).mono hsub, hdoc⟩⟩

theorem Genuine.fewer (h : Genuine crates path doc₀ v) (hw : v'.world = v.world) (hsub : v.log ⊆ v'.log)
    (hba : ∀ {q c b}, v'.Live q c b → v.Live q c b ∨ (b = c.stage ∧ began q c ∈ v'.log)) :
    Genuine crates path doc₀ v' := by
  constructor
  · intro q c b config hb hc
    rcases hba hb with hb | ⟨rfl, hbe⟩
    · exact (h.passed hb hc).mono hsub
    · cases c with
      | write os config' =>
        cases hc
        exact .inl ⟨q, os, hbe⟩
      | edit os op => cases hc
  · obtain ⟨doc, hco, hdoc⟩ := h.content
    refine ⟨doc, hw ▸ hco, ?_⟩
    rcases hdoc with rfl | ⟨config, hp, hs⟩
    · exact .inl rfl
    · exact .inr ⟨config, hp.mono hsub, hs⟩

theorem Genuine.step (h : Genuine crates path doc₀ v) (hs : Sheltered path v)
    (hst : Step crates path v e v') : Genuine crates path doc₀ v' := by
  cases hst with
  | began caller =>
    refine h.fewer rfl (subset_append_left _ _) fun hb => ?_
    rcases hb.of_launch with hb | ⟨rfl, rfl, rfl⟩
    · exact .inl hb
    · exact .inr ⟨rfl, mem_append_right _ (mem_singleton_self _)⟩
  | did pid caller a op r a' w' hl hd => exact h.did hs hl hd
  | ended pid caller a x hl hr => exact h.fewer rfl (subset_append_left _ _) fun hb => .inl hb.of_retire
  | crashed lost => exact h.fewer rfl (subset_append_left _ _) fun hb => .inl hb.of_restart

theorem genuine_start (hc : disk.content path = some doc₀) :
    Genuine crates path doc₀ (System.view { world := disk }) where
  passed h := absurd h not_live_start
  content := ⟨doc₀, hc, .inl rfl⟩

end

/-! ## Atomic replacement -/

section

variable {crates : Crates Octet} {path : Text} {v : Scene Octet} {e : Happening Octet}

theorem Sheltered.changed (h : Sheltered path v) (hs : Step crates path v e v')
    (hc : v'.world.content path ≠ v.world.content path) :
    ∃ pid caller tmp, e = .did pid caller (.rename tmp path) (.ok ()) := by
  cases hs with
  | began caller | ended pid caller a x hl hr | crashed lost => exact absurd rfl hc
  | did pid caller a op r a' w' hl hd =>
    rcases hd.content h.order hl fun _ => h.apart hl with
      ⟨hsa, -⟩ | ⟨config, lock, file, written, tmp, -, he, -, -⟩
    · exact absurd hsa hc
    · cases he
      exact ⟨pid, caller, tmp, rfl⟩

theorem removes_own (ho : Order path v) (ht : v.Accounts (conduct crates path) (Tally path))
    (hs : Step crates path v (.did pid caller (.removeFile (lockPath path)) (.ok ())) v') :
    ∃ lock c, v.world.names (lockPath path) = some lock ∧
      did pid c (.createNew (lockPath path)) (.created lock) ∈ v.log := by
  cases hs with
  | did pid caller a op r a' w' hl hd =>
    obtain ⟨lock, hlo⟩ := hd.removes
    obtain ⟨c, hm⟩ := mem_historyOf.mp ((ht.live hl).made hlo)
    exact ⟨lock, c, ho.held hl hlo, hm⟩

theorem replaced_returns (ht : v.Accounts (conduct crates path) (Tally path))
    (hre : did pid caller (.rename source target) (.ok ()) ∈ v.log) (c : Caller)
    (err) : ended pid c (.error err) ∉ v.log := by
  intro he
  obtain ⟨a, hto, hr⟩ := ht.ended he
  have hd := hto.replaced (mem_historyOf.mpr ⟨caller, hre⟩)
  cases a with
  | released replaced =>
    cases hd
    cases hr
  | installed => exact hr.elim
  | _ => cases hd

end

/-- **The configuration is replaced as a whole**, one caller at a time holds the lock and removes it
itself, and a call that has changed the configuration returns no error. -/
theorem atomic_replacement (crates : Crates Octet) (path : Text)
    (files : Text → Option (List Octet)) (dirs : Text → Option (List (DropIn Octet)))
    (doc₀ : List Octet) (hdoc₀ : files path = some doc₀) (labels : Schedule) (s : Site Octet)
    (hrun : runCallers crates path (.ofFiles files dirs) labels = some s)
    (hmeets : runMeets crates path (.ofFiles files dirs) (apart path) labels = true) :
    (∃ doc, s.world.content path = some doc ∧ (doc = doc₀ ∨
      ∃ config, Passed crates path s.log config ∧ serialize crates config = .ok doc)) ∧
    (∀ pid caller a pid' caller' a', s.view.Live pid caller a → s.view.Live pid' caller' a' →
      a.lock? ≠ none → a'.lock? ≠ none → pid = pid') ∧
    ∀ s₁ e s₂, System.Passes (callers crates path) (conduct crates path)
        { world := .ofFiles files dirs } labels s₁ e s₂ →
      (s₂.world.content path ≠ s₁.world.content path → ∃ pid caller op r, e = .did pid caller op r ∧
          ∀ c err, Event.ended pid c (.error err) ∉ s.log) ∧
      ∀ pid caller, e = .did pid caller (.removeFile (lockPath path)) (.ok ()) →
        ∃ lock c, s₁.world.names (lockPath path) = some lock ∧
          Event.did pid c (.createNew (lockPath path)) (.created lock) ∈ s₁.log := by
  have htidy := tidy_ofFiles files dirs
  have hcontent : (ofFiles files dirs).content path = some doc₀ := by rw [content_ofFiles, hdoc₀]
  -- both invariants, at the end of any run that meets the condition
  have hboth : ∀ {labels s}, runCallers crates path (.ofFiles files dirs) labels = some s →
      runMeets crates path (.ofFiles files dirs) (apart path) labels = true →
      Sheltered path s.view ∧ Genuine crates path doc₀ s.view := fun hrun hmeets =>
    run_invariant (fun v => Sheltered path v ∧ Genuine crates path doc₀ v)
      ⟨sheltered_start htidy, genuine_start hcontent⟩
      (fun h hC hstep => ⟨h.1.step hC hstep, h.2.step h.1 hstep⟩) hrun hmeets
  obtain ⟨hshelter, hgenuine⟩ := hboth hrun hmeets
  refine ⟨hgenuine.content, ?_, ?_⟩
  · intro pid caller a pid' caller' a' hlive hlive' hlock hlock'
    exact hshelter.order.sole hlive hlive' hlock hlock'
  · intro s₁ e s₂ hpasses
    obtain ⟨⟨before, hbefore, hmeets₁⟩, -, hstep, hmem⟩ := passes_step hrun hmeets hpasses
    obtain ⟨hshelter₁, -⟩ := hboth hbefore hmeets₁
    refine ⟨fun hchanged => ?_, ?_⟩
    · obtain ⟨pid, caller, tmp, rfl⟩ := hshelter₁.changed hstep hchanged
      exact ⟨pid, caller, _, _, rfl, replaced_returns (run_tally hrun) hmem⟩
    · rintro pid caller rfl
      exact removes_own hshelter₁.order (run_tally hbefore) hstep

def onlyFile (path : Text) : Text → Option (List ServerWallConfig) := fun p => if p = path then some [{}] else none

/-- Two callers: the first one writes, the second one waits for it, takes the lock and
is lost. -/
def waitAndWrite : Schedule :=
  [.launch (.write 7 {}), .launch (.edit 8 (.addAclBlock "192.0.2.0/24")), .act 0 .ok, .act 1 .ok,
    .act 1 .ok, .act 0 .ok, .act 0 (.part 1), .act 0 .ok, .act 0 .ok, .act 0 .ok, .act 1 .ok,
    .act 1 .ok, .finish 0, .act 1 .ok, .crash 8]

theorem first_replaces : ∃ s, runCallers .verbatim "/etc/serverwall.toml"
        (.ofFiles (onlyFile "/etc/serverwall.toml") fun _ => none) waitAndWrite = some s ∧
      (s.world.names "/etc/serverwall.toml.lock").isSome = true ∧
      ∃ doc, s.world.content "/etc/serverwall.toml" = some doc ∧ (doc = [{}] ∨
        ∃ config, Passed .verbatim "/etc/serverwall.toml" s.log config ∧ serialize .verbatim config = .ok doc) := by
  have hrun : ∃ s, runCallers .verbatim "/etc/serverwall.toml"
      (.ofFiles (onlyFile "/etc/serverwall.toml") fun _ => none) waitAndWrite = some s ∧
      (s.world.names "/etc/serverwall.toml.lock").isSome = true := ⟨_, rfl, rfl⟩
  obtain ⟨s, hrun, hlock⟩ := hrun
  exact ⟨s, hrun, hlock, (atomic_replacement .verbatim "/etc/serverwall.toml" _ _ [{}] rfl waitAndWrite s hrun rfl).1⟩

/-! ## A configuration with the name of a temporary file -/

/-- The configuration of the process 7 has the name of its temporary file. With the
second system call it is empty. -/
theorem tmp_is_config : ∃ s : Site ServerWallConfig, runCallers .verbatim "/etc/.serverwall_cfg_tmp_7.toml"
        (.ofFiles (onlyFile "/etc/.serverwall_cfg_tmp_7.toml") fun _ => none)
        [.launch (.write 7 {}), .act 0 .ok, .act 0 .ok] = some s ∧
      s.world.content "/etc/.serverwall_cfg_tmp_7.toml" = some [] ∧
      ∀ config, serialize .verbatim config ≠ .ok [] := by
  refine ⟨_, rfl, rfl, fun config h => ?_⟩
  cases h

end ServerWall.Core
