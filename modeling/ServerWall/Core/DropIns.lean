import ServerWall.Core.Keys
import ServerWall.Core.Sequential

/-!
# Editing a configuration with drop-in files

An edit starts from the main file merged with the drop-in files and writes all of it to the main file;
the next load appends them again (`reload_edit_iff`, `reload_refused`). That printing and parsing lose
nothing is assumed (`Crates.Lossless`).
-/

namespace ServerWall.Core

open Schema List

variable {Octet : Type}

/-- What is printed is a document that parses to what was printed. -/
structure Crates.Lossless (crates : Crates Octet) : Prop where
  isUtf8 : ∀ {config doc}, crates.toStringPretty config = .ok doc → crates.isUtf8 doc = true
  fromStr : ∀ {config doc}, crates.toStringPretty config = .ok doc → crates.fromStr doc = .ok config

theorem verbatim_lossless : Crates.verbatim.Lossless where
  isUtf8 _ := rfl
  fromStr h := by
    cases h
    rfl

theorem serialize_eq_ok (h : serialize crates config = .ok doc) : crates.toStringPretty config = .ok doc := by
  unfold serialize at h
  split at h
  · rename_i doc' hdoc
    cases h
    exact hdoc
  · cases h

/-! ## Loading a main file that parses -/

/-- The end of a load: the fragments are merged and the result is validated. -/
def mergeAll (crates : Crates Octet) (disk : Disk Octet) (config : ServerWallConfig) :
    Result ServerWallConfig := do
  let fragments ← loadFragments crates disk config.global.configDir
  let merged := fragments.foldl mergeConfig config
  validateConfig crates.isNetwork merged
  pure merged

theorem loadConfig_of_content (hc : disk.content path = some doc)
    (hu : crates.isUtf8 doc) (hp : crates.fromStr doc = .ok config) :
    loadConfig crates disk path = mergeAll crates disk config := by
  have hstr : loadConfigFromStr crates doc = .ok config := by
    rw [loadConfigFromStr, hp]
    rfl
  unfold loadConfig
  simp only [hc, readToString, hu, if_pos]
  show (loadConfigFromStr crates doc >>= fun config => mergeAll crates disk config) = _
  rw [hstr]
  rfl

/-! ## Merging -/

/-- A fragment that adds to none of the merged lists. -/
structure AddsNothing (fragment : ServerWallConfig) : Prop where
  frontends : fragment.frontend = []
  pools : fragment.backendPool = []
  rulesets : fragment.wafRuleset = []
  overrides : fragment.antispam.domainOverrides = []
  dkimDomains : fragment.relay.dkim.domains = []

theorem AddsNothing.merge (h : AddsNothing fragment) (base : ServerWallConfig) : mergeConfig base fragment = base := by
  unfold mergeConfig
  rw [h.frontends, h.pools, h.rulesets, h.overrides, h.dkimDomains]
  simp only [append_nil]

theorem foldl_merge_appends {α : Type} {g : ServerWallConfig → List α}
    (hg : ∀ base fragment, g (mergeConfig base fragment) = g base ++ g fragment)
    (fragments : List ServerWallConfig) (base : ServerWallConfig) :
    g (fragments.foldl mergeConfig base) = g base ++ fragments.flatMap g := by
  induction fragments generalizing base with
  | nil => simp
  | cons fragment fragments ih => rw [foldl_cons, ih, hg, flatMap_cons, append_assoc]

variable {base : ServerWallConfig}

theorem merged_list_nil {α : Type} {g : ServerWallConfig → List α}
    (hg : ∀ base fragment, g (mergeConfig base fragment) = g base ++ g fragment) {fragments : List ServerWallConfig}
    (h : fragments.foldl mergeConfig base = base) : ∀ f ∈ fragments, g f = [] := by
  have ha := foldl_merge_appends hg fragments base
  rw [h] at ha
  exact flatMap_eq_nil_iff.mp (self_eq_append_right.mp ha)

theorem foldl_merge_eq_iff {fragments : List ServerWallConfig} :
    fragments.foldl mergeConfig base = base ↔ ∀ f ∈ fragments, AddsNothing f := by
  constructor
  · intro h f hf
    exact {
      frontends := merged_list_nil (fun _ _ => rfl) h f hf
      pools := merged_list_nil (fun _ _ => rfl) h f hf
      rulesets := merged_list_nil (fun _ _ => rfl) h f hf
      overrides := merged_list_nil (g := fun c => c.antispam.domainOverrides) (fun _ _ => rfl) h f hf
      dkimDomains := merged_list_nil (g := fun c => c.relay.dkim.domains) (fun _ _ => rfl) h f hf }
  · intro h
    induction fragments with
    | nil => rfl
    | cons fragment fragments ih =>
      obtain ⟨hfra, hfr⟩ := forall_mem_cons.mp h
      rw [foldl_cons, hfra.merge, ih hfr]

theorem mergeAll_eq_self_iff {crates : Crates Octet} {disk : Disk Octet}
    {config : ServerWallConfig} (hv : Valid crates.isNetwork config) : mergeAll crates disk config = .ok config ↔
      ∃ fragments, loadFragments crates disk config.global.configDir = .ok fragments ∧
        ∀ f ∈ fragments, AddsNothing f := by
  unfold mergeAll
  rw [bind_eq_ok]
  constructor
  · rintro ⟨fragments, hl, hr⟩
    obtain ⟨⟨⟩, -, hm⟩ := bind_pure_eq_ok.mp hr
    exact ⟨fragments, hl, foldl_merge_eq_iff.mp hm.symm⟩
  · rintro ⟨fragments, hl, hn⟩
    have hm : fragments.foldl mergeConfig config = config := foldl_merge_eq_iff.mpr hn
    refine ⟨fragments, hl, bind_pure_eq_ok.mpr ⟨(), ?_, hm.symm⟩⟩
    rw [hm]
    exact validateConfig_eq_ok.mpr hv

/-! ## Reading back an edit -/

/-- **An edit that returned `Ok` is read back exactly if the drop-in files of the
edited configuration load and add nothing.** -/
theorem reload_edit_iff (crates : Crates Octet) (hlossless : crates.Lossless) (path : Text)
    (os : Nat) (op : Edit) (disk disk' : Disk Octet) (config : ServerWallConfig)
    (hload : loadConfig crates disk path = .ok config)
    (hedit : (runEdit crates path os op).run.Ends (callers crates path) disk (.ok ()) disk') :
    ∃ config', edited crates op config = .ok config' ∧ (loadConfig crates disk' path = .ok config' ↔ ∃ fragments,
        loadFragments crates disk config'.global.configDir = .ok fragments ∧ ∀ f ∈ fragments, AddsNothing f) := by
  obtain ⟨doc, hdocument, hcontent, hdirs⟩ := ends_document (.edit os op) hedit
  obtain ⟨config', hconfig, hserialize⟩ := bind_eq_ok.mp hdocument
  obtain ⟨loaded, hloaded, hedited⟩ := bind_eq_ok.mp hconfig
  obtain rfl : loaded = config := Except.ok.inj (hloaded.symm.trans hload)
  refine ⟨config', hedited, ?_⟩
  have hprinted := serialize_eq_ok hserialize
  have hfragments : loadFragments crates disk' config'.global.configDir =
      loadFragments crates disk config'.global.configDir := by
    unfold loadFragments
    rw [hdirs]
  rw [loadConfig_of_content hcontent (hlossless.isUtf8 hprinted) (hlossless.fromStr hprinted),
    mergeAll_eq_self_iff (edited_eq_ok hedited).2, hfragments]

/-! ## Two directories -/

def mainFile : ServerWallConfig where
  global := { configDir := some "/etc/serverwall/conf.d" }

def withDropIn (fragment : ServerWallConfig) : Disk ServerWallConfig :=
  .ofFiles (fun p => if p = ("/etc/serverwall.toml" : Text) then some [mainFile] else none)
    fun dir => if dir = ("/etc/serverwall/conf.d" : Text)
      then some [{ fileName := "web.toml", content := .ok [fragment] }] else none

def poolFragment : ServerWallConfig where
  backendPool := [{ name := "web", backend := [{ name := "one", address := "10.0.0.1:80" }] }]

/-- How the calls of an edit go if nothing fails and one write takes the document. -/
def smoothly : List Outcome := [.ok, .ok, .ok, .part 1, .ok, .ok, .ok]

/-- With a pool in a drop-in file, an edit of something else returns `Ok` and the
configuration does not load any more. -/
theorem reload_refused : ∃ config config' disk',
      loadConfig .verbatim (withDropIn poolFragment) "/etc/serverwall.toml" = .ok config ∧
      edited .verbatim (.addAclBlock "192.0.2.0/24") config = .ok config' ∧
      (runEdit .verbatim "/etc/serverwall.toml" 7 (.addAclBlock "192.0.2.0/24")).run.Ends
        (callers .verbatim "/etc/serverwall.toml") (withDropIn poolFragment) (.ok ()) disk' ∧
      loadConfig .verbatim disk' "/etc/serverwall.toml" = .error (.config "duplicate backend_pool name 'web'") :=
  ⟨_, _, _, rfl, rfl, Prog.ends_iff_play.mpr ⟨smoothly, rfl⟩, rfl⟩

theorem reload_succeeds : ∃ config' disk',
      (runEdit .verbatim "/etc/serverwall.toml" 7 (.addAclBlock "192.0.2.0/24")).run.Ends
        (callers .verbatim "/etc/serverwall.toml") (withDropIn {}) (.ok ()) disk' ∧
      loadConfig .verbatim disk' "/etc/serverwall.toml" = .ok config' ∧
      config'.security.acl.ip.block = [("192.0.2.0/24" : Text)] := by
  have hload : ∃ config, loadConfig .verbatim (withDropIn {}) "/etc/serverwall.toml" = .ok config := ⟨_, rfl⟩
  obtain ⟨config, hload⟩ := hload
  have hends := Prog.ends_iff_play (M := callers .verbatim "/etc/serverwall.toml")
    (w := withDropIn {}) (p := (runEdit .verbatim "/etc/serverwall.toml" 7 (.addAclBlock "192.0.2.0/24")).run) (x := .ok ()) |>.mpr ⟨smoothly, rfl⟩
  obtain ⟨config', hedited, hiff⟩ := reload_edit_iff .verbatim verbatim_lossless
    "/etc/serverwall.toml" 7 (.addAclBlock "192.0.2.0/24") _ _ config hload hends
  cases hload
  cases hedited
  refine ⟨_, _, hends, hiff.mpr ⟨[{}], rfl, ?_⟩, rfl⟩
  intro f hf
  obtain rfl := mem_singleton.mp hf
  exact ⟨rfl, rfl, rfl, rfl, rfl⟩

end ServerWall.Core
