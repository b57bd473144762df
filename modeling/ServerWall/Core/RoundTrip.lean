import ServerWall.Core.DropIns
import ServerWall.Core.Serde

/-!
# Writing a configuration and reading it back

A field that is `None` is not written and read as its default. Three optional fields have one that is not
`None`: whoever clears them finds them set again (`back_config_iff`, `round_trip_iff`). Of the text it is
only used that it parses to the tree it was printed from (`TomlText`).
-/

namespace ServerWall.Core

open Schema
open Toml

/-! ## What comes back -/

structure NothingCleared (config : ServerWallConfig) : Prop where
  tlsCert : config.webui.tlsCert ≠ none
  tlsKey : config.webui.tlsKey ≠ none
  database : config.security.geo.databasePath ≠ none
  profileDatabases : ∀ p ∈ config.securityProfiles, p.geo.databasePath ≠ none

theorem back_webui_iff {webui : WebuiConfig} :
    Serde.back webui = webui ↔ webui.tlsCert ≠ none ∧ webui.tlsKey ≠ none := by
  refine (webuiConfigRecord.back_eq_iff (r := webui)).trans ?_
  rw [backAll_cons_faithful, backAll_cons_faithful, backAll_cons_iff, backAll_cons_iff, backAll_faithful, and_true]
  exact and_congr Slot.optional_back_iff Slot.optional_back_iff

theorem back_geo_iff {geo : GeoConfig} : Serde.back geo = geo ↔ geo.databasePath ≠ none := by
  refine (geoConfigRecord.back_eq_iff (r := geo)).trans ?_
  rw [backAll_cons_faithful, backAll_cons_iff, backAll_faithful, and_true]
  exact Slot.optional_back_iff

theorem back_profile_iff {profile : SecurityProfile} :
    Serde.back profile = profile ↔ profile.geo.databasePath ≠ none := by
  refine (securityProfileRecord.back_eq_iff (r := profile)).trans ?_
  rw [backAll_cons_faithful, backAll_cons_faithful, backAll_cons_faithful, backAll_cons_faithful,
    backAll_cons_faithful, backAll_cons_faithful, backAll_cons_faithful, backAll_cons_faithful,
    backAll_cons_iff, backAll_faithful, and_true]
  exact back_geo_iff

theorem back_security_iff {security : SecurityConfig} :
    Serde.back security = security ↔ security.geo.databasePath ≠ none := by
  refine (securityConfigRecord.back_eq_iff (r := security)).trans ?_
  rw [backAll_cons_faithful, backAll_cons_faithful, backAll_cons_faithful, backAll_cons_faithful,
    backAll_cons_iff, backAll_faithful, and_true]
  exact back_geo_iff

theorem back_profiles_iff {profiles : List SecurityProfile} :
    Serde.back profiles = profiles ↔ ∀ p ∈ profiles, p.geo.databasePath ≠ none := by
  rw [list_back_iff]
  simp only [back_profile_iff]

/-- **The configurations that come back as they were written.** -/
theorem back_config_iff {config : ServerWallConfig} : Serde.back config = config ↔ NothingCleared config := by
  refine (serverWallConfigRecord.back_eq_iff (r := config)).trans ?_
  rw [backAll_cons_faithful, backAll_cons_iff, backAll_cons_faithful, backAll_cons_faithful, backAll_cons_faithful,
    backAll_cons_faithful, backAll_cons_iff, backAll_cons_faithful, backAll_cons_iff, backAll_faithful, and_true]
  constructor
  · rintro ⟨hw, hp, hs⟩
    obtain ⟨hc, hkey⟩ := back_webui_iff.mp hw
    exact ⟨hc, hkey, back_security_iff.mp hs, back_profiles_iff.mp hp⟩
  · intro h
    exact ⟨back_webui_iff.mpr ⟨h.tlsCert, h.tlsKey⟩, back_profiles_iff.mpr h.profileDatabases,
      back_security_iff.mpr h.database⟩

/-! ## Documents as text -/

structure TomlText (Octet : Type) where
  print : Value → Except Text (List Octet)
  parse : List Octet → Except Text Value
  isUtf8 : List Octet → Bool
  mismatch : Value → Text
  isUtf8_print : ∀ {v doc}, print v = .ok doc → isUtf8 doc = true
  parse_print : ∀ {v doc}, print v = .ok doc → parse doc = .ok v

variable {Octet : Type}

def TomlText.crates (text : TomlText Octet) (isNetwork : Text → Bool) (unicode : Unicode) : Crates Octet where
  toStringPretty config := text.print (toToml config)
  fromStr doc := match text.parse doc with
    | .error e => .error e
    | .ok v => match fromToml v with
      | some config => .ok config
      | none => .error (text.mismatch v)
  isUtf8 := text.isUtf8
  isNetwork := isNetwork
  unicode := unicode

theorem TomlText.fromStr_print {text : TomlText Octet} {isNetwork : Text → Bool}
    {unicode : Unicode} {config : ServerWallConfig}
    (h : (text.crates isNetwork unicode).toStringPretty config = .ok doc) :
    (text.crates isNetwork unicode).fromStr doc = .ok (Serde.back config) := by
  have hr : fromToml (toToml config) = some (Serde.back config) := Serde.decode_encode config
  simp only [TomlText.crates, text.parse_print h, hr]

def TomlText.verbatim : TomlText Value where
  print v := .ok [v]
  parse
    | [v] => .ok v
    | _ => .error "expected one document"
  isUtf8 _ := true
  mismatch _ := "invalid type"
  isUtf8_print _ := rfl
  parse_print h := by
    cases h
    rfl

/-! ## The round trip -/

section

variable (text : TomlText Octet) (isNetwork : Text → Bool) (unicode : Unicode) (path : Text)
variable (os : Nat) (config : ServerWallConfig) (disk disk' : Disk Octet)

theorem load_written (hdir : config.global.configDir = none)
    (hw : (writeConfigAtomic (text.crates isNetwork unicode) path os config).run.Ends
      (callers (text.crates isNetwork unicode) path) disk (.ok ()) disk') :
    loadConfig (text.crates isNetwork unicode) disk' path =
      validateConfig isNetwork (Serde.back config) >>= fun _ => pure (Serde.back config) := by
  obtain ⟨doc, hs, hc, -⟩ := writeConfigAtomic_ends hw
  have hp := serialize_eq_ok hs
  -- the global section comes back, so no drop-in file is read
  have hg : (Serde.back config).global = config.global := Lossless.back_eq config.global
  rw [loadConfig_of_content hc (text.isUtf8_print hp) (text.fromStr_print hp)]
  unfold mergeAll loadFragments
  rw [hg, hdir]
  rfl

/-- **A valid configuration without drop-in files that is written and loaded again is
the same exactly if no optional field with a default was cleared.** -/
theorem round_trip_iff (hvalid : validateConfig isNetwork config = .ok ()) (hdir : config.global.configDir = none)
    (hwrite : (writeConfigAtomic (text.crates isNetwork unicode) path os config).run.Ends
      (callers (text.crates isNetwork unicode) path) disk (.ok ()) disk') :
    loadConfig (text.crates isNetwork unicode) disk' path = .ok config ↔ NothingCleared config := by
  rw [load_written text isNetwork unicode path os config disk disk' hdir hwrite, ← back_config_iff]
  constructor
  · intro h
    obtain ⟨-, -, hsame⟩ := bind_pure_eq_ok.mp h
    exact hsame.symm
  · intro hsame
    rw [hsame, hvalid]
    rfl

end

def emptyDisk {Octet : Type} : Disk Octet := .ofFiles fun _ => none

/-- How the calls of the writer go if nothing fails and one write takes the
document. -/
def smoothWrite : List Outcome := [.ok, .ok, .part 1, .ok, .ok, .ok]

def cleared : ServerWallConfig where
  security := { geo := { enabled := true, databasePath := none } }

/-- A cleared database path is set again after the next load. -/
theorem cleared_comes_back : ∃ disk' config',
      validateConfig (fun _ => true) cleared = .ok () ∧ cleared.global.configDir = none ∧
      (writeConfigAtomic (TomlText.verbatim.crates (fun _ => true) .ascii) "/etc/serverwall.toml" 7 cleared).run.Ends (callers (TomlText.verbatim.crates (fun _ => true) .ascii) "/etc/serverwall.toml") emptyDisk (.ok ()) disk' ∧
      loadConfig (TomlText.verbatim.crates (fun _ => true) .ascii) disk' "/etc/serverwall.toml" = .ok config' ∧
      cleared.security.geo.databasePath = none ∧
      config'.security.geo.databasePath = some "/opt/serverwall/lib/geoip/dbip-country-lite.mmdb" := by
  have hwrite := Prog.ends_iff_play (w := emptyDisk) (x := .ok ())
    (M := callers (TomlText.verbatim.crates (fun _ => true) .ascii) "/etc/serverwall.toml")
    (p := (writeConfigAtomic (TomlText.verbatim.crates (fun _ => true) .ascii)
      "/etc/serverwall.toml" 7 cleared).run) |>.mpr ⟨smoothWrite, rfl⟩
  exact ⟨_, Serde.back cleared, rfl, rfl, hwrite, load_written _ _ _ _ _ _ _ _ rfl hwrite, rfl, rfl⟩

def located : ServerWallConfig where
  security := { geo := { enabled := true, databasePath := some "/srv/geo.mmdb" } }

theorem located_comes_back : ∃ disk', loadConfig (TomlText.verbatim.crates (fun _ => true) .ascii) disk'
      "/etc/serverwall.toml" = .ok located := by
  have hwrite := Prog.ends_iff_play (w := emptyDisk) (x := .ok ())
    (M := callers (TomlText.verbatim.crates (fun _ => true) .ascii) "/etc/serverwall.toml")
    (p := (writeConfigAtomic (TomlText.verbatim.crates (fun _ => true) .ascii)
      "/etc/serverwall.toml" 7 located).run) |>.mpr ⟨smoothWrite, rfl⟩
  have hiff := round_trip_iff .verbatim (fun _ => true) .ascii "/etc/serverwall.toml" 7 located
    emptyDisk _ rfl rfl hwrite
  refine ⟨_, hiff.mpr ⟨?_, ?_, ?_, ?_⟩⟩
  · exact Option.some_ne_none _
  · exact Option.some_ne_none _
  · exact Option.some_ne_none _
  · intro p hp
    cases hp

end ServerWall.Core
