import Mathlib.Data.Char
import Mathlib.Data.List.Lex
import Mathlib.Data.List.Sort
import ServerWall.Core.Schema
import ServerWall.Lib.Result

/-!
# Loading and validating the configuration

`serverwall-core/src/config/loader.rs`. `load_config` appends what the files of `config_dir` add to five
lists, and validates. TOML and the parser of networks are a parameter (`Crates`). Files have inodes
because the writer renames them; a path is its text.
-/

namespace ServerWall.Core

open Schema List Text

/-! ## Errors -/

inductive ServerWallError where
  | config (message : Text)
  | configLoad (path : Text) (source : IoError)
  | io (source : IoError)
  | accessDenied (ip : Text)
  deriving DecidableEq

abbrev Result := Except ServerWallError

/-! ## Paths -/

def parent (path : Text) : Option Text := if path = [] || path = ['/'] then none
  else match rsplitOnce '/' path with
    | none => some []
    | some ([], _) => some ['/']
    | some (dir, _) => some dir

def joinPath (dir name : Text) : Text := if dir = [] || dir = ['/'] then dir ++ name else dir ++ '/' :: name

/-- Whether `Path::extension` of a file name is `toml`. -/
def isTomlFile (name : Text) : Bool :=
  match rsplitOnce '.' name with
  | some (stem, extension) => stem != [] && extension == ("toml" : Text)
  | none => false

/-! ## Disks -/

/-- A file, apart from the paths that lead to it: one that was there at the
start, or one made later. -/
inductive Ino where
  | original (path : Text)
  | made (n : Nat)
  deriving DecidableEq

structure DropIn (Octet : Type) where
  fileName : Text
  content : Except IoError (List Octet)

structure Disk (Octet : Type) where
  names : Text → Option Ino
  data : Ino → List Octet
  made : Nat := 0
  dirs : Text → Option (List (DropIn Octet)) := fun _ => none

def Disk.ofFiles {Octet : Type} (files : Text → Option (List Octet))
    (dirs : Text → Option (List (DropIn Octet)) := fun _ => none) : Disk Octet where
  names path := (files path).map fun _ => .original path
  data
    | .original path => (files path).getD []
    | .made _ => []
  dirs := dirs

def Disk.content {Octet : Type} (disk : Disk Octet) (path : Text) : Option (List Octet) :=
  (disk.names path).map disk.data

/-- What the configuration code calls outside the repository. -/
structure Crates (Octet : Type) where
  toStringPretty : ServerWallConfig → Except Text (List Octet)
  fromStr : List Octet → Except Text ServerWallConfig
  isUtf8 : List Octet → Bool
  isNetwork : Text → Bool
  unicode : Unicode

/-- Crates over files that hold a configuration as it is: a text format without
loss, and an address parser that refuses the empty string only. -/
def Crates.verbatim : Crates ServerWallConfig where
  toStringPretty config := .ok [config]
  fromStr
    | [config] => .ok config
    | _ => .error "expected one configuration"
  isUtf8 _ := true
  isNetwork t := !t.isEmpty
  unicode := .ascii

/-! ## Validation -/

def checkAll {α ε : Type} (check : α → Except ε Unit) : List α → Except ε Unit
  | [] => pure ()
  | a :: as => do
    check a
    checkAll check as

def checkDistinct {α ε : Type} (key : α → Text) (repeated : α → ε) : List Text → List α → Except ε Unit
  | _, [] => pure ()
  | seen, a :: as =>
    if seen.contains (key a) then throw (repeated a)
    else checkDistinct key repeated (key a :: seen) as

def protocolDebug : ProtocolType → Text
  | .https => "Https"
  | .smtps => "Smtps"
  | .smtpStarttls => "SmtpStarttls"
  | .imaps => "Imaps"
  | .tcp => "Tcp"
  | .stratum => "Stratum"

def requiresTls (frontend : FrontendConfig) : Bool :=
  match frontend.protocol with
  | .https | .smtps | .smtpStarttls | .imaps => true
  | .tcp | .stratum => false

def hasTlsConfig (frontend : FrontendConfig) : Bool := frontend.tlsCert.isSome || frontend.tlsPfx.isSome

def validateFrontend (poolNames : List Text) (frontend : FrontendConfig) : Result Unit := do
  if !poolNames.contains frontend.backendPool then
    throw (.config (fmt ["frontend '", frontend.name, "' references unknown backend_pool '", frontend.backendPool, "'"]))
  if requiresTls frontend && !hasTlsConfig frontend then
    throw (.config (fmt ["frontend '", frontend.name, "' uses protocol ",
      protocolDebug frontend.protocol, " but has no TLS certificate configured"]))
  if frontend.listen.isEmpty then
    throw (.config (fmt ["frontend '", frontend.name, "' has no listen addresses"]))
  if frontend.wafEnabled && frontend.protocol != .https then
    throw (.config (fmt ["frontend '", frontend.name, "' has waf_enabled=true but protocol is ",
      protocolDebug frontend.protocol, " (WAF is HTTPS-only)"]))

def validatePool (pool : BackendPoolConfig) : Result Unit :=
  if pool.backend.isEmpty then
    throw (.config (fmt ["backend_pool '", pool.name, "' has no backends defined"]))
  else pure ()

def validateScanner (scanner : ScannerConfig) : Result Unit :=
  if (before "\x7bfile\x7d" scanner.command).isNone then
    throw (.config (fmt ["antivirus scanner '", scanner.name, "' command must contain '\x7bfile\x7d' placeholder"]))
  else pure ()

def validateHost (isNetwork : Text → Bool) (host : Text) : Result Unit := if isNetwork host then pure ()
  else throw (.config (fmt ["relay trusted_host '", host, "' is not a valid IP or CIDR"]))

def validateConfig (isNetwork : Text → Bool) (config : ServerWallConfig) : Result Unit := do
  checkAll (validateFrontend (config.backendPool.map (·.name))) config.frontend
  checkAll validatePool config.backendPool
  checkDistinct (·.name) (fun f => .config (fmt ["duplicate frontend name '", f.name, "'"])) [] config.frontend
  checkDistinct (·.name) (fun p => .config (fmt ["duplicate backend_pool name '", p.name, "'"])) []
    config.backendPool
  checkAll validateScanner config.antispam.antivirus.scanners
  checkAll (validateHost isNetwork) config.relay.trustedHosts.hosts

/-! ## Loading -/

variable {Octet : Type} (crates : Crates Octet)

def loadConfigFromStr (content : List Octet) : Result ServerWallConfig :=
  match crates.fromStr content with
  | .ok config => pure config
  | .error e => throw (.config e)

def mergeConfig (base fragment : ServerWallConfig) : ServerWallConfig := { base with
    frontend := base.frontend ++ fragment.frontend
    backendPool := base.backendPool ++ fragment.backendPool
    wafRuleset := base.wafRuleset ++ fragment.wafRuleset
    antispam := { base.antispam with
      domainOverrides := base.antispam.domainOverrides ++ fragment.antispam.domainOverrides }
    relay := { base.relay with
      dkim := { base.relay.dkim with
        domains := base.relay.dkim.domains ++ fragment.relay.dkim.domains } } }

def readToString (content : Except IoError (List Octet)) : Except IoError (List Octet) :=
  match content with
  | .ok octets => if crates.isUtf8 octets then .ok octets else .error .invalidData
  | .error e => .error e

def loadFragment (dir : Text) (entry : DropIn Octet) : Result ServerWallConfig :=
  let path := joinPath dir entry.fileName
  match readToString crates entry.content with
  | .error e => throw (.configLoad path e)
  | .ok content => match crates.fromStr content with
    | .ok fragment => pure fragment
    | .error e => throw (.config (fmt [path, ": ", e]))

def dropInFiles (entries : List (DropIn Octet)) : List (DropIn Octet) :=
  (entries.filter fun e => isTomlFile e.fileName).insertionSort fun a b => a.fileName ≤ b.fileName

/-- The fragments of the drop-in directory a configuration names, if it names
one. -/
def loadFragments (disk : Disk Octet) (configDir : Option Text) : Result (List ServerWallConfig) :=
  match configDir with
  | none => pure []
  | some dir => match disk.dirs dir with
    | none => pure []
    | some entries => (dropInFiles entries).mapM (loadFragment crates dir)

def loadConfig (disk : Disk Octet) (path : Text) : Result ServerWallConfig := do
  let content ← match readToString crates (match disk.content path with
        | some octets => .ok octets
        | none => .error .notFound) with
    | .ok content => pure content
    | .error e => throw (.configLoad path e)
  let config ← loadConfigFromStr crates content
  let fragments ← loadFragments crates disk config.global.configDir
  let merged := fragments.foldl mergeConfig config
  validateConfig crates.isNetwork merged
  pure merged

/-! ## What validation guarantees -/

theorem checkAll_eq_ok {α ε : Type} {check : α → Except ε Unit} {as : List α} :
    checkAll check as = .ok () ↔ ∀ a ∈ as, check a = .ok () := by
  induction as with
  | nil => simp [checkAll, pure, Except.pure]
  | cons a as ih =>
    rw [checkAll, forall_mem_cons, ← ih]
    cases check a <;> simp [bind, Except.bind]

theorem checkDistinct_eq_ok {α ε : Type} {key : α → Text} {repeated : α → ε} {seen : List Text} {as : List α} :
    checkDistinct key repeated seen as = .ok () ↔ (as.map key).Nodup ∧ ∀ a ∈ as, key a ∉ seen := by
  induction as generalizing seen with
  | nil => simp [checkDistinct, pure, Except.pure]
  | cons a as ih =>
    rw [checkDistinct, map_cons, nodup_cons, forall_mem_cons]
    split
    · rename_i hs
      have hmem : key a ∈ seen := contains_iff_mem.mp hs
      simp [throw, throwThe, MonadExceptOf.throw, hmem]
    · rename_i hs
      have hmem : key a ∉ seen := fun h => hs (contains_iff_mem.mpr h)
      rw [ih]
      constructor
      · rintro ⟨hn, hf⟩
        refine ⟨⟨?_, hn⟩, hmem, fun b hb h => hf b hb (mem_cons_of_mem _ h)⟩
        intro hin
        obtain ⟨b, hb, heq⟩ := mem_map.mp hin
        exact hf b hb (heq ▸ mem_cons_self)
      · rintro ⟨⟨hnew, hn⟩, -, hr⟩
        refine ⟨hn, fun b hb h => ?_⟩
        rcases mem_cons.mp h with heq | h
        · exact hnew (heq ▸ mem_map_of_mem hb)
        · exact hr b hb h

structure Valid (isNetwork : Text → Bool) (config : ServerWallConfig) : Prop where
  frontends : ∀ f ∈ config.frontend, validateFrontend (config.backendPool.map (·.name)) f = .ok ()
  pools : ∀ p ∈ config.backendPool, validatePool p = .ok ()
  frontend_names : (config.frontend.map (·.name)).Nodup
  pool_names : (config.backendPool.map (·.name)).Nodup
  scanners : ∀ s ∈ config.antispam.antivirus.scanners, validateScanner s = .ok ()
  hosts : ∀ h ∈ config.relay.trustedHosts.hosts, validateHost isNetwork h = .ok ()

theorem bind_eq_ok_unit {ε : Type} {x : Except ε Unit} {y : Unit → Except ε Unit} :
    x >>= y = .ok () ↔ x = .ok () ∧ y () = .ok () := by
  cases x <;> simp [bind, Except.bind]

theorem validateConfig_eq_ok {isNetwork : Text → Bool} {config : ServerWallConfig} :
    validateConfig isNetwork config = .ok () ↔ Valid isNetwork config := by
  unfold validateConfig
  simp only [bind_eq_ok_unit, checkAll_eq_ok, checkDistinct_eq_ok, not_mem_nil,
    not_false_eq_true, implies_true, and_true]
  exact ⟨fun ⟨h₁, h₂, h₃, h₄, h₅, h₆⟩ => ⟨h₁, h₂, h₃, h₄, h₅, h₆⟩,
    fun h => ⟨h.frontends, h.pools, h.frontend_names, h.pool_names, h.scanners, h.hosts⟩⟩

theorem validateFrontend_pool
    (h : validateFrontend poolNames frontend = .ok ()) : frontend.backendPool ∈ poolNames := by
  by_contra hp
  have hc : poolNames.contains frontend.backendPool = false := Bool.eq_false_iff.mpr fun h => hp (contains_iff_mem.mp h)
  rw [validateFrontend, hc] at h
  cases h

theorem valid_of_loadConfig {Octet : Type} {crates : Crates Octet} {disk : Disk Octet} {path : Text}
    {config : ServerWallConfig} (h : loadConfig crates disk path = .ok config) : Valid crates.isNetwork config := by
  unfold loadConfig at h
  split at h
  · obtain ⟨content, _, h⟩ := bind_eq_ok.mp h
    obtain ⟨base, _, h⟩ := bind_eq_ok.mp h
    obtain ⟨fragments, _, h⟩ := bind_eq_ok.mp h
    obtain ⟨_, hv, h⟩ := bind_eq_ok.mp h
    cases h
    exact validateConfig_eq_ok.mp hv
  · obtain ⟨_, ht, _⟩ := bind_eq_ok.mp h
    cases ht

end ServerWall.Core
