import ServerWall.Core.Schema
import ServerWall.Lib.Net
import ServerWall.Lib.Result

/-!
# Access lists

`serverwall-core/src/acl`: addresses by lists (`evaluate_build`), countries, and request paths. A list
with an entry that is no network is not built. A database of countries is a function, or does not open.
-/

namespace ServerWall.Core

open Schema List

inductive AclDecision where
  | allow
  | deny
  deriving DecidableEq

/-! ## Address lists -/

structure IpMatcher where
  networks : List IpNetwork

def IpMatcher.new (addrs : AddrParser) (cidrs : List Text) :
    Except IpNetworkParseError IpMatcher := do
  let networks ← cidrs.mapM (IpNetwork.parse addrs)
  pure ⟨networks⟩

def IpMatcher.matches (matcher : IpMatcher) (ip : IpAddr) : Bool := matcher.networks.any fun net => net.contains ip

structure BlockList where
  matcher : IpMatcher

def BlockList.new (addrs : AddrParser) (cidrs : List Text) :
    Except IpNetworkParseError BlockList := do
  pure ⟨← IpMatcher.new addrs cidrs⟩

def BlockList.contains (list : BlockList) (ip : IpAddr) : Bool := list.matcher.matches ip

structure AllowList where
  matcher : IpMatcher

def AllowList.new (addrs : AddrParser) (cidrs : List Text) :
    Except IpNetworkParseError AllowList := do
  pure ⟨← IpMatcher.new addrs cidrs⟩

def AllowList.contains (list : AllowList) (ip : IpAddr) : Bool := list.matcher.matches ip

/-- A list of the configuration; an empty one is no list. -/
def unlessEmpty {α : Type} (new : List Text → Except IpNetworkParseError α) (cidrs : List Text) :
    Except IpNetworkParseError (Option α) :=
  if cidrs.isEmpty then pure none else some <$> new cidrs

/-! ## The engine -/

structure AccessControlEngine where
  blockList : Option BlockList
  allowList : Option AllowList
  defaultAction : AclDefaultAction

namespace AccessControlEngine

def build (addrs : AddrParser) (block allow : List Text) (default : AclDefaultAction) :
    Except IpNetworkParseError AccessControlEngine := do
  let blockList ← unlessEmpty (BlockList.new addrs) block
  let allowList ← unlessEmpty (AllowList.new addrs) allow
  pure { blockList, allowList, defaultAction := default }

def fromConfig (addrs : AddrParser) (config : FrontendAclConfig) :
    Except IpNetworkParseError AccessControlEngine :=
  build addrs config.blockList config.allowList config.defaultAction

def fromGlobalIp (addrs : AddrParser) (acl : IpAclConfig) :
    Except IpNetworkParseError AccessControlEngine :=
  build addrs acl.block acl.allow .allow

def evaluate (engine : AccessControlEngine) (ip : IpAddr) : AclDecision :=
  if engine.blockList.any (·.contains ip) then .deny
  else match engine.allowList with
    | some list => if list.contains ip then .allow else .deny
    | none => match engine.defaultAction with
      | .allow => .allow
      | .deny => .deny

end AccessControlEngine

/-! ## What the engine decides -/

def IsNetwork (addrs : AddrParser) (entry : Text) : Prop := ∃ net, IpNetwork.parse addrs entry = .ok net

def Listed (addrs : AddrParser) (cidrs : List Text) (ip : IpAddr) : Prop := ∃ entry ∈ cidrs, Covers addrs entry ip

section

variable {addrs : AddrParser} {ip : IpAddr} {cidrs block allow : List Text}

theorem IpMatcher.matches_iff (h : IpMatcher.new addrs cidrs = .ok matcher) :
    matcher.matches ip ↔ Listed addrs cidrs ip := by
  obtain ⟨networks, hn, rfl⟩ := bind_pure_eq_ok.mp h
  have hall := mapM_eq_ok.mp hn
  unfold IpMatcher.matches Listed
  rw [any_eq_true]
  clear h hn
  induction hall with
  | nil => simp
  | cons hp _ ih =>
    rw [exists_mem_cons_iff, exists_mem_cons_iff]
    exact or_congr (covers_iff hp).symm ih

theorem IpMatcher.exists_new : (∃ matcher, IpMatcher.new addrs cidrs = .ok matcher) ↔
      ∀ entry ∈ cidrs, IsNetwork addrs entry := by
  unfold IsNetwork
  rw [← exists_mapM_eq_ok]
  constructor
  · rintro ⟨matcher, h⟩
    obtain ⟨networks, hn, -⟩ := bind_pure_eq_ok.mp h
    exact ⟨networks, hn⟩
  · rintro ⟨networks, hn⟩
    exact ⟨⟨networks⟩, bind_pure_eq_ok.mpr ⟨networks, hn, rfl⟩⟩

theorem unlessEmpty_eq_ok {α : Type} {new : List Text → Except IpNetworkParseError α} {list : Option α} :
    unlessEmpty new cidrs = .ok list ↔
      (cidrs = [] ∧ list = none) ∨ (cidrs ≠ [] ∧ ∃ l, new cidrs = .ok l ∧ list = some l) := by
  unfold unlessEmpty
  cases cidrs with
  | nil => simp [pure, Except.pure, eq_comm]
  | cons entry cidrs => cases new (entry :: cidrs) <;> simp [eq_comm]

theorem exists_unlessEmpty {α : Type} (wrap : IpMatcher → α) :
    (∃ list, unlessEmpty (fun cidrs => IpMatcher.new addrs cidrs >>= fun m => pure (wrap m)) cidrs =
      .ok list) ↔ ∀ entry ∈ cidrs, IsNetwork addrs entry := by
  rw [← IpMatcher.exists_new]
  constructor
  · rintro ⟨list, h⟩
    rcases unlessEmpty_eq_ok.mp h with ⟨rfl, -⟩ | ⟨-, l, hl, -⟩
    · exact ⟨⟨[]⟩, rfl⟩
    · obtain ⟨matcher, hm, -⟩ := bind_pure_eq_ok.mp hl
      exact ⟨matcher, hm⟩
  · rintro ⟨matcher, hm⟩
    by_cases he : cidrs = []
    · exact ⟨none, unlessEmpty_eq_ok.mpr (.inl ⟨he, rfl⟩)⟩
    · exact ⟨some (wrap matcher), unlessEmpty_eq_ok.mpr
        (.inr ⟨he, wrap matcher, bind_pure_eq_ok.mpr ⟨matcher, hm, rfl⟩, rfl⟩)⟩

theorem BlockList.contains_iff {list : BlockList} (h : BlockList.new addrs cidrs = .ok list) :
    list.contains ip ↔ Listed addrs cidrs ip := by
  obtain ⟨matcher, hm, rfl⟩ := bind_pure_eq_ok.mp h
  exact IpMatcher.matches_iff hm

theorem AllowList.contains_iff {list : AllowList} (h : AllowList.new addrs cidrs = .ok list) :
    list.contains ip ↔ Listed addrs cidrs ip := by
  obtain ⟨matcher, hm, rfl⟩ := bind_pure_eq_ok.mp h
  exact IpMatcher.matches_iff hm

namespace AccessControlEngine

variable {default : AclDefaultAction}

/-- **An engine decides as its lists say.** -/
theorem evaluate_build (h : build addrs block allow default = .ok engine) :
    engine.evaluate ip = .deny ↔ Listed addrs block ip ∨ (allow ≠ [] ∧ ¬ Listed addrs allow ip) ∨
      (allow = [] ∧ default = .deny) := by
  obtain ⟨blockList, hbl, h⟩ := bind_eq_ok.mp h
  obtain ⟨allowList, hal, rfl⟩ := bind_pure_eq_ok.mp h
  have hb : (blockList.any (·.contains ip) = true) ↔ Listed addrs block ip := by
    rcases unlessEmpty_eq_ok.mp hbl with ⟨rfl, rfl⟩ | ⟨-, list, hli, rfl⟩
    · simp [Listed]
    · exact BlockList.contains_iff hli
  unfold evaluate
  by_cases hl : Listed addrs block ip
  · rw [if_pos (hb.mpr hl)]
    simp [hl]
  · rw [if_neg (fun h => hl (hb.mp h))]
    rcases unlessEmpty_eq_ok.mp hal with ⟨rfl, rfl⟩ | ⟨hne, list, hli, rfl⟩
    · cases default <;> simp [hl]
    · have ha : list.contains ip = true ↔ Listed addrs allow ip := AllowList.contains_iff hli
      by_cases hin : Listed addrs allow ip
      · simp [ha.mpr hin, hl, hin, hne]
      · have hout : list.contains ip = false := by
          rw [Bool.eq_false_iff]
          exact fun h => hin (ha.mp h)
        simp [hout, hin, hne]

theorem exists_build : (∃ engine, build addrs block allow default = .ok engine) ↔
      ∀ entry ∈ block ++ allow, IsNetwork addrs entry := by
  rw [forall_mem_append, ← exists_unlessEmpty BlockList.mk, ← exists_unlessEmpty AllowList.mk]
  constructor
  · rintro ⟨engine, h⟩
    obtain ⟨blockList, hb, h⟩ := bind_eq_ok.mp h
    obtain ⟨allowList, ha, -⟩ := bind_pure_eq_ok.mp h
    exact ⟨⟨blockList, hb⟩, allowList, ha⟩
  · rintro ⟨⟨blockList, hb⟩, allowList, ha⟩
    exact ⟨_, bind_eq_ok.mpr ⟨blockList, hb, bind_pure_eq_ok.mpr ⟨allowList, ha, rfl⟩⟩⟩

end AccessControlEngine

end

/-! ## Countries -/

/-- `GeoEngine`: the countries of addresses, and the lists in upper case. -/
structure GeoEngine where
  lookup : IpAddr → Option Text
  (blockCountries allowCountries : List Text)

abbrev GeoDatabases := Text → Option (IpAddr → Option Text)

namespace GeoEngine

/-- No engine if the check is off, has no database, or the database does not open. -/
def fromConfig (unicode : Unicode) (databases : GeoDatabases) (config : GeoConfig) :
    Option GeoEngine :=
  if config.enabled then do
    let path ← config.databasePath
    let lookup ← databases path
    pure {
      lookup
      blockCountries := config.blockCountries.map unicode.toUppercase
      allowCountries := config.allowCountries.map unicode.toUppercase }
  else none

def lookupCountry (unicode : Unicode) (engine : GeoEngine) (ip : IpAddr) : Option Text :=
  (engine.lookup ip).map unicode.toUppercase

/-- With an allow list the country has to be known and in it; otherwise a known country
must not be blocked. -/
def check (unicode : Unicode) (engine : GeoEngine) (ip : IpAddr) : AclDecision :=
  let country := engine.lookupCountry unicode ip
  if !engine.allowCountries.isEmpty then
    if country.any engine.allowCountries.contains then .allow else .deny
  else if !engine.blockCountries.isEmpty && country.any engine.blockCountries.contains then .deny
  else .allow

/-- A country is in a list in any case. -/
def named (unicode : Unicode) (countries : List Text) (country : Text) : Bool :=
  (countries.map unicode.toUppercase).contains (unicode.toUppercase country)

/-- **Countries are admitted as documented** exactly if there is no allow list, or the country
is known and not in both lists. -/
theorem geo_admission_iff (unicode : Unicode) (databases : GeoDatabases) (config : GeoConfig) (engine : GeoEngine)
    (ip : IpAddr) (hbuilt : fromConfig unicode databases config = some engine) :
    (engine.check unicode ip = .allow ↔ engine.lookup ip = none ∨ ∃ country, engine.lookup ip = some country ∧
      ¬ named unicode config.blockCountries country ∧
      (config.allowCountries ≠ [] → named unicode config.allowCountries country)) ↔
    config.allowCountries = [] ∨ ∃ country, engine.lookup ip = some country ∧
      ¬ (named unicode config.allowCountries country ∧ named unicode config.blockCountries country) := by
  obtain ⟨lookup, rfl⟩ : ∃ lookup, engine = ⟨lookup, config.blockCountries.map unicode.toUppercase,
      config.allowCountries.map unicode.toUppercase⟩ := by
    obtain ⟨-, hb⟩ := Option.ite_none_right_eq_some.mp hbuilt
    obtain ⟨_, -, hb⟩ := Option.bind_eq_some_iff.mp hb
    obtain ⟨lookup, -, hb⟩ := Option.bind_eq_some_iff.mp hb
    exact ⟨lookup, (Option.some.inj hb).symm⟩
  obtain hc | ⟨country, hc⟩ := (lookup ip).eq_none_or_eq_some
  · simp [check, lookupCountry, hc]
  · have hblock : named unicode config.blockCountries country = true → config.blockCountries ≠ [] := by
      rintro hout hnil
      rw [named, hnil] at hout
      cases hout
    have hn : ∀ countries, (countries.map unicode.toUppercase).contains (unicode.toUppercase country) =
      named unicode countries country := fun _ => rfl
    simp only [check, lookupCountry, hc, Option.map_some, Option.any_some, hn, isEmpty_map, Option.some.injEq, exists_eq_left',
      reduceCtorEq, false_or]
    by_cases hall : config.allowCountries = []
    · cases hout : named unicode config.blockCountries country <;> simp_all
    · cases hin : named unicode config.allowCountries country <;>
        cases hout : named unicode config.blockCountries country <;> simp [hall]

def twoLists : GeoConfig :=
  { enabled := true, databasePath := some [], blockCountries := ["de"], allowCountries := ["DE", "FR"] }

theorem geo_admission_known : ∃ engine, fromConfig .ascii (fun _ => some fun _ => some "FR") twoLists = some engine ∧
      engine.check .ascii (.v4 192 0 2 1) = .allow :=
  ⟨_, rfl, ((geo_admission_iff .ascii (fun _ => some fun _ => some "FR") twoLists _ (.v4 192 0 2 1) rfl).mpr
    (.inr ⟨"FR", rfl, by decide⟩)).mpr (.inr ⟨"FR", rfl, by decide⟩)⟩

/-- A country in both lists is allowed, and one that is not known is refused. -/
theorem both_lists_allow : ∃ engine engine',
      fromConfig .ascii (fun _ => some fun _ => some "DE") twoLists = some engine ∧
      engine.check .ascii (.v4 192 0 2 1) = .allow ∧
      fromConfig .ascii (fun _ => some fun _ => none) twoLists = some engine' ∧
      engine'.check .ascii (.v4 192 0 2 1) = .deny :=
  ⟨_, _, rfl, by decide, rfl, by decide⟩

end GeoEngine

/-! ## Paths -/

/-- `PathAcl`: the compiled patterns of each rule, and whether it blocks. -/
structure PathAcl where
  rules : List (List (Text → Bool) × Bool)

namespace PathAcl

/-- Patterns that do not compile are skipped, and rules without any. `regex` is
`Regex::new` with `is_match`. -/
def fromConfig (unicode : Unicode) (regex : Text → Option (Text → Bool))
    (patterns : List PathPatternConfig) : PathAcl where
  rules := (patterns.map fun entry =>
      (entry.patterns.filterMap regex, unicode.toLowercase entry.action == "block".toList)).filter
    fun rule => !rule.1.isEmpty

def check (acl : PathAcl) (path : Text) : Option AclDecision :=
  (acl.rules.find? fun rule => rule.1.any fun pattern => pattern path).map fun rule =>
    if rule.2 then .deny else .allow

def isEmpty (acl : PathAcl) : Bool := acl.rules.isEmpty

def entryMatches (regex : Text → Option (Text → Bool)) (path : Text) (entry : PathPatternConfig) : Bool :=
  entry.patterns.any fun raw => (regex raw).any fun pattern => pattern path

/-- **The first entry that matches decides**, whatever is skipped. -/
theorem check_fromConfig : (fromConfig unicode regex patterns).check path =
      (patterns.find? (entryMatches regex path)).map fun entry =>
        if unicode.toLowercase entry.action == "block".toList then .deny else .allow := by
  have he : ∀ entry : PathPatternConfig, (decide ((!(entry.patterns.filterMap regex).isEmpty) = true ∧
        ((entry.patterns.filterMap regex).any fun pattern => pattern path) = true)) =
      entryMatches regex path entry := by
    intro entry
    have hany : ((entry.patterns.filterMap regex).any fun pattern => pattern path) =
        entryMatches regex path entry := by
      rw [any_filterMap]
      rfl
    rw [hany]
    cases hem : entry.patterns.filterMap regex with
    | nil =>
      rw [hem] at hany
      rw [← hany]
      rfl
    | cons pattern rest => simp
  unfold fromConfig check
  rw [find?_filter, find?_map, Option.map_map]
  simp only [Function.comp_def, he]

end PathAcl

end ServerWall.Core
