import ServerWall.Core.Acl
import ServerWall.Core.Loader

/-!
# Who may connect to the web interface

`AppState::from_config` and `reload_config` (`serverwall-webui/src/state.rs`), which make the matcher of
`webui.allow_list`, and the test of the accept loops in `main.rs`. With an entry that is no network, the
networks of all addresses are taken instead (`outsider_refused_iff`, `bad_entry_admits`).
-/

namespace ServerWall.Webui

open Schema Core List IpNetwork IpMatcher

/-! ## The matcher -/

def everyone (addrs : AddrParser) : Except IpNetworkParseError IpMatcher := IpMatcher.new addrs ["0.0.0.0/0", "::/0"]

/-- The matcher of a list; `none` is the panic of an `unwrap`. -/
def allowMatcher (addrs : AddrParser) (allowList : List Text) : Option IpMatcher :=
  match IpMatcher.new addrs allowList with
  | .ok matcher => some matcher
  | .error _ => (everyone addrs).toOption

structure AppState where
  config : ServerWallConfig
  ipAllow : IpMatcher

/-- At the start, with whatever configuration that begins with. -/
def AppState.fromConfig (addrs : AddrParser) (config : ServerWallConfig) : Option AppState :=
  (allowMatcher addrs config.webui.allowList).map fun ipAllow => { config, ipAllow }

section

variable {Octet : Type} (crates : Crates Octet) (addrs : AddrParser)

/-- What is read is parsed and not validated. A file that cannot be read or parsed changes
nothing. -/
def AppState.reloadConfig (state : AppState) (content : Except IoError (List Octet)) : AppState :=
  match readToString crates content with
  | .error _ => state
  | .ok raw =>
    match loadConfigFromStr crates raw with
    | .error _ => state
    | .ok config => (AppState.fromConfig addrs config).getD state

/-- The state after the configuration was read again, each time with what the file held. -/
def AppState.after (state : AppState) (contents : List (Except IoError (List Octet))) : AppState :=
  contents.foldl (AppState.reloadConfig crates addrs) state

end

def AppState.admits (state : AppState) (peer : IpAddr) : Bool := state.ipAllow.matches peer

/-! ## Whom it admits -/

/-- The address is in a network that an entry of the list parses to. -/
def Contained (addrs : AddrParser) (allowList : List Text) (peer : IpAddr) : Prop :=
  ∃ entry ∈ allowList, ∃ net, IpNetwork.parse addrs entry = .ok net ∧ net.contains peer = true

/-- `IpAddr::from_str` reads the two unspecified addresses. -/
structure ReadsUnspecified (addrs : AddrParser) : Prop where
  v4 : addrs.parse "0.0.0.0" = some (.v4 0 0 0 0)
  v6 : addrs.parse "::" = some (.v6 fun _ => 0)

theorem everyone_matches (h : ReadsUnspecified addrs) :
    ∃ matcher, everyone addrs = .ok matcher ∧ ∀ peer, matcher.matches peer := by
  have hz : (IpAddr.v6 fun _ => 0).value = 0 := by decide
  have h4 : parse addrs "0.0.0.0/0" = _ :=
    (parse_of_split (by decide : _ = some (("0.0.0.0" : Text), ("0" : Text))) h.v4
      rfl).trans (new_eq_ok (Nat.zero_le _) (Nat.zero_mod _))
  have h6 : parse addrs "::/0" = _ :=
    (parse_of_split (by decide : _ = some (("::" : Text), ("0" : Text))) h.v6
      rfl).trans (new_eq_ok (Nat.zero_le _) (hz ▸ Nat.zero_mod _))
  refine ⟨_, bind_pure_eq_ok.mpr ⟨_, mapM_eq_ok.mpr (.cons h4 (.cons h6 .nil)), rfl⟩, ?_⟩
  intro peer
  cases peer with
  | v4 a b c d => exact any_eq_true.mpr ⟨_, .head _, IpAddr.agree_zero rfl⟩
  | v6 segments => exact any_eq_true.mpr ⟨_, .tail _ (.head _), IpAddr.agree_zero rfl⟩

section

variable {addrs : AddrParser} {allowList : List Text} {matcher : IpMatcher}

theorem matches_iff_contained (h : new addrs allowList = .ok matcher) :
    matcher.matches peer ↔ Contained addrs allowList peer := by
  have hall := exists_new.mp ⟨matcher, h⟩
  rw [matches_iff h]
  constructor
  · rintro ⟨entry, he, hco⟩
    obtain ⟨net, hnet⟩ := hall entry he
    exact ⟨entry, he, net, hnet, (covers_iff hnet).mp hco⟩
  · rintro ⟨entry, he, net, hnet, hc⟩
    exact ⟨entry, he, (covers_iff hnet).mpr hc⟩

/-- **What a list comes to**: everybody, if an entry is no network, and otherwise who is in one
of its networks. -/
theorem allowMatcher_matches_iff (ha : ReadsUnspecified addrs)
    (h : allowMatcher addrs allowList = some matcher) (peer : IpAddr) :
    matcher.matches peer ↔ Contained addrs allowList peer ∨ ∃ entry ∈ allowList, ¬ IsNetwork addrs entry := by
  unfold allowMatcher at h
  cases hnew : new addrs allowList with
  | ok built =>
    rw [hnew] at h
    cases h
    have hall := exists_new.mp ⟨matcher, hnew⟩
    rw [matches_iff_contained hnew]
    refine ⟨.inl, fun hor => hor.resolve_right ?_⟩
    rintro ⟨entry, he, hbad⟩
    exact hbad (hall entry he)
  | error e =>
    obtain ⟨all, hall, hm⟩ := everyone_matches ha
    rw [hnew, hall] at h
    cases h
    refine iff_of_true (hm peer) (.inr ?_)
    by_contra hn
    obtain ⟨built, hb⟩ := exists_new.mpr fun entry he =>
      by_contra fun hbad => hn ⟨entry, he, hbad⟩
    cases hnew.symm.trans hb

end

theorem exists_allowMatcher (ha : ReadsUnspecified addrs)
    (allowList : List Text) : ∃ matcher, allowMatcher addrs allowList = some matcher := by
  unfold allowMatcher
  cases new addrs allowList with
  | ok matcher => exact ⟨matcher, rfl⟩
  | error e =>
    obtain ⟨all, hall, _⟩ := everyone_matches ha
    exact ⟨all, by rw [hall]; rfl⟩

namespace AppState

variable {addrs : AddrParser} {config : ServerWallConfig} {state : AppState}

/-- The matcher is that of the configuration's list. -/
def InForce (addrs : AddrParser) (state : AppState) : Prop :=
  allowMatcher addrs state.config.webui.allowList = some state.ipAllow

theorem inForce_fromConfig (h : fromConfig addrs config = some state) : state.InForce addrs := by
  obtain ⟨ipAllow, hm, rfl⟩ := Option.map_eq_some_iff.mp h
  exact hm

theorem exists_fromConfig (ha : ReadsUnspecified addrs) (config) :
    ∃ state, fromConfig addrs config = some state ∧ state.config = config := by
  obtain ⟨ipAllow, h⟩ := exists_allowMatcher ha config.webui.allowList
  exact ⟨⟨config, ipAllow⟩, Option.map_eq_some_iff.mpr ⟨ipAllow, h, rfl⟩, rfl⟩

theorem InForce.admits_iff (h : state.InForce addrs) (ha : ReadsUnspecified addrs) (peer : IpAddr) :
    state.admits peer ↔ Contained addrs state.config.webui.allowList peer ∨
        ∃ entry ∈ state.config.webui.allowList, ¬ IsNetwork addrs entry :=
  allowMatcher_matches_iff ha h peer

variable {Octet : Type} (crates : Crates Octet)

theorem InForce.reload (h : state.InForce addrs) (content : Except IoError (List Octet)) :
    (state.reloadConfig crates addrs content).InForce addrs := by
  unfold reloadConfig
  split
  · exact h
  · split
    · exact h
    · next config _ =>
      cases hnew : fromConfig addrs config with
      | none => exact h
      | some next => exact inForce_fromConfig hnew

theorem InForce.after (h : state.InForce addrs) (contents : List (Except IoError (List Octet))) :
    (state.after crates addrs contents).InForce addrs := by
  induction contents generalizing state with
  | nil => exact h
  | cons content rest ih => exact ih (h.reload crates content)

/-- **Who is refused**, at the start and after any reloads. -/
theorem outsider_refused_iff (haddrs : ReadsUnspecified addrs) (hstart : fromConfig addrs config = some state)
    (contents : List (Except IoError (List Octet))) (peer : IpAddr)
    (houtside : ¬ Contained addrs (state.after crates addrs contents).config.webui.allowList peer) :
    (state.after crates addrs contents).admits peer = false ↔
      ∀ entry ∈ (state.after crates addrs contents).config.webui.allowList, IsNetwork addrs entry := by
  have hforce := (inForce_fromConfig hstart).after crates contents
  rw [← Bool.not_eq_true, hforce.admits_iff haddrs peer]
  constructor
  · intro hrefused entry hentry
    by_contra hbad
    exact hrefused (.inr ⟨entry, hentry, hbad⟩)
  · rintro hall (hinside | ⟨entry, hentry, hbad⟩)
    · exact houtside hinside
    · exact hbad (hall entry hentry)

end AppState

/-! ## One bad entry -/

def fewAddrs : AddrParser where
  parse t := if t = "0.0.0.0" then some (.v4 0 0 0 0)
    else if t = "::" then some (.v6 fun _ => 0)
    else if t = "10.0.0.0" then some (.v4 10 0 0 0)
    else none
  noSlash t h := by
    split
    · next ht => exact absurd (ht ▸ h) (by decide)
    · split
      · next ht => exact absurd (ht ▸ h) (by decide)
      · split
        · next ht => exact absurd (ht ▸ h) (by decide)
        · rfl

theorem fewAddrs_reads : ReadsUnspecified fewAddrs := ⟨rfl, rfl⟩

def ten : IpNetwork := ⟨.v4 10 0 0 0, 8, by decide, by decide⟩

theorem parse_ten : parse fewAddrs "10.0.0.0/8" = .ok ten :=
  (parse_of_split (by decide : _ = some (("10.0.0.0" : Text), ("8" : Text))) rfl
    rfl).trans (new_eq_ok _ _)

theorem office_not_network : ¬ IsNetwork fewAddrs "office" := by
  rintro ⟨net, hnet⟩
  obtain ⟨ip, mask, hs, _⟩ := parse_eq_ok hnet
  cases (by decide : split "office" = none).symm.trans hs

def allowing (allowList : List Text) : ServerWallConfig where
  webui := { allowList }

def elsewhere : IpAddr := .v4 203 0 113 9

theorem elsewhere_not_contained : ¬ Contained fewAddrs ["10.0.0.0/8"] elsewhere ∧
      ¬ Contained fewAddrs ["10.0.0.0/8", "office"] elsewhere := by
  have hten : ∀ net, parse fewAddrs "10.0.0.0/8" = .ok net → ¬ net.contains elsewhere = true := by
    intro net hnet
    cases parse_ten.symm.trans hnet
    decide
  constructor
  · rintro ⟨entry, he, net, hnet, hc⟩
    obtain rfl := mem_singleton.mp he
    exact hten net hnet hc
  · rintro ⟨entry, he, net, hnet, hc⟩
    rcases mem_cons.mp he with rfl | he
    · exact hten net hnet hc
    · obtain rfl := mem_singleton.mp he
      exact office_not_network ⟨net, hnet⟩

theorem network_keeps_out : ∃ state, AppState.fromConfig fewAddrs (allowing ["10.0.0.0/8"]) = some state ∧
      state.admits elsewhere = false := by
  obtain ⟨state, hstart, hconfig⟩ := AppState.exists_fromConfig fewAddrs_reads (allowing ["10.0.0.0/8"])
  have hlist : state.config.webui.allowList = ["10.0.0.0/8"] := by rw [hconfig]; rfl
  refine ⟨state, hstart, (AppState.outsider_refused_iff .verbatim fewAddrs_reads hstart [] elsewhere ?_).mpr ?_⟩
  · exact hlist ▸ elsewhere_not_contained.1
  · intro entry hentry
    obtain rfl := mem_singleton.mp (hlist ▸ hentry)
    exact ⟨ten, parse_ten⟩

/-- **One entry that is no network, and a client from elsewhere is admitted**: at the start, and
when a running server reads it. -/
theorem bad_entry_admits : ¬ Contained fewAddrs ["10.0.0.0/8", "office"] elsewhere ∧
      (∃ state, AppState.fromConfig fewAddrs (allowing ["10.0.0.0/8", "office"]) = some state ∧
        state.admits elsewhere = true) ∧
      ∃ state, AppState.fromConfig fewAddrs (allowing ["10.0.0.0/8"]) = some state ∧
        (state.after .verbatim fewAddrs [.ok [allowing ["10.0.0.0/8", "office"]]]).admits elsewhere = true := by
  obtain ⟨bad, hbad, hconfig⟩ := AppState.exists_fromConfig fewAddrs_reads (allowing ["10.0.0.0/8", "office"])
  obtain ⟨good, hgood, _⟩ := AppState.exists_fromConfig fewAddrs_reads (allowing ["10.0.0.0/8"])
  have hadmits : bad.admits elsewhere = true := by
    refine ((AppState.inForce_fromConfig hbad).admits_iff fewAddrs_reads elsewhere).mpr (.inr ?_)
    rw [hconfig]
    exact ⟨"office", .tail _ (.head _), office_not_network⟩
  have hreload : good.after .verbatim fewAddrs [.ok [allowing ["10.0.0.0/8", "office"]]] = bad :=
    congrArg (·.getD good) hbad
  exact ⟨elsewhere_not_contained.2, ⟨bad, hbad, hadmits⟩, good, hgood, hreload ▸ hadmits⟩

end ServerWall.Webui
