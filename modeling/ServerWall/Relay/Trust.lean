import ServerWall.Relay.Receiver
import ServerWall.Webui.State

/-!
# Trusted hosts, and one client in two families

`TrustedHosts::new` (`serverwall-relay/src/trusted_hosts.rs`) trims an entry and takes networks and
addresses, `validate_config` networks only, as they are (`trusted_validated_iff`). A listener for both
families sees an IPv4 client under an IPv6 address, which no IPv4 network contains (`mapped_alike_iff`).
-/

namespace ServerWall.Relay

open Schema Core Webui List
open Text (trim)

section

variable (addrs : AddrParser)

def TrustedHosts.new (config : TrustedHostsConfig) : TrustedHosts where
  networks := config.hosts.filterMap fun entry =>
    (IpNetwork.parse addrs (Text.trim entry)).toOption.map IpNetwork.contains
  singleIps := config.hosts.filterMap fun entry =>
    match IpNetwork.parse addrs (Text.trim entry) with
    | .ok _ => none
    | .error _ => addrs.parse (Text.trim entry)
  requireTls := config.requireTls

/-- Something is made of an entry. -/
def Effective (entry : Text) : Prop :=
  (TrustedHosts.new addrs { hosts := [entry] }).networks ≠ [] ∨ (TrustedHosts.new addrs { hosts := [entry] }).singleIps ≠ []

/-- An entry is the address, or a network with it. -/
def Trusts (hosts : List Text) (ip : IpAddr) : Prop := ∃ entry ∈ hosts,
  (∃ net, IpNetwork.parse addrs (Text.trim entry) = .ok net ∧ net.contains ip = true) ∨
    addrs.parse (Text.trim entry) = some ip

def isNetwork (t : Text) : Bool := (IpNetwork.parse addrs t).toOption.isSome

variable {addrs}

theorem isNetwork_iff : isNetwork addrs t ↔ IsNetwork addrs t := by
  unfold isNetwork IsNetwork
  cases IpNetwork.parse addrs t <;> simp [Except.toOption]

theorem effective_iff : Effective addrs entry ↔
    IsNetwork addrs (trim entry) ∨ ∃ ip, addrs.parse (trim entry) = some ip := by
  unfold Effective IsNetwork TrustedHosts.new
  cases hn : IpNetwork.parse addrs (trim entry) <;> cases ha : addrs.parse (trim entry) <;>
    simp [Except.toOption, hn, ha]

theorem slash_of_isNetwork (h : IsNetwork addrs t) : '/' ∈ t := by
  obtain ⟨net, hn⟩ := h
  obtain ⟨ip, mask, hs, -, -⟩ := IpNetwork.parse_eq_ok hn
  exact IpNetwork.slash_of_split hs

theorem isTrusted_new_iff {config : TrustedHostsConfig} :
    (TrustedHosts.new addrs config).isTrusted ip ↔ Trusts addrs config.hosts ip := by
  unfold TrustedHosts.isTrusted TrustedHosts.new
  rw [Bool.or_eq_true, contains_iff_mem, mem_filterMap, any_eq_true]
  constructor
  · rintro (⟨entry, he, hip⟩ | ⟨network, hmem, hc⟩)
    · split at hip
      · cases hip
      · exact ⟨entry, he, .inr hip⟩
    · obtain ⟨entry, he, hm⟩ := mem_filterMap.mp hmem
      cases hn : IpNetwork.parse addrs (trim entry) with
      | error e => simp [hn, Except.toOption] at hm
      | ok net =>
        obtain rfl : net.contains = network := by simpa [hn, Except.toOption] using hm
        exact ⟨entry, he, .inl ⟨net, hn, hc⟩⟩
  · rintro ⟨entry, he, ⟨net, hn, hc⟩ | hip⟩
    · exact .inr ⟨net.contains, mem_filterMap.mpr ⟨entry, he, by rw [hn]; rfl⟩, hc⟩
    · refine .inl ⟨entry, he, ?_⟩
      split
      · next net hn => cases (addrs.noSlash _ (slash_of_isNetwork ⟨net, hn⟩)).symm.trans hip
      · exact hip

theorem trim_of_isNetwork (haddr : ∀ t ip, addrs.parse t = some ip → ∀ c ∈ t, Text.isWhitespace c = false)
    (h : IsNetwork addrs t) : trim t = t := by
  obtain ⟨net, hn⟩ := h
  obtain ⟨ip, mask, hs, hip, hm⟩ := IpNetwork.parse_eq_ok hn
  obtain rfl : t = ip ++ '/' :: mask := IpNetwork.eq_of_split hs
  refine Text.trim_eq_self fun c hc => ?_
  rcases mem_append.mp hc with hc | hc
  · exact haddr ip _ hip c hc
  · rcases mem_cons.mp hc with rfl | hc
    · rfl
    · exact Text.no_space_of_parseUnsigned hm hc

/-- **A host is accepted and effective alike** exactly if it is not effective as a bare address or
within white space. -/
theorem trusted_validated_iff (addrs : AddrParser)
    (haddr : ∀ t ip, addrs.parse t = some ip → ∀ c ∈ t, Text.isWhitespace c = false) (s : Text) :
    (validateHost (isNetwork addrs) s = .ok () ↔ Effective addrs s) ↔
      (Effective addrs s → '/' ∈ s ∧ Text.trim s = s) := by
  have hval : validateHost (isNetwork addrs) s = .ok () ↔ IsNetwork addrs s := by
    rw [← isNetwork_iff]
    unfold validateHost
    split <;> simp_all [pure, Except.pure, throw, throwThe, MonadExceptOf.throw]
  rw [hval, effective_iff]
  constructor
  · intro h he
    have hn := h.mpr he
    exact ⟨slash_of_isNetwork hn, trim_of_isNetwork haddr hn⟩
  · intro h
    constructor
    · intro hn
      exact .inl ((trim_of_isNetwork haddr hn).symm ▸ hn)
    · intro he
      obtain ⟨hslash, htrim⟩ := h he
      rw [htrim] at he
      refine he.resolve_right ?_
      rintro ⟨ip, hip⟩
      cases (addrs.noSlash s hslash).symm.trans hip

theorem fewAddrs_no_space (t : Text) (ip : IpAddr) (h : fewAddrs.parse t = some ip) :
    ∀ c ∈ t, Text.isWhitespace c = false := by
  have hall : t.all (fun c => !Text.isWhitespace c) = true := by
    simp only [fewAddrs] at h
    split_ifs at h with ht ht ht <;> rw [ht] <;> rfl
  exact fun c hc => by simpa using all_eq_true.mp hall c hc

theorem network_effective : Effective fewAddrs "10.0.0.0/8" :=
  ((trusted_validated_iff fewAddrs fewAddrs_no_space "10.0.0.0/8").mpr fun _ => by decide).mp rfl

/-- An address that the relay would match is refused by the validation. -/
theorem plain_host_rejected : Effective fewAddrs "10.0.0.0" ∧ validateHost (isNetwork fewAddrs) "10.0.0.0" ≠ .ok () :=
  ⟨effective_iff.mpr (.inr ⟨.v4 10 0 0 0, rfl⟩), nofun⟩

end

/-! ## Mapped addresses -/

/-- `Ipv4Addr::to_ipv6_mapped`. -/
def mapped : IpAddr → Option IpAddr
  | .v4 a b c d =>
    some (.v6 ![0, 0, 0, 0, 0, 0xffff, a.toUInt16 <<< 8 ||| b.toUInt16, c.toUInt16 <<< 8 ||| d.toUInt16])
  | .v6 _ => none

theorem width_ne_of_mapped (h : mapped ip = some ip') : ip.width ≠ ip'.width := by
  cases ip with
  | v4 a b c d =>
    cases h
    exact (by decide : (32 : Nat) ≠ 128)
  | v6 segments => cases h

/-- What an engine of these lists refuses. -/
def Refused (addrs : AddrParser) (block allow : List Text) (default : AclDefaultAction) (ip : IpAddr) : Prop :=
  Core.Listed addrs block ip ∨ (allow ≠ [] ∧ ¬ Core.Listed addrs allow ip) ∨ (allow = [] ∧ default = .deny)

end ServerWall.Relay
