import ServerWall.Lib.Net

/-!
# Allow and block lists

`AllowList` and `BlockList` of `serverwall-antispam/src/lists/`, with sets kept as lists. Addresses
are compared by their printed form, senders and domains after lower casing. So an address that is
spelled in another way than the printer's is in no list (`lists_exact_iff`).
-/

namespace ServerWall.Antispam

def ipListed (ips : List Text) (ip : IpAddr) : Bool := ips.contains ip.toText

def senderListed (u : Unicode) (senders : List Text) (sender : Text) : Bool := senders.contains (u.toLowercase sender)

/-- Is the lower-cased text after the last `@`, less any `>` at its end, in the
set? An address without an `@` has no domain. -/
def domainListed (u : Unicode) (domains : List Text) (sender : Text) : Bool :=
  match Text.rsplitOnce '@' sender with
  | some (_, domain) => domains.contains (u.toLowercase (Text.trimEndMatches '>' domain))
  | none => false

/-- Trusted senders, domains, or IPs that bypass spam checks. The defaults are
`AllowList::new()`. -/
structure AllowList where
  (ips senders senderDomains : List Text := [])

namespace AllowList

def fromConfig (u : Unicode) (ips senders senderDomains : List Text) : AllowList where
  ips := ips
  senders := senders.map u.toLowercase
  senderDomains := senderDomains.map u.toLowercase

def containsIp (l : AllowList) (ip : IpAddr) : Bool := ipListed l.ips ip

def containsSender (u : Unicode) (l : AllowList) (sender : Text) : Bool := senderListed u l.senders sender

def containsDomain (u : Unicode) (l : AllowList) (sender : Text) : Bool := domainListed u l.senderDomains sender

def matchesAny (u : Unicode) (l : AllowList) (ip : IpAddr) (sender : Text) : Bool :=
  l.containsIp ip || l.containsSender u sender || l.containsDomain u sender

end AllowList

/-- Blocked senders, domains, IPs, or recipients that are always rejected. The
defaults are `BlockList::new()`. -/
structure BlockList where
  (ips senders senderDomains recipients : List Text := [])

namespace BlockList

def fromConfig (u : Unicode) (ips senders senderDomains recipients : List Text) : BlockList where
  ips := ips
  senders := senders.map u.toLowercase
  senderDomains := senderDomains.map u.toLowercase
  recipients := recipients.map u.toLowercase

def containsIp (l : BlockList) (ip : IpAddr) : Bool := ipListed l.ips ip

def containsSender (u : Unicode) (l : BlockList) (sender : Text) : Bool := senderListed u l.senders sender

def containsDomain (u : Unicode) (l : BlockList) (sender : Text) : Bool := domainListed u l.senderDomains sender

def containsRecipient (u : Unicode) (l : BlockList) (addr : Text) : Bool := senderListed u l.recipients addr

def matchesAny (u : Unicode) (l : BlockList) (ip : IpAddr) (sender : Text) : Bool :=
  l.containsIp ip || l.containsSender u sender || l.containsDomain u sender

end BlockList

/-! ## Spellings -/

/-- `IpAddr::to_canonical`: an IPv4 address that is mapped into IPv6 is that address. -/
def toCanonical : IpAddr → IpAddr
  | .v4 a b c d => .v4 a b c d
  | .v6 segments => match List.ofFn segments with
    | [0, 0, 0, 0, 0, 0xffff, ab, cd] => .v4 (ab >>> 8).toUInt8 ab.toUInt8 (cd >>> 8).toUInt8 cd.toUInt8
    | _ => .v6 segments

/-- The addresses that a list answers yes to are the ones equal to a given one. -/
def Exact (same : IpAddr → IpAddr → Prop) (contains : IpAddr → Bool) (ip : IpAddr) : Prop :=
  ∀ client, contains client = true ↔ same client ip

theorem exact_iff {same : IpAddr → IpAddr → Prop} (hr : ∀ ip, same ip ip) (t : Text) (ip : IpAddr) :
    Exact same (ipListed [t]) ip ↔ t = ip.toText ∧ ∀ client, same client ip → client = ip := by
  have hl : ∀ client, ipListed [t] client = true ↔ client.toText = t := fun client => by simp [ipListed]
  unfold Exact
  simp only [hl]
  constructor
  · intro h
    have hse := (h ip).mpr (hr ip)
    exact ⟨hse.symm, fun client hs => IpAddr.toText_injective (((h client).mpr hs).trans hse.symm)⟩
  · rintro ⟨rfl, hso⟩ client
    refine ⟨fun heq => ?_, fun hs => by rw [hso client hs]⟩
    rw [IpAddr.toText_injective heq]
    exact hr ip

/-- **When a list contains exactly the address it was built from**: if it is spelled as the printer does. -/
theorem lists_exact_iff (addrs : AddrParser) (u : Unicode) (t : Text)
    (senders domains recipients : List Text) (contains : IpAddr → Bool)
    (hlist : contains = (AllowList.fromConfig u [t] senders domains).containsIp ∨
      contains = (BlockList.fromConfig u [t] senders domains recipients).containsIp) :
    ((∀ ip, addrs.parse t = some ip → Exact (· = ·) contains ip) ↔ ∀ ip, addrs.parse t = some ip → t = ip.toText) ∧
    ((∀ ip, addrs.parse t = some ip → Exact (fun a b => toCanonical a = toCanonical b) contains ip) ↔
      ∀ ip, addrs.parse t = some ip → t = ip.toText ∧ ∀ client, toCanonical client = toCanonical ip → client = ip) := by
  have hlisted : contains = ipListed [t] := by rcases hlist with h | h <;> exact h
  subst hlisted
  constructor
  · refine forall₂_congr fun ip _ => (exact_iff (fun _ => rfl) t ip).trans ?_
    exact and_iff_left fun _ h => h
  · exact forall₂_congr fun ip _ =>
      @exact_iff (fun a b => toCanonical a = toCanonical b) (fun _ => rfl) t ip

def capitals : AddrParser where
  parse t := if t = "2001:DB8::1" then some (.v6 ![0x2001, 0xdb8, 0, 0, 0, 0, 0, 1]) else none
  noSlash t h := if_neg fun ht => absurd (ht ▸ h) (by decide)

theorem capitals_not_exact : ¬ ∀ ip, capitals.parse "2001:DB8::1" = some ip →
    Exact (· = ·) (AllowList.fromConfig .ascii ["2001:DB8::1"] [] []).containsIp ip := by
  intro h
  have hprinted := (lists_exact_iff capitals .ascii "2001:DB8::1" [] [] [] _ (.inl rfl)).1.mp h _ rfl
  exact absurd hprinted (by decide)

/-- A block list with a client's address in capitals does not contain it, and one with an IPv4
address does not contain its image in IPv6. -/
theorem spelling_escapes : capitals.parse "2001:DB8::1" = some (.v6 ![0x2001, 0xdb8, 0, 0, 0, 0, 0, 1]) ∧
    (BlockList.fromConfig .ascii ["2001:DB8::1"] [] [] []).containsIp (.v6 ![0x2001, 0xdb8, 0, 0, 0, 0, 0, 1]) = false ∧
    toCanonical (.v6 ![0, 0, 0, 0, 0, 0xffff, 0xc000, 0x0201]) = .v4 192 0 2 1 ∧
    (BlockList.fromConfig .ascii ["192.0.2.1"] [] [] []).containsIp
      (.v6 ![0, 0, 0, 0, 0, 0xffff, 0xc000, 0x0201]) = false := by
  refine ⟨rfl, by decide, by decide, by decide⟩

end ServerWall.Antispam
