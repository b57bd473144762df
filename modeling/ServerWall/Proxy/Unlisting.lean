import ServerWall.Core.Keys
import ServerWall.Proxy.Wiring

/-!
# Taking an entry off a list

The editor removes the entries equal to the key in lower case, so one with capitals stays in force
(`removal_effective_iff`). The web interface removes an address of one global list from the other one, too
(`removal_framed_iff`).
-/

namespace ServerWall.Proxy

open Schema Core Antispam List

/-- What a list is asked about. No allow list has recipients. -/
inductive Criterion where
  | allowSender
  | allowDomain
  | blockSender
  | blockDomain
  | blockRecipient

namespace Criterion

def removal : Criterion → Text → Edit
  | allowSender => .removeAntispamAllowSender
  | allowDomain => .removeAntispamAllowDomain
  | blockSender => .removeAntispamBlockSender
  | blockDomain => .removeAntispamBlockDomain
  | blockRecipient => .removeAntispamBlockRecipient

def entries (config : AntispamConfig) : Criterion → List Text
  | allowSender => config.allow.senders
  | allowDomain => config.allow.senderDomains
  | blockSender => config.block.senders
  | blockDomain => config.block.senderDomains
  | blockRecipient => config.block.recipients

/-- The answer of the list built from the configuration. -/
def listed (u : Unicode) (config : AntispamConfig) : Criterion → Text → Bool
  | allowSender => (buildAllowList u config.smtp).containsSender u
  | allowDomain => (buildAllowList u config.smtp).containsDomain u
  | blockSender => (buildBlockList u config.smtp).containsSender u
  | blockDomain => (buildBlockList u config.smtp).containsDomain u
  | blockRecipient => (buildBlockList u config.smtp).containsRecipient u

/-- The part of an address that is looked up. -/
def part (address : Text) : Criterion → Option Text
  | allowDomain | blockDomain => (Text.rsplitOnce '@' address).map fun p => Text.trimEndMatches '>' p.2
  | _ => some address

theorem listed_iff (hpart : part address criterion = some key) : criterion.listed u config address ↔
    ∃ entry ∈ criterion.entries config, u.toLowercase entry = u.toLowercase key := by
  cases criterion with
  | allowSender | blockSender | blockRecipient =>
    cases hpart
    change senderListed u (map u.toLowercase _) address = true ↔ _
    simp [senderListed]
    rfl
  | allowDomain | blockDomain =>
    obtain ⟨p, hp, rfl⟩ := Option.map_eq_some_iff.mp hpart
    change domainListed u (map u.toLowercase _) address = true ↔ _
    simp [domainListed, hp]
    rfl

/-- **A key is off the list** after its removal if and only if no entry had it in other letters. -/
theorem removal_effective_iff {Octet : Type} (crates : Crates Octet) (criterion : Criterion)
    (config config' : ServerWallConfig) (key address : Text)
    (hremoved : edited crates (criterion.removal key) config = .ok config') (hpart : criterion.part address = some key) :
    criterion.listed crates.unicode config'.antispam address = false ↔ ∀ entry ∈ criterion.entries config.antispam,
        crates.unicode.toLowercase entry = crates.unicode.toLowercase key → entry = crates.unicode.toLowercase key := by
  have hentries : criterion.entries config'.antispam =
      removeText (crates.unicode.toLowercase key) (criterion.entries config.antispam) := by
    obtain ⟨hchange, -⟩ := edited_eq_ok hremoved
    cases criterion <;> cases hchange <;> rfl
  rw [← Bool.not_eq_true, listed_iff hpart, hentries]
  simp only [removeText, mem_filter, bne_iff_ne, not_exists, not_and, and_imp, ne_eq]
  exact forall₂_congr fun entry _ => ⟨fun h he => by_contra fun hne => h hne he, fun h hne he => hne (h he)⟩

end Criterion

def trusting (senders : List Text) : ServerWallConfig where
  antispam := { allow := { senders } }

theorem removal_effective_plain : ∃ config', edited .verbatim (Criterion.allowSender.removal "Bob@example.com")
      (trusting ["bob@example.com"]) = .ok config' ∧
    Criterion.allowSender.listed .ascii config'.antispam "Bob@example.com" = false :=
  ⟨_, rfl, (Criterion.removal_effective_iff .verbatim .allowSender (trusting ["bob@example.com"]) _ "Bob@example.com"
    "Bob@example.com" rfl rfl).mpr (by decide)⟩

/-- An entry that was written by hand with a capital. -/
theorem capital_stays : ∃ config', edited .verbatim (Criterion.allowSender.removal "Bob@example.com")
      (trusting ["Bob@example.com"]) = .ok config' ∧
    Criterion.allowSender.listed .ascii config'.antispam "Bob@example.com" = true :=
  ⟨_, rfl, by decide⟩

/-! ## The global lists -/

/-- `global_allow_remove` and `global_block_remove` (`serverwall-webui/src/routes/acl.rs`). -/
def globalAllowRemove (ip : Text) : Edit := .removeAclIp ip

def globalBlockRemove (ip : Text) : Edit := .removeAclIp ip

theorem removeText_eq_self : removeText t l = l ↔ t ∉ l := by
  rw [removeText, filter_eq_self]
  simp only [bne_iff_ne, ne_eq]
  exact ⟨fun h hmem => h t hmem rfl, fun h x hx hxt => h (hxt ▸ hx)⟩

/-- **Each removal leaves the rest alone** exactly if the other list does not have the address. -/
theorem removal_framed_iff {Octet : Type} (crates : Crates Octet) (ip : Text) (config allowed blocked : ServerWallConfig)
    (hallow : edited crates (globalAllowRemove ip) config = .ok allowed)
    (hblock : edited crates (globalBlockRemove ip) config = .ok blocked) :
    (allowed = { config with security.acl.ip.allow := removeText ip config.security.acl.ip.allow } ↔
      ip ∉ config.security.acl.ip.block) ∧
    (blocked = { config with security.acl.ip.block := removeText ip config.security.acl.ip.block } ↔
      ip ∉ config.security.acl.ip.allow) := by
  obtain ⟨ha, -⟩ := edited_eq_ok hallow
  obtain ⟨hb, -⟩ := edited_eq_ok hblock
  cases ha
  cases hb
  rw [← removeText_eq_self, ← removeText_eq_self]
  exact ⟨⟨fun h => congrArg (·.security.acl.ip.block) h, fun h => by rw [h]⟩,
    fun h => congrArg (·.security.acl.ip.allow) h, fun h => by rw [h]⟩

def bothLists (block : List Text) : ServerWallConfig where
  security := { acl := { ip := { allow := ["10.0.0.0/8"], block } } }

theorem removal_framed_once : ∃ config', edited .verbatim (globalAllowRemove "10.0.0.0/8") (bothLists []) = .ok config' ∧
    config' = { bothLists [] with security.acl.ip.allow := [] } :=
  ⟨_, rfl, (removal_framed_iff .verbatim "10.0.0.0/8" (bothLists []) _ _ rfl rfl).1.mpr (by simp [bothLists])⟩

/-- Who is no longer allowed is no longer blocked either. -/
theorem unallowing_unblocks : ∃ config', edited .verbatim (globalAllowRemove "10.0.0.0/8") (bothLists ["10.0.0.0/8"]) =
      .ok config' ∧ config'.security.acl.ip.block = [] :=
  ⟨_, rfl, rfl⟩

end ServerWall.Proxy
