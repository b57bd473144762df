import ServerWall.Lib.Octets

/-!
# The JA3 fingerprint of a TLS client

`compute_from_bytes` and `parse_client_hello` (`serverwall-core/src/tls/ja3.rs`). `ClientHello` is a
message whose lengths fit and which has each extension once. The parser returns what it offers
(`parseClientHello_record`), so what the fingerprint is not to show (`Hello.Variation`) leaves it as it
was (`fingerprint_of_variations`), and what the text shows is all of it (`fingerprint_collides`).
-/

namespace ServerWall.Ja3

open List Option
open UInt16 (toNat toNat_inj)

/-! ## The parser -/

def greaseValues : List UInt16 := [0x0a0a, 0x1a1a, 0x2a2a, 0x3a3a, 0x4a4a, 0x5a5a, 0x6a6a, 0x7a7a,
    0x8a8a, 0x9a9a, 0xaaaa, 0xbaba, 0xcaca, 0xdada, 0xeaea, 0xfafa]

def isGrease (val : UInt16) : Bool := greaseValues.contains val

structure Ja3Params where
  version : UInt16
  (ciphers extensions groups : List UInt16)
  pointFormats : List UInt8
  deriving DecidableEq

/-- `u16::from_be_bytes` at a position, with the test of the length before it. -/
def u16At (data : Bytes) (pos : Nat) : Option UInt16 := (readBe 2 data pos).map UInt16.ofNat

/-- The loop over the cipher suites, at `i` and with so many rounds to go. -/
def readCiphers (hello : Bytes) (pos : Nat) : Nat → Nat → List UInt16
  | 0, _ => []
  | rounds + 1, i =>
    match u16At hello (pos + i) with
    | none => []
    | some c =>
      if isGrease c then readCiphers hello pos rounds (i + 2)
      else c :: readCiphers hello pos rounds (i + 2)

def readGroups (extData : Bytes) (listLen gi : Nat) : List UInt16 :=
  if gi + 2 ≤ extData.length ∧ gi < 2 + listLen then
    (u16At extData gi).toList.filter (!isGrease ·) ++ readGroups extData listLen (gi + 2)
  else []
termination_by extData.length - gi

def groupsIn (extData : Bytes) : List UInt16 :=
  match readBe 2 extData 0 with
  | some listLen => readGroups extData listLen 2
  | none => []

def pointFormatsIn (extData : Bytes) : List UInt8 :=
  match readBe 1 extData 0 with
  | some listLen => (List.range' 1 listLen).filterMap (extData[·]?)
  | none => []

def Ja3Params.inspect (params : Ja3Params) (extType : UInt16) (extData : Bytes) : Ja3Params :=
  if isGrease extType then params
  else
    { params with
      extensions := params.extensions ++ [extType]
      groups := params.groups ++ if extType = 0x000a then groupsIn extData else []
      pointFormats := params.pointFormats ++ if extType = 0x000b then pointFormatsIn extData else [] }

/-- The loop over the extensions. One that does not fit ends it. -/
def readExtensions (extBlock : Bytes) (epos : Nat) (params : Ja3Params) : Ja3Params :=
  if epos + 4 ≤ extBlock.length then
    match u16At extBlock epos, readBe 2 extBlock (epos + 2) with
    | some extType, some extLen =>
      match slice extBlock (epos + 4) (epos + 4 + extLen) with
      | some extData => readExtensions extBlock (epos + 4 + extLen) (params.inspect extType extData)
      | none => params
    | _, _ => params
  else params
termination_by extBlock.length - epos

def parseExtensions (hello : Bytes) (version : UInt16) (ciphers : List UInt16) (pos : Nat) : Option Ja3Params :=
  let params : Ja3Params := { version, ciphers, extensions := [], groups := [], pointFormats := [] }
  match readBe 2 hello pos with
  | none => some params
  | some extTotal => (slice hello (pos + 2) (pos + 2 + extTotal)).map fun extBlock => readExtensions extBlock 0 params

def parseCiphers (hello : Bytes) (version : UInt16) (pos : Nat) : Option Ja3Params :=
  match readBe 2 hello pos with
  | none => none
  | some csLen =>
    if hello.length < pos + 2 + csLen then none
    else
      match readBe 1 hello (pos + 2 + csLen) with
      | none => none
      | some compLen =>
        parseExtensions hello version (readCiphers hello (pos + 2) ((csLen + 1) / 2) 0)
          (pos + 2 + csLen + (1 + compLen))

def parseHello (hello : Bytes) : Option Ja3Params :=
  match u16At hello 0 with
  | none => none
  | some version =>
    if 2 + 32 > hello.length then none
    else
      match readBe 1 hello (2 + 32) with
      | none => none
      | some sidLen => parseCiphers hello version (2 + 32 + (1 + sidLen))

def parseHandshake (hs : Bytes) : Option Ja3Params := if hs.length < 4 then none
  else if hs[0]? ≠ some 0x01 then none
  else
    match readBe 3 hs 1 with
    | none => none
    | some hsLen => (slice hs 4 (4 + hsLen)).bind parseHello

def parseClientHello (data : Bytes) : Option Ja3Params := if data.length < 5 then none
  else if data[0]? ≠ some 0x16 then none
  else parseHandshake (data.drop 5)

def Ja3Params.text (params : Ja3Params) : Text :=
  let list (values : List Nat) : Text := Text.join "-" (values.map Text.dec)
  Text.fmt [Text.dec params.version.toNat, ",", list (params.ciphers.map UInt16.toNat), ",",
    list (params.extensions.map UInt16.toNat), ",", list (params.groups.map UInt16.toNat), ",",
    list (params.pointFormats.map UInt8.toNat)]

/-- The hexadecimal MD5 digest is that of the library. -/
def hashParams (md5 : Bytes → Text) (params : Ja3Params) : Text := md5 (Text.bytes params.text)

def computeFromBytes (md5 : Bytes → Text) (data : Bytes) : Option Text := (parseClientHello data).map (hashParams md5)

/-! ## The message -/

inductive Extension where
  | supportedGroups (groups : List UInt16)
  | ecPointFormats (formats : List UInt8)
  | other (extType : UInt16) (content : Bytes)
  deriving DecidableEq

def words (values : List UInt16) : Bytes := values.flatMap fun value => toBe 2 value.toNat

namespace Extension

def extType : Extension → UInt16
  | supportedGroups _ => 0x000a
  | ecPointFormats _ => 0x000b
  | other extType _ => extType

def content : Extension → Bytes
  | supportedGroups groups => toBe 2 (2 * groups.length) ++ words groups
  | ecPointFormats formats => toBe 1 formats.length ++ formats
  | other _ content => content

def encode (e : Extension) : Bytes := toBe 2 e.extType.toNat ++ (toBe 2 e.content.length ++ e.content)

def groups? : Extension → Option (List UInt16)
  | supportedGroups groups => some groups
  | _ => none

def pointFormats? : Extension → Option (List UInt8)
  | ecPointFormats formats => some formats
  | _ => none

/-- The lengths fit, and the two extensions that are looked into have their form. -/
structure WellFormed (e : Extension) : Prop where
  content : e.content.length < 256 ^ 2
  groups : e.extType = 0x000a → e.groups?.isSome
  pointFormats : e.extType = 0x000b → e.pointFormats?.isSome
  formats : (e.pointFormats?.getD []).length < 256 ^ 1

instance (e : Extension) : Decidable e.WellFormed := decidable_of_iff
    (e.content.length < 256 ^ 2 ∧ (e.extType = 0x000a → e.groups?.isSome) ∧
      (e.extType = 0x000b → e.pointFormats?.isSome) ∧ (e.pointFormats?.getD []).length < 256 ^ 1)
    ⟨fun h => ⟨h.1, h.2.1, h.2.2.1, h.2.2.2⟩, fun h => ⟨h.1, h.2, h.3, h.4⟩⟩

end Extension

open Extension (encode supportedGroups)

structure Hello where
  version : UInt16
  (random sessionId : Bytes)
  ciphers : List UInt16
  compression : Bytes
  extensions : Option (List Extension)

namespace Hello

/-- The extensions, none if there is no block of them. -/
def listed (h : Hello) : List Extension := h.extensions.getD []

def block (h : Hello) : Bytes := h.listed.flatMap Extension.encode

def tail (h : Hello) : Bytes := if h.extensions.isNone then [] else toBe 2 h.block.length ++ h.block

def offer (h : Hello) : Bytes := toBe 2 (2 * h.ciphers.length) ++ (words h.ciphers ++ (toBe 1 h.compression.length ++ (h.compression ++ h.tail)))

def body (h : Hello) : Bytes :=
  toBe 2 h.version.toNat ++ (h.random ++ (toBe 1 h.sessionId.length ++ (h.sessionId ++ h.offer)))

def handshake (h : Hello) : Bytes := 0x01 :: (toBe 3 h.body.length ++ h.body)

def record (h : Hello) (recordVersion : UInt16) : Bytes :=
  0x16 :: (toBe 2 recordVersion.toNat ++ (toBe 2 h.handshake.length ++ h.handshake))

structure WellFormed (h : Hello) : Prop where
  random : h.random.length = 32
  sessionId : h.sessionId.length < 256 ^ 1
  ciphers : 2 * h.ciphers.length < 256 ^ 2
  compression : h.compression.length < 256 ^ 1
  each : ∀ e ∈ h.listed, e.WellFormed
  once : (h.listed.map Extension.extType).Nodup
  block : h.block.length < 256 ^ 2
  single : h.handshake.length < 256 ^ 2

instance (h : Hello) : Decidable h.WellFormed := decidable_of_iff
    (h.random.length = 32 ∧ h.sessionId.length < 256 ^ 1 ∧ 2 * h.ciphers.length < 256 ^ 2 ∧
      h.compression.length < 256 ^ 1 ∧ (∀ e ∈ h.listed, e.WellFormed) ∧
      (h.listed.map Extension.extType).Nodup ∧ h.block.length < 256 ^ 2 ∧ h.handshake.length < 256 ^ 2)
    ⟨fun ⟨h1, h2, h3, h4, h5, h6, h7, h8⟩ => ⟨h1, h2, h3, h4, h5, h6, h7, h8⟩,
      fun ⟨h1, h2, h3, h4, h5, h6, h7, h8⟩ => ⟨h1, h2, h3, h4, h5, h6, h7, h8⟩⟩

def params (h : Hello) : Ja3Params where
  version := h.version
  ciphers := h.ciphers.filter (!isGrease ·)
  extensions := (h.listed.map Extension.extType).filter (!isGrease ·)
  groups := ((h.listed.findSome? Extension.groups?).getD []).filter (!isGrease ·)
  pointFormats := (h.listed.findSome? Extension.pointFormats?).getD []

inductive Variation : Hello → Hello → Prop
  | random (h : Hello) (random : Bytes) : Variation h { h with random }
  | sessionId (h : Hello) (sessionId : Bytes) : Variation h { h with sessionId }
  | cipher (h : Hello) (before after : List UInt16) (grease : UInt16) :
      isGrease grease = true → h.ciphers = before ++ after → Variation h { h with ciphers := before ++ grease :: after }
  | extension (h : Hello) (before after : List Extension) (grease : UInt16) (content : Bytes) :
      isGrease grease = true → h.listed = before ++ after →
        Variation h { h with extensions := some (before ++ .other grease content :: after) }
  | group (h : Hello) (before after : List Extension) (gs gs' : List UInt16) (grease : UInt16) :
      isGrease grease = true → h.extensions = some (before ++ .supportedGroups (gs ++ gs') :: after) →
        Variation h { h with extensions := some (before ++ .supportedGroups (gs ++ grease :: gs') :: after) }
  | content (h : Hello) (before after : List Extension) (extType : UInt16) (old new : Bytes) :
      h.extensions = some (before ++ .other extType old :: after) →
        Variation h { h with extensions := some (before ++ .other extType new :: after) }

end Hello

structure ClientHello extends Hello where
  wellFormed : toHello.WellFormed

/-! ## The lists -/

section

variable {data rest : Bytes}

theorem length_words (values : List UInt16) : (words values).length = 2 * values.length := by
  induction values with
  | nil => rfl
  | cons value values ih =>
    rw [words, flatMap_cons, length_append, length_toBe, length_cons]
    rw [words] at ih
    omega

theorem u16At_of_at (h : At data pos (toBe 2 value.toNat ++ rest)) : u16At data pos = some value := by
  rw [u16At, h.readBe value.toNat_lt, map_some, UInt16.ofNat_toNat]

theorem readCiphers_words (h : At data (pos + i) (words ciphers ++ rest)) :
    readCiphers data pos ciphers.length i = ciphers.filter (!isGrease ·) := by
  induction ciphers generalizing i with
  | nil => rfl
  | cons c ciphers ih =>
    rw [words, flatMap_cons, append_assoc] at h
    have hrec := ih (i := i + 2) h.move_toBe
    rw [length_cons, readCiphers, u16At_of_at h]
    dsimp only
    rw [hrec, filter_cons]
    cases isGrease c <;> rfl

theorem readGroups_words (h : At data pos (words groups)) (hlen : 2 + listLen = pos + 2 * groups.length) :
    readGroups data listLen pos = groups.filter (!isGrease ·) := by
  have hd := h.length_eq
  rw [length_words] at hd
  induction groups generalizing pos with
  | nil =>
    rw [length_nil] at hd
    rw [readGroups, if_neg (by omega), filter_nil]
  | cons g groups ih =>
    rw [length_cons] at hd hlen
    have hrec : readGroups data listLen (pos + 2) = groups.filter (!isGrease ·) := ih h.move_toBe (by omega) (by omega)
    rw [readGroups, if_pos (by omega), u16At_of_at h, hrec, ← filter_append]
    rfl

theorem filterMap_range' {α : Type} {data values : List α} (h : At data pos values) :
    (List.range' pos values.length).filterMap (data[·]?) = values := by
  induction values generalizing pos with
  | nil => rfl
  | cons value values ih =>
    have hm : At data (pos + 1) values := At.move (x := [value]) h
    rw [length_cons, range'_succ, filterMap_cons, h.getElem?]
    exact congrArg (value :: ·) (ih hm)

end

/-! ## The extensions -/

def Ja3Params.add (params : Ja3Params) (e : Extension) : Ja3Params := { params with
    extensions := params.extensions ++ [e.extType].filter (!isGrease ·)
    groups := params.groups ++ (e.groups?.getD []).filter (!isGrease ·)
    pointFormats := params.pointFormats ++ e.pointFormats?.getD [] }

open Ja3Params (add inspect text)

section

variable {params : Ja3Params}

theorem groupsIn_content (h : (supportedGroups groups).WellFormed) :
    groupsIn (supportedGroups groups).content = groups.filter (!isGrease ·) := by
  have hc := h.content
  have hat : At (supportedGroups groups).content 0 (toBe 2 (2 * groups.length) ++ words groups) := At.start _
  have hlen := hat.length_eq
  rw [length_append, length_toBe, length_words] at hlen
  have hf : 2 * groups.length < 256 ^ 2 := by omega
  rw [groupsIn, hat.readBe hf]
  exact readGroups_words hat.move_toBe (by omega)

theorem pointFormatsIn_content {formats : List UInt8} (hf : formats.length < 256 ^ 1) :
    pointFormatsIn (Extension.ecPointFormats formats).content = formats := by
  have hat : At (Extension.ecPointFormats formats).content 0 (toBe 1 formats.length ++ formats) := At.start _
  rw [pointFormatsIn, hat.readBe hf]
  exact filterMap_range' hat.move_toBe

theorem inspect_content (h : e.WellFormed) : params.inspect e.extType e.content = params.add e := by
  cases e with
  | supportedGroups groups =>
    have hg : isGrease 0x000a = false := by decide
    simp [inspect, add, Extension.extType, Extension.groups?,
      Extension.pointFormats?, hg, groupsIn_content h]
  | ecPointFormats formats =>
    have hg : isGrease 0x000b = false := by decide
    have hf : pointFormatsIn (Extension.ecPointFormats formats).content = formats := pointFormatsIn_content h.formats
    simp [inspect, add, Extension.extType, Extension.groups?, Extension.pointFormats?, hg, hf]
  | other extType content =>
    have hgr : extType ≠ 0x000a := fun ht => Bool.false_ne_true (h.groups ht)
    have hf : extType ≠ 0x000b := fun ht => Bool.false_ne_true (h.pointFormats ht)
    cases hg : isGrease extType with
    | true =>
      simp [inspect, add, Extension.extType, Extension.groups?, Extension.pointFormats?, hg]
    | false =>
      simp [inspect, add, Extension.extType, Extension.groups?,
        Extension.pointFormats?, hg, hgr, hf]

theorem readExtensions_encode {extensions : List Extension}
    (h : At extBlock epos (extensions.flatMap encode)) (hf : ∀ e ∈ extensions, e.WellFormed) :
    readExtensions extBlock epos params = extensions.foldl add params := by
  induction extensions generalizing epos params with
  | nil =>
    have hlen := h.length_eq
    rw [flatMap_nil, length_nil] at hlen
    rw [readExtensions, if_neg (by omega), foldl_nil]
  | cons e extensions ih =>
    have hlen := h.length_eq
    rw [flatMap_cons, encode, append_assoc, append_assoc] at h
    have hl := h.move_toBe
    have hc := hl.move_toBe
    have hfi := (hf e (.head _)).content
    rw [flatMap_cons, length_append, encode, length_append, length_toBe, length_append, length_toBe] at hlen
    rw [readExtensions, if_pos (by omega), u16At_of_at h, hl.readBe hfi]
    dsimp only
    rw [hc.slice]
    dsimp only
    rw [inspect_content (hf e (.head _)), ih hc.move fun e' he' => hf e' (.tail _ he')]
    rfl

theorem foldl_add (extensions : List Extension) : extensions.foldl add params = { params with
        extensions := params.extensions ++ (extensions.map Extension.extType).filter (!isGrease ·)
        groups := params.groups ++ (extensions.flatMap fun e => (e.groups?.getD []).filter (!isGrease ·))
        pointFormats := params.pointFormats ++ extensions.flatMap fun e => e.pointFormats?.getD [] } := by
  induction extensions generalizing params with
  | nil => simp
  | cons e extensions ih =>
    rw [foldl_cons, ih]
    simp only [add, append_assoc, flatMap_cons, map_cons, ← filter_append, singleton_append]

theorem flatMap_eq_findSome? {α : Type} {value? : Extension → Option (List α)} {code : UInt16}
    (hc : ∀ e, (value? e).isSome → e.extType = code) {extensions : List Extension}
    (hn : (extensions.map Extension.extType).Nodup) :
    extensions.flatMap (fun e => (value? e).getD []) = (extensions.findSome? value?).getD [] := by
  induction extensions with
  | nil => rfl
  | cons e extensions ih =>
    rw [map_cons, nodup_cons] at hn
    rw [flatMap_cons, findSome?_cons]
    cases hv : value? e with
    | none => exact ih hn.2
    | some values =>
      have ho : ∀ e' ∈ extensions, (value? e').getD [] = [] := by
        intro e' he'
        cases hv' : value? e' with
        | none => rfl
        | some values' =>
          have ht : e'.extType = e.extType := (hc e' (hv' ▸ rfl)).trans (hc e (hv ▸ rfl)).symm
          exact absurd (ht ▸ mem_map_of_mem he') hn.1
      rw [flatMap_eq_nil_iff.mpr ho, append_nil]

end

/-! ## The message is read back -/

section

variable {h : Hello} {data : Bytes}

theorem groups_eq (h : Hello) (hf : h.WellFormed) :
    (h.listed.flatMap fun e => (e.groups?.getD []).filter (!isGrease ·)) = h.params.groups := by
  have hc : ∀ e : Extension, e.groups?.isSome → e.extType = 0x000a := by
    intro e hs
    cases e with
    | supportedGroups groups => rfl
    | ecPointFormats formats | other extType content => cases hs
  rw [← filter_flatMap, flatMap_eq_findSome? hc hf.once]
  rfl

theorem pointFormats_eq (h : Hello) (hf : h.WellFormed) :
    (h.listed.flatMap fun e => e.pointFormats?.getD []) = h.params.pointFormats := by
  have hc : ∀ e : Extension, e.pointFormats?.isSome → e.extType = 0x000b := by
    intro e hs
    cases e with
    | supportedGroups groups | other extType content => cases hs
    | ecPointFormats formats => rfl
  exact flatMap_eq_findSome? hc hf.once

variable (hf : h.WellFormed)
include hf

theorem parseExtensions_tail (hat : At data pos h.tail) :
    parseExtensions data h.version h.params.ciphers pos = some h.params := by
  have hr : ∀ block, At block 0 h.block →
      readExtensions block 0 ⟨h.version, h.params.ciphers, [], [], []⟩ = h.params := by
    intro block hb
    rw [readExtensions_encode hb hf.each, foldl_add, groups_eq h hf, pointFormats_eq h hf]
    rfl
  unfold parseExtensions
  rw [Hello.tail] at hat
  split at hat
  · -- no block: the message ends here
    next hn =>
    have hlen := hat.length_eq
    rw [length_nil] at hlen
    rw [readBe_eq_none (by omega), ← hr [] ?_]
    · rw [readExtensions, if_neg (by decide)]
    · have hl : h.listed = [] := by rw [Hello.listed, isNone_iff_eq_none.mp hn]; rfl
      rw [Hello.block, hl]
      exact At.start _
  · rw [hat.readBe hf.block]
    dsimp only
    rw [hat.move_toBe.slice_all, map_some, hr _ (At.start _)]

theorem parseCiphers_offer (hat : At data pos h.offer) : parseCiphers data h.version pos = some h.params := by
  have hci := hat.move_toBe
  have hc := hci.move
  rw [length_words] at hc
  have ht := hc.move_toBe.move
  have hlen := hc.length_eq
  have hr : (2 * h.ciphers.length + 1) / 2 = h.ciphers.length := by omega
  unfold parseCiphers
  rw [hat.readBe hf.ciphers]
  dsimp only
  rw [if_neg (by omega), hc.readBe hf.compression]
  dsimp only
  rw [hr, readCiphers_words (i := 0) hci, ← Nat.add_assoc]
  exact parseExtensions_tail hf ht

theorem parseHello_body : parseHello h.body = some h.params := by
  have hv : At h.body 0 h.body := At.start _
  have hs := hv.move_toBe.move
  rw [hf.random] at hs
  have ho := hs.move_toBe.move
  have hlen := hs.le
  unfold parseHello
  rw [u16At_of_at hv]
  dsimp only
  rw [if_neg (by omega), hs.readBe hf.sessionId]
  dsimp only
  rw [← Nat.add_assoc]
  exact parseCiphers_offer hf ho

theorem parseHandshake_handshake (rest : Bytes) : parseHandshake (h.handshake ++ rest) = some h.params := by
  have hat : At (h.handshake ++ rest) 0 ([0x01] ++ (toBe 3 h.body.length ++ (h.body ++ rest))) := by exact At.start _
  have hl : At (h.handshake ++ rest) 1 (toBe 3 h.body.length ++ (h.body ++ rest)) := hat.move
  have hb : At (h.handshake ++ rest) 4 (h.body ++ rest) := hl.move_toBe
  have hfi : h.body.length < 256 ^ 3 := by
    have hs := hf.single
    rw [Hello.handshake, length_cons, length_append] at hs
    omega
  unfold parseHandshake
  rw [if_neg (Nat.not_lt.mpr hb.le), hat.getElem?, if_neg (not_not.mpr rfl), hl.readBe hfi]
  dsimp only
  rw [hb.slice, bind_some, parseHello_body hf]

/-- **What the parser returns for a ClientHello is what the message offers**, whatever follows the
record. -/
theorem parseClientHello_record (recordVersion : UInt16) (rest : Bytes) :
    parseClientHello (h.record recordVersion ++ rest) = some h.params := by
  have hat : At (h.record recordVersion ++ rest) 0 ([0x16] ++ (toBe 2 recordVersion.toNat ++ (toBe 2 h.handshake.length ++ (h.handshake ++ rest)))) := by
    exact At.start _
  have hh : At (h.record recordVersion ++ rest) 5 (h.handshake ++ rest) := hat.move.move_toBe.move_toBe
  unfold parseClientHello
  rw [if_neg (Nat.not_lt.mpr hh.le), hat.getElem?, if_neg (not_not.mpr rfl),
    hh.drop_eq, parseHandshake_handshake hf rest]

end

/-! ## The fingerprint -/

section

variable {h : Hello}

theorem Hello.listed_with (h : Hello) (extensions : List Extension) :
    { h with extensions := some extensions }.listed = extensions := rfl

theorem params_of_variation (hvar : h.Variation h') : h'.params = h.params := by
  cases hvar with
  | random random | sessionId sessionId => rfl
  | cipher before after grease hg heq => simp [Hello.params, Hello.listed, heq, hg]
  | extension before after grease content hg heq =>
    simp [Hello.params, heq, Hello.listed_with, Extension.extType, Extension.groups?,
      Extension.pointFormats?, findSome?_cons, hg]
  | group before after gs gs' grease hg heq =>
    have hl : h.listed = _ := congrArg (getD · []) heq
    -- a list before this one would be taken instead
    cases hb : before.findSome? Extension.groups? with
    | none =>
      simp [Hello.params, hl, Hello.listed_with, Extension.extType, Extension.groups?,
        Extension.pointFormats?, findSome?_cons, hb, hg]
    | some first =>
      simp [Hello.params, hl, Hello.listed_with, Extension.extType, Extension.pointFormats?, findSome?_cons, hb]
  | content before after extType old new heq =>
    have hl : h.listed = _ := congrArg (getD · []) heq
    simp [Hello.params, hl, Hello.listed_with, Extension.extType, Extension.groups?,
      Extension.pointFormats?, findSome?_cons]

theorem params_of_variations (hvar : Relation.EqvGen Hello.Variation h h') : h'.params = h.params := by
  induction hvar with
  | rel h h' hvar => exact params_of_variation hvar
  | refl h => rfl
  | symm h h' _ ih => exact ih.symm
  | trans h h' h'' _ _ ih ih' => exact ih'.trans ih

/-- **Parser and fingerprint.** -/
theorem fingerprint_of_variations (md5 : Bytes → Text) (hello : ClientHello) : (∀ recordVersion rest,
      parseClientHello (hello.record recordVersion ++ rest) = some hello.params) ∧
    ∀ hello' : ClientHello, Relation.EqvGen Hello.Variation hello.toHello hello'.toHello →
      ∀ recordVersion recordVersion' rest rest', ∃ fingerprint,
        computeFromBytes md5 (hello.record recordVersion ++ rest) = some fingerprint ∧
        computeFromBytes md5 (hello'.record recordVersion' ++ rest') = some fingerprint := by
  refine ⟨parseClientHello_record hello.wellFormed, ?_⟩
  intro hello' hvar recordVersion recordVersion' rest rest'
  refine ⟨hashParams md5 hello.params, ?_, ?_⟩
  · rw [computeFromBytes, parseClientHello_record hello.wellFormed, map_some]
  · rw [computeFromBytes, parseClientHello_record hello'.wellFormed, map_some, params_of_variations hvar]

end

def smallHello (ciphers : List UInt16) : Hello where
  version := 0x0303
  random := List.replicate 32 0
  sessionId := []
  ciphers := ciphers
  compression := [0]
  extensions := some [.other 0x0000 [1, 2], .supportedGroups [0x001d], .ecPointFormats [0]]

theorem fingerprint_greased : ∃ fingerprint,
      computeFromBytes (fun octets => octets.map Char.ofUInt8) ((smallHello [0x1301]).record 0x0301) = some fingerprint ∧
      computeFromBytes (fun octets => octets.map Char.ofUInt8) ((smallHello [0x0a0a, 0x1301]).record 0x0301) =
        some fingerprint := by
  have hvar : (smallHello [0x1301]).Variation (smallHello [0x0a0a, 0x1301]) :=
    .cipher _ [] [0x1301] 0x0a0a (by decide) rfl
  have hboth := (fingerprint_of_variations (fun octets => octets.map Char.ofUInt8) ⟨smallHello [0x1301], by decide⟩).2
    ⟨smallHello [0x0a0a, 0x1301], by decide⟩ (.rel _ _ hvar) 0x0301 0x0301 [] []
  rwa [append_nil, append_nil] at hboth

/-! ## The text determines the parameters -/

def numbers (values : List Nat) : Text := Text.join "-" (values.map Text.dec)

theorem comma_not_mem_numbers (values : List Nat) : ',' ∉ numbers values := by
  intro hmem
  obtain h | ⟨part, hpart, h⟩ := Text.mem_intercalate hmem
  · revert h
    decide
  · obtain ⟨n, -, rfl⟩ := mem_map.mp hpart
    exact Text.not_mem_dec rfl n h

/-- No numeral is empty, so the empty list has a text of its own. -/
theorem numbers_injective : Function.Injective numbers := by
  have hsplit : ∀ v vs, (numbers (v :: vs)).splitOn '-' = (v :: vs).map Text.dec := by
    intro v vs
    apply splitOn_intercalate
    · intro part hpart
      obtain ⟨n, -, rfl⟩ := mem_map.mp hpart
      exact Text.not_mem_dec rfl n
    · exact cons_ne_nil _ _
  have hne : ∀ v vs, numbers (v :: vs) ≠ [] := by
    intro v vs hnil
    have h := hsplit v vs
    rw [hnil] at h
    exact Nat.toDigits_ne_nil (cons.inj h).1.symm
  intro values values' heq
  cases values with
  | nil =>
    cases values' with
    | nil => rfl
    | cons v vs => exact absurd heq.symm (hne v vs)
  | cons v vs =>
    cases values' with
    | nil => exact absurd heq (hne v vs)
    | cons w ws =>
      have h := congrArg (splitOn '-') heq
      rw [hsplit, hsplit] at h
      exact map_injective_iff.mpr Text.dec_injective h

theorem text_injective : Function.Injective text := by
  have hsplit : ∀ params : Ja3Params, params.text.splitOn ',' = [Text.dec params.version.toNat,
      numbers (params.ciphers.map toNat), numbers (params.extensions.map toNat),
      numbers (params.groups.map toNat), numbers (params.pointFormats.map UInt8.toNat)] := by
    intro params
    refine Eq.trans ?_ (splitOn_intercalate ',' ?_ (cons_ne_nil _ _))
    · rfl
    · simp [comma_not_mem_numbers, Text.not_mem_dec]
  intro params params' heq
  have h := congrArg (splitOn ',') heq
  rw [hsplit, hsplit] at h
  simp only [cons.injEq, Text.dec_injective.eq_iff, numbers_injective.eq_iff] at h
  have h16 := map_injective_iff.mpr fun x y : UInt16 => toNat_inj.mp
  have h8 := map_injective_iff.mpr fun x y : UInt8 => UInt8.toNat_inj.mp
  cases params
  cases params'
  simp_all [toNat_inj, h16.eq_iff, h8.eq_iff]

/-- **Equal fingerprints**: of equal parameters, or of two texts with one digest. -/
theorem fingerprint_collides (md5 : Bytes → Text) (params params' : Ja3Params) :
    (params.text = params'.text ↔ params = params') ∧
    (hashParams md5 params = hashParams md5 params' ↔ params = params' ∨
      params.text.bytes ≠ params'.text.bytes ∧ md5 params.text.bytes = md5 params'.text.bytes) := by
  refine ⟨text_injective.eq_iff, ?_⟩
  by_cases h : params.text.bytes = params'.text.bytes
  · have heq := text_injective (Option.some.inj ((Text.ofBytes_eq_some.mpr h).symm.trans (Text.ofBytes_eq_some.mpr rfl)))
    simp [heq]
  · have hne : params ≠ params' := fun heq => h (heq ▸ rfl)
    simp [hashParams, h, hne]

end ServerWall.Ja3
