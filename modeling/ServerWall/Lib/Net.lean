import Mathlib.Data.Fin.VecNotation
import Mathlib.Data.Fintype.Basic
import ServerWall.Lib.Text

/-!
# Internet addresses

`IpAddr` of the standard library and its `Display`, and `IpNetwork` of the `ip_network` crate with its
parser: an address, a slash and a length, and nothing set beyond it. Reading an address is left open
(`AddrParser`). `Covers` is what an entry means to whoever wrote it (`covers_iff`).
-/

namespace ServerWall

open List Text List

inductive IpAddr where
  | v4 (a b c d : UInt8)
  | v6 (segments : Fin 8 → UInt16)
  deriving DecidableEq

namespace IpAddr

def v4Text (a b c d : UInt8) : Text :=
  Text.fmt [Text.dec a.toNat, ".", Text.dec b.toNat, ".", Text.dec c.toNat, ".", Text.dec d.toNat]

def colonHex (segments : List UInt16) : Text := List.intercalate [':'] (segments.map fun s => Text.hex s.toNat)

/-- The first longest run of zero segments, as its start and length. The scan
carries the position, the run it is in and the longest run so far. -/
def longestZeros : List UInt16 → Nat → Nat × Nat → Nat × Nat → Nat × Nat
  | [], _, _, longest => longest
  | s :: rest, i, current, longest =>
    if s = 0 then
      let start := if current.2 = 0 then i else current.1
      let current' := (start, current.2 + 1)
      longestZeros rest (i + 1) current' (if current'.2 > longest.2 then current' else longest)
    else longestZeros rest (i + 1) (0, 0) longest

/-- `Display` of an IPv6 address. -/
def v6Text (segments : List UInt16) : Text :=
  match segments with
  | [0, 0, 0, 0, 0, 0xffff, ab, cd] =>
    Text.fmt ["::ffff:", v4Text (ab >>> 8).toUInt8 ab.toUInt8 (cd >>> 8).toUInt8 cd.toUInt8]
  | _ =>
    let zeros := longestZeros segments 0 (0, 0) (0, 0)
    if zeros.2 > 1 then
      Text.fmt [colonHex (segments.take zeros.1), "::", colonHex (segments.drop (zeros.1 + zeros.2))]
    else colonHex segments

def toText : IpAddr → Text
  | v4 a b c d => v4Text a b c d
  | v6 segments => v6Text (List.ofFn segments)

-- RFC 5952 spellings, as the standard library prints them
example : toText (v4 192 0 2 1) = ("192.0.2.1" : Text) := by decide
example : toText (v6 ![0x2001, 0xdb8, 0, 0, 1, 0, 0, 1]) = ("2001:db8::1:0:0:1" : Text) := by decide
example : toText (v6 ![0, 0, 0, 0, 0, 0xffff, 0xc000, 0x0201]) = ("::ffff:192.0.2.1" : Text) := by decide
example : toText (v6 ![0, 0, 0, 0, 0, 0, 0, 1]) = ("::1" : Text) := by decide

def InText (c : Char) : Prop := (∃ k, c = Nat.digitChar k) ∨ c = '.' ∨ c = ':'

theorem inText_fmt (h : ∀ part ∈ parts, ∀ x ∈ part, InText x) : ∀ x ∈ fmt parts, InText x := by
  intro x hx
  obtain ⟨part, hp, hx⟩ := mem_flatten.mp hx
  exact h part hp x hx

theorem inText_v4Text (a b c d : UInt8) : ∀ x ∈ v4Text a b c d, InText x := by
  have hdec : ∀ octet : UInt8, ∀ x ∈ dec octet.toNat, InText x := fun octet x hx => .inl (mem_toDigits hx)
  have hdot : ∀ x ∈ (".": Text), InText x := fun x hx => .inr (.inl (mem_singleton.mp hx))
  refine inText_fmt ?_
  simp only [forall_mem_cons]
  exact ⟨hdec a, hdot, hdec b, hdot, hdec c, hdot, hdec d, fun _ h => absurd h not_mem_nil⟩

theorem inText_colonHex (segments : List UInt16) : ∀ x ∈ colonHex segments, InText x := by
  intro x hx
  rcases mem_intercalate hx with hc | ⟨part, hp, hx⟩
  · exact .inr (.inr (mem_singleton.mp hc))
  · obtain ⟨segment, _, rfl⟩ := mem_map.mp hp
    exact .inl (mem_toDigits hx)

theorem inText_toText (ip : IpAddr) : ∀ x ∈ ip.toText, InText x := by
  have hc : ∀ x ∈ ("::" : Text), InText x := by
    intro x hx
    exact .inr (.inr (eq_of_mem_replicate (n := 2) hx))
  have hm : ∀ x ∈ ("::ffff:" : Text), x = ':' ∨ x = 'f' := by
    have hall : ("::ffff:" : Text).all (fun x => x = ':' || x = 'f') = true := rfl
    intro x hx
    have hor := Bool.or_eq_true_iff.mp (all_eq_true.mp hall x hx)
    exact hor.imp of_decide_eq_true of_decide_eq_true
  cases ip with
  | v4 a b c d => exact inText_v4Text a b c d
  | v6 segments =>
    unfold toText v6Text
    dsimp only
    split
    · refine inText_fmt ?_
      simp only [forall_mem_cons]
      refine ⟨fun x hx => ?_, inText_v4Text _ _ _ _, fun _ h => absurd h not_mem_nil⟩
      exact (hm x hx).elim (fun h => .inr (.inr h)) (fun h => .inl ⟨15, h⟩)
    · split
      · refine inText_fmt ?_
        simp only [forall_mem_cons]
        exact ⟨inText_colonHex _, hc, inText_colonHex _, fun _ h => absurd h not_mem_nil⟩
      · exact inText_colonHex _

/-! ## Reading an address back

A printed address is cut at its colons. Where zeros were left out there is an empty part,
and how many they were follows from the parts that are left. -/

theorem digits_plain (b n : Nat) : '.' ∉ Nat.toDigits b n ∧ ':' ∉ Nat.toDigits b n := by
  have hd := digitChar_of_digits (P := fun c => c ≠ '.' ∧ c ≠ ':') (by decide) (by decide)
  constructor <;> intro h <;> obtain ⟨k, hk⟩ := mem_toDigits h
  · exact (hd k).1 hk.symm
  · exact (hd k).2 hk.symm

theorem v4Text_inj (h : v4Text a b c d = v4Text a' b' c' d') : a = a' ∧ b = b' ∧ c = c' ∧ d = d' := by
  have hs : ∀ a b c d : UInt8, (v4Text a b c d).splitOn '.' = [a, b, c, d].map fun octet => dec octet.toNat := by
    intro a b c d
    have hpl : ∀ l ∈ [a, b, c, d].map fun octet => dec octet.toNat, '.' ∉ l := by simp [dec, digits_plain]
    exact splitOn_intercalate '.' hpl (cons_ne_nil _ _)
  have hp := hs a b c d
  rw [h, hs] at hp
  simpa [dec_injective.eq_iff, UInt8.toNat_inj, eq_comm] using hp

theorem halves_inj {x y : UInt16} (hh : (x >>> 8).toUInt8 = (y >>> 8).toUInt8)
    (hlow : x.toUInt8 = y.toUInt8) : x = y := by
  have hh := congrArg UInt8.toNat hh
  have hlow := congrArg UInt8.toNat hlow
  have hx := x.toNat_lt
  have hy := y.toNat_lt
  simp [Nat.shiftRight_eq_div_pow] at hh hlow
  exact UInt16.toNat_inj.mp (by omega)

def Zeros (l : List UInt16) (run : Nat × Nat) : Prop :=
  ∃ before after, before.length = run.1 ∧ l = before ++ List.replicate run.2 0 ++ after

/-- The scan ends with a run of zeros: of the run it is in it knows that it ends here. -/
theorem zeros_longestZeros (rest : List UInt16) {pre : List UInt16} {current longest : Nat × Nat}
    (hc : current.2 ≠ 0 → ∃ before, before.length = current.1 ∧ pre = before ++ replicate current.2 0)
    (hl : Zeros (pre ++ rest) longest) : Zeros (pre ++ rest) (longestZeros rest pre.length current longest) := by
  induction rest generalizing pre current longest with
  | nil => exact hl
  | cons s rest ih =>
    have hli : pre ++ s :: rest = (pre ++ [s]) ++ rest := by simp
    have hle : pre.length + 1 = (pre ++ [s]).length := by simp
    rw [hli] at hl ⊢
    rw [longestZeros, hle]
    split
    · next hs =>
      have hrun : ∃ before, before.length = (if current.2 = 0 then pre.length else current.1) ∧
          pre ++ [s] = before ++ replicate (current.2 + 1) 0 := by
        rw [replicate_succ', hs]
        split
        · next hz => exact ⟨pre, rfl, by rw [hz]; rfl⟩
        · next hpos =>
          obtain ⟨before, hb, hpre⟩ := hc hpos
          exact ⟨before, hb, by rw [hpre, append_assoc]⟩
      generalize (if current.2 = 0 then pre.length else current.1) = start at hrun ⊢
      refine ih (fun _ => hrun) ?_
      split
      · obtain ⟨before, hb, heq⟩ := hrun
        exact ⟨before, rest, hb, by rw [heq]⟩
      · exact hl
    · exact ih (fun h => absurd rfl h) hl

/-- The segments of a text without an IPv4 part, as they are printed: all that stands before
the first empty part, zeros, and the rest. -/
def readSegments (t : Text) : List Text :=
  let parts := t.splitOn ':'
  let front := parts.takeWhile (· ≠ [])
  let back := (parts.dropWhile (· ≠ [])).filter (· ≠ [])
  front ++ List.replicate (8 - front.length - back.length) ['0'] ++ back

def hexes (segments : List UInt16) : List Text := segments.map fun s => Text.hex s.toNat

theorem hexes_ne_nil : ∀ part ∈ hexes segments, decide (part ≠ []) := by
  intro part hp
  obtain ⟨s, _, rfl⟩ := mem_map.mp hp
  exact decide_eq_true Nat.toDigits_ne_nil

theorem splitOn_colonHex (hne : segments ≠ []) : (colonHex segments).splitOn ':' = hexes segments := by
  refine splitOn_intercalate ':' ?_ (by simpa using hne)
  simp [hex, digits_plain]

theorem readSegments_colonHex {segments : List UInt16} (h : segments.length = 8) :
    readSegments (colonHex segments) = hexes segments := by
  have hne : segments ≠ [] := ne_nil_of_length_eq_add_one h
  simp only [readSegments, splitOn_colonHex hne, takeWhile_eq_self_iff.mpr hexes_ne_nil,
    dropWhile_eq_nil_iff.mpr hexes_ne_nil]
  simp [hexes, h]

theorem readSegments_gap (before after : List UInt16) : readSegments (colonHex before ++ "::" ++ colonHex after) =
      hexes before ++ replicate (8 - before.length - after.length) ['0'] ++ hexes after := by
  have hb : ((colonHex after).splitOn ':').filter (· ≠ []) = hexes after := by
    by_cases hnil : after = []
    · rw [hnil]
      rfl
    · rw [splitOn_colonHex hnil]
      exact filter_eq_self.mpr hexes_ne_nil
  obtain ⟨rest, hs, hr⟩ : ∃ rest, (colonHex before ++ "::" ++ colonHex after).splitOn ':' =
      hexes before ++ [] :: rest ∧ rest.filter (· ≠ []) = hexes after := by
    rw [append_assoc]
    have hcut := (splitOn_append_cons_self (colonHex before) (':' :: colonHex after)).trans
      (congrArg _ (splitOn_append_cons_self [] (colonHex after)))
    by_cases hnil : before = []
    · subst hnil
      exact ⟨[] :: (colonHex after).splitOn ':', hcut, hb⟩
    · exact ⟨_, splitOn_colonHex hnil ▸ hcut, hb⟩
  simp only [readSegments, hs, takeWhile_append_of_pos hexes_ne_nil, dropWhile_append_of_pos hexes_ne_nil]
  rw [takeWhile_cons_of_neg (by simp), dropWhile_cons_of_neg (by simp), filter_cons_of_neg (by simp), hr]
  simp [hexes]

theorem readSegments_v6Text {segments : List UInt16} (h : segments.length = 8) :
    (∃ ab cd, segments = [0, 0, 0, 0, 0, 0xffff, ab, cd] ∧ v6Text segments =
      "::ffff:" ++ v4Text (ab >>> 8).toUInt8 ab.toUInt8 (cd >>> 8).toUInt8 cd.toUInt8) ∨
    '.' ∉ v6Text segments ∧ readSegments (v6Text segments) = hexes segments := by
  have hdot : ∀ segments, '.' ∉ colonHex segments := by
    intro segments hmem
    rcases mem_intercalate hmem with hco | ⟨part, hp, hc⟩
    · exact absurd hco (by decide)
    · obtain ⟨s, _, rfl⟩ := mem_map.mp hp
      exact (digits_plain 16 _).1 hc
  unfold v6Text
  split
  · next ab cd => exact .inl ⟨ab, cd, rfl, by simp [fmt]⟩
  · right
    obtain ⟨before, after, hb, heq⟩ := @zeros_longestZeros segments [] (0, 0) (0, 0)
      (fun h => absurd rfl h) ⟨[], segments, rfl, rfl⟩
    simp only [nil_append, length_nil] at hb heq
    dsimp only
    generalize longestZeros segments 0 (0, 0) (0, 0) = zeros at hb heq ⊢
    have hf : segments.take zeros.1 = before := by rw [heq, ← hb, append_assoc, take_left]
    have hba : segments.drop (zeros.1 + zeros.2) = after := by
      rw [heq]
      exact drop_left' (by rw [length_append, hb, length_replicate])
    have hcou : before.length + zeros.2 + after.length = 8 := by
      rw [← h, heq, length_append, length_append, length_replicate]
    rw [hf, hba]
    split
    · have hfmt : fmt [colonHex before, "::", colonHex after] = colonHex before ++ "::" ++ colonHex after := by
        simp [fmt]
      rw [hfmt, readSegments_gap, heq, show 8 - before.length - after.length = zeros.2 by omega]
      refine ⟨by simp [hdot], by simp [hexes, hex]⟩
    · exact ⟨hdot segments, readSegments_colonHex h⟩

/-- **A printed address is the print of no other.** -/
theorem toText_injective : Function.Injective toText := by
  have hdot : ∀ a b c d, '.' ∈ v4Text a b c d := fun a b c d => by simp [v4Text, fmt]
  have hc : ∀ a b c d, ':' ∉ v4Text a b c d := fun a b c d => by simp [v4Text, fmt, dec, digits_plain]
  have hv4 : ∀ a b c d (segments : Fin 8 → UInt16), v4Text a b c d ≠ v6Text (ofFn segments) := by
    intro a b c d segments h
    rcases readSegments_v6Text (length_ofFn (f := segments)) with ⟨ab, cd, -, heq⟩ | ⟨hp, -⟩
    · exact hc a b c d (h.trans heq ▸ by simp)
    · exact hp (h ▸ hdot a b c d)
  intro x y h
  cases x with
  | v4 a b c d =>
    cases y with
    | v4 a' b' c' d' =>
      obtain ⟨rfl, rfl, rfl, rfl⟩ := v4Text_inj h
      rfl
    | v6 segments => exact absurd h (hv4 a b c d segments)
  | v6 segments =>
    cases y with
    | v4 a b c d => exact absurd h.symm (hv4 a b c d segments)
    | v6 segments' =>
      have h : v6Text (ofFn segments) = v6Text (ofFn segments') := h
      refine congrArg v6 (ofFn_injective ?_)
      rcases readSegments_v6Text (length_ofFn (f := segments)) with
          ⟨ab, cd, hseg, heq⟩ | ⟨hp, hr⟩ <;>
        rcases readSegments_v6Text (length_ofFn (f := segments')) with
          ⟨ab', cd', hseg', heq'⟩ | ⟨hp', hr'⟩
      · obtain ⟨hab, hab', hcd, hcd'⟩ := v4Text_inj (append_cancel_left (heq.symm.trans (h.trans heq')))
        rw [hseg, hseg', halves_inj hab hab', halves_inj hcd hcd']
      · exact absurd (h ▸ heq ▸ mem_append_right _ (hdot _ _ _ _)) hp'
      · exact absurd (h ▸ heq' ▸ mem_append_right _ (hdot _ _ _ _)) hp
      · rw [h, hr'] at hr
        exact map_injective_iff.mpr (fun _ _ hst => UInt16.toNat_inj.mp (hex_injective hst)) hr.symm

/-! ## Networks -/

def width : IpAddr → Nat
  | v4 _ _ _ _ => 32
  | v6 _ => 128

def value : IpAddr → Nat
  | v4 a b c d => ((a.toNat * 256 + b.toNat) * 256 + c.toNat) * 256 + d.toNat
  | v6 segments => (List.ofFn segments).foldl (fun n s => n * 65536 + s.toNat) 0

/-- Two addresses of one family that agree on so many leading bits. -/
def agree (len : Nat) (a b : IpAddr) : Bool :=
  a.width == b.width && a.value / 2 ^ (a.width - len) == b.value / 2 ^ (a.width - len)

example : agree 24 (v4 203 0 113 0) (v4 203 0 113 9) = true := by decide
example : agree 24 (v4 203 0 113 0) (v4 203 0 114 9) = false := by decide

theorem foldl_segments_lt (segments : List UInt16) (hn : n < 65536 ^ k) :
    segments.foldl (fun n s => n * 65536 + s.toNat) n < 65536 ^ (k + segments.length) := by
  induction segments generalizing n k with
  | nil => exact hn
  | cons s rest ih =>
    have hs : s.toNat < 65536 := s.toNat_lt
    have hne : n * 65536 + s.toNat < 65536 ^ (k + 1) := by
      rw [Nat.pow_succ]
      omega
    rw [foldl_cons, length_cons, ← Nat.add_assoc, Nat.add_right_comm]
    exact ih hne

theorem value_lt (ip : IpAddr) : ip.value < 2 ^ ip.width := by
  cases ip with
  | v4 a b c d =>
    have ha := a.toNat_lt
    have hb := b.toNat_lt
    have hc := c.toNat_lt
    have hd := d.toNat_lt
    simp only [value, width]
    omega
  | v6 segments =>
    have hlt := foldl_segments_lt (ofFn segments) (n := 0) (k := 0) (by decide)
    rw [length_ofFn] at hlt
    exact hlt

theorem agree_zero {a b : IpAddr} (h : a.width = b.width) : a.agree 0 b := by
  have ha := Nat.div_eq_of_lt (value_lt a)
  have hb := Nat.div_eq_of_lt (value_lt b)
  rw [← h] at hb
  rw [agree, Nat.sub_zero, ha, hb, h]
  simp

end IpAddr

/-- `IpAddr::from_str`, of which only this is used: an address holds no slash. -/
structure AddrParser where
  parse : Text → Option IpAddr
  noSlash : ∀ t, '/' ∈ t → parse t = none

inductive IpNetworkParseError where
  | invalidFormatError
  | addrParseError
  | invalidNetmaskFormat
  | invalidNetmask
  | hostBitsSet

/-- A network: an address without bits beyond its length. -/
structure IpNetwork where
  addr : IpAddr
  len : Nat
  le_width : len ≤ addr.width
  host : addr.value % 2 ^ (addr.width - len) = 0

namespace IpNetwork

def contains (net : IpNetwork) (ip : IpAddr) : Bool := net.addr.agree net.len ip

def split (t : Text) : Option (Text × Text) :=
  match t.span (· != '/') with
  | (ip, _ :: mask) => if ip.isEmpty || mask.isEmpty then none else some (ip, mask)
  | (_, []) => none

def new (addr : IpAddr) (len : Nat) : Except IpNetworkParseError IpNetwork :=
  if hlen : len ≤ addr.width then
    if hhost : addr.value % 2 ^ (addr.width - len) = 0 then .ok ⟨addr, len, hlen, hhost⟩
    else .error .hostBitsSet
  else .error .invalidNetmask

/-- `IpNetwork::from_str`: exactly an address and a length, with no bits beyond it. -/
def parse (addrs : AddrParser) (t : Text) : Except IpNetworkParseError IpNetwork :=
  match split t with
  | none => .error .invalidFormatError
  | some (ip, mask) => match addrs.parse ip with
    | none => .error .addrParseError
    | some addr => match Text.parseUnsigned 256 mask with
      | none => .error .invalidNetmaskFormat
      | some len => new addr len

theorem parse_of_split {addrs : AddrParser} {t ip mask : Text} {addr : IpAddr} {len : Nat}
    (hs : split t = some (ip, mask)) (ha : addrs.parse ip = some addr)
    (hm : parseUnsigned 256 mask = some len) : parse addrs t = new addr len := by
  simp only [parse, hs, ha, hm]

theorem new_eq_ok {addr : IpAddr} {len : Nat} (hlen : len ≤ addr.width)
    (hh : addr.value % 2 ^ (addr.width - len) = 0) : new addr len = .ok ⟨addr, len, hlen, hh⟩ := by
  rw [new, dif_pos hlen, dif_pos hh]

theorem eq_of_split (h : split t = some (ip, mask)) : t = ip ++ '/' :: mask := by
  unfold split at h
  rw [span_eq_takeWhile_dropWhile] at h
  split at h
  · rename_i ip' c mask' heq
    obtain ⟨htake, hdrop⟩ := Prod.mk.inj heq
    have hhead : (c != '/') = false := by
      have hnot := head_dropWhile_not (· != '/') (hdrop ▸ cons_ne_nil c mask' : t.dropWhile (· != '/') ≠ [])
      simpa only [hdrop, head_cons] using hnot
    obtain rfl : c = '/' := by simpa using hhead
    obtain ⟨-, hparts⟩ := Option.ite_none_left_eq_some.mp h
    cases hparts
    rw [← htake, ← hdrop, takeWhile_append_dropWhile]
  · cases h

theorem slash_of_split (h : split t = some (ip, mask)) : '/' ∈ t := by
  rw [eq_of_split h]
  exact mem_append_right _ mem_cons_self

theorem parse_eq_ok (h : parse addrs t = .ok net) :
    ∃ ip mask, split t = some (ip, mask) ∧ addrs.parse ip = some net.addr ∧
      parseUnsigned 256 mask = some net.len := by
  unfold parse at h
  cases hs : split t with
  | none =>
    rw [hs] at h
    cases h
  | some parts =>
    obtain ⟨ip, mask⟩ := parts
    simp only [hs] at h
    cases ha : addrs.parse ip with
    | none =>
      simp only [ha] at h
      cases h
    | some addr =>
      cases hm : parseUnsigned 256 mask with
      | none =>
        simp only [ha, hm] at h
        cases h
      | some len =>
        simp only [ha, hm, new] at h
        split at h
        · split at h
          · cases h
            exact ⟨ip, mask, rfl, ha, hm⟩
          · cases h
        · cases h

end IpNetwork

/-- What an entry of an address list says, whoever reads it: an address, or the
addresses that agree with it on so many bits. -/
def Covers (addrs : AddrParser) (entry : Text) (ip : IpAddr) : Prop := addrs.parse entry = some ip ∨
  ∃ text mask addr len, IpNetwork.split entry = some (text, mask) ∧ addrs.parse text = some addr ∧
    Text.parseUnsigned 256 mask = some len ∧ len ≤ addr.width ∧ addr.agree len ip = true

theorem covers_iff (h : IpNetwork.parse addrs entry = .ok net) : Covers addrs entry ip ↔ net.contains ip := by
  obtain ⟨text, mask, hs, ha, hm⟩ := IpNetwork.parse_eq_ok h
  constructor
  · rintro (hsi | ⟨text', mask', addr, len, hs', ha', hm', -, hag⟩)
    · cases (addrs.noSlash entry (IpNetwork.slash_of_split hs)).symm.trans hsi
    · cases hs.symm.trans hs'
      cases ha.symm.trans ha'
      cases hm.symm.trans hm'
      exact hag
  · intro hc
    exact .inr ⟨text, mask, net.addr, net.len, hs, ha, hm, net.le_width, hc⟩

end ServerWall
