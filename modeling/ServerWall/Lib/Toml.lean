import Mathlib.Data.List.Nodup
import ServerWall.Lib.Text

/-!
# Records as TOML tables

What `#[derive(Serialize, Deserialize)]` makes of a record over TOML trees (`Value`): a list of slots,
each with its key, how a value is written and read, and what is read where nothing stands. Reading what
was written gives `back` (`Serde`); a type is `Lossless` where that changes nothing. `Shift p` says of two
readings that they fail together and are otherwise equal exactly when `p` holds.
-/

namespace ServerWall.Toml

open List

inductive Value where
  | string (t : Text)
  | integer (i : Int)
  | float (q : ℚ)
  | boolean (b : Bool)
  | datetime (t : Text)
  | array (items : List Value)
  | table (entries : List (Text × Value))

abbrev Table := List (Text × Value)

/-- A type that serde writes and reads: what is read back from what is written
for `a` is `back a`. -/
class Serde (α : Type) where
  encode : α → Value
  decode : Value → Option α
  back : α → α
  decode_encode (a : α) : decode (encode a) = some (back a)

class Lossless (α : Type) [Serde α] : Prop where
  back_eq (a : α) : Serde.back a = a

open Lossless (back_eq)

/-! ## Plain values -/

instance : Serde Bool where
  encode := .boolean
  decode
    | .boolean b => some b
    | _ => none
  back b := b
  decode_encode _ := rfl

instance : Lossless Bool := ⟨fun _ => rfl⟩

instance : Serde Text where
  encode := .string
  decode
    | .string t => some t
    | _ => none
  back t := t
  decode_encode _ := rfl

instance : Lossless Text := ⟨fun _ => rfl⟩

/-- `f64`, which also accepts an integer. -/
instance : Serde ℚ where
  encode := .float
  decode
    | .float q => some q
    | .integer i => some i
    | _ => none
  back q := q
  decode_encode _ := rfl

instance : Lossless ℚ := ⟨fun _ => rfl⟩

def decodeInteger {α : Type} (lo hi : Int) (f : Int → α) : Value → Option α
  | .integer i => if lo ≤ i ∧ i < hi then some (f i) else none
  | _ => none

theorem decodeInteger_of_range {α : Type} {lo hi i : Int} {f : Int → α} (hlo : lo ≤ i)
    (hhi : i < hi) : decodeInteger lo hi f (.integer i) = some (f i) :=
  if_pos ⟨hlo, hhi⟩

/-- `u64` and `usize`: a TOML integer that is not negative is below the bound. -/
instance : Serde Nat where
  encode n := .integer n
  decode
    | .integer i => if 0 ≤ i then some i.toNat else none
    | _ => none
  back n := n
  decode_encode n := by
    have hn : (0 : Int) ≤ n := Int.natCast_nonneg n
    simp [hn]

instance : Lossless Nat := ⟨fun _ => rfl⟩

instance : Serde UInt8 where
  encode u := .integer u.toNat
  decode := decodeInteger 0 256 fun i => UInt8.ofNat i.toNat
  back u := u
  decode_encode u := by
    have hu := u.toNat_lt
    rw [decodeInteger_of_range (by omega) (by omega)]
    simp

instance : Lossless UInt8 := ⟨fun _ => rfl⟩

instance : Serde UInt16 where
  encode u := .integer u.toNat
  decode := decodeInteger 0 65536 fun i => UInt16.ofNat i.toNat
  back u := u
  decode_encode u := by
    have hu := u.toNat_lt
    rw [decodeInteger_of_range (by omega) (by omega)]
    simp

instance : Lossless UInt16 := ⟨fun _ => rfl⟩

instance : Serde UInt32 where
  encode u := .integer u.toNat
  decode := decodeInteger 0 4294967296 fun i => UInt32.ofNat i.toNat
  back u := u
  decode_encode u := by
    have hu := u.toNat_lt
    rw [decodeInteger_of_range (by omega) (by omega)]
    simp

instance : Lossless UInt32 := ⟨fun _ => rfl⟩

instance : Serde Int32 where
  encode i := .integer i.toInt
  decode := decodeInteger (-2147483648) 2147483648 Int32.ofInt
  back i := i
  decode_encode i := by
    have hlo : -2147483648 ≤ i.toInt := i.minValue_le_toInt
    have hhi : i.toInt < 2147483648 := i.toInt_lt
    rw [decodeInteger_of_range hlo hhi, Int32.ofInt_toInt]

instance : Lossless Int32 := ⟨fun _ => rfl⟩

@[reducible] def Serde.ofVariants {α : Type} (variants : List α) (name : α → Text)
    (hnames : ∀ a, (variants.find? fun b => name b == name a) = some a) : Serde α where
  encode a := .string (name a)
  decode
    | .string t => variants.find? fun b => name b == t
    | _ => none
  back a := a
  decode_encode := hnames

instance {α : Type} [Serde α] : Serde (List α) where
  encode as := .array (as.map Serde.encode)
  decode
    | .array vs => vs.mapM Serde.decode
    | _ => none
  back as := as.map Serde.back
  decode_encode as := by
    show (as.map Serde.encode).mapM Serde.decode = _
    induction as with
    | nil => rfl
    | cons a as ih =>
      rw [map_cons, mapM_cons, Serde.decode_encode, ih]
      rfl

instance {α : Type} [Serde α] [Lossless α] : Lossless (List α) where
  back_eq as := by
    have hback : (Serde.back : α → α) = id := funext Lossless.back_eq
    show as.map Serde.back = as
    rw [hback, map_id]

/-! ## Fields -/

/-- A field of a record: what is written under its key (nothing, if it is left
out), and what is read from what stands there. -/
structure Slot where
  key : Text
  Ty : Type
  put : Ty → Option Value
  take : Option Value → Option Ty
  back : Ty → Ty
  take_put (a : Ty) : take (put a) = some (back a)
  /-- Whether the field is a table with a default. -/
  isSection : Bool := false

namespace Slot

variable (key : Text) (α : Type) [Serde α]

@[reducible] def required : Slot where
  key := key
  Ty := α
  put a := some (Serde.encode a)
  take
    | some v => Serde.decode v
    | none => none
  back := Serde.back
  take_put a := Serde.decode_encode a

variable {α}

@[reducible] def defaulted (absent : α) : Slot where
  key := key
  Ty := α
  put a := some (Serde.encode a)
  take
    | some v => Serde.decode v
    | none => some absent
  back := Serde.back
  take_put a := Serde.decode_encode a

/-- A field whose type is a record, with its default. -/
@[reducible] def table (absent : α) : Slot := { defaulted key absent with isSection := true }

@[reducible] def optional (absent : Option α) : Slot where
  key := key
  Ty := Option α
  put a := a.map Serde.encode
  take
    | some v => (Serde.decode v).map some
    | none => some absent
  back
    | some a => some (Serde.back a)
    | none => absent
  take_put a := by
    cases a with
    | none => rfl
    | some a =>
      show (Serde.decode (Serde.encode a)).map some = _
      rw [Serde.decode_encode]
      rfl

class Faithful (s : Slot) : Prop where
  back_eq (a : s.Ty) : s.back a = a

instance [Lossless α] : Faithful (required key α) := ⟨Lossless.back_eq⟩

instance [Lossless α] (absent : α) : Faithful (defaulted key absent) := ⟨Lossless.back_eq⟩

instance [Lossless α] (absent : α) : Faithful (table key absent) := ⟨Lossless.back_eq⟩

/-- Only an optional field whose default is `None` keeps a `None`. -/
instance [Lossless α] : Faithful (optional key (none : Option α)) where
  back_eq a := by
    cases a with
    | none => rfl
    | some a => exact congrArg some (Lossless.back_eq a)

end Slot

/-! ## Lists of fields -/

def Val : List Slot → Type
  | [] => Unit
  | s :: ss => s.Ty × Val ss

def Curried (R : Type) : List Slot → Type
  | [] => R
  | s :: ss => s.Ty → Curried R ss

def build {R : Type} : (ss : List Slot) → Curried R ss → Val ss → R
  | [], r, _ => r
  | _ :: ss, f, v => build ss (f v.1) v.2

def write : (ss : List Slot) → Val ss → Table
  | [], _ => []
  | s :: ss, v => match s.put v.1 with
    | some x => (s.key, x) :: write ss v.2
    | none => write ss v.2

def read : (ss : List Slot) → Table → Option (Val ss)
  | [], _ => some ()
  | s :: ss, t => match s.take (t.lookup s.key), read ss t with
    | some a, some v => some (a, v)
    | _, _ => none

def backAll : (ss : List Slot) → Val ss → Val ss
  | [], _ => ()
  | s :: ss, v => (s.back v.1, backAll ss v.2)

class AllFaithful (ss : List Slot) : Prop where
  back_eq (v : Val ss) : backAll ss v = v

instance : AllFaithful [] := ⟨fun _ => rfl⟩

instance {s : Slot} {ss : List Slot} [s.Faithful] [AllFaithful ss] : AllFaithful (s :: ss) where
  back_eq v := by
    show (s.back v.1, backAll ss v.2) = v
    rw [Slot.Faithful.back_eq, AllFaithful.back_eq]
    rfl

variable {t t' : Table} {k : Text}

theorem read_congr (h : ∀ s ∈ ss, t.lookup s.key = t'.lookup s.key) : read ss t = read ss t' := by
  induction ss with
  | nil => rfl
  | cons s ss ih =>
    obtain ⟨hs, hss⟩ := forall_mem_cons.mp h
    rw [read, read, hs, ih hss]

theorem lookup_write_of_notMem (hk : k ∉ ss.map Slot.key) (v : Val ss) : (write ss v).lookup k = none := by
  induction ss with
  | nil => rfl
  | cons s ss ih =>
    rw [map_cons, mem_cons, not_or] at hk
    rw [write]
    split
    · rw [lookup_cons, beq_false_of_ne hk.1]
      exact ih hk.2 v.2
    · exact ih hk.2 v.2

/-- **Reading back**: with distinct keys every field is read from its own entry. -/
theorem read_write (hk : (ss.map Slot.key).Nodup) (v : Val ss) : read ss (write ss v) = some (backAll ss v) := by
  induction ss with
  | nil => rfl
  | cons s ss ih =>
    obtain ⟨hs, hss⟩ := nodup_cons.mp hk
    have hown : (write (s :: ss) v).lookup s.key = s.put v.1 := by
      rw [write]
      split
      · rename_i x hx
        rw [hx, lookup_cons, beq_self_eq_true]
      · rename_i hx
        rw [hx]
        exact lookup_write_of_notMem hs v.2
    have hr : read ss (write (s :: ss) v) = read ss (write ss v.2) := by
      refine read_congr fun s' hs' => ?_
      have hne : s'.key ≠ s.key := fun heq => hs (heq ▸ mem_map_of_mem hs')
      rw [write]
      split
      · rw [lookup_cons, beq_false_of_ne hne]
      · rfl
    rw [read, hown, hr, s.take_put, ih hss]
    rfl

/-! ## Records -/

structure Record (R : Type) where
  slots : List Slot
  fields : R → Val slots
  make : Val slots → R
  keys_nodup : (slots.map Slot.key).Nodup := by decide
  make_fields : ∀ r, make (fields r) = r := by intro _; rfl
  fields_make : ∀ v, fields (make v) = v := by intro _; rfl

namespace Record

variable {R : Type} (rec : Record R)

@[reducible] def serde : Serde R where
  encode r := .table (write rec.slots (rec.fields r))
  decode
    | .table t => (read rec.slots t).map rec.make
    | _ => none
  back r := rec.make (backAll rec.slots (rec.fields r))
  decode_encode r := by
    show (read rec.slots (write rec.slots (rec.fields r))).map rec.make = _
    rw [read_write rec.keys_nodup]
    rfl

theorem lossless [AllFaithful rec.slots] : @Lossless R rec.serde := @Lossless.mk R rec.serde fun r => by
    show rec.make (backAll rec.slots (rec.fields r)) = r
    rw [AllFaithful.back_eq, rec.make_fields]

theorem back_eq_iff {r : R} : rec.make (backAll rec.slots (rec.fields r)) = r ↔
      backAll rec.slots (rec.fields r) = rec.fields r := by
  constructor
  · intro h
    rw [← rec.fields_make (backAll rec.slots (rec.fields r)), h]
  · intro h
    rw [h, rec.make_fields]

end Record

variable {s : Slot}

theorem backAll_cons_iff {v : Val (s :: ss)} : backAll (s :: ss) v = v ↔ s.back v.1 = v.1 ∧ backAll ss v.2 = v.2 :=
  Prod.ext_iff

theorem backAll_cons_faithful [s.Faithful] {v : Val (s :: ss)} : backAll (s :: ss) v = v ↔ backAll ss v.2 = v.2 := by
  rw [backAll_cons_iff, and_iff_right (Slot.Faithful.back_eq v.1)]

theorem backAll_faithful [AllFaithful ss] : backAll ss v = v ↔ True :=
  iff_true_intro (AllFaithful.back_eq v)

theorem Slot.optional_back_iff {α : Type} [Serde α] [Lossless α] {absent : α} {a : Option α} :
    (Slot.optional k (some absent)).back a = a ↔ a ≠ none := by
  cases a with
  | none => exact iff_of_false nofun (fun h => h rfl)
  | some a => exact iff_of_true (congrArg some (back_eq a)) nofun

theorem list_back_iff {α : Type} [Serde α] {as : List α} : Serde.back as = as ↔ ∀ a ∈ as, Serde.back a = a := by
  show as.map Serde.back = as ↔ _
  induction as with
  | nil => simp
  | cons a as ih => rw [map_cons, List.cons.injEq, forall_mem_cons, ih]

/-! ## Documents that differ in one place -/

/-- Two readings fail together, and where they do not they are equal exactly
when `p` holds. -/
structure Shift {α : Type} (p : Prop) (x x' : Option α) : Prop where
  none_iff : x = none ↔ x' = none
  eq_iff : x = x' ↔ p ∨ x = none

variable {α β : Type} {p : Prop}

theorem Shift.of_some {a a' : α} (h : a = a' ↔ p) : Shift p (some a) (some a') where
  none_iff := by simp
  eq_iff := by simpa using h

theorem Shift.map {x x' : Option α} {f : α → β} (hf : Function.Injective f)
    (h : Shift p x x') : Shift p (x.map f) (x'.map f) where
  none_iff := by simpa using h.none_iff
  eq_iff := by
    rw [(Option.map_injective hf).eq_iff, Option.map_eq_none_iff]
    exact h.eq_iff

theorem Shift.pair {x x' : Option α} (h : Shift p x x') (y : Option β) :
    Shift p (x.bind fun a => y.map fun b => (a, b)) (x'.bind fun a => y.map fun b => (a, b)) := by
  cases y with
  | none => exact ⟨by simp, by simp⟩
  | some b =>
    have hmap : ∀ z : Option α, (z.bind fun a => (some b).map fun b => (a, b)) =
        z.map fun a => (a, b) := fun z => by cases z <;> rfl
    rw [hmap, hmap]
    exact h.map fun a a' heq => congrArg Prod.fst heq

theorem Shift.pair_right {x x' : Option β} (h : Shift p x x') (y : Option α) :
    Shift p (y.bind fun a => x.map fun b => (a, b)) (y.bind fun a => x'.map fun b => (a, b)) := by
  cases y with
  | none => exact ⟨by simp, by simp⟩
  | some a => exact h.map fun b b' heq => congrArg Prod.snd heq

theorem read_cons (s : Slot) (ss : List Slot) (t : Table) : read (s :: ss) t =
      (s.take (t.lookup s.key)).bind fun a => (read ss t).map fun v => (a, v) := by
  rw [read]
  cases s.take (t.lookup s.key) with
  | none => rfl
  | some a => cases read ss t <;> rfl

def AgreeOff (k : Text) (t t' : Table) : Prop := ∀ j, j ≠ k → t.lookup j = t'.lookup j

theorem read_shift (hs : s ∈ ss) (hk : (ss.map Slot.key).Nodup) (hoff : AgreeOff s.key t t')
    (h : Shift p (s.take (t.lookup s.key)) (s.take (t'.lookup s.key))) : Shift p (read ss t) (read ss t') := by
  induction ss with
  | nil => cases hs
  | cons s₀ ss ih =>
    obtain ⟨hf, hr⟩ := nodup_cons.mp hk
    rw [read_cons, read_cons]
    rcases mem_cons.mp hs with heq | hmem
    · subst heq
      have hsa : read ss t = read ss t' := read_congr fun s' hs' =>
        hoff s'.key fun heq => hf (heq ▸ mem_map_of_mem hs')
      rw [hsa]
      exact h.pair _
    · have hne : s₀.key ≠ s.key := fun heq => hf (heq ▸ mem_map_of_mem hmem)
      rw [hoff s₀.key hne]
      exact (ih hmem hr).pair_right _

theorem Record.shift {R : Type} (rec : Record R) (hs : s ∈ rec.slots) (hoff : AgreeOff s.key t t')
    (h : Shift p (s.take (t.lookup s.key)) (s.take (t'.lookup s.key))) :
    Shift p (rec.serde.decode (.table t)) (rec.serde.decode (.table t')) :=
  (read_shift hs rec.keys_nodup hoff h).map (Function.LeftInverse.injective rec.fields_make)

theorem Shift.mapM {f : α → Option β} {a a' : α} (h : Shift p (f a) (f a')) (as bs : List α) :
    Shift p ((as ++ a :: bs).mapM f) ((as ++ a' :: bs).mapM f) := by
  have hc : ∀ (c : α) (cs : List α), (c :: cs).mapM f =
      ((f c).bind fun b => (cs.mapM f).map fun bs => (b, bs)).map fun x => x.1 :: x.2 := by
    intro c cs
    rw [mapM_cons]
    cases f c with
    | none => rfl
    | some b => cases cs.mapM f <;> rfl
  have hinj : Function.Injective fun x : β × List β => x.1 :: x.2 := by
    intro x y heq
    exact Prod.ext (List.cons.inj heq).1 (List.cons.inj heq).2
  induction as with
  | nil =>
    rw [nil_append, nil_append, hc, hc]
    exact (h.pair _).map hinj
  | cons c cs ih =>
    rw [cons_append, cons_append, hc, hc]
    exact (ih.pair_right _).map hinj

/-! ## A table left out and an empty table -/

/-- A step from a table to a table inside it: the one under a key, or an element
of the array under a key. -/
inductive Hop where
  | key (k : Text)
  | item (k : Text)
  deriving DecidableEq

/-- The second document is the first with an empty table where the hops lead,
and the first has none there. -/
inductive Emptied : List Hop → Value → Value → Prop
  | here {k : Text} {t t' : Table} (habsent : t.lookup k = none)
      (hempty : t'.lookup k = some (.table [])) (hoff : AgreeOff k t t') :
      Emptied [.key k] (.table t) (.table t')
  | key {k : Text} {hops : List Hop} {t t' : Table} {v v' : Value} (hv : t.lookup k = some v)
      (hv' : t'.lookup k = some v') (hoff : AgreeOff k t t') (hrest : Emptied hops v v') :
      Emptied (.key k :: hops) (.table t) (.table t')
  | item {k : Text} {hops : List Hop} {t t' : Table} {v v' : Value} {vs ws : List Value}
      (hv : t.lookup k = some (.array (vs ++ v :: ws)))
      (hv' : t'.lookup k = some (.array (vs ++ v' :: ws)))
      (hoff : AgreeOff k t t') (hrest : Emptied hops v v') :
      Emptied (.item k :: hops) (.table t) (.table t')

/-- Leaving out the table where the hops lead is the same as leaving it empty,
exactly if `p`. -/
def Shifts (α : Type) [Serde α] (hops : List Hop) (p : Prop) : Prop :=
  ∀ v v', Emptied hops v v' → Shift p (Serde.decode v : Option α) (Serde.decode v')

namespace Record

variable {R S : Type} (rec : Record R) [Serde S]

def HasSlot (k : Text) (s : Slot) : Prop := rec.slots.find? (fun s => s.key == k) = some s

variable {rec}

theorem HasSlot.mem (h : rec.HasSlot k s) : s ∈ rec.slots := mem_of_find?_eq_some h

theorem HasSlot.key_eq (h : rec.HasSlot k s) : s.key = k := by
  simpa using find?_some h

variable (hs : rec.HasSlot k s)
include hs

theorem shifts_here (h : Shift p (s.take none) (s.take (some (.table [])))) : @Shifts R rec.serde [.key k] p := by
  intro v v' he
  cases he with
  | here ha hp hoff =>
    obtain rfl := hs.key_eq
    refine rec.shift hs.mem hoff ?_
    rwa [ha, hp]
  | key _ _ _ hr => cases hr

/-- A field whose default is what is read from the empty table. -/
theorem shifts_same (h : s.take none = s.take (some (.table []))) : @Shifts R rec.serde [.key k] (true) :=
  shifts_here hs ⟨by rw [h], by simp [h]⟩

/-- A field whose default is not what is read from the empty table. -/
theorem shifts_unlike {d e : s.Ty}
    (hd : s.take none = some d) (he : s.take (some (.table [])) = some e) (hne : d ≠ e) :
    @Shifts R rec.serde [.key k] (false) := by
  refine shifts_here hs ?_
  rw [hd, he]
  exact .of_some (by simpa using hne)

omit hs

theorem shifts_table {k : Text} {d : S} (hs : rec.HasSlot k (.table k d))
    (h : Shifts S hops p) (hh : hops ≠ []) : @Shifts R rec.serde (.key k :: hops) p := by
  intro v v' he
  cases he with
  | here => exact absurd rfl hh
  | key hv hv' hoff hr =>
    refine rec.shift hs.mem hoff ?_
    rw [hv, hv']
    exact h _ _ hr

theorem shifts_optional {k : Text} {d : Option S} (hs : rec.HasSlot k (.optional k d))
    (h : Shifts S hops p) (hh : hops ≠ []) : @Shifts R rec.serde (.key k :: hops) p := by
  intro v v' he
  cases he with
  | here => exact absurd rfl hh
  | key hv hv' hoff hr =>
    refine rec.shift hs.mem hoff ?_
    rw [hv, hv']
    exact (h _ _ hr).map (Option.some_injective S)

theorem shifts_item {k : Text} {d : List S} (hs : rec.HasSlot k (.defaulted k d))
    (h : Shifts S hops p) : @Shifts R rec.serde (.item k :: hops) p := by
  intro v v' he
  cases he with
  | item hv hv' hoff hr =>
    refine rec.shift hs.mem hoff ?_
    rw [hv, hv']
    exact (h _ _ hr).mapM _ _

end Record

end ServerWall.Toml
