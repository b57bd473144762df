import Mathlib.Algebra.Order.BigOperators.Group.Finset
import ServerWall.Lib.Prog
import ServerWall.Lib.Text

/-!
# Relaying lines, and then everything

A relay reads streams through buffers, passes lines on as a program tells it to, and may then give the
buffers up. The lines depend on the bytes alone (`readLine_eq_nextLine`, `run_congr`), the buffers on the
reads: all is passed on if and only if the lines end where a read ended, or the relay ends with nothing
left (`passed_iff_seamless`). Reads are not bounded, and writes succeed.
-/

namespace ServerWall

open List Function Option Text

/-! ## The next line -/

/-- The line that the first line feed ends, and what follows. -/
def cutLine : Bytes → Option (Bytes × Bytes)
  | [] => none
  | b :: bs =>
    if b = 10 then some ([b], bs)
    else (cutLine bs).map fun (line, rest) => (b :: line, rest)

/-- The next line of a stream that ends: without a line feed all there is. -/
def nextLine (bs : Bytes) : Bytes × Bytes := (cutLine bs).getD (bs, [])

theorem cutLine_append_of_some (h : cutLine x = some (line, rest))
    (y : Bytes) : cutLine (x ++ y) = some (line, rest ++ y) := by
  induction x generalizing line with
  | nil => cases h
  | cons b x ih =>
    rw [cons_append, cutLine]
    rw [cutLine] at h
    split at h
    · cases h
      rw [if_pos ‹_›]
    · obtain ⟨⟨line', rest'⟩, hcut, heq⟩ := map_eq_some_iff.mp h
      cases heq
      rw [if_neg ‹_›, ih hcut]
      rfl

theorem cutLine_append_of_none (h : cutLine x = none) (y : Bytes) :
    cutLine (x ++ y) = (cutLine y).map fun (line, rest) => (x ++ line, rest) := by
  induction x with
  | nil => simp
  | cons b x ih =>
    rw [cutLine] at h
    split at h
    · cases h
    · rw [cons_append, cutLine, if_neg ‹_›, ih (Option.map_eq_none_iff.mp h), Option.map_map]
      rfl

theorem cutLine_eq_some (h : cutLine x = some (line, rest)) : x = line ++ rest ∧ line ≠ [] := by
  induction x generalizing line with
  | nil => cases h
  | cons b x ih =>
    rw [cutLine] at h
    split at h
    · cases h
      exact ⟨rfl, cons_ne_nil _ _⟩
    · obtain ⟨⟨line', rest'⟩, hcut, heq⟩ := map_eq_some_iff.mp h
      cases heq
      exact ⟨congrArg (b :: ·) (ih hcut).1, cons_ne_nil _ _⟩

theorem nextLine_append_of_some (h : cutLine x = some (line, rest))
    (y : Bytes) : nextLine (x ++ y) = (line, rest ++ y) := by
  rw [nextLine, cutLine_append_of_some h, getD_some]

theorem nextLine_append_of_none (h : cutLine x = none) (y : Bytes) :
    nextLine (x ++ y) = (x ++ (nextLine y).1, (nextLine y).2) := by
  rw [nextLine, cutLine_append_of_none h, nextLine]
  cases cutLine y <;> simp

/-! ## Buffered readers -/

/-- A stream by what each read gives; after these it has ended. A read that gives nothing would
be its end. -/
structure ByteStream where
  reads : List Bytes
  nonempty : ∀ read ∈ reads, read ≠ []

namespace ByteStream

def bytes (s : ByteStream) : Bytes := s.reads.flatten

def ofLines (bs : Bytes) : ByteStream where
  reads := splitAfter 10 bs
  nonempty := fun _ h => (mem_splitAfter h).1

/-- The first bytes of a stream, up to where a read ended. -/
def EndsRead (s : ByteStream) (bs : Bytes) : Prop := ∃ n, bs = (s.reads.take n).flatten

end ByteStream

/-- `read_until`: the line, the buffer left, and the reads left. -/
def readUntil (buffer : Bytes) (reads : List Bytes) : Bytes × Bytes × List Bytes :=
  match cutLine buffer, reads with
  | some (line, rest), reads => (line, rest, reads)
  | none, [] => (buffer, [], [])
  | none, read :: reads =>
    let (line, rest, reads) := readUntil read reads
    (buffer ++ line, rest, reads)

theorem readUntil_eq_nextLine (buffer : Bytes) (reads : List Bytes) :
    nextLine (buffer ++ reads.flatten) = ((readUntil buffer reads).1,
        (readUntil buffer reads).2.1 ++ (readUntil buffer reads).2.2.flatten) := by
  fun_induction readUntil buffer reads with
  | case1 buffer line rest reads hcut => exact nextLine_append_of_some hcut _
  | case2 buffer hcut =>
    rw [nextLine_append_of_none hcut]
    simp [nextLine, cutLine]
  | case3 buffer read reads hcut line rest reads' hr ih =>
    rw [hr] at ih
    rw [nextLine_append_of_none hcut, flatten_cons, ih]

theorem readUntil_suffix (buffer : Bytes) (reads : List Bytes) : (readUntil buffer reads).2.2 <:+ reads := by
  fun_induction readUntil buffer reads with
  | case1 | case2 => exact suffix_rfl
  | case3 buffer read reads hcut line rest reads' hr ih =>
    rw [hr] at ih
    exact ih.trans (suffix_cons _ _)

structure BufReader where
  buffer : Bytes
  inner : ByteStream

namespace BufReader

def new (inner : ByteStream) : BufReader where
  buffer := []
  inner

def readLine (r : BufReader) : Bytes × BufReader := ((readUntil r.buffer r.inner.reads).1, {
    buffer := (readUntil r.buffer r.inner.reads).2.1
    inner := {
      reads := (readUntil r.buffer r.inner.reads).2.2
      nonempty := fun read h => r.inner.nonempty read ((readUntil_suffix _ _).subset h) } })

def rest (r : BufReader) : Bytes := r.buffer ++ r.inner.bytes

theorem readLine_eq_nextLine (r : BufReader) : nextLine r.rest = (r.readLine.1, r.readLine.2.rest) :=
  readUntil_eq_nextLine _ _

/-- A reader of the stream whose buffer, if it holds anything, holds a part of the last read. -/
def Of (w : ByteStream) (r : BufReader) : Prop := ∃ before, w.reads = before ++ r.inner.reads ∧
    (r.buffer = [] ∨ ∃ read ∈ before.getLast?, r.buffer.length < read.length)

theorem of_new (w : ByteStream) : (new w).Of w := ⟨[], rfl, .inl rfl⟩

end BufReader

open BufReader (new of_new rest)

theorem nextLine_append (bs : Bytes) : bs = (nextLine bs).1 ++ (nextLine bs).2 := by
  unfold nextLine
  cases hcut : cutLine bs with
  | none => simp
  | some cut => exact (cutLine_eq_some hcut).1

theorem readUntil_left {w : ByteStream} {before : List Bytes} (buffer : Bytes)
    (reads : List Bytes) (hr : w.reads = before ++ reads)
    (hb : buffer = [] ∨ ∃ read ∈ before.getLast?, buffer.length ≤ read.length) :
    ∃ before, w.reads = before ++ (readUntil buffer reads).2.2 ∧ ((readUntil buffer reads).2.1 = [] ∨
        ∃ read ∈ before.getLast?, (readUntil buffer reads).2.1.length < read.length) := by
  fun_induction readUntil buffer reads generalizing before with
  | case1 buffer line rest reads hcut =>
    obtain ⟨rfl, hl⟩ := cutLine_eq_some hcut
    refine ⟨before, hr, .inr ?_⟩
    obtain he | ⟨read, hla, hle⟩ := hb
    · exact absurd (append_eq_nil_iff.mp he).1 hl
    · have hpos : 0 < line.length := length_pos_iff.mpr hl
      rw [length_append] at hle
      exact ⟨read, hla, show rest.length < read.length by omega⟩
  | case2 buffer hcut => exact ⟨before, hr, .inl rfl⟩
  | case3 buffer read reads hcut line rest reads' hre ih =>
    rw [hre] at ih
    have hn : w.reads = before ++ [read] ++ reads := by simpa using hr
    exact ih hn (.inr ⟨read, by simp, le_rfl⟩)

namespace BufReader

theorem Of.readLine {r : BufReader} (h : r.Of w) : r.readLine.2.Of w := by
  obtain ⟨before, hr, hb⟩ := h
  refine readUntil_left r.buffer r.inner.reads hr (hb.imp_right ?_)
  rintro ⟨read, hla, hl⟩
  exact ⟨read, hla, hl.le⟩

end BufReader

theorem length_flatten_take_le {α : Type} (l : List (List α)) (h : n ≤ m) :
    (l.take n).flatten.length ≤ (l.take m).flatten.length :=
  (List.IsPrefix.flatten (take_prefix_take_left h)).length_le

theorem BufReader.Of.buffer_eq_nil_iff {r : BufReader} (h : r.Of w)
    (hbs : bs ++ r.rest = w.bytes) : r.buffer = [] ↔ w.EndsRead bs := by
  obtain ⟨before, hr, hb⟩ := h
  have ht : bs ++ r.buffer = before.flatten := by
    rw [rest, ByteStream.bytes, ByteStream.bytes, hr, flatten_append, ← append_assoc] at hbs
    exact append_cancel_right hbs
  constructor
  · intro he
    rw [he, append_nil] at ht
    exact ⟨before.length, by rw [hr, take_left, ht]⟩
  · rintro ⟨n, hn⟩
    obtain he | ⟨read, hl, hlen⟩ := hb
    · exact he
    -- the bytes end within the last read, so they are longer than all reads before it
    obtain ⟨earlier, rfl⟩ := getLast?_eq_some_iff.mp hl
    have hsum : bs.length + r.buffer.length = earlier.flatten.length + read.length := by
      simpa using congrArg List.length ht
    have hea : w.reads.take earlier.length = earlier := by rw [hr, append_assoc, take_left]
    have hw : w.reads.take (earlier.length + 1) = earlier ++ [read] := by
      rw [hr]
      exact take_left' (by simp)
    by_cases hle : n ≤ earlier.length
    · have hs := length_flatten_take_le w.reads hle
      rw [← hn, hea] at hs
      omega
    · have hlo := length_flatten_take_le w.reads (Nat.succ_le_of_lt (Nat.lt_of_not_le hle))
      rw [← hn, hw, ← ht, length_append] at hlo
      exact length_eq_zero_iff.mp (by omega)

/-! ## The relay -/

structure LineRelay (ι : Type) where
  reader : ι → BufReader
  forwarded : ι → Bytes

/-- What the lines of a program lead to. -/
inductive Ending where
  | closes
  /-- The buffers are given up, and everything else is copied. -/
  | copies
  deriving DecidableEq

namespace LineRelay

section

variable {ι α : Type}

def start (w : ι → ByteStream) : LineRelay ι where
  reader i := .new (w i)
  forwarded _ := []

variable [DecidableEq ι]

/-- Read a line and write it to the other end; `none` if it is not UTF-8. At the end of the
stream the line is empty, and nothing is written. -/
def relayLine (s : LineRelay ι) (i : ι) : Option Text × LineRelay ι :=
  let (line, reader) := (s.reader i).readLine
  match ofBytes line with
  | none => (none, { s with reader := update s.reader i reader })
  | some text => (some text, {
      reader := update s.reader i reader
      forwarded := update s.forwarded i (s.forwarded i ++ bytes text) })

def run : Prog ι (fun _ => Text) α → LineRelay ι → Option α × LineRelay ι
  | .pure x, s => (some x, s)
  | .vis i k, s =>
    match s.relayLine i with
    | (none, s') => (none, s')
    | (some text, s') => run (k text) s'

def intoInner (s : LineRelay ι) : LineRelay ι := { s with reader := fun i => .new (s.reader i).inner }

/-- Everything that comes is passed on, one read after the other in any order, until all streams
have ended. -/
inductive Copied : LineRelay ι → LineRelay ι → Prop
  | ended {s : LineRelay ι} (h : ∀ i, (s.reader i).inner.reads = []) : Copied s s
  | read {s s' : LineRelay ι} (i : ι) (read : Bytes) (rest : ByteStream)
      (h : (s.reader i).inner.reads = read :: rest.reads)
      (hs' : Copied {
        reader := update s.reader i (.new rest)
        forwarded := update s.forwarded i (s.forwarded i ++ read) } s') : Copied s s'

inductive Ends (p : Prog ι (fun _ => Text) (Ending × α)) (w : ι → ByteStream) : LineRelay ι → Prop
  | failed {s : LineRelay ι} (h : run p (start w) = (none, s)) : Ends p w s
  | closed {s : LineRelay ι} {x : α} (h : run p (start w) = (some (.closes, x), s)) : Ends p w s
  | copied {s s' : LineRelay ι} {x : α} (h : run p (start w) = (some (.copies, x), s))
      (hs' : Copied s.intoInner s') : Ends p w s'

end

section

variable {ι α : Type} {w : ι → ByteStream} {s s' : LineRelay ι}

def Passed (w : ι → ByteStream) (s : LineRelay ι) : Prop := ∀ i, s.forwarded i = (w i).bytes

/-! ### What was passed on and what is to come -/

structure Accounts (w : ι → ByteStream) (s : LineRelay ι) : Prop where
  reader : ∀ i, (s.reader i).Of (w i)
  bytes : ∀ i, s.forwarded i ++ (s.reader i).rest = (w i).bytes

theorem accounts_start (w : ι → ByteStream) : (start w).Accounts w where
  reader i := of_new (w i)
  bytes _ := rfl

structure Same (s t : LineRelay ι) : Prop where
  rest : ∀ i, (s.reader i).rest = (t.reader i).rest
  forwarded : s.forwarded = t.forwarded

theorem same_ofLines (w : ι → ByteStream) : (start w).Same (start fun i => .ofLines (w i).bytes) where
  rest i := (flatten_splitAfter 10 (w i).bytes).symm
  forwarded := rfl

variable [DecidableEq ι]

variable (h : s.Accounts w)
include h

theorem Accounts.relayLine_some (hl : s.relayLine i = (some text, s')) : s'.Accounts w := by
  have hn := (s.reader i).readLine_eq_nextLine
  have ha := nextLine_append (s.reader i).rest
  simp only [relayLine] at hl
  split at hl
  · cases hl
  · rename_i text' ht
    cases hl
    rw [hn] at ha
    constructor
    · intro j
      by_cases hij : j = i
      · subst hij
        simpa using (h.reader j).readLine
      · simpa [hij] using h.reader j
    · intro j
      by_cases hij : j = i
      · subst hij
        have hb := h.bytes j
        simp only [update_self]
        rw [ofBytes_eq_some.mp ht, append_assoc, ← ha, hb]
      · simpa [hij] using h.bytes j

theorem Accounts.relayLine_none (hl : s.relayLine i = (none, s')) : s'.forwarded i ≠ (w i).bytes := by
  have hn := (s.reader i).readLine_eq_nextLine
  have ha := nextLine_append (s.reader i).rest
  simp only [relayLine] at hl
  split at hl
  · rename_i hi
    cases hl
    intro hall
    have hb := h.bytes i
    rw [← hall] at hb
    -- nothing is left then, and an empty line is UTF-8
    have hr : (s.reader i).rest = [] := by simpa using hb
    rw [hn, hr] at ha
    have he : (s.reader i).readLine.1 = [] := (append_eq_nil_iff.mp ha.symm).1
    have hv : ofBytes [] = some [] := ofBytes_eq_some.mpr rfl
    rw [he, hv] at hi
    cases hi
  · cases hl

theorem Accounts.run_some (hrun : run p s = (some x, s')) : s'.Accounts w := by
  induction p generalizing s with
  | pure y =>
    cases hrun
    exact h
  | vis i k ih =>
    rw [run] at hrun
    split at hrun
    · cases hrun
    · rename_i text next hl
      exact ih text (h.relayLine_some hl) hrun

theorem Accounts.run_none (hrun : run p s = (none, s')) : ¬ s'.Passed w := by
  induction p generalizing s with
  | pure y => cases hrun
  | vis i k ih =>
    rw [run] at hrun
    split at hrun
    · rename_i next hl
      cases hrun
      exact fun hp => h.relayLine_none hl (hp i)
    · rename_i text next hl
      exact ih text (h.relayLine_some hl) hrun

omit h

theorem Copied.forwarded (h : Copied s s') (i : ι) : s'.forwarded i = s.forwarded i ++ (s.reader i).inner.bytes := by
  induction h with
  | ended hend => simp [ByteStream.bytes, hend i]
  | read j read rest hr _ ih =>
    rw [ih]
    by_cases hij : i = j
    · subst hij
      simp [ByteStream.bytes, hr, new]
    · simp [hij]

/-- After the buffers were given up and everything else copied, what was buffered is missing. -/
theorem Accounts.passed_copied_iff (h : s.Accounts w) (hc : Copied s.intoInner s') :
    s'.Passed w ↔ ∀ i, (w i).EndsRead (s.forwarded i) := by
  refine forall_congr' fun i => ?_
  have hb := h.bytes i
  have hf : s'.forwarded i = s.forwarded i ++ (s.reader i).inner.bytes := hc.forwarded i
  rw [← (h.reader i).buffer_eq_nil_iff hb, hf, ← hb, rest]
  constructor
  · intro heq
    have hl := congrArg List.length heq
    simp only [length_append] at hl
    exact length_eq_zero_iff.mp (by omega)
  · intro he
    rw [he, nil_append]

/-! ### What does not depend on the reads -/

theorem Same.relayLine (h : s.Same t) (i : ι) :
    (s.relayLine i).1 = (t.relayLine i).1 ∧ (s.relayLine i).2.Same (t.relayLine i).2 := by
  have hn : ((s.reader i).readLine.1, (s.reader i).readLine.2.rest) =
      ((t.reader i).readLine.1, (t.reader i).readLine.2.rest) := by
    rw [← BufReader.readLine_eq_nextLine, ← BufReader.readLine_eq_nextLine, h.rest i]
  obtain ⟨hl, hre⟩ := Prod.mk.inj hn
  have hr : ∀ j, (update s.reader i (s.reader i).readLine.2 j).rest =
        (update t.reader i (t.reader i).readLine.2 j).rest := by
    intro j
    by_cases hij : j = i
    · subst hij
      simpa using hre
    · simpa [hij] using h.rest j
  simp only [LineRelay.relayLine, hl]
  cases ofBytes (t.reader i).readLine.1 with
  | none => exact ⟨rfl, hr, h.forwarded⟩
  | some text => exact ⟨rfl, hr, by rw [h.forwarded]⟩

/-- The lines a program passes on do not depend on the reads. -/
theorem Same.run (h : s.Same t) : (run p s).1 = (run p t).1 ∧ (run p s).2.Same (run p t).2 := by
  induction p generalizing s t with
  | pure x => exact ⟨rfl, h⟩
  | vis i k ih =>
    obtain ⟨ht, hn⟩ := h.relayLine i
    rw [LineRelay.run, LineRelay.run]
    generalize s.relayLine i = a at ht hn
    generalize t.relayLine i = b at ht hn
    obtain ⟨x, s'⟩ := a
    obtain ⟨y, t'⟩ := b
    cases ht
    cases x with
    | none => exact ⟨rfl, hn⟩
    | some text => exact ih text hn

/-- The lines passed on end where reads ended; or the program ends the relay with nothing left. -/
def Seamless (p : Prog ι (fun _ => Text) (Ending × α)) (w : ι → ByteStream) : Prop :=
  match run p (start fun i => .ofLines (w i).bytes) with
  | (some (.copies, _), t) => ∀ i, (w i).EndsRead (t.forwarded i)
  | (some (.closes, _), t) => t.Passed w
  | (none, _) => False

/-- **Everything is passed on if and only if the relay is seamless.** -/
theorem passed_iff_seamless (h : Ends p w s) : s.Passed w ↔ Seamless p w := by
  have ha := accounts_start w
  obtain ⟨hsa, hs⟩ := (same_ofLines w).run (p := p)
  unfold Seamless
  generalize run p (start fun i => .ofLines (w i).bytes) = lines at hsa hs
  obtain ⟨x, t⟩ := lines
  cases h with
  | failed hrun =>
    rw [hrun] at hsa
    cases hsa
    exact iff_false_intro (ha.run_none hrun)
  | closed hrun =>
    rw [hrun] at hsa hs
    cases hsa
    have hf : s.forwarded = t.forwarded := hs.forwarded
    simp only [Passed, hf]
  | @copied switched _ _ hrun hc =>
    rw [hrun] at hsa hs
    cases hsa
    have hf : switched.forwarded = t.forwarded := hs.forwarded
    rw [(ha.run_some hrun).passed_copied_iff hc]
    simp only [hf]

/-! ### A relay ends -/

theorem exists_copied [Fintype ι] (s : LineRelay ι) : ∃ s', Copied s s' := by
  induction hrea : ∑ i, (s.reader i).inner.reads.length using Nat.strong_induction_on generalizing s with
  | _ n ih =>
    by_cases he : ∀ i, (s.reader i).inner.reads = []
    · exact ⟨s, .ended he⟩
    · obtain ⟨i, hi⟩ := not_forall.mp he
      obtain ⟨read, reads, hre⟩ := exists_cons_of_ne_nil hi
      have hn : ∀ r ∈ reads, r ≠ [] := fun r hr =>
        (s.reader i).inner.nonempty r (hre ▸ mem_cons_of_mem _ hr)
      let next : LineRelay ι :=
        { reader := update s.reader i (.new ⟨reads, hn⟩)
          forwarded := update s.forwarded i (s.forwarded i ++ read) }
      have hf : ∑ j, (next.reader j).inner.reads.length < n := by
        rw [← hrea]
        refine Finset.sum_lt_sum (fun j _ => ?_) ⟨i, Finset.mem_univ i, ?_⟩
        · by_cases hij : j = i
          · subst hij
            simp [next, hre, new]
          · simp [next, hij]
        · simp [next, hre, new]
      obtain ⟨s', hs'⟩ := ih _ hf next rfl
      exact ⟨s', .read i read ⟨reads, hn⟩ hre hs'⟩

theorem exists_ends [Fintype ι] (p : Prog ι (fun _ => Text) (Ending × α)) (w : ι → ByteStream) : ∃ s, Ends p w s := by
  rcases hrun : run p (start w) with ⟨_ | ⟨_ | _, x⟩, s⟩
  · exact ⟨s, .failed hrun⟩
  · exact ⟨s, .closed hrun⟩
  · obtain ⟨s', hc⟩ := exists_copied s.intoInner
    exact ⟨s', .copied hrun hc⟩

end

end LineRelay

end ServerWall
