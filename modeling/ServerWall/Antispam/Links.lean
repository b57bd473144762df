import Mathlib
import ServerWall.Lib.Text

/-!
# The hosts that links name

`url_analysis.rs` finds hosts with `https?://([a-zA-Z0-9\-\.]+\.[a-zA-Z]{2,})(?:[/\?\#]|$)`
(`mem_captures_iff`). The scheme has to be in lower case, and a link in quotes is not found, so not every
linked host is looked up (`looked_up_iff`).
-/

namespace ServerWall.Antispam

open List Text

/-- `[a-zA-Z0-9\-\.]`. -/
def isHostChar (c : Char) : Bool := c.isAlphanum || c = '-' || c = '.'

/-- `.+\.[a-zA-Z]{2,}`, of host characters. -/
def isHostName (run : Text) : Bool := (rsplitOnce '.' run).any fun (front, top) =>
  !front.isEmpty && top.all Char.isAlpha && 2 ≤ top.length

/-- The characters that may follow. -/
def isUrlEnd (c : Char) : Bool := c = '/' || c = '?' || c = '#'

/-- The match at the start of a text, and of it the group. As the character behind the group is none
of a host, the group is all host characters there are. -/
def captureAt (text : Text) : Option Text :=
  ((stripPrefix "http://" text).or (stripPrefix "https://" text)).bind fun rest =>
    let run := rest.takeWhile isHostChar
    if isHostName run && (rest.dropWhile isHostChar).head?.all isUrlEnd then some run else none

/-- The groups of all matches. A match has its only colon in the scheme, so no two overlap. -/
def captures (text : Text) : List Text := text.tails.filterMap captureAt

def extractDomains (u : Unicode) (text : Text) : List Text :=
  (((captures text).map u.toLowercase).mergeSort fun a b => a ≤ b).dedup

def surblQueries (u : Unicode) (zones : List Text) (text : Text) : List Text :=
  (extractDomains u text).flatMap fun domain => zones.map fun zone => fmt [domain, ".", zone]

/-! ## Links -/

/-- The text has a link to a host: a scheme in any case, the name of a host, and behind it no
character that would continue the name. -/
structure Linked (text scheme host after : Text) : Prop where
  found : (scheme ++ (host ++ after)) <:+ text
  scheme : eqIgnoreAsciiCase scheme "http://" = true ∨ eqIgnoreAsciiCase scheme "https://" = true
  run : ∀ c ∈ host, isHostChar c = true
  name : isHostName host = true
  ends : ∀ c ∈ after.head?, isHostChar c = false

/-- The spellings that the expression matches. -/
def Plain (scheme after : Text) : Prop :=
  (scheme = "http://" ∨ scheme = "https://") ∧ ∀ c ∈ after.head?, isUrlEnd c = true

theorem not_isHostChar (h : isUrlEnd c) : isHostChar c = false := by
  simp only [isUrlEnd, Bool.or_eq_true, decide_eq_true_eq] at h
  rcases h with (rfl | rfl) | rfl <;> decide

theorem stripScheme_iff : (stripPrefix "http://" text).or (stripPrefix "https://" text) = some rest ↔
      text = "http://" ++ rest ∨ text = "https://" ++ rest := by
  unfold stripPrefix
  constructor
  · intro h
    rcases Option.or_eq_some_iff.mp h with h | ⟨-, h⟩
    · obtain ⟨⟨r, rfl⟩, h⟩ := Option.ite_none_right_eq_some.mp h
      rw [drop_left, Option.some_inj] at h
      exact .inl (by rw [h])
    · obtain ⟨⟨r, rfl⟩, h⟩ := Option.ite_none_right_eq_some.mp h
      rw [drop_left, Option.some_inj] at h
      exact .inr (by rw [h])
  · rintro (rfl | rfl)
    · rw [if_pos ( prefix_append _ _), drop_left, Option.some_or]
    · rw [if_neg, if_pos ( prefix_append _ _), drop_left, Option.none_or]
      rintro ⟨r, hr⟩
      cases hr

theorem captureAt_eq_some_iff : captureAt text = some host ↔
    ∃ scheme after, text = scheme ++ (host ++ after) ∧ Plain scheme after ∧
      (∀ c ∈ host, isHostChar c) ∧ isHostName host := by
  unfold captureAt
  constructor
  · intro h
    obtain ⟨rest, hrest, h⟩ := Option.bind_eq_some_iff.mp h
    obtain ⟨hcond, hhost⟩ := Option.ite_none_right_eq_some.mp h
    obtain rfl := Option.some.inj hhost
    rw [Bool.and_eq_true] at hcond
    have hends : ∀ c ∈ (rest.dropWhile isHostChar).head?, isUrlEnd c = true := by
      intro c hc
      have := hcond.2
      rwa [hc, Option.all_some] at this
    have hrun : ∀ c ∈ rest.takeWhile isHostChar, isHostChar c = true := fun c hc => mem_takeWhile_imp hc
    rcases stripScheme_iff.mp hrest with rfl | rfl
    · exact ⟨_, _, by rw [takeWhile_append_dropWhile], ⟨.inl rfl, hends⟩, hrun, hcond.1⟩
    · exact ⟨_, _, by rw [takeWhile_append_dropWhile], ⟨.inr rfl, hends⟩, hrun, hcond.1⟩
  · rintro ⟨scheme, after, rfl, ⟨hscheme, hends⟩, hrun, hname⟩
    have hrest : (stripPrefix "http://" (scheme ++ (host ++ after))).or
        (stripPrefix "https://" (scheme ++ (host ++ after))) = some (host ++ after) :=
      stripScheme_iff.mpr (hscheme.imp (fun h => by rw [h]) fun h => by rw [h])
    have hafter : after.takeWhile isHostChar = [] ∧ after.dropWhile isHostChar = after := by
      cases after with
      | nil => exact ⟨rfl, rfl⟩
      | cons c after =>
        have hc := not_isHostChar (hends c rfl)
        exact ⟨takeWhile_cons_of_neg (by simp [hc]), dropWhile_cons_of_neg (by simp [hc])⟩
    rw [hrest, Option.bind_some, takeWhile_append_of_pos hrun, dropWhile_append_of_pos hrun, hafter.1,
      hafter.2, append_nil]
    refine if_pos (Bool.and_eq_true_iff.mpr ⟨hname, ?_⟩)
    cases hhead : after.head? with
    | none => rfl
    | some c => exact hends c hhead

/-- **What is captured** are the hosts of links that are spelled as the expression asks. -/
theorem mem_captures_iff : host ∈ captures text ↔
    ∃ scheme after, Linked text scheme host after ∧ Plain scheme after := by
  simp only [captures, mem_filterMap, mem_tails, captureAt_eq_some_iff]
  constructor
  · rintro ⟨_, hs, scheme, after, rfl, hplain, hrun, hname⟩
    refine ⟨scheme, after, ⟨hs, ?_, hrun, hname, fun c hc => not_isHostChar (hplain.2 c hc)⟩, hplain⟩
    exact hplain.1.imp (fun h => by rw [h]; decide) fun h => by rw [h]; decide
  · rintro ⟨scheme, after, h, hplain⟩
    exact ⟨_, h.found, scheme, after, rfl, hplain, h.run, h.name⟩

theorem mem_extractDomains : domain ∈ extractDomains u text ↔ ∃ host ∈ captures text, u.toLowercase host = domain := by
  rw [extractDomains, mem_dedup, mem_mergeSort, mem_map]

/-- **Every linked host is looked up if and only if** each is the host of some link that is spelled
as the expression asks, up to case. -/
theorem looked_up_iff (u : Unicode) (zones : List Text) (text : Text) :
    (∀ scheme host after, Linked text scheme host after → u.toLowercase host ∈ extractDomains u text ∧
      ∀ zone ∈ zones, Text.fmt [u.toLowercase host, ".", zone] ∈ surblQueries u zones text) ↔
    ∀ scheme host after, Linked text scheme host after → ∃ scheme' host' after',
      Linked text scheme' host' after' ∧ Plain scheme' after' ∧ u.toLowercase host' = u.toLowercase host := by
  refine forall_congr' fun scheme => forall_congr' fun host => forall_congr' fun after =>
    forall_congr' fun _ => ?_
  have hmem : u.toLowercase host ∈ extractDomains u text ↔ ∃ scheme' host' after',
      Linked text scheme' host' after' ∧ Plain scheme' after' ∧ u.toLowercase host' = u.toLowercase host := by
    rw [mem_extractDomains]
    constructor
    · rintro ⟨host', h, heq⟩
      obtain ⟨scheme', after', hlinked, hplain⟩ := mem_captures_iff.mp h
      exact ⟨scheme', host', after', hlinked, hplain, heq⟩
    · rintro ⟨scheme', host', after', hlinked, hplain, heq⟩
      exact ⟨host', mem_captures_iff.mpr ⟨scheme', after', hlinked, hplain⟩, heq⟩
  rw [← hmem]
  exact and_iff_left_of_imp fun h zone hz => mem_flatMap.mpr ⟨_, h, mem_map.mpr ⟨zone, hz, rfl⟩⟩

/-- A link as HTML has it, in quotes. -/
theorem quoted_link_not_looked_up : Linked "<a href=\"http://spam.example\">" "http://" "spam.example" "\">" ∧
    extractDomains .ascii "<a href=\"http://spam.example\">" = [] := by
  refine ⟨⟨by decide, .inl (by decide), ?_, by decide, fun c hc => by cases hc; decide⟩, by decide +kernel⟩
  exact fun c hc => all_eq_true.mp (by decide : ("spam.example" : Text).all isHostChar = true) c hc

end ServerWall.Antispam
