import CardArchive.Dump.Card
import CardArchive.Proofs.JsonDocument

/-!
# Values of awards

What a dump gives for its awards are integers of 64 bits, texts, nulls and, for badges with a type
alone, floating point numbers. Apart from the last, all of them are plain, and the objects that they
are put into have their keys in order.
-/

namespace CardArchive

open Json (Plain)

namespace Number

/-- An integer that does not fit is refused, not cut down. -/
theorem toInt64?_eq_some {n m : Int} (h : toInt64? n = some m) : m = n ∧ fitsInt64 n = true := by
  unfold toInt64? at h
  split at h
  · next hfits => exact ⟨(Option.some.inj h).symm, hfits⟩
  · cases h

/-- An integer that was read fits. -/
theorem fitsInt64_of_readInt64? {s : List Char} {n : Int} (h : readInt64? s = some n) :
    fitsInt64 n = true := by
  unfold readInt64? at h
  split at h
  split at h
  · cases h
  · obtain ⟨rfl, hfits⟩ := toInt64?_eq_some h
    exact hfits

end Number

theorem fits_of_leadingInt? {s : List Char} {n : Int} (h : leadingInt? s = some n) :
    Json.Fits n := by
  rcases hsign : Number.splitSign (Text.trimStart s) with ⟨negative, rest⟩
  simp only [leadingInt?, hsign] at h
  by_cases hempty : (rest.takeWhile Char.isDigit).isEmpty = true
  · rw [if_pos hempty] at h
    cases h
  · rw [if_neg hempty] at h
    obtain ⟨m, hm, rfl⟩ := Option.map_eq_some_iff.mp h
    obtain ⟨rfl, hfits⟩ := Number.toInt64?_eq_some hm
    obtain ⟨-, hhigh⟩ := Json.fitsInt64_iff.mp hfits
    unfold Json.Fits
    split <;> omega

namespace Award

/-- A value that is not plain can only be a floating point number. -/
def PlainOrFloat (v : Json) : Prop := Plain 0 v ∨ ∃ x, v = .float x

/-- A count is an integer that fits, or null. -/
theorem plain_count (s : List Char) : Plain 0 (count s) := by
  unfold count
  split
  · next n h => exact .integer 0 (fits_of_leadingInt? h)
  · exact .null 0

/-- Only a text that is a number, but no integer of 64 bits, need not give a plain value. -/
theorem plainOrFloat_scalar (s : List Char) : PlainOrFloat (scalar s) := by
  unfold scalar
  split
  · next n h =>
    exact Or.inl (.integer 0 (Json.fits_of_fitsInt64 (Number.fitsInt64_of_readInt64? h)))
  · split
    · split
      · next x _ => exact Or.inr ⟨x, rfl⟩
      · exact Or.inl (.string 0 _)
    · exact Or.inl (.string 0 _)

theorem plain_counted (text : List Char) : Plain 0 (counted text).2 := by
  unfold counted
  split
  · exact plain_count _
  · exact .integer 0 (by unfold Json.Fits; decide)

/-- The count of a badge is plain, and its scalar may be a floating point number. -/
theorem plainOrFloat_of_ofBadge {n : Xml.Node} {a : Award} (h : ofBadge n = some a) :
    PlainOrFloat a.2 := by
  unfold ofBadge at h
  simp only at h
  split at h
  · cases h
    exact Or.inl (plain_counted _)
  · split at h
    · split at h
      · cases h
      · cases h
        exact plainOrFloat_scalar _
    · cases h

theorem plain_of_ofTrophy {n : Xml.Node} {a : Award} (h : ofTrophy n = some a) : Plain 0 a.2 := by
  obtain ⟨type, -, rfl⟩ := Option.map_eq_some_iff.mp h
  exact plain_count _

end Award

/-! ## Objects of awards -/

/-- The badges of a card are in order, and none but a floating point number is not plain. -/
theorem awards_badges (badges trophies : Xml.Node) :
    (awards badges trophies).1.Ascending ∧
      ∀ p ∈ (awards badges trophies).1, Award.PlainOrFloat p.2 := by
  have hbadge : ∀ p ∈ (badges.childrenWith "BADGE").filterMap Award.ofBadge,
      Award.PlainOrFloat p.2 := by
    intro p hp
    obtain ⟨n, -, hn⟩ := List.mem_filterMap.mp hp
    exact Award.plainOrFloat_of_ofBadge hn
  unfold awards
  simp only
  split
  · next single _ =>
    refine ⟨Json.Members.ascending_ofList _, Json.Members.forall_mem_ofList fun p hp => ?_⟩
    rcases List.mem_append.mp hp with hp | hp
    · exact hbadge p hp
    · exact Or.inl (Award.plain_of_ofTrophy (Option.mem_toList.mp hp))
  · exact ⟨Json.Members.ascending_ofList _, Json.Members.forall_mem_ofList hbadge⟩

/-- The trophies of a card are in order and plain. -/
theorem awards_trophies (badges trophies : Xml.Node) :
    (awards badges trophies).2.Ascending ∧ ∀ p ∈ (awards badges trophies).2, Plain 0 p.2 := by
  unfold awards
  simp only
  split
  · exact ⟨List.Pairwise.nil, fun p hp => nomatch hp⟩
  · refine ⟨Json.Members.ascending_ofList _, Json.Members.forall_mem_ofList fun p hp => ?_⟩
    obtain ⟨n, -, hn⟩ := List.mem_filterMap.mp hp
    exact Award.plain_of_ofTrophy hn

end CardArchive
