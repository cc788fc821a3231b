import CardArchive.Proofs.Tables
import Mathlib.Data.List.Forall2

/-!
# Names of tables

Which names are accepted for tables, and which are the same, said of their characters alone. A name
is a letter or an underscore and then letters, digits and underscores, all of them ASCII; names that
begin like those a database keeps for itself are not accepted. Two names are the same when they have
the same characters, but for the case of ASCII letters.
-/

namespace CardArchive

/-- The character is an ASCII letter. -/
def IsLetter (c : Char) : Prop := 'a' ≤ c ∧ c ≤ 'z' ∨ 'A' ≤ c ∧ c ≤ 'Z'

/-- The character is an ASCII digit. -/
def IsDigit (c : Char) : Prop := '0' ≤ c ∧ c ≤ '9'

/-- The small character is the capital one in small. -/
def SmallOf (capital small : Char) : Prop :=
  'A' ≤ capital ∧ capital ≤ 'Z' ∧ small.toNat = capital.toNat + 32

/-- Two characters are the same, but for the case of ASCII letters. -/
def SameLetter (a b : Char) : Prop := a = b ∨ SmallOf a b ∨ SmallOf b a

/-- Two texts are the same, but for the case of ASCII letters. -/
def SameUpToCase (a b : List Char) : Prop := List.Forall₂ SameLetter a b

/-- A letter or an underscore, then letters, digits and underscores. -/
def PlainName (name : String) : Prop :=
  ∃ first rest, name.toList = first :: rest ∧ (IsLetter first ∨ first = '_') ∧
    ∀ c ∈ rest, IsLetter c ∨ IsDigit c ∨ c = '_'

/-- The name begins with `sqlite_`, in any case of its letters. -/
def ReservedName (name : String) : Prop :=
  ∃ start rest, name.toList = start ++ rest ∧ SameUpToCase start "sqlite_".toList

/-! ## Characters -/

theorem isAlpha_iff {c : Char} : c.isAlpha = true ↔ IsLetter c := by
  have halpha : c.isAlpha = (c.isUpper || c.isLower) := rfl
  have hupper : c.isUpper = decide ('A' ≤ c ∧ c ≤ 'Z') := rfl
  have hlower : c.isLower = (decide ('a' ≤ c) && decide (c ≤ 'z')) := rfl
  rw [halpha, hupper, hlower, Bool.or_eq_true, or_comm, Bool.and_eq_true]
  simp only [decide_eq_true_eq]
  rfl

theorem isAlphanum_iff {c : Char} : c.isAlphanum = true ↔ IsLetter c ∨ IsDigit c := by
  rw [Char.isAlphanum, Bool.or_eq_true, isAlpha_iff, Char.isDigit, Bool.and_eq_true,
    decide_eq_true_eq, decide_eq_true_eq]
  rfl

/-- Only the letters from `A` to `Z` are changed, and each by the same distance. -/
theorem toNat_toLower (c : Char) :
    c.toLower.toNat = if 'A' ≤ c ∧ c ≤ 'Z' then c.toNat + 32 else c.toNat := by
  by_cases h : 'A' ≤ c ∧ c ≤ 'Z'
  · have hcapital : c.val ≥ 'A'.val ∧ c.val ≤ 'Z'.val := h
    have hsmall : c.toLower.toNat = (c.val + 32).toNat := congrArg Char.toNat (dif_pos hcapital)
    have hle : c.toNat ≤ 90 := h.2
    rw [if_pos h, hsmall, UInt32.toNat_add]
    show (c.toNat + 32) % 4294967296 = c.toNat + 32
    omega
  · have hother : ¬(c.val ≥ 'A'.val ∧ c.val ≤ 'Z'.val) := h
    rw [if_neg h]
    exact congrArg Char.toNat (dif_neg hother)

theorem smallOf_iff {a b : Char} : SmallOf a b ↔ ('A' ≤ a ∧ a ≤ 'Z') ∧ a.toLower = b := by
  rw [SmallOf, ← and_assoc]
  refine and_congr_right fun h => ?_
  rw [← Char.toNat_inj, toNat_toLower, if_pos h, eq_comm]

/-- A small letter is no capital. -/
theorem SmallOf.toLower_eq {a b : Char} (h : SmallOf a b) : a.toLower = b.toLower := by
  obtain ⟨⟨hfirst, hlast⟩, rfl⟩ := smallOf_iff.mp h
  have hlow : 65 ≤ a.toNat := hfirst
  have hval : a.toLower.toNat = a.toNat + 32 := by rw [toNat_toLower, if_pos ⟨hfirst, hlast⟩]
  have hsmall : ¬('A' ≤ a.toLower ∧ a.toLower ≤ 'Z') := by
    rintro ⟨-, hle⟩
    have hle : a.toLower.toNat ≤ 90 := hle
    omega
  rw [← Char.toNat_inj, toNat_toLower a.toLower, if_neg hsmall]

/-- Comparing small letters decides whether two characters are the same, from either side. -/
theorem sameLetter_iff {a b : Char} : SameLetter a b ↔ a.toLower = b.toLower := by
  constructor
  · rintro (rfl | h | h)
    · rfl
    · exact h.toLower_eq
    · exact h.toLower_eq.symm
  · intro h
    have hnat : a.toLower.toNat = b.toLower.toNat := congrArg Char.toNat h
    rw [toNat_toLower, toNat_toLower] at hnat
    by_cases ha : 'A' ≤ a ∧ a ≤ 'Z' <;> by_cases hb : 'A' ≤ b ∧ b ≤ 'Z'
    · rw [if_pos ha, if_pos hb] at hnat
      exact Or.inl (Char.toNat_inj.mp (by omega))
    · rw [if_pos ha, if_neg hb] at hnat
      exact Or.inr (Or.inl ⟨ha.1, ha.2, hnat.symm⟩)
    · rw [if_neg ha, if_pos hb] at hnat
      exact Or.inr (Or.inr ⟨hb.1, hb.2, hnat⟩)
    · rw [if_neg ha, if_neg hb] at hnat
      exact Or.inl (Char.toNat_inj.mp hnat)

/-! ## Texts -/

/-- Texts are the same exactly if they are equal in small letters, so they are as long as each
other. -/
theorem sameUpToCase_iff {a b : List Char} :
    SameUpToCase a b ↔ a.map Char.toLower = b.map Char.toLower := by
  rw [← List.forall₂_eq_eq_eq, List.forall₂_map_left_iff, List.forall₂_map_right_iff, SameUpToCase]
  exact ⟨fun h => h.imp fun _ _ => sameLetter_iff.mp, fun h => h.imp fun _ _ => sameLetter_iff.mpr⟩

/-- Names are compared character by character. -/
theorem Text.sameName_iff_sameUpToCase {a b : String} :
    sameName a b = true ↔ SameUpToCase a.toList b.toList := by
  rw [sameName_iff, foldCase, foldCase, String.ofList_inj, sameUpToCase_iff]

theorem isIdentifier_iff {name : String} : isIdentifier name = true ↔ PlainName name := by
  unfold isIdentifier PlainName
  cases hname : name.toList with
  | nil => simp
  | cons c rest =>
    simp only [Bool.and_eq_true, Bool.or_eq_true, decide_eq_true_eq, List.all_eq_true, isAlpha_iff,
      isAlphanum_iff, or_assoc, List.cons.injEq]
    constructor
    · rintro ⟨hfirst, hrest⟩
      exact ⟨c, rest, ⟨rfl, rfl⟩, hfirst, hrest⟩
    · rintro ⟨_, _, ⟨rfl, rfl⟩, hfirst, hrest⟩
      exact ⟨hfirst, hrest⟩

/-- The start is looked for in small letters, so no spelling of it passes. -/
theorem isReserved_iff {name : String} : isReserved name = true ↔ ReservedName name := by
  have hsmall : reservedStart.map Char.toLower = reservedStart := by decide
  unfold isReserved ReservedName
  rw [List.isPrefixOf_iff_prefix, Text.foldCase, String.toList_ofList]
  constructor
  · rintro ⟨rest, hrest⟩
    obtain ⟨start, rest, hname, hstart, -⟩ := List.map_eq_append_iff.mp hrest.symm
    exact ⟨start, rest, hname, sameUpToCase_iff.mpr (hstart.trans hsmall.symm)⟩
  · rintro ⟨start, rest, hname, hstart⟩
    rw [hname, List.map_append, sameUpToCase_iff.mp hstart]
    exact ⟨rest.map Char.toLower, by rw [show "sqlite_".toList = reservedStart from rfl, hsmall]⟩

/-- The first thing that is wrong with a name, if anything is. -/
theorem checkTable_eq_error_iff {name : String} {e : ConfigError} :
    checkTable name = .error e ↔
      ¬PlainName name ∧ e = .invalidTable name ∨
        PlainName name ∧ ReservedName name ∧ e = .reservedTable name := by
  rw [← isIdentifier_iff, ← isReserved_iff, checkTable]
  cases isIdentifier name <;> cases isReserved name <;> simp [eq_comm]

/-- The accepted names are the plain ones that are not reserved. -/
theorem checkTable_eq_ok_iff {name : String} :
    checkTable name = .ok () ↔ PlainName name ∧ ¬ReservedName name := by
  rw [← isIdentifier_iff, ← isReserved_iff, checkTable]
  cases isIdentifier name <;> cases isReserved name <;> simp

end CardArchive
