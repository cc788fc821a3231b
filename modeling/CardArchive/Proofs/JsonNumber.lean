import CardArchive.Json.Document

/-!
# Whole numbers in JSON

An integer that fits 64 bits, with a sign or without, is read back from its digits: they are
gathered without loss, and neither a zero in front nor a word of letters can be taken for them.
-/

namespace CardArchive.Json

/-- An integer that is neither below the signed nor above the unsigned integers of 64 bits. -/
def Fits (n : Int) : Prop := -0x8000000000000000 ≤ n ∧ n < 0x10000000000000000

theorem fitsInt64_iff {n : Int} :
    Number.fitsInt64 n = true ↔ -0x8000000000000000 ≤ n ∧ n < 0x8000000000000000 := by
  simp only [Number.fitsInt64, Bool.and_eq_true, decide_eq_true_eq]

theorem fits_of_fitsInt64 {n : Int} (h : Number.fitsInt64 n = true) : Fits n := by
  obtain ⟨hlow, hhigh⟩ := fitsInt64_iff.mp h
  unfold Fits
  omega

/-! ## Digits -/

theorem isDigit_of_mem_toDigits {n : Nat} {c : Char} (h : c ∈ Nat.toDigits 10 n) :
    c.isDigit = true := Nat.isDigit_of_mem_toDigits (by decide) (by decide) h

/-- The first digit is zero for zero only. -/
theorem toDigits_eq_cons {n : Nat} (h : 0 < n) :
    ∃ c rest, Nat.toDigits 10 n = c :: rest ∧ c ≠ '0' := by
  induction n using Nat.strongRecOn with
  | ind n ih =>
    rw [Nat.toDigits_eq_if (by decide)]
    split
    · next hlt =>
      have hall : ∀ m < 10, 0 < m → Nat.digitChar m ≠ '0' := by decide
      exact ⟨_, _, rfl, hall n hlt h⟩
    · obtain ⟨c, rest, hc, hne⟩ := ih (n / 10) (by omega) (by omega)
      exact ⟨c, rest ++ [Nat.digitChar (n % 10)], by rw [hc, List.cons_append], hne⟩

namespace Numeral

theorem isWhole_toDigits (n : Nat) : isWhole (Nat.toDigits 10 n) = true := by
  by_cases h : 0 < n
  · obtain ⟨c, rest, hc, hne⟩ := toDigits_eq_cons h
    rw [hc, isWhole]
    · exact List.cons_ne_nil _ _
    · exact fun _ heq => hne (List.cons.inj heq).1
  · have hzero : n = 0 := Nat.eq_zero_of_not_pos h
    subst hzero
    rfl

theorem le_ofDigitChars (significand : Nat) (digits : List Char) :
    significand ≤ Nat.ofDigitChars 10 digits significand := by
  induction digits generalizing significand with
  | nil => exact Nat.le_of_eq Nat.ofDigitChars_nil.symm
  | cons c rest ih =>
    rw [Nat.ofDigitChars_cons]
    have hmore := ih (10 * significand + (c.toNat - '0'.toNat))
    omega

/-- Digits that stay below the limit are gathered without loss. -/
theorem gather_eq {significand : Nat} {digits : List Char}
    (h : Nat.ofDigitChars 10 digits significand < significandLimit) :
    gather significand digits = (Nat.ofDigitChars 10 digits significand, []) := by
  induction digits generalizing significand with
  | nil => rw [gather, Nat.ofDigitChars_nil]
  | cons c rest ih =>
    rw [Nat.ofDigitChars_cons] at h ⊢
    have hnext := le_ofDigitChars (10 * significand + (c.toNat - '0'.toNat)) rest
    rw [gather, if_pos (Nat.lt_of_le_of_lt hnext h), ih h]

/-- The spelling of a number that has only digits. -/
def ofDigits (negative : Bool) (digits : List Char) : Numeral where
  negative := negative
  whole := digits
  fraction := []
  exponent := 0
  integral := true

theorem read?_digits {digits : List Char} (hdigit : ∀ c ∈ digits, c.isDigit = true)
    (hwhole : isWhole digits = true) :
    read? digits = some (ofDigits false digits) ∧
      read? ('-' :: digits) = some (ofDigits true digits) := by
  have htake : digits.takeWhile Char.isDigit = digits := by
    rw [← List.append_nil digits, List.takeWhile_append_of_pos hdigit, List.takeWhile_nil]
  have hdrop : digits.dropWhile Char.isDigit = [] := by
    rw [← List.append_nil digits, List.dropWhile_append_of_pos hdigit, List.dropWhile_nil]
  constructor
  · cases digits with
    | nil => cases hwhole
    | cons c rest =>
      have hne : c ≠ '-' := by
        rintro rfl
        exact absurd (hdigit '-' List.mem_cons_self) (by decide)
      unfold read?
      split
      next negative body heq =>
        split at heq
        · next h => exact absurd (List.cons.inj h).1 hne
        · obtain ⟨rfl, rfl⟩ := Prod.mk.inj heq
          simp only [htake, hdrop, hwhole]
          rfl
  · unfold read?
    simp only [htake, hdrop, hwhole]
    rfl

/-- The value of digits that stay below the limit. -/
theorem value_ofDigits {negative : Bool} {digits : List Char} {n : Int}
    (hlt : Nat.ofDigitChars 10 digits 0 < significandLimit)
    (h : integer? negative (Nat.ofDigitChars 10 digits 0) = some n) :
    (ofDigits negative digits).value = some (.integer n) := by
  simp only [value, ofDigits, gather_eq hlt, gather, List.isEmpty_nil, Bool.and_self, if_true, h]

end Numeral

/-! ## Integers -/

/-- The text of an integer has digits, after a sign or not. -/
theorem mem_integerText {n : Int} {c : Char} (h : c ∈ integerText n) :
    c.isDigit = true ∨ c = '-' := by
  rw [integerText] at h
  split at h
  · rcases List.mem_cons.mp h with rfl | h
    · exact Or.inr rfl
    · exact Or.inl (isDigit_of_mem_toDigits h)
  · exact Or.inl (isDigit_of_mem_toDigits h)

theorem integerText_ne_nil (n : Int) : integerText n ≠ [] := by
  rw [integerText]
  split
  · exact List.cons_ne_nil _ _
  · exact Nat.toDigits_ne_nil

/-- The text of an integer is no word that has a letter. -/
theorem integerText_ne {n : Int} {w : List Char} {c : Char} (hc : c ∈ w)
    (hdigit : c.isDigit = false) (hminus : c ≠ '-') : integerText n ≠ w := by
  rintro rfl
  rcases mem_integerText hc with h | h
  · exact Bool.false_ne_true (hdigit.symm.trans h)
  · exact hminus h

theorem wordValue?_integerText {n : Int} (h : Fits n) :
    wordValue? (integerText n) = some (.integer n) := by
  -- the text of an integer has none of the letters of the three names
  have hnull : integerText n ≠ "null".toList :=
    integerText_ne (c := 'n') (by decide) (by decide) (by decide)
  have htrue : integerText n ≠ "true".toList :=
    integerText_ne (c := 't') (by decide) (by decide) (by decide)
  have hfalse : integerText n ≠ "false".toList :=
    integerText_ne (c := 'f') (by decide) (by decide) (by decide)
  have hvalue : Nat.ofDigitChars 10 (Nat.toDigits 10 n.natAbs) 0 = n.natAbs :=
    Nat.ofDigitChars_ten_toDigits
  obtain ⟨hpos, hneg⟩ := Numeral.read?_digits (fun c => isDigit_of_mem_toDigits)
    (Numeral.isWhole_toDigits n.natAbs)
  obtain ⟨hlow, hhigh⟩ := h
  have hlt : Nat.ofDigitChars 10 (Nat.toDigits 10 n.natAbs) 0 < Numeral.significandLimit := by
    rw [hvalue, Numeral.significandLimit]
    omega
  rw [wordValue?, if_neg hnull, if_neg htrue, if_neg hfalse, integerText]
  split
  · next hn =>
    rw [hneg, Option.bind_some]
    refine Numeral.value_ofDigits hlt ?_
    rw [hvalue, Numeral.integer?, if_pos rfl, if_pos (by simp; omega)]
    exact congrArg some (by omega)
  · next hn =>
    rw [hpos, Option.bind_some]
    refine Numeral.value_ofDigits hlt ?_
    rw [hvalue, Numeral.integer?, if_neg Bool.false_ne_true]
    exact congrArg some (by omega)

end CardArchive.Json
