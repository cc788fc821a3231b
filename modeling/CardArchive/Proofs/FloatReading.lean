import CardArchive.Proofs.FloatText

/-!
# Reading the text of a float

The numbers of a JSON text are not always rounded correctly: the digits are rounded to a binary
number first, and then that number is multiplied or divided by a rounded power of ten. So the text of
a float can be read as another float, or as none at all, but never as anything else.

Where the digits make up an integer below `2 ^ 53` and the power of ten is at most the twenty-second,
both are exact, and the one rounding that is left finds the float again
(`Json.wordValue?_floatText_of_brief`).
-/

namespace CardArchive

namespace Binary64

/-! ## Exact integers -/

/-- An integer of 53 bits with zeros behind it is the value of a number. -/
theorem exists_value_eq {m j : Nat} (hm : m < 2 ^ 53) (hj : j ≤ 900) :
    ∃ y : Binary64, y.value = m * 2 ^ j := by
  by_cases h0 : m = 0
  · exact ⟨zero false, by rw [zero_value, h0, Nat.cast_zero, zero_mul]⟩
  · -- enough of the zeros are taken into the significand to fill its 53 bits
    have hlow : 2 ^ m.log2 ≤ m := Nat.log2_self_le h0
    have hhigh : m < 2 ^ (m.log2 + 1) := Nat.lt_log2_self
    have hlog : m.log2 ≤ 52 := by
      have hlt : (2 : Nat) ^ m.log2 < 2 ^ 53 := hlow.trans_lt hm
      have hexponent := (Nat.pow_lt_pow_iff_right (by decide)).mp hlt
      omega
    generalize hshift : 52 - m.log2 = shift
    have hlarge : 0x10000000000000 ≤ m * 2 ^ shift := by
      have hpow : (2 : Nat) ^ m.log2 * 2 ^ shift = 2 ^ 52 := by
        rw [← pow_add]
        congr 1
        omega
      have hle := Nat.mul_le_mul_right (2 ^ shift) hlow
      rwa [hpow] at hle
    have hsmall : m * 2 ^ shift < 0x20000000000000 := by
      have hpow : (2 : Nat) ^ (m.log2 + 1) * 2 ^ shift = 2 ^ 53 := by
        rw [← pow_add]
        congr 1
        omega
      have hlt := Nat.mul_lt_mul_of_pos_right hhigh (Nat.two_pow_pos shift)
      rwa [hpow] at hlt
    refine ⟨⟨false, m * 2 ^ shift, 1074 + j - shift, hsmall, by omega, Or.inr hlarge⟩, ?_⟩
    rw [value, signed, if_neg Bool.false_ne_true, units_eq, cast_unitsPerOne,
      div_eq_iff (pow_ne_zero _ two_ne_zero)]
    dsimp only
    rw [Nat.cast_mul, Nat.cast_pow, Nat.cast_ofNat, mul_assoc, mul_assoc, ← pow_add, ← pow_add]
    congr 2
    omega

theorem Rounded.value_eq_of_exact {q : ℚ} {x y : Binary64} (h : Rounded q (some x))
    (hy : y.value = q) : x.value = q := by
  have hle := h.nearest.le y
  rw [hy, sub_self, abs_zero] at hle
  exact sub_eq_zero.mp (abs_eq_zero.mp (le_antisymm hle (abs_nonneg _)))

theorem exists_ofNat_eq {m j : Nat} (hm : m < 2 ^ 53) (hj : j ≤ 900) :
    ∃ x, ofNat (m * 2 ^ j) = some x ∧ x.value = m * 2 ^ j := by
  have hrounded := rounded_ofRatio false (m * 2 ^ j) one_pos
  have hvalue : signed false (((m * 2 ^ j : Nat) : ℚ) / (1 : Nat)) = m * 2 ^ j := by
    rw [signed, if_neg Bool.false_ne_true, Nat.cast_one, div_one]
    push_cast
    rfl
  have hfinite : |(m : ℚ) * 2 ^ j| < overflowBound := by
    have hcast : (m : ℚ) < 2 ^ 53 := by exact_mod_cast hm
    have hp : (0 : ℚ) < 2 ^ j := pow_pos two_pos _
    rw [abs_of_nonneg (by positivity)]
    refine (mul_lt_mul_of_pos_right hcast hp).trans_le ?_
    rw [← pow_add]
    exact two_pow_le_overflowBound (by omega)
  rw [hvalue] at hrounded
  change Rounded _ (ofNat (m * 2 ^ j)) at hrounded
  -- the product is the value of a number, so rounding leaves it alone
  obtain ⟨y, hy⟩ := exists_value_eq hm hj
  cases hread : ofNat (m * 2 ^ j) with
  | none =>
    rw [hread] at hrounded
    cases hrounded with
    | overflow habove => exact absurd hfinite (not_lt.mpr habove)
  | some x =>
    rw [hread] at hrounded
    exact ⟨x, rfl, hrounded.value_eq_of_exact hy⟩

/-- Up to the twenty-second, powers of ten are such integers. -/
theorem exists_ofNat_ten_pow {k : Nat} (hk : k ≤ 22) :
    ∃ x, ofNat (Nat.pow 10 k) = some x ∧ x.value = 10 ^ k := by
  have hfive : (5 : Nat) ^ k < 2 ^ 53 := by
    have hle : (5 : Nat) ^ k ≤ 5 ^ 22 := Nat.pow_le_pow_right (by decide) hk
    exact hle.trans_lt (by norm_num)
  obtain ⟨x, hx, hvalue⟩ := exists_ofNat_eq hfive (show k ≤ 900 by omega)
  rw [← mul_pow] at hx
  refine ⟨x, hx, ?_⟩
  rw [hvalue, Nat.cast_pow, ← mul_pow]
  norm_num

theorem rounded_div (x : Binary64) {y : Binary64} (hy : 0 < y.units) :
    Rounded (x.value / y.value) (x.div y) := by
  have h := rounded_ofUnits (x.negative != y.negative) (x.units * unitsPerOne) y.units hy
  have hO := unitsPerOne_pos
  have hsigned : ∀ (a b : Bool) (p q : ℚ), signed a p / signed b q = signed (a != b) (p / q) := by
    intro a b p q
    cases a <;> cases b <;> simp [signed, neg_div, div_neg]
  have hvalue : x.value / y.value = signed (x.negative != y.negative)
      (((x.units * unitsPerOne : Nat) : ℚ) / y.units / unitsPerOne) := by
    rw [value, value, hsigned, Nat.cast_mul, div_div_div_cancel_right₀ hO.ne', mul_div_right_comm,
      mul_div_cancel_right₀ _ hO.ne']
  rw [hvalue]
  exact h

end Binary64

namespace Json

open Binary64

/-! ## Numerals with few digits -/

namespace Numeral

theorem scaled_eq {digits : Nat} {exponent : Int} {x y : Binary64} (hx : ofNat digits = some x)
    (hy : ofNat (Nat.pow 10 exponent.natAbs) = some y) (hfew : exponent.natAbs ≤ largestPower) :
    scaled digits exponent = if exponent < 0 then x.div y else x.mul y := by
  have hdiv : divPower x exponent.natAbs = x.div y := by
    rw [divPower, if_pos hfew, hy, Option.bind_some]
  have hmul : (ofNat (Nat.pow 10 exponent.natAbs)).bind x.mul = x.mul y := by
    rw [hy, Option.bind_some]
  rw [scaled, hx, ← hdiv, ← hmul]
  show (if exponent < 0 then divPower x exponent.natAbs
    else if exponent.natAbs ≤ largestPower then
      (ofNat (Nat.pow 10 exponent.natAbs)).bind x.mul
    else _) = _
  rw [if_pos hfew]

theorem rounded_scaled {digits : Nat} {exponent : Int} (hdigits : digits < 2 ^ 53)
    (hexponent : exponent.natAbs ≤ 22) :
    Rounded (digits * 10 ^ exponent) (scaled digits exponent) := by
  obtain ⟨x, hx, hvalue⟩ := exists_ofNat_eq hdigits (Nat.zero_le 900)
  rw [pow_zero, Nat.mul_one] at hx
  rw [pow_zero, mul_one] at hvalue
  obtain ⟨y, hy, hten⟩ := exists_ofNat_ten_pow hexponent
  rw [scaled_eq hx hy (hexponent.trans (by decide))]
  -- both factors are exact, so the quotient or the product is rounded once
  split
  · next hneg =>
    have hpower : exponent = -(exponent.natAbs : Int) := by omega
    have hpos : 0 < y.units := by
      refine Nat.pos_of_ne_zero fun hzero => ?_
      rw [value_of_units_eq_zero hzero] at hten
      exact absurd hten.symm (pow_ne_zero _ (by norm_num))
    have hrounded := rounded_div x hpos
    rw [hvalue, hten] at hrounded
    rw [hpower, zpow_neg, zpow_natCast, ← div_eq_mul_inv]
    exact hrounded
  · next hnonneg =>
    have hpower : exponent = (exponent.natAbs : Int) := by omega
    have hrounded := rounded_mul x y
    rw [hvalue, hten] at hrounded
    rw [hpower, zpow_natCast]
    exact hrounded

theorem isGathered_of_lt {whole fraction : List Char}
    (h : Number.digitsValue (whole ++ fraction) < significandLimit) :
    gather 0 whole = (Number.digitsValue whole, []) ∧
      gather (Number.digitsValue whole) fraction = (Number.digitsValue (whole ++ fraction), []) := by
  have happend : Number.digitsValue (whole ++ fraction) =
      Nat.ofDigitChars 10 fraction (Number.digitsValue whole) := Nat.ofDigitChars_append 0
  have hwhole : Number.digitsValue whole < significandLimit := by
    rw [happend] at h
    exact (le_ofDigitChars _ fraction).trans_lt h
  rw [happend] at h ⊢
  exact ⟨gather_eq hwhole, gather_eq h⟩

/-- A float whose digits make up a number below the limit is that number times its power of ten. -/
theorem value_of_lt {negative : Bool} {whole fraction : List Char} {exponent : Int}
    (h : Number.digitsValue (whole ++ fraction) < significandLimit) :
    value ⟨negative, whole, fraction, exponent, false⟩ =
      (scaled (Number.digitsValue (whole ++ fraction)) (exponent - fraction.length)).map
        fun f => .float (f.withSign negative) := by
  obtain ⟨hwhole, hfraction⟩ := isGathered_of_lt h
  have hexponent : ((0 : Nat) : Int) - (fraction.length - 0 : Nat) + exponent =
      exponent - fraction.length := by
    rw [Nat.sub_zero]
    omega
  simp only [value, hwhole, hfraction, Bool.false_and, Bool.false_eq_true, if_false,
    List.length_nil, hexponent]

end Numeral

/-! ## Floats -/

/-- A text that is read as a decimal with digits and a power of ten that are exact. -/
def Brief (s : List Char) : Prop :=
  ∃ d, Decimal.read? s = some d ∧ d.digits < 2 ^ 53 ∧ d.exponent.natAbs ≤ 22

/-- The text of a float is read by the digits and the power of ten that it is written with. -/
theorem exists_wordValue?_floatText (x : Binary64) : ∃ l : Literal, l.text = floatText x ∧
    l.decimal.negative = x.negative ∧ l.value = signed x.negative x.shortest.value ∧
      wordValue? (floatText x) =
        Numeral.value ⟨x.negative, l.whole, l.fraction.getD [], l.power, false⟩ := by
  obtain ⟨l, htext, hspells, hnegative, hvalue⟩ := exists_literal_floatText x
  have hname : ∀ w : List Char, Binary64.read? w = none → floatText x ≠ w := by
    rintro w hw rfl
    rw [read?_floatText] at hw
    cases hw
  have hread := Numeral.read?_text hspells
  have hsign : l.sign.isNegative = x.negative := hnegative
  rw [htext, hsign] at hread
  refine ⟨l, htext, hnegative, hvalue, ?_⟩
  rw [wordValue?, if_neg (hname _ (by decide)), if_neg (hname _ (by decide)),
    if_neg (hname _ (by decide)), hread, Option.bind_some]

theorem exists_of_wordValue?_floatText {x : Binary64} {v : Json}
    (h : wordValue? (floatText x) = some v) : ∃ y, v = .float y := by
  obtain ⟨l, -, -, -, hread⟩ := exists_wordValue?_floatText x
  rw [hread] at h
  unfold Numeral.value at h
  simp only [Bool.false_and, Bool.false_eq_true, if_false] at h
  obtain ⟨y, -, rfl⟩ := Option.map_eq_some_iff.mp h
  exact ⟨_, rfl⟩

theorem signed_injective {negative : Bool} {p q : ℚ} (h : signed negative p = signed negative q) :
    p = q := by
  cases negative with
  | false => exact h
  | true => exact neg_injective h

/-- With few digits the same float is read again. -/
theorem wordValue?_floatText_of_brief {x : Binary64} (h : Brief (floatText x)) :
    wordValue? (floatText x) = some (.float x) := by
  obtain ⟨l, htext, hnegative, hvalue, hread⟩ := exists_wordValue?_floatText x
  obtain ⟨d, hd, hdigits, hexponent⟩ := h
  rw [← htext, Decimal.read?_text] at hd
  obtain rfl := Option.some.inj hd
  have hlt : Number.digitsValue (l.whole ++ l.fraction.getD []) < Numeral.significandLimit :=
    hdigits.trans (by decide)
  rw [hread, Numeral.value_of_lt hlt]
  -- both the float and what is read of its text are the nearest number to the same decimal
  have hscaled := Numeral.rounded_scaled hdigits hexponent
  have hsame : (l.decimal.digits : ℚ) * 10 ^ l.decimal.exponent = x.shortest.value := by
    rw [← l.value_decimal, Decimal.value, hnegative] at hvalue
    exact signed_injective hvalue
  have hshortest : Rounded x.shortest.value (some (x.withSign false)) :=
    (x.withSign false).rounded_shortest
  rw [hsame] at hscaled
  obtain ⟨y, hy, hyx⟩ := Option.map_eq_some_iff.mp (hscaled.map_value_eq hshortest)
  have hunits : x.units = y.units := (units_eq_of_value_eq hyx).symm
  change (Numeral.scaled l.decimal.digits l.decimal.exponent).map _ = _
  rw [hy, Option.map_some, ← eq_withSign_of_units_eq hunits]

end Json

end CardArchive
