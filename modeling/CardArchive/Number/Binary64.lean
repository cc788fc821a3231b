/-!
# Binary floating point, exactly

Populations and badge values pass through 64-bit binary floating point, and what they come out as
depends on every rounding on the way. So the numbers are kept exactly: a finite number is a sign and
a natural number of *units*, the unit being the least positive number `2^-1074`, and every operation
is the exact result followed by one rounding to nearest, ties to even. An operation whose exact
result rounds beyond the largest finite number has no value here.
-/

namespace CardArchive

/-- A finite binary64 number, plus or minus `significand * 2 ^ scale` units of `2^-1074`. The last
three fields say that every number has one form only. -/
structure Binary64 where
  /-- Whether the number carries a minus sign; zero has both signs. -/
  negative : Bool
  /-- The digits, at most 53 bits. -/
  significand : Nat
  /-- The power of two by which the significand counts units. -/
  scale : Nat
  significand_lt : significand < 0x20000000000000
  /-- Beyond this scale there are no finite numbers. -/
  scale_le : scale ≤ 2045
  /-- Numbers that need no extra scale have none. -/
  normal : scale = 0 ∨ 0x10000000000000 ≤ significand
  deriving DecidableEq

namespace Binary64

/-- How many units make one. -/
def unitsPerOne : Nat := Nat.pow 2 1074

/-- The magnitude, counted in units. -/
def units (x : Binary64) : Nat := x.significand * Nat.pow 2 x.scale

/-- Zero with a sign. -/
def zero (negative : Bool) : Binary64 where
  negative := negative
  significand := 0
  scale := 0
  significand_lt := by decide
  scale_le := by decide
  normal := Or.inl rfl

/-- Whether the number is zero, of either sign. -/
def isZero (x : Binary64) : Bool := x.significand = 0

/-- The same magnitude with the given sign. -/
def withSign (x : Binary64) (negative : Bool) : Binary64 := { x with negative := negative }

/-! ## Rounding -/

/-- The integer nearest to `n / d`; of two equally near ones the even one. -/
def roundHalfEven (n d : Nat) : Nat :=
  let q := n / d
  let r := n % d
  if 2 * r < d then q else if d < 2 * r then q + 1 else q + q % 2

theorem div_le_roundHalfEven (n d : Nat) : n / d ≤ roundHalfEven n d := by
  unfold roundHalfEven
  dsimp only
  split
  · exact Nat.le_refl _
  · split <;> omega

theorem roundHalfEven_le_succ (n d : Nat) : roundHalfEven n d ≤ n / d + 1 := by
  unfold roundHalfEven
  dsimp only
  split
  · omega
  · split <;> omega

/-- The power of two by which the digits of a magnitude between `whole` and `whole + 1` units have
to be shifted to leave 53 of them. -/
def scaleFor (whole : Nat) : Nat := whole.log2 - 52

theorem lt_two_pow_scaleFor (whole : Nat) : whole < Nat.pow 2 (scaleFor whole + 53) := by
  refine Nat.lt_of_lt_of_le Nat.lt_log2_self (Nat.pow_le_pow_right (by decide) ?_)
  unfold scaleFor
  omega

theorem two_pow_le_of_scaleFor {whole : Nat} (h : scaleFor whole ≠ 0) :
    Nat.pow 2 (scaleFor whole + 52) ≤ whole := by
  have hlog : scaleFor whole + 52 = whole.log2 := by unfold scaleFor at h ⊢; omega
  rw [hlog]
  refine Nat.log2_self_le fun h0 => h ?_
  simp [scaleFor, h0]

/-- Rounding to 53 digits leaves at most `2 ^ 53`. -/
theorem roundHalfEven_le (n d : Nat) :
    roundHalfEven n (d * Nat.pow 2 (scaleFor (n / d))) ≤ 0x20000000000000 := by
  refine Nat.le_trans (roundHalfEven_le_succ _ _) ?_
  rw [← Nat.div_div_eq_div_mul]
  have h : n / d < 0x20000000000000 * Nat.pow 2 (scaleFor (n / d)) := by
    have hpow := lt_two_pow_scaleFor (n / d)
    rwa [Nat.pow_eq, Nat.add_comm, Nat.pow_add] at hpow
  exact (Nat.div_lt_iff_lt_mul (Nat.two_pow_pos _)).2 h

/-- Rounding to 53 digits leaves at least 53 of them when any are cut. -/
theorem le_roundHalfEven {n d : Nat} (h : scaleFor (n / d) ≠ 0) :
    0x10000000000000 ≤ roundHalfEven n (d * Nat.pow 2 (scaleFor (n / d))) := by
  refine Nat.le_trans ?_ (div_le_roundHalfEven _ _)
  rw [← Nat.div_div_eq_div_mul]
  have h : 0x10000000000000 * Nat.pow 2 (scaleFor (n / d)) ≤ n / d := by
    have hpow := two_pow_le_of_scaleFor h
    rwa [Nat.pow_eq, Nat.add_comm, Nat.pow_add] at hpow
  exact (Nat.le_div_iff_mul_le (Nat.two_pow_pos _)).2 h

/-- The least significand with 53 bits fits. -/
theorem least_normal_lt : 0x10000000000000 < 0x20000000000000 := by decide

/-- The number nearest to `n / d` units, ties to the even significand; none when it would be larger
than every finite number, or when `d` is zero. -/
def ofUnits (negative : Bool) (n d : Nat) : Option Binary64 :=
  if hd : 0 < d then
    let scale := scaleFor (n / d)
    let m := roundHalfEven n (d * Nat.pow 2 scale)
    if hm : m < 0x20000000000000 then
      if hs : scale ≤ 2045 then
        some ⟨negative, m, scale, hm, hs, by
          by_cases h : scale = 0
          · exact Or.inl h
          · exact Or.inr (le_roundHalfEven h)⟩
      else none
    else if hs : scale + 1 ≤ 2045 then
      some ⟨negative, 0x10000000000000, scale + 1, least_normal_lt, hs, Or.inr (Nat.le_refl _)⟩
    else none
  else none

/-- The number nearest to the fraction `n / d`. -/
def ofRatio (negative : Bool) (n d : Nat) : Option Binary64 :=
  ofUnits negative (n * unitsPerOne) d

/-- The number nearest to a natural number. -/
def ofNat (n : Nat) : Option Binary64 := ofRatio false n 1

/-! ## Arithmetic -/

/-- The product, rounded once. -/
def mul (x y : Binary64) : Option Binary64 :=
  ofUnits (x.negative != y.negative) (x.units * y.units) unitsPerOne

/-- The quotient, rounded once; none for a zero divisor. -/
def div (x y : Binary64) : Option Binary64 :=
  ofUnits (x.negative != y.negative) (x.units * unitsPerOne) y.units

/-- The nearest integer, a half going away from zero. -/
def round (x : Binary64) : Int :=
  let magnitude : Int := ((2 * x.units + unitsPerOne) / (2 * unitsPerOne) : Nat)
  if x.negative then -magnitude else magnitude

/-- The order of the magnitudes, the sign left aside. -/
def magnitudeLe (x y : Binary64) : Bool := x.units ≤ y.units

/-! ## The interchange format -/

/-- The 64 bits of the interchange format: sign, biased exponent, fraction. -/
def toBits (x : Binary64) : Nat :=
  (if x.negative then 0x8000000000000000 else 0) +
    if x.significand < 0x10000000000000 then x.significand
    else (x.scale + 1) * 0x10000000000000 + (x.significand - 0x10000000000000)

end Binary64

end CardArchive
