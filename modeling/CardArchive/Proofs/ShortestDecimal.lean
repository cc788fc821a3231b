import CardArchive.Proofs.DecimalLiteral
import CardArchive.Number.Shortest

/-!
# Shortest decimals read back

The decimal with which a binary number is written is rounded to that number again. `readsBack` is a
test on naturals; what it says is that the decimal lies in the interval of the number, halfway to its
neighbours on both sides, and from there the number is the nearest one. Just below a power of two the
numbers lie closer, and there the interval is that of the smaller scale.

That some grid has a neighbour that reads back is a matter of counting: seventeen digits leave a
pitch below the width of the interval.
-/

namespace CardArchive.Binary64

/-- The rational number of a decimal. -/
def Shortest.value (s : Shortest) : ℚ := s.digits * 10 ^ s.exponent

theorem Shortest.trimmed_value (digits : Nat) (exponent : Int) :
    (trimmed digits exponent).value = digits * 10 ^ exponent := by
  fun_induction trimmed digits exponent with
  | case1 digits exponent h ih =>
    have hdigits : (digits : ℚ) = 10 * (digits / 10 : Nat) := by
      have hmod := Nat.div_add_mod digits 10
      rw [h.2, Nat.add_zero] at hmod
      exact_mod_cast hmod.symm
    rw [ih, hdigits, zpow_add₀ (by norm_num), zpow_one]
    ring
  | case2 => rfl

/-! ## The interval of a number -/

variable {x : Binary64}

theorem units_eq (x : Binary64) : (x.units : ℚ) = x.significand * 2 ^ x.scale := by
  rw [units, Nat.cast_mul, cast_two_pow]

theorem significand_pos (hx : x.isZero = false) : 0 < x.significand := by
  refine Nat.pos_of_ne_zero fun h => ?_
  rw [isZero, h] at hx
  cases hx

theorem eq_zero_of_isZero (hx : x.isZero = true) : x = zero x.negative := by
  obtain ⟨negative, significand, scale, hlt, hle, hnormal⟩ := x
  rw [isZero, decide_eq_true_eq] at hx
  dsimp only at hx
  subst hx
  obtain rfl : scale = 0 := hnormal.resolve_right (by decide)
  rfl

theorem two_pow_scale_le_units (hx : x.isZero = false) : (2 : ℚ) ^ x.scale ≤ x.units := by
  have hone : (1 : ℚ) ≤ x.significand := by exact_mod_cast significand_pos hx
  rw [units_eq]
  exact le_mul_of_one_le_left (pow_nonneg two_pos.le _) hone

/-- The number is the least of its binade, and the numbers below it lie twice as close. -/
def Narrow (x : Binary64) : Prop := x.significand = 0x10000000000000 ∧ x.scale ≠ 0

theorem roomAbove_eq (x : Binary64) : (x.roomAbove : ℚ) = 2 * 2 ^ x.scale := by
  rw [roomAbove, Nat.cast_mul, cast_two_pow, Nat.cast_ofNat]

theorem roomBelow_of_narrow (h : x.Narrow) : (x.roomBelow : ℚ) = 2 ^ x.scale := by
  unfold Narrow at h
  rw [roomBelow, if_pos h, cast_two_pow]

theorem roomBelow_of_not_narrow (h : ¬x.Narrow) : (x.roomBelow : ℚ) = 2 * 2 ^ x.scale := by
  unfold Narrow at h
  rw [roomBelow, if_neg h, Nat.cast_mul, cast_two_pow, Nat.cast_ofNat]

theorem roomBelow_le (x : Binary64) : (x.roomBelow : ℚ) ≤ 2 * 2 ^ x.scale := by
  have hp : (0 : ℚ) < 2 ^ x.scale := pow_pos two_pos _
  by_cases h : x.Narrow
  · rw [roomBelow_of_narrow h]
    linarith
  · rw [roomBelow_of_not_narrow h]

/-- Where a decimal reads back: no farther below and above than there is room, with an even
significand at the ends. -/
structure InRoom (x : Binary64) (u : ℚ) : Prop where
  low : x.units - x.roomBelow / 4 ≤ u
  high : u ≤ x.units + x.roomAbove / 4
  even : u = x.units - x.roomBelow / 4 ∨ u = x.units + x.roomAbove / 4 → x.significand % 2 = 0

/-- Cleared of the denominator, the ends of the interval are naturals. -/
theorem cast_ends (hx : x.isZero = false) (n : Nat) {d : Nat} (hd : 0 < d) :
    (((4 * x.units - x.roomBelow) * d : Nat) : ℚ) = (x.units - x.roomBelow / 4) * (4 * d) ∧
      (((4 * x.units + x.roomAbove) * d : Nat) : ℚ) = (x.units + x.roomAbove / 4) * (4 * d) ∧
      ((4 * n : Nat) : ℚ) = (n / d : ℚ) * (4 * d) := by
  have hd' : (d : ℚ) ≠ 0 := Nat.cast_ne_zero.mpr hd.ne'
  have hroom : x.roomBelow ≤ 4 * x.units := by
    have hle : (x.roomBelow : ℚ) ≤ (4 * x.units : Nat) := by
      have hunits := two_pow_scale_le_units hx
      have hbelow := x.roomBelow_le
      push_cast
      linarith
    exact_mod_cast hle
  refine ⟨?_, ?_, ?_⟩
  · rw [Nat.cast_mul, Nat.cast_sub hroom]
    push_cast
    ring
  · push_cast
    ring
  · push_cast
    field_simp

theorem inRoom_of_readsBack (hx : x.isZero = false) {n d : Nat} (hd : 0 < d)
    (h : x.readsBack n d = true) : InRoom x (n / d) := by
  obtain ⟨hlow, hhigh, hn⟩ := cast_ends hx n hd
  have hd' : (0 : ℚ) < 4 * d := by positivity
  -- the comparisons are made on naturals: the ends of the interval multiplied by `4 * d`
  have hle : (((4 * x.units - x.roomBelow) * d : Nat) : ℚ) ≤ (4 * n : Nat) ↔
      (x.units - x.roomBelow / 4 : ℚ) ≤ n / d := by
    rw [hlow, hn, mul_le_mul_iff_left₀ hd']
  have hge : ((4 * n : Nat) : ℚ) ≤ ((4 * x.units + x.roomAbove) * d : Nat) ↔
      (n / d : ℚ) ≤ x.units + x.roomAbove / 4 := by
    rw [hhigh, hn, mul_le_mul_iff_left₀ hd']
  have hlt : (((4 * x.units - x.roomBelow) * d : Nat) : ℚ) < (4 * n : Nat) ↔
      (x.units - x.roomBelow / 4 : ℚ) < n / d := by
    rw [hlow, hn, mul_lt_mul_iff_left₀ hd']
  have hgt : ((4 * n : Nat) : ℚ) < ((4 * x.units + x.roomAbove) * d : Nat) ↔
      (n / d : ℚ) < x.units + x.roomAbove / 4 := by
    rw [hhigh, hn, mul_lt_mul_iff_left₀ hd']
  rw [Nat.cast_le] at hle hge
  rw [Nat.cast_lt] at hlt hgt
  unfold readsBack at h
  dsimp only at h
  split at h
  · next heven =>
    rw [Bool.and_eq_true, decide_eq_true_eq, decide_eq_true_eq] at h
    exact ⟨hle.mp h.1, hge.mp h.2, fun _ => heven⟩
  · rw [Bool.and_eq_true, decide_eq_true_eq, decide_eq_true_eq] at h
    refine ⟨(hlt.mp h.1).le, (hgt.mp h.2).le, ?_⟩
    rintro (heq | heq)
    · exact absurd heq (hlt.mp h.1).ne'
    · exact absurd heq (hgt.mp h.2).ne

/-- Outside the interval a decimal is at least as far off as there is room. -/
theorem outside_of_not_readsBack (hx : x.isZero = false) {n d : Nat} (hd : 0 < d)
    (h : x.readsBack n d = false) :
    (n / d : ℚ) ≤ x.units - x.roomBelow / 4 ∨ x.units + x.roomAbove / 4 ≤ (n / d : ℚ) := by
  obtain ⟨hlow, hhigh, hn⟩ := cast_ends hx n hd
  have hd' : (0 : ℚ) < 4 * d := by positivity
  have hcases : 4 * n ≤ (4 * x.units - x.roomBelow) * d ∨
      (4 * x.units + x.roomAbove) * d ≤ 4 * n := by
    unfold readsBack at h
    dsimp only at h
    split at h
    · rw [Bool.and_eq_false_iff, decide_eq_false_iff_not, decide_eq_false_iff_not] at h
      exact h.imp (fun h => (not_le.mp h).le) fun h => (not_le.mp h).le
    · rw [Bool.and_eq_false_iff, decide_eq_false_iff_not, decide_eq_false_iff_not] at h
      exact h.imp not_lt.mp not_lt.mp
  refine hcases.imp (fun h => ?_) fun h => ?_
  · have hcast := (Nat.cast_le (α := ℚ)).mpr h
    rwa [hlow, hn, mul_le_mul_iff_left₀ hd'] at hcast
  · have hcast := (Nat.cast_le (α := ℚ)).mpr h
    rwa [hhigh, hn, mul_le_mul_iff_left₀ hd'] at hcast

/-! ## Inside the interval the number is the nearest -/

/-- Where the room is the same on both sides, or the decimal lies above, the scale decides. -/
theorem counts_of_inRoom {u : ℚ} (h : InRoom x u) (hwide : ¬x.Narrow ∨ x.units ≤ u) :
    Counts u x.scale x.significand := by
  have hp : (0 : ℚ) < 2 ^ x.scale := pow_pos two_pos _
  have hhigh := h.high
  have hlow : (x.units : ℚ) - 2 ^ x.scale / 2 ≤ u := by
    rcases hwide with hwide | hle
    · have hlow := h.low
      rw [roomBelow_of_not_narrow hwide] at hlow
      linarith
    · linarith
  rw [roomAbove_eq] at hhigh
  rw [units_eq] at hlow hhigh
  refine ⟨?_, fun heq => h.even ?_, fun hscale => ?_⟩
  · rw [abs_le]
    constructor <;> linarith
  · rw [roomAbove_eq, units_eq]
    rcases (abs_eq (by positivity)).mp heq with heq | heq
    · left
      rcases hwide with hwide | hle
      · rw [roomBelow_of_not_narrow hwide]
        linarith
      · rw [units_eq] at hle
        linarith
    · right
      linarith
  · have hnormal : 0x10000000000000 ≤ x.significand := x.normal.resolve_left hscale
    rw [pow_add]
    rcases hwide with hwide | hle
    · -- the significand is not the least one, so half a step down stays in the binade
      have hlarger : 0x10000000000000 + 1 ≤ x.significand :=
        lt_of_le_of_ne hnormal fun heq => hwide ⟨heq.symm, hscale⟩
      have hcast : (2 : ℚ) ^ 52 + 1 ≤ x.significand := by
        norm_num
        exact_mod_cast hlarger
      have hmul := mul_le_mul_of_nonneg_right hcast hp.le
      linarith
    · have hcast : (2 : ℚ) ^ 52 ≤ x.significand := by
        norm_num
        exact_mod_cast hnormal
      rw [units_eq] at hle
      exact (mul_le_mul_of_nonneg_right hcast hp.le).trans hle

/-- Below the least number of a binade the smaller scale decides. -/
theorem counts_of_inRoom_narrow {u : ℚ} (h : InRoom x u) (hnarrow : x.Narrow)
    (hlt : u < x.units) :
    Counts u (x.scale - 1) 0x20000000000000 ∧
      (x.units : ℚ) = (0x20000000000000 : Nat) * 2 ^ (x.scale - 1) := by
  obtain ⟨k, hk⟩ := Nat.exists_eq_add_of_lt (Nat.pos_of_ne_zero hnarrow.2)
  have hscale : x.scale = k + 1 := by omega
  have hp : (0 : ℚ) < 2 ^ k := pow_pos two_pos _
  have hlow := h.low
  have hunits : (x.units : ℚ) = (0x20000000000000 : Nat) * 2 ^ k := by
    rw [units_eq, hnarrow.1, hscale, two_pow_succ]
    push_cast
    ring
  rw [roomBelow_of_narrow hnarrow, hscale, two_pow_succ] at hlow
  have hk' : x.scale - 1 = k := by omega
  rw [hk']
  refine ⟨⟨?_, fun _ => by norm_num, fun _ => ?_⟩, hunits⟩
  · rw [← hunits, abs_of_pos (sub_pos.mpr hlt)]
    linarith
  · rw [pow_add]
    push_cast at hunits
    have hhalf : (2 : ℚ) ^ 52 * 2 ^ k ≤ x.units - 2 ^ k / 2 := by
      rw [hunits]
      norm_num
      linarith
    linarith

theorem InRoom.rounded (hx : x.isZero = false) {u : ℚ} (h : InRoom x u) :
    Rounded (signed x.negative (u / unitsPerOne)) (some x) := by
  have hp : (0 : ℚ) < 2 ^ x.scale := pow_pos two_pos _
  have hO := unitsPerOne_pos
  have hu : 0 ≤ u := by
    have hunits := two_pow_scale_le_units hx
    have hbelow := x.roomBelow_le
    have hlow := h.low
    linarith
  have hfinite : u < overflowUnits → |signed x.negative (u / unitsPerOne)| < overflowBound := by
    intro hlt
    rw [abs_signed, abs_of_nonneg (div_nonneg hu hO.le), div_lt_iff₀ hO,
      overflowBound_mul_unitsPerOne]
    exact hlt
  -- below the least number of a binade the scale changes, and with it the way to count
  by_cases hwide : ¬x.Narrow ∨ x.units ≤ u
  · have hcounts := counts_of_inRoom h hwide
    exact .finite (hfinite (hcounts.lt_overflow x.significand_lt x.scale_le))
      (hcounts.isNearest hu (units_eq x) id)
  · rw [not_or, not_not, not_le] at hwide
    obtain ⟨hcounts, hunits⟩ := counts_of_inRoom_narrow h hwide.1 hwide.2
    have hscale : x.scale - 1 ≤ 2044 := by
      have hle := x.scale_le
      omega
    refine .finite (hfinite (hcounts.lt_overflow_of_carry hscale))
      (hcounts.isNearest hu hunits fun _ => ?_)
    rw [hwide.1.1]

/-! ## Decimal grids -/

/-- A grid as `onGrid` counts it: a step of so many units, over a denominator. -/
def gridStep (exponent : Int) : Nat :=
  if 0 ≤ exponent then unitsPerOne * Nat.pow 10 exponent.toNat else unitsPerOne

@[inherit_doc gridStep]
def gridDenominator (exponent : Int) : Nat :=
  if 0 ≤ exponent then 1 else Nat.pow 10 (-exponent).toNat

theorem cast_ten_pow (k : Nat) : ((Nat.pow 10 k : Nat) : ℚ) = 10 ^ k := by
  rw [Nat.pow_eq, Nat.cast_pow, Nat.cast_ofNat]

theorem gridDenominator_pos (exponent : Int) : 0 < gridDenominator exponent := by
  unfold gridDenominator
  split
  · exact Nat.one_pos
  · exact Nat.pow_pos (by decide)

theorem gridStep_div (exponent : Int) :
    (gridStep exponent : ℚ) / gridDenominator exponent = unitsPerOne * 10 ^ exponent := by
  unfold gridStep gridDenominator
  split
  · next h =>
    obtain ⟨k, rfl⟩ := Int.eq_ofNat_of_zero_le h
    rw [Nat.cast_mul, cast_ten_pow, Nat.cast_one, div_one, zpow_natCast]
    rfl
  · next h =>
    obtain ⟨k, hk⟩ := Int.eq_ofNat_of_zero_le (a := -exponent) (by omega)
    obtain rfl : exponent = -(k : Int) := by omega
    rw [neg_neg, cast_ten_pow, zpow_neg, zpow_natCast, div_eq_mul_inv]
    rfl

theorem gridStep_pos (exponent : Int) : 0 < gridStep exponent := by
  have hO : 0 < unitsPerOne := by exact_mod_cast unitsPerOne_pos
  unfold gridStep
  split
  · exact Nat.mul_pos hO (Nat.pow_pos (by decide))
  · exact hO

theorem onGrid_eq (x : Binary64) (exponent : Int) :
    x.onGrid exponent =
      let below := x.units * gridDenominator exponent / gridStep exponent
      match x.readsBack (below * gridStep exponent) (gridDenominator exponent),
        x.readsBack ((below + 1) * gridStep exponent) (gridDenominator exponent) with
      | true, true =>
        some (roundHalfEven (x.units * gridDenominator exponent) (gridStep exponent))
      | true, false => some below
      | false, true => some (below + 1)
      | false, false => none := rfl

/-- A neighbour that was chosen reads back. -/
theorem readsBack_of_onGrid {exponent : Int} {digits : Nat} (h : x.onGrid exponent = some digits) :
    x.readsBack (digits * gridStep exponent) (gridDenominator exponent) = true := by
  rw [onGrid_eq] at h
  dsimp only at h
  generalize hn : x.units * gridDenominator exponent = n at h
  split at h
  · next hbelow habove =>
    have hlow := div_le_roundHalfEven n (gridStep exponent)
    have hhigh := roundHalfEven_le_succ n (gridStep exponent)
    have heither : digits = n / gridStep exponent ∨ digits = n / gridStep exponent + 1 := by
      have hdigits := Option.some.inj h
      omega
    rcases heither with rfl | rfl
    · exact hbelow
    · exact habove
  · next hbelow _ => exact Option.some.inj h ▸ hbelow
  · next _ habove => exact Option.some.inj h ▸ habove
  · cases h

/-- A grid whose pitch is smaller than the interval is wide has a neighbour in it. -/
theorem exists_onGrid (hx : x.isZero = false) {exponent : Int}
    (hpitch : (unitsPerOne : ℚ) * 10 ^ exponent < x.roomBelow / 4 + x.roomAbove / 4) :
    ∃ digits, x.onGrid exponent = some digits := by
  have hd : (0 : ℚ) < gridDenominator exponent := by exact_mod_cast gridDenominator_pos exponent
  have hroom : (0 : ℚ) ≤ x.roomBelow / 4 := by positivity
  have hroom' : (0 : ℚ) < x.roomAbove / 4 := by
    have hp : (0 : ℚ) < 2 ^ x.scale := pow_pos two_pos _
    rw [roomAbove_eq]
    positivity
  rw [← gridStep_div] at hpitch
  rw [onGrid_eq]
  dsimp only
  -- the neighbours of the value on the grid, one at most and one above it, are a step apart
  generalize hbelow : x.units * gridDenominator exponent / gridStep exponent = below
  have hleft : ((below * gridStep exponent : Nat) : ℚ) / gridDenominator exponent ≤ x.units := by
    rw [div_le_iff₀ hd, ← Nat.cast_mul, ← hbelow]
    exact_mod_cast Nat.div_mul_le_self _ _
  have hright : (x.units : ℚ) <
      (((below + 1) * gridStep exponent : Nat) : ℚ) / gridDenominator exponent := by
    rw [lt_div_iff₀ hd, ← Nat.cast_mul, ← hbelow]
    exact_mod_cast (Nat.div_lt_iff_lt_mul (gridStep_pos exponent)).mp (Nat.lt_succ_self _)
  have hgap : (((below + 1) * gridStep exponent : Nat) : ℚ) / gridDenominator exponent =
      ((below * gridStep exponent : Nat) : ℚ) / gridDenominator exponent +
        gridStep exponent / gridDenominator exponent := by
    push_cast
    ring
  split
  · exact ⟨_, rfl⟩
  · exact ⟨_, rfl⟩
  · exact ⟨_, rfl⟩
  · next hbelowOut haboveOut =>
    -- with both neighbours outside, the interval would be narrower than the step
    exfalso
    have hfar := outside_of_not_readsBack hx (gridDenominator_pos exponent) hbelowOut
    have hfar' := outside_of_not_readsBack hx (gridDenominator_pos exponent) haboveOut
    have hout := hfar.resolve_right (not_le.mpr (by linarith))
    have hout' := hfar'.resolve_left (not_le.mpr (by linarith))
    linarith

/-! ## The leading digit -/

theorem ten_pow_digitCount_le {n : Nat} (h : 0 < n) : 10 ^ (Decimal.digitCount n - 1) ≤ n := by
  by_cases hone : Decimal.digitCount n - 1 = 0
  · rw [hone, pow_zero]
    exact h
  · have hle := (Nat.length_toDigits_le_iff (b := 10) (n := n) (by decide)
      (Nat.pos_of_ne_zero hone)).not
    rw [not_lt] at hle
    exact hle.mp (by unfold Decimal.digitCount at hone ⊢; omega)

/-- Counting the digits of a scaled value gives a power of ten that the value reaches. -/
theorem unit_mul_ten_zpow_le {n unit k : Nat} (hunit : 0 < unit) (h : unit ≤ n * 10 ^ k) :
    (unit : ℚ) * 10 ^ ((Decimal.digitCount (n * 10 ^ k / unit) : Int) - (k + 1)) ≤ n := by
  have hpos : 0 < n * 10 ^ k / unit := Nat.div_pos h hunit
  have hcount : 0 < Decimal.digitCount (n * 10 ^ k / unit) := Nat.length_toDigits_pos
  have hten : (0 : ℚ) < 10 ^ k := by positivity
  obtain ⟨j, hj⟩ := Nat.exists_eq_add_of_lt hcount
  have hle : 10 ^ j * unit ≤ n * 10 ^ k := by
    have hdigits := ten_pow_digitCount_le hpos
    rw [hj, Nat.zero_add, Nat.add_sub_cancel] at hdigits
    exact (Nat.le_div_iff_mul_le hunit).mp hdigits
  have hcast : (10 : ℚ) ^ j * unit ≤ n * 10 ^ k := by exact_mod_cast hle
  have hexponent : (Decimal.digitCount (n * 10 ^ k / unit) : Int) - (k + 1) = (j : Int) - k := by
    rw [hj]
    push_cast
    ring
  rw [hexponent, zpow_sub₀ (by norm_num), zpow_natCast, zpow_natCast, mul_div_assoc',
    div_le_iff₀ hten]
  linarith

theorem ten_zpow_leadingExponent_le (hx : x.isZero = false) :
    (unitsPerOne : ℚ) * 10 ^ x.leadingExponent ≤ x.units := by
  have hO : 0 < unitsPerOne := by exact_mod_cast unitsPerOne_pos
  have hunits : 1 ≤ x.units := by
    have hpow := two_pow_scale_le_units hx
    have hone : (1 : ℚ) ≤ 2 ^ x.scale := one_le_pow₀ (by norm_num)
    exact_mod_cast hone.trans hpow
  have hlead : x.leadingExponent =
      (Decimal.digitCount (x.units * Nat.pow 10 400 / unitsPerOne) : Int) - 401 := rfl
  have hdouble := two_mul_unitsPerOne_le
  -- the power is given a name, so that it is never multiplied out
  generalize hk : 400 = k at hlead hdouble
  have hshift : (401 : Int) = k + 1 := by omega
  have hlarge : unitsPerOne ≤ x.units * 10 ^ k := by
    have hcast : (unitsPerOne : ℚ) ≤ (10 ^ k : Nat) := by
      have hpos := unitsPerOne_pos
      push_cast
      linarith
    exact (Nat.cast_le.mp hcast).trans (Nat.le_mul_of_pos_left _ hunits)
  rw [hlead, hshift, Nat.pow_eq]
  exact unit_mul_ten_zpow_le hO hlarge

/-! ## Seventeen digits are enough -/

/-- With seventeen digits the pitch is smaller than the interval. -/
theorem pitch_lt (hx : x.isZero = false) :
    (unitsPerOne : ℚ) * 10 ^ (x.leadingExponent - 16) < x.roomBelow / 4 + x.roomAbove / 4 := by
  have hp : (0 : ℚ) < 2 ^ x.scale := pow_pos two_pos _
  have hlead := ten_zpow_leadingExponent_le hx
  have hpitch : (unitsPerOne : ℚ) * 10 ^ (x.leadingExponent - 16) ≤ x.units / 10 ^ 16 := by
    have hten : (0 : ℚ) < 10 ^ 16 := by norm_num
    rw [zpow_sub₀ (by norm_num), zpow_ofNat, mul_div_assoc']
    exact (div_le_div_iff_of_pos_right hten).mpr hlead
  refine hpitch.trans_lt ?_
  rw [units_eq, roomAbove_eq, div_lt_iff₀ (by norm_num)]
  by_cases hnarrow : x.Narrow
  · have hcast : (x.significand : ℚ) = 0x10000000000000 := by rw [hnarrow.1, Nat.cast_ofNat]
    rw [roomBelow_of_narrow hnarrow, hcast]
    linarith
  · have hcast : (x.significand : ℚ) < 0x20000000000000 := by exact_mod_cast x.significand_lt
    have hmul := mul_lt_mul_of_pos_right hcast hp
    rw [roomBelow_of_not_narrow hnarrow]
    linarith

theorem exists_shortest_eq (hx : x.isZero = false) :
    ∃ digits exponent, x.shortest = Shortest.trimmed digits exponent ∧
      x.onGrid exponent = some digits := by
  obtain ⟨last, hlast⟩ := exists_onGrid hx (pitch_lt hx)
  rw [shortest, if_neg (by rw [hx]; exact Bool.false_ne_true)]
  dsimp only
  generalize hfound : (List.range 17).findSome? (fun (more : Nat) =>
    (x.onGrid (x.leadingExponent - more)).map fun digits =>
      Shortest.trimmed digits (x.leadingExponent - more)) = found
  cases found with
  | none =>
    have hnone := List.findSome?_eq_none_iff.mp hfound 16 (List.mem_range.mpr (by decide))
    rw [Option.map_eq_none_iff] at hnone
    change x.onGrid (x.leadingExponent - 16) = none at hnone
    rw [hlast] at hnone
    cases hnone
  | some s =>
    obtain ⟨more, -, hsome⟩ := List.exists_of_findSome?_eq_some hfound
    obtain ⟨digits, hdigits, rfl⟩ := Option.map_eq_some_iff.mp hsome
    exact ⟨digits, _, rfl, hdigits⟩

/-- The shortest decimal of a number other than zero lies in its interval. -/
theorem inRoom_shortest (hx : x.isZero = false) : InRoom x (x.shortest.value * unitsPerOne) := by
  obtain ⟨digits, exponent, hshortest, hgrid⟩ := exists_shortest_eq hx
  have hroom := inRoom_of_readsBack hx (gridDenominator_pos exponent) (readsBack_of_onGrid hgrid)
  have hvalue : x.shortest.value * unitsPerOne =
      ((digits * gridStep exponent : Nat) : ℚ) / gridDenominator exponent := by
    rw [hshortest, Shortest.trimmed_value, Nat.cast_mul, mul_div_assoc, gridStep_div]
    ring
  rwa [hvalue]

theorem shortest_of_isZero (hx : x.isZero = true) : x.shortest = ⟨0, 0⟩ := if_pos hx

theorem shortest_digits_pos (hx : x.isZero = false) : 0 < x.shortest.digits := by
  have hp : (0 : ℚ) < 2 ^ x.scale := pow_pos two_pos _
  have hlow := (inRoom_shortest hx).low
  have hunits := two_pow_scale_le_units hx
  have hbelow := x.roomBelow_le
  refine Nat.pos_of_ne_zero fun hzero => ?_
  rw [Shortest.value, hzero, Nat.cast_zero, zero_mul, zero_mul] at hlow
  linarith

/-- Its shortest decimal is rounded to the number. -/
theorem rounded_shortest (x : Binary64) :
    Rounded (signed x.negative x.shortest.value) (some x) := by
  cases hx : x.isZero with
  | true =>
    rw [shortest_of_isZero hx, Shortest.value, Nat.cast_zero, zero_mul, signed_zero]
    have hsmall : 2 * |(0 : ℚ)| * unitsPerOne < 1 := by
      rw [abs_zero, mul_zero, zero_mul]
      exact one_pos
    have hzero : IsNearest 0 (zero x.negative) := .zero_of_lt hsmall x.negative
    rw [← eq_zero_of_isZero hx] at hzero
    refine .finite ?_ hzero
    rw [abs_zero]
    exact one_pos.trans_le one_le_overflowBound
  | false =>
    have hrounded := (inRoom_shortest hx).rounded hx
    rwa [mul_div_cancel_right₀ _ unitsPerOne_pos.ne'] at hrounded

/-! ## The number of a value -/

/-- Every magnitude has one form. -/
theorem eq_withSign_of_units_eq {y : Binary64} (h : x.units = y.units) :
    x = y.withSign x.negative := by
  -- a larger scale would leave a significand with more than 53 digits on the other side
  have hscale : ∀ {a b : Binary64}, a.units = b.units → b.scale ≤ a.scale := by
    intro a b heq
    by_contra hlt
    rw [not_le] at hlt
    obtain ⟨k, hk⟩ := Nat.exists_eq_add_of_lt hlt
    have hnormal : 0x10000000000000 ≤ b.significand := b.normal.resolve_left (by omega)
    have hsignificand : a.significand = b.significand * 2 ^ (k + 1) := by
      have hpow : b.scale = k + 1 + a.scale := by omega
      rw [units, units, Nat.pow_eq, Nat.pow_eq, hpow, pow_add, ← mul_assoc] at heq
      exact Nat.eq_of_mul_eq_mul_right (Nat.two_pow_pos _) heq
    have hdouble : 2 ≤ 2 ^ (k + 1) := Nat.le_self_pow (by omega) 2
    have hlarge := Nat.mul_le_mul hnormal hdouble
    have hlt := a.significand_lt
    omega
  have hsame : x.scale = y.scale := le_antisymm (hscale h.symm) (hscale h)
  have hsignificand : x.significand = y.significand := by
    rw [units, units, hsame] at h
    exact Nat.eq_of_mul_eq_mul_right (Nat.two_pow_pos _) h
  cases x
  cases y
  dsimp only at hsame hsignificand
  subst hsame hsignificand
  rfl

theorem units_eq_of_value_eq {y : Binary64} (h : x.value = y.value) : x.units = y.units := by
  have habs := congrArg abs h
  rw [abs_value, abs_value, div_left_inj' unitsPerOne_pos.ne'] at habs
  exact Nat.cast_injective habs

/-- Numbers with the same value are the same, but for the sign of a zero. -/
theorem eq_of_value_eq {y : Binary64} (h : x.value = y.value) (hx : x.isZero = false) : x = y := by
  have hunits := units_eq_of_value_eq h
  have hpos : (0 : ℚ) < x.units / unitsPerOne :=
    div_pos ((pow_pos two_pos _).trans_le (two_pow_scale_le_units hx)) unitsPerOne_pos
  have hsign : x.negative = y.negative := by
    rw [value, value, ← hunits] at h
    generalize (x.units : ℚ) / unitsPerOne = q at h hpos
    cases hxn : x.negative with
    | false =>
      cases hyn : y.negative with
      | false => rfl
      | true =>
        rw [hxn, hyn, signed, signed, if_neg Bool.false_ne_true, if_pos rfl] at h
        linarith
    | true =>
      cases hyn : y.negative with
      | false =>
        rw [hxn, hyn, signed, signed, if_pos rfl, if_neg Bool.false_ne_true] at h
        linarith
      | true => rfl
  rw [eq_withSign_of_units_eq hunits, hsign]
  rfl

end CardArchive.Binary64
