import CardArchive.Number.Decimal
import Mathlib.Algebra.Order.Field.Basic
import Mathlib.Data.Nat.Cast.Order.Field
import Mathlib.Data.Rat.Floor
import Mathlib.Tactic.FieldSimp
import Mathlib.Tactic.Linarith
import Mathlib.Tactic.NormNum
import Mathlib.Tactic.Positivity

/-!
# Rounding to binary64

`Binary64` computes with naturals: an operation forms its exact result as a fraction of units and
rounds once. Here those naturals are read as rationals. `IsNearest q x` says that no finite number is
nearer to `q` than `x` and that a tie has gone to the even significand; `Rounded q r` adds the
overflow rule, by which exactly the values from `2 ^ 1024 - 2 ^ 970` on have no finite result. The
main statement is `rounded_ofUnits`; the product and the quotient of integers are cases of it.

The argument is about magnitudes counted in units. A number of the scale that was chosen, or of a
larger one, is a multiple of that scale, and among multiples the integer rounding decides. A number
of a smaller scale lies below the binade of the exact value, and the lower end of that binade is a
multiple of the scale which is strictly nearer.
-/

namespace CardArchive.Binary64

/-! ## Values -/

/-- A magnitude with a sign in front. -/
def signed (negative : Bool) (q : ℚ) : ℚ := if negative then -q else q

/-- The rational number that a finite binary number stands for. -/
def value (x : Binary64) : ℚ := signed x.negative (x.units / unitsPerOne)

@[simp]
theorem abs_signed (negative : Bool) (q : ℚ) : |signed negative q| = |q| := by
  cases negative <;> simp [signed]

theorem cast_two_pow (k : Nat) : ((Nat.pow 2 k : Nat) : ℚ) = 2 ^ k := by
  rw [Nat.pow_eq, Nat.cast_pow, Nat.cast_ofNat]

theorem cast_unitsPerOne : (unitsPerOne : ℚ) = 2 ^ 1074 := by
  delta unitsPerOne
  generalize 1074 = k
  exact cast_two_pow k

theorem unitsPerOne_pos : (0 : ℚ) < unitsPerOne := by
  rw [cast_unitsPerOne]
  exact pow_pos two_pos _

theorem abs_value (x : Binary64) : |x.value| = x.units / unitsPerOne := by
  rw [value, abs_signed, abs_of_nonneg (div_nonneg (Nat.cast_nonneg _) (Nat.cast_nonneg _))]

@[simp]
theorem signed_zero (negative : Bool) : signed negative 0 = 0 := by
  cases negative <;> simp [signed]

theorem signed_mul_signed (a b : Bool) (p q : ℚ) :
    signed a p * signed b q = signed (a != b) (p * q) := by
  cases a <;> cases b <;> simp [signed]

theorem value_of_units_eq_zero {x : Binary64} (h : x.units = 0) : x.value = 0 := by
  rw [value, h, Nat.cast_zero, zero_div, signed_zero]

@[simp]
theorem zero_value (negative : Bool) : (zero negative).value = 0 :=
  value_of_units_eq_zero (Nat.zero_mul _)

/-- The distance of a number from a signed magnitude: the difference of the magnitudes when the signs
agree, their sum when not. -/
theorem abs_value_sub (x : Binary64) (negative : Bool) (u : ℚ) :
    |x.value - signed negative (u / unitsPerOne)| =
      (if x.negative = negative then |x.units - u| else |x.units + u|) / unitsPerOne := by
  have hO := unitsPerOne_pos
  have hdiv : ∀ a : ℚ, |a / unitsPerOne| = |a| / unitsPerOne := fun a => by
    rw [abs_div, abs_of_pos hO]
  cases hx : x.negative <;> cases negative <;> simp only [value, signed, hx, if_true, if_false,
    Bool.false_eq_true, reduceCtorEq]
  · rw [← sub_div, hdiv]
  · rw [sub_neg_eq_add, ← add_div, hdiv]
  · rw [← neg_add', abs_neg, ← add_div, hdiv]
  · rw [neg_sub_neg, ← sub_div, hdiv, abs_sub_comm]

/-! ## Correct rounding -/

/-- No finite number is nearer to `q` than `x`, and where another one is as near, `x` is the one with
the even significand. -/
structure IsNearest (q : ℚ) (x : Binary64) : Prop where
  /-- No number is nearer. -/
  le : ∀ y : Binary64, |x.value - q| ≤ |y.value - q|
  /-- A tie goes to the even significand. -/
  even_of_tie : ∀ y : Binary64, y.value ≠ x.value → |y.value - q| = |x.value - q| →
    x.significand % 2 = 0

/-- From this magnitude on rounding leads beyond the largest finite number. -/
def overflowBound : ℚ := 2 ^ 1024 - 2 ^ 970

/-- What rounding the exact value `q` once leaves. -/
inductive Rounded (q : ℚ) : Option Binary64 → Prop where
  | finite {x : Binary64} (below : |q| < overflowBound) (nearest : IsNearest q x) :
    Rounded q (some x)
  | overflow (above : overflowBound ≤ |q|) : Rounded q none

/-- Below the overflow bound rounding leaves a number. -/
theorem Rounded.exists_of_lt {q : ℚ} {r : Option Binary64} (h : Rounded q r)
    (hlt : |q| < overflowBound) : ∃ x, Rounded q (some x) := by
  cases h with
  | finite hbelow hx => exact ⟨_, .finite hbelow hx⟩
  | overflow habove => exact absurd hlt (not_lt.2 habove)

theorem Rounded.nearest {q : ℚ} {x : Binary64} (h : Rounded q (some x)) : IsNearest q x := by
  cases h with
  | finite _ hx => exact hx

/-- It is enough to compare magnitudes: a number of the other sign is never nearer than zero. -/
theorem IsNearest.of_units {x : Binary64} {u : ℚ} (hu : 0 ≤ u)
    (hle : ∀ y : Binary64, |(x.units : ℚ) - u| ≤ |(y.units : ℚ) - u|)
    (htie : ∀ y : Binary64, y.units ≠ x.units → |(y.units : ℚ) - u| = |(x.units : ℚ) - u| →
      x.significand % 2 = 0) :
    IsNearest (signed x.negative (u / unitsPerOne)) x := by
  have hO := unitsPerOne_pos
  have hx : |x.value - signed x.negative (u / unitsPerOne)| = |(x.units : ℚ) - u| / unitsPerOne := by
    rw [abs_value_sub, if_pos rfl]
  have hzero : |(x.units : ℚ) - u| ≤ u := by
    have h := hle (zero false)
    have h0 : ((zero false).units : ℚ) = 0 := by simp [units, zero]
    rwa [h0, zero_sub, abs_neg, abs_of_nonneg hu] at h
  constructor
  · intro y
    rw [hx, abs_value_sub]
    refine div_le_div_of_nonneg_right ?_ hO.le
    split
    · exact hle y
    · have hy : (0 : ℚ) ≤ y.units := Nat.cast_nonneg _
      rw [abs_of_nonneg (add_nonneg hy hu)]
      linarith
  · intro y hne heq
    rw [hx, abs_value_sub, div_left_inj' hO.ne'] at heq
    split at heq
    next hsign =>
      refine htie y (fun h => hne ?_) heq
      rw [value, value, hsign, h]
    next hsign =>
      -- the signs differ, so only a zero can be as near, and then zero itself is a tie
      have hy : (0 : ℚ) ≤ y.units := Nat.cast_nonneg _
      rw [abs_of_nonneg (add_nonneg hy hu)] at heq
      have hy0 : (y.units : ℚ) = 0 := by linarith
      refine htie y (fun h => hne ?_) ?_
      · have hzero : y.units = 0 := Nat.cast_eq_zero.1 hy0
        rw [value_of_units_eq_zero hzero, value_of_units_eq_zero (h ▸ hzero)]
      · rw [hy0, zero_sub, abs_neg, abs_of_nonneg hu]
        linarith

/-! ## Rounding to an integer -/

/-- The integer chosen, by where `n / d` lies between its neighbours. -/
theorem roundHalfEven_cases {n d : Nat} (hd : 0 < d) : ∃ f : ℚ, (n : ℚ) / d = (n / d : Nat) + f ∧
    (0 ≤ f ∧ f < 1 / 2 ∧ roundHalfEven n d = n / d ∨
      1 / 2 < f ∧ f < 1 ∧ roundHalfEven n d = n / d + 1 ∨
      f = 1 / 2 ∧ roundHalfEven n d = n / d + n / d % 2) := by
  have hd' : (0 : ℚ) < d := Nat.cast_pos.2 hd
  have hsplit : (n : ℚ) = d * (n / d : Nat) + (n % d : Nat) := by
    exact_mod_cast (Nat.div_add_mod n d).symm
  have hr : ((n % d : Nat) : ℚ) < d := Nat.cast_lt.2 (Nat.mod_lt n hd)
  refine ⟨(n % d : Nat) / d, ?_, ?_⟩
  · rw [div_eq_iff hd'.ne', add_mul, div_mul_cancel₀ _ hd'.ne', mul_comm]
    exact hsplit
  · unfold roundHalfEven
    dsimp only
    -- the remainder is less than half of the divisor, more than half, or half of it
    split
    next h =>
      have h' : (2 : ℚ) * (n % d : Nat) < d := by exact_mod_cast h
      refine Or.inl ⟨by positivity, ?_, rfl⟩
      rw [div_lt_iff₀ hd']
      linarith
    next h =>
      have h' : (d : ℚ) ≤ 2 * (n % d : Nat) := by exact_mod_cast not_lt.1 h
      split
      next h2 =>
        have h2' : (d : ℚ) < 2 * (n % d : Nat) := by exact_mod_cast h2
        refine Or.inr (Or.inl ⟨?_, (div_lt_one hd').2 hr, rfl⟩)
        rw [lt_div_iff₀ hd']
        linarith
      next h2 =>
        have h2' : (2 : ℚ) * (n % d : Nat) ≤ d := by exact_mod_cast not_lt.1 h2
        refine Or.inr (Or.inr ⟨?_, rfl⟩)
        rw [div_eq_iff hd'.ne']
        linarith

/-- The integer chosen is off by a half at most. -/
theorem abs_roundHalfEven_sub_le {n d : Nat} (hd : 0 < d) :
    |(roundHalfEven n d : ℚ) - n / d| ≤ 1 / 2 := by
  obtain ⟨f, hf, ⟨h0, h1, hm⟩ | ⟨h0, h1, hm⟩ | ⟨rfl, hm⟩⟩ := roundHalfEven_cases (n := n) hd <;>
    rw [hf, hm, abs_le] <;> push_cast
  · constructor <;> linarith
  · constructor <;> linarith
  · have h0 : (0 : ℚ) ≤ (n / d % 2 : Nat) := Nat.cast_nonneg _
    have h1 : ((n / d % 2 : Nat) : ℚ) ≤ 1 := by exact_mod_cast (by omega : n / d % 2 ≤ 1)
    constructor <;> linarith

/-- When it is off by exactly a half, it is even. -/
theorem roundHalfEven_even {n d : Nat} (hd : 0 < d)
    (h : |(roundHalfEven n d : ℚ) - n / d| = 1 / 2) : roundHalfEven n d % 2 = 0 := by
  obtain ⟨f, hf, ⟨h0, h1, hm⟩ | ⟨h0, h1, hm⟩ | ⟨rfl, hm⟩⟩ := roundHalfEven_cases (n := n) hd
  · rw [hf, hm, sub_add_cancel_left, abs_neg, abs_of_nonneg h0] at h
    exact absurd h h1.ne
  · rw [hf, hm, Nat.cast_add_one, add_sub_add_left_eq_sub, abs_of_pos (sub_pos.2 h1)] at h
    linarith
  · rw [hm]
    omega

/-- Next to an integer that is off by a half at most, any other one is off by at least a half. -/
theorem half_le_abs_sub {a : ℚ} {m k : Nat} (hm : |(m : ℚ) - a| ≤ 1 / 2) (hk : k ≠ m) :
    1 / 2 ≤ |(k : ℚ) - a| := by
  have hone : (1 : ℚ) ≤ |(k : ℚ) - m| := by
    have hne : (k : Int) - m ≠ 0 := sub_ne_zero.2 (Nat.cast_injective.ne hk)
    exact_mod_cast Int.one_le_abs hne
  have htri : |(k : ℚ) - m| ≤ |(k : ℚ) - a| + |(m : ℚ) - a| := by
    rw [abs_sub_comm (m : ℚ) a]
    exact abs_sub_le _ _ _
  linarith

/-! ## Rounding at a scale -/

/-- `m` counts the multiples of `2 ^ scale` nearest to `u` units, where the scale is the one of the
binade of `u`, or the least one. -/
structure Counts (u : ℚ) (scale m : Nat) : Prop where
  /-- It is off by half a multiple at most. -/
  half : |(m : ℚ) * 2 ^ scale - u| ≤ 2 ^ scale / 2
  /-- Off by exactly half a multiple, it is even. -/
  even : |(m : ℚ) * 2 ^ scale - u| = 2 ^ scale / 2 → m % 2 = 0
  /-- A scale that is not the least one is small enough to leave 53 digits. -/
  binade_le : scale ≠ 0 → 2 ^ (52 + scale) ≤ u

theorem Counts.scaleFor_roundHalfEven {n d : Nat} (hd : 0 < d) :
    Counts ((n : ℚ) / d) (scaleFor (n / d)) (roundHalfEven n (d * Nat.pow 2 (scaleFor (n / d)))) := by
  have hd' : (0 : ℚ) < d := Nat.cast_pos.2 hd
  generalize hs : scaleFor (n / d) = s
  have hp : (0 : ℚ) < 2 ^ s := pow_pos two_pos _
  have hden : 0 < d * Nat.pow 2 s := Nat.mul_pos hd (Nat.two_pow_pos _)
  have hcast : ((d * Nat.pow 2 s : Nat) : ℚ) = d * 2 ^ s := by rw [Nat.cast_mul, cast_two_pow]
  have hhalf := abs_roundHalfEven_sub_le (n := n) hden
  have heven := roundHalfEven_even (n := n) hden
  generalize roundHalfEven n (d * Nat.pow 2 s) = m at hhalf heven ⊢
  rw [hcast] at hhalf heven
  -- the error in units is the error in multiples of the scale, times the scale
  have hscale : |(m : ℚ) * 2 ^ s - n / d| = |(m : ℚ) - n / (d * 2 ^ s)| * 2 ^ s := by
    conv_rhs => rw [← abs_of_pos hp, ← abs_mul, abs_of_pos hp, sub_mul]
    rw [← div_div, div_mul_cancel₀ _ hp.ne']
  constructor
  · rw [hscale]
    linarith [mul_le_mul_of_nonneg_right hhalf hp.le]
  · intro h
    rw [hscale] at h
    refine heven (mul_right_cancel₀ hp.ne' ?_)
    linarith
  · intro h0
    have hlow : Nat.pow 2 (s + 52) ≤ n / d := by
      rw [← hs] at h0 ⊢
      exact two_pow_le_of_scaleFor h0
    rw [add_comm, ← cast_two_pow]
    exact (Nat.cast_le.2 hlow).trans Nat.cast_div_le

namespace Counts

variable {u : ℚ} {scale m : Nat}

/-- Any other multiple of the scale is off by at least half of it. -/
theorem half_le (h : Counts u scale m) {k : Nat} (hk : k ≠ m) :
    2 ^ scale / 2 ≤ |(k : ℚ) * 2 ^ scale - u| := by
  have hp : (0 : ℚ) < 2 ^ scale := pow_pos two_pos _
  have hdiv : ∀ j : Nat, |(j : ℚ) * 2 ^ scale - u| = |(j : ℚ) - u / 2 ^ scale| * 2 ^ scale := by
    intro j
    conv_rhs => rw [← abs_of_pos hp, ← abs_mul, abs_of_pos hp, sub_mul, div_mul_cancel₀ _ hp.ne']
  have hm : |(m : ℚ) - u / 2 ^ scale| ≤ 1 / 2 := by
    have := h.half
    rw [hdiv] at this
    exact le_of_mul_le_mul_right (by linarith) hp
  rw [hdiv]
  linarith [mul_le_mul_of_nonneg_right (half_le_abs_sub hm hk) hp.le]

/-- A number of a smaller scale lies below the binade, and so farther off. -/
theorem lt_of_scale_lt (h : Counts u scale m) {y : Binary64} (hy : y.scale < scale) :
    |(m : ℚ) * 2 ^ scale - u| < |(y.units : ℚ) - u| := by
  have hlow : (2 : ℚ) ^ (52 + scale) ≤ u := h.binade_le (by omega)
  have hbelow : (y.units : ℚ) < 2 ^ (52 + scale) := by
    have hunits : y.units < Nat.pow 2 (52 + scale) := by
      have hle : Nat.pow 2 (53 + y.scale) ≤ Nat.pow 2 (52 + scale) :=
        Nat.pow_le_pow_right two_pos (by omega)
      refine lt_of_lt_of_le ?_ hle
      rw [units, Nat.pow_eq, Nat.pow_eq, pow_add]
      exact Nat.mul_lt_mul_of_pos_right y.significand_lt (Nat.two_pow_pos _)
    rw [← cast_two_pow]
    exact Nat.cast_lt.2 hunits
  -- the lower end of the binade is a multiple of the scale
  have hend : |(m : ℚ) * 2 ^ scale - u| ≤ u - 2 ^ (52 + scale) := by
    have habs : |((2 ^ 52 : Nat) : ℚ) * 2 ^ scale - u| = u - 2 ^ (52 + scale) := by
      rw [Nat.cast_pow, Nat.cast_ofNat, ← pow_add, abs_sub_comm, abs_of_nonneg (sub_nonneg.2 hlow)]
    by_cases hk : 2 ^ 52 = m
    · rw [← hk, habs]
    · exact h.half.trans ((h.half_le hk).trans habs.le)
  have hfar : u - y.units ≤ |(y.units : ℚ) - u| := by
    rw [abs_sub_comm]
    exact le_abs_self _
  linarith

/-- A number of the scale or a larger one is a multiple of the scale. -/
theorem units_eq_mul {y : Binary64} (hy : scale ≤ y.scale) :
    (y.units : ℚ) = (y.significand * 2 ^ (y.scale - scale) : Nat) * 2 ^ scale := by
  rw [units, Nat.cast_mul, cast_two_pow, Nat.cast_mul, Nat.cast_pow, Nat.cast_ofNat, mul_assoc,
    ← pow_add, Nat.sub_add_cancel hy]

theorem isNearest (h : Counts u scale m) (hu : 0 ≤ u) {x : Binary64}
    (hx : (x.units : ℚ) = m * 2 ^ scale) (heven : m % 2 = 0 → x.significand % 2 = 0) :
    IsNearest (signed x.negative (u / unitsPerOne)) x := by
  refine IsNearest.of_units hu (fun y => ?_) (fun y hne heq => ?_)
  · rw [hx]
    by_cases hy : y.scale < scale
    · exact (h.lt_of_scale_lt hy).le
    · rw [units_eq_mul (not_lt.1 hy)]
      by_cases hk : y.significand * 2 ^ (y.scale - scale) = m
      · rw [hk]
      · exact h.half.trans (h.half_le hk)
  · rw [hx] at heq
    by_cases hy : y.scale < scale
    · exact absurd heq (h.lt_of_scale_lt hy).ne'
    · have hmul := units_eq_mul (not_lt.1 hy)
      have hk : y.significand * 2 ^ (y.scale - scale) ≠ m := by
        intro hk
        rw [hk, ← hx] at hmul
        exact hne (Nat.cast_injective hmul)
      have hfar := h.half_le hk
      rw [← hmul, heq] at hfar
      exact heven (h.even (le_antisymm h.half hfar))

end Counts

/-! ## Overflow -/

theorem two_pow_le_two_pow {a b : Nat} (h : a ≤ b) : (2 : ℚ) ^ a ≤ 2 ^ b :=
  pow_le_pow_right₀ one_le_two h

theorem two_pow_succ (k : Nat) : (2 : ℚ) ^ (k + 1) = 2 * 2 ^ k := pow_succ' 2 k

/-- The overflow bound counted in units: 54 ones and a tail of zeros. -/
def overflowUnits : ℚ := (2 ^ 54 - 1) * 2 ^ 2044

theorem overflowBound_mul_unitsPerOne : overflowBound * unitsPerOne = overflowUnits := by
  rw [overflowBound, overflowUnits, cast_unitsPerOne, sub_mul, ← pow_add, ← pow_add, sub_mul,
    ← pow_add, one_mul]

namespace Counts

variable {u : ℚ} {scale m : Nat}

/-- With 53 digits at a finite scale the value stays below the bound; at the bound itself the odd
largest significand would have been a tie. -/
theorem lt_overflow (h : Counts u scale m) (hm : m < 0x20000000000000) (hs : scale ≤ 2045) :
    u < overflowUnits := by
  have hp : (0 : ℚ) < 2 ^ scale := pow_pos two_pos _
  have hscale : (2 : ℚ) ^ scale ≤ 2 * 2 ^ 2044 := by
    rw [← two_pow_succ]
    exact two_pow_le_two_pow hs
  have hup : u ≤ (m + 1 / 2) * 2 ^ scale := by
    linarith [(abs_le.1 h.half).1]
  have hlt : u < (0x1fffffffffffff + 1 / 2) * 2 ^ scale := by
    by_cases hodd : m = 0x1fffffffffffff
    · refine lt_of_le_of_ne (by rw [hodd] at hup; exact_mod_cast hup) fun heq => ?_
      have heven := h.even (by
        rw [heq, hodd, abs_of_nonpos] <;> push_cast <;> linarith)
      omega
    · have hm' : (m : ℚ) + 1 ≤ 0x1fffffffffffff := by exact_mod_cast (by omega : m + 1 ≤ _)
      refine hup.trans_lt (mul_lt_mul_of_pos_right ?_ hp)
      linarith
  rw [overflowUnits]
  generalize (2 : ℚ) ^ 2044 = top at hscale ⊢
  linarith

/-- A carry into one more digit stays below the bound unless it leaves the last scale. -/
theorem lt_overflow_of_carry (h : Counts u scale 0x20000000000000) (hs : scale ≤ 2044) :
    u < overflowUnits := by
  have hp : (0 : ℚ) < 2 ^ scale := pow_pos two_pos _
  have hscale : (2 : ℚ) ^ scale ≤ 2 ^ 2044 := two_pow_le_two_pow hs
  have hup := (abs_le.1 h.half).1
  rw [overflowUnits]
  generalize (2 : ℚ) ^ 2044 = top at hscale ⊢
  push_cast at hup
  linarith

theorem overflow_le (h : Counts u scale m) (hs : 2045 < scale) : overflowUnits ≤ u := by
  have hp : (0 : ℚ) < 2 ^ 2044 := pow_pos two_pos _
  have hlow : (2 : ℚ) ^ (54 + 2044) ≤ u :=
    (two_pow_le_two_pow (by omega)).trans (h.binade_le (by omega))
  rw [pow_add] at hlow
  rw [overflowUnits]
  generalize (2 : ℚ) ^ 2044 = top at hp hlow ⊢
  linarith

theorem overflow_le_of_carry (h : Counts u scale 0x20000000000000) (hs : 2045 ≤ scale) :
    overflowUnits ≤ u := by
  have hscale : 2 * (2 : ℚ) ^ 2044 ≤ 2 ^ scale := by
    rw [← two_pow_succ]
    exact two_pow_le_two_pow hs
  have hlow := (abs_le.1 h.half).2
  rw [overflowUnits]
  generalize (2 : ℚ) ^ 2044 = top at hscale ⊢
  push_cast at hlow
  linarith

end Counts

/-! ## What the operations compute -/

/-- A fraction of units becomes the number that counts it, unless it overflows. -/
theorem ofUnits_cases (negative : Bool) (n : Nat) {d : Nat} (hd : 0 < d) :
    ∃ scale m, Counts ((n : ℚ) / d) scale m ∧
      ((∃ x, ofUnits negative n d = some x ∧ x.negative = negative ∧
          (x.units : ℚ) = m * 2 ^ scale ∧ (m % 2 = 0 → x.significand % 2 = 0) ∧
          (n : ℚ) / d < overflowUnits) ∨
        ofUnits negative n d = none ∧ overflowUnits ≤ (n : ℚ) / d) := by
  have hcounts := Counts.scaleFor_roundHalfEven (n := n) hd
  refine ⟨_, _, hcounts, ?_⟩
  rw [ofUnits, dif_pos hd]
  dsimp only
  split
  next hm =>
    split
    next hs =>
      refine Or.inl ⟨_, rfl, rfl, ?_, id, hcounts.lt_overflow hm hs⟩
      rw [units, Nat.cast_mul, cast_two_pow]
    next hs => exact Or.inr ⟨rfl, hcounts.overflow_le (not_le.1 hs)⟩
  next hm =>
    -- rounding has carried into one more digit, so the number is the least of the next binade
    have hcarry : roundHalfEven n (d * Nat.pow 2 (scaleFor (n / d))) = 0x20000000000000 :=
      le_antisymm (roundHalfEven_le n d) (not_lt.1 hm)
    rw [hcarry] at hcounts ⊢
    split
    next hs =>
      refine Or.inl ⟨_, rfl, rfl, ?_, fun _ => Nat.mod_eq_zero_of_dvd ⟨0x8000000000000, rfl⟩,
        hcounts.lt_overflow_of_carry (by omega)⟩
      rw [units, Nat.cast_mul, cast_two_pow, two_pow_succ, ← mul_assoc]
      norm_num
    next hs => exact Or.inr ⟨rfl, hcounts.overflow_le_of_carry (by omega)⟩

/-- A fraction of units is rounded correctly. -/
theorem rounded_ofUnits (negative : Bool) (n d : Nat) (hd : 0 < d) :
    Rounded (signed negative ((n : ℚ) / d / unitsPerOne)) (ofUnits negative n d) := by
  have hO := unitsPerOne_pos
  have hu : (0 : ℚ) ≤ (n : ℚ) / d := div_nonneg (Nat.cast_nonneg n) (Nat.cast_nonneg d)
  have habs : |signed negative ((n : ℚ) / d / unitsPerOne)| = (n : ℚ) / d / unitsPerOne := by
    rw [abs_signed, abs_of_nonneg (div_nonneg hu hO.le)]
  obtain ⟨scale, m, hcounts, ⟨x, hx, rfl, hunits, heven, hlt⟩ | ⟨hx, hle⟩⟩ :=
    ofUnits_cases negative n hd
  · rw [hx]
    refine .finite ?_ (hcounts.isNearest hu hunits heven)
    rwa [habs, div_lt_iff₀ hO, overflowBound_mul_unitsPerOne]
  · rw [hx]
    refine .overflow ?_
    rwa [habs, le_div_iff₀ hO, overflowBound_mul_unitsPerOne]

/-- A fraction is rounded correctly. -/
theorem rounded_ofRatio (negative : Bool) (n : Nat) {d : Nat} (hd : 0 < d) :
    Rounded (signed negative ((n : ℚ) / d)) (ofRatio negative n d) := by
  have h := rounded_ofUnits negative (n * unitsPerOne) d hd
  rw [Nat.cast_mul, div_div, mul_div_mul_right _ _ unitsPerOne_pos.ne'] at h
  rw [ofRatio]
  exact h

/-- A product is rounded correctly, once. -/
theorem rounded_mul (x y : Binary64) : Rounded (x.value * y.value) (x.mul y) := by
  have hO : 0 < unitsPerOne := by exact_mod_cast unitsPerOne_pos
  have h := rounded_ofUnits (x.negative != y.negative) (x.units * y.units) unitsPerOne hO
  have hvalue : x.value * y.value = signed (x.negative != y.negative)
      (((x.units * y.units : Nat) : ℚ) / unitsPerOne / unitsPerOne) := by
    rw [Nat.cast_mul, div_div, ← div_mul_div_comm, ← signed_mul_signed]
    rfl
  rw [hvalue]
  exact h

/-! ## There is one result -/

/-- The significand after an even one belongs to a number of the same scale. -/
def next (x : Binary64) (h : x.significand % 2 = 0) : Binary64 where
  negative := x.negative
  significand := x.significand + 1
  scale := x.scale
  significand_lt := by have := x.significand_lt; omega
  scale_le := x.scale_le
  normal := x.normal.imp_right Nat.le_succ_of_le

/-- A magnitude above one with an even significand is at least two steps above when its own
significand is even, too. -/
theorem units_next_lt {x y : Binary64} (hlt : x.units < y.units) (hx : x.significand % 2 = 0)
    (hy : y.significand % 2 = 0) : (x.next hx).units < y.units := by
  have hunits : ∀ z : Binary64, z.units = z.significand * 2 ^ z.scale := fun z => by
    rw [units, Nat.pow_eq]
  rw [hunits, hunits] at hlt ⊢
  change (x.significand + 1) * 2 ^ x.scale < _
  by_cases hscale : x.scale ≤ y.scale
  · obtain ⟨k, hk⟩ := Nat.exists_eq_add_of_le hscale
    rw [hk, pow_add, mul_comm (2 ^ x.scale), ← mul_assoc] at hlt ⊢
    have hfewer : x.significand < y.significand * 2 ^ k := Nat.lt_of_mul_lt_mul_right hlt
    have heven : y.significand * 2 ^ k % 2 = 0 := by rw [Nat.mul_mod, hy, Nat.zero_mul, Nat.zero_mod]
    exact Nat.mul_lt_mul_of_pos_right (by omega) (Nat.two_pow_pos _)
  · -- a smaller scale means a smaller binade, and so a smaller magnitude
    exfalso
    have hnormal : 2 ^ 52 ≤ x.significand := x.normal.resolve_left (by omega)
    have hbinade : (2 : Nat) ^ (53 + y.scale) ≤ 2 ^ (52 + x.scale) :=
      Nat.pow_le_pow_right two_pos (by omega)
    rw [pow_add, pow_add] at hbinade
    have hbelow : y.significand * 2 ^ y.scale < 2 ^ 53 * 2 ^ y.scale :=
      Nat.mul_lt_mul_of_pos_right y.significand_lt (Nat.two_pow_pos _)
    have habove : 2 ^ 52 * 2 ^ x.scale ≤ x.significand * 2 ^ x.scale := Nat.mul_le_mul_right _ hnormal
    omega

/-- Between two numbers with even significands lies another one. -/
theorem exists_value_between {x y : Binary64} (hlt : x.value < y.value)
    (hx : x.significand % 2 = 0) (hy : y.significand % 2 = 0) :
    ∃ z : Binary64, x.value < z.value ∧ z.value < y.value := by
  have hO := unitsPerOne_pos
  have hless : ∀ {a b : Nat}, (a : ℚ) / unitsPerOne < b / unitsPerOne ↔ a < b := fun {a b} => by
    rw [div_lt_div_iff_of_pos_right hO, Nat.cast_lt]
  have hstep : ∀ (w : Binary64) (h : w.significand % 2 = 0), w.units < (w.next h).units :=
    fun w h => Nat.mul_lt_mul_of_pos_right (Nat.lt_succ_self _) (Nat.two_pow_pos _)
  by_cases hxneg : x.value < 0
  · by_cases hypos : 0 < y.value
    · exact ⟨zero false, by rwa [zero_value], by rwa [zero_value]⟩
    · -- both are negative or zero, so the next one above in magnitude is next below
      have hxvalue : x.value = -(x.units / unitsPerOne) := by
        rw [← abs_value, abs_of_neg hxneg, neg_neg]
      have hyvalue : y.value = -(y.units / unitsPerOne) := by
        rw [← abs_value, abs_of_nonpos (not_lt.1 hypos), neg_neg]
      have hz : ((y.next hy).withSign true).value = -((y.next hy).units / unitsPerOne) := rfl
      rw [hxvalue, hyvalue, neg_lt_neg_iff, hless] at hlt
      refine ⟨(y.next hy).withSign true, ?_, ?_⟩
      · rw [hxvalue, hz, neg_lt_neg_iff, hless]
        exact units_next_lt hlt hy hx
      · rw [hyvalue, hz, neg_lt_neg_iff, hless]
        exact hstep y hy
  · have hxnonneg : 0 ≤ x.value := not_lt.1 hxneg
    have hxvalue : x.value = x.units / unitsPerOne := by rw [← abs_value, abs_of_nonneg hxnonneg]
    have hyvalue : y.value = y.units / unitsPerOne := by
      rw [← abs_value, abs_of_pos (hxnonneg.trans_lt hlt)]
    have hz : ((x.next hx).withSign false).value = (x.next hx).units / unitsPerOne := rfl
    rw [hxvalue, hyvalue, hless] at hlt
    refine ⟨(x.next hx).withSign false, ?_, ?_⟩
    · rw [hxvalue, hz, hless]
      exact hstep x hx
    · rw [hyvalue, hz, hless]
      exact units_next_lt hlt hx hy

/-- The value that a result of rounding stands for is determined. -/
theorem IsNearest.value_eq {q : ℚ} {x y : Binary64} (hx : IsNearest q x) (hy : IsNearest q y) :
    x.value = y.value := by
  by_contra hne
  have htie : |x.value - q| = |y.value - q| := le_antisymm (hx.le y) (hy.le x)
  have hxeven := hx.even_of_tie y (Ne.symm hne) htie.symm
  have hyeven := hy.even_of_tie x hne htie
  wlog hlt : x.value < y.value generalizing x y
  · have hgt : y.value < x.value := lt_of_le_of_ne (not_lt.1 hlt) (Ne.symm hne)
    exact this hy hx (Ne.symm hne) htie.symm hyeven hxeven hgt
  -- a number between the two would be nearer
  obtain ⟨z, hxz, hzy⟩ := exists_value_between hlt hxeven hyeven
  rcases abs_eq_abs.1 htie with hsame | hmiddle
  · exact hne (sub_left_injective hsame)
  · refine absurd (hx.le z) (not_le.2 ?_)
    rw [abs_of_neg (by linarith : x.value - q < 0), abs_lt]
    constructor <;> linarith

/-- Rounding either always overflows or always leaves the same value. -/
theorem Rounded.map_value_eq {q : ℚ} {a b : Option Binary64} (ha : Rounded q a)
    (hb : Rounded q b) : a.map value = b.map value := by
  cases ha with
  | finite hbelow hx =>
    cases hb with
    | finite _ hy => rw [Option.map_some, Option.map_some, hx.value_eq hy]
    | overflow habove => exact absurd hbelow (not_lt.2 habove)
  | overflow habove =>
    cases hb with
    | finite hbelow _ => exact absurd hbelow (not_lt.2 habove)
    | overflow _ => rfl

/-! ## Rounding to integers -/

/-- The integer nearest to `q`; of two equally near ones the one farther from zero. -/
def roundHalfAway (q : ℚ) : Int := if q < 0 then -⌊-q + 1 / 2⌋ else ⌊q + 1 / 2⌋

/-- Less than a half away from an integer, that integer is the nearest. -/
theorem roundHalfAway_eq {q : ℚ} {n : Int} (h : |q - n| < 1 / 2) : roundHalfAway q = n := by
  obtain ⟨hlow, hhigh⟩ := abs_lt.1 h
  unfold roundHalfAway
  split
  · rw [neg_eq_iff_eq_neg, Int.floor_eq_iff, Int.cast_neg]
    constructor <;> linarith
  · rw [Int.floor_eq_iff]
    constructor <;> linarith

theorem roundHalfAway_intCast (n : Int) : roundHalfAway n = n :=
  roundHalfAway_eq (by rw [sub_self, abs_zero]; exact one_half_pos)

/-- It is off by a half at most. -/
theorem abs_roundHalfAway_sub_le (q : ℚ) : |(roundHalfAway q : ℚ) - q| ≤ 1 / 2 := by
  rw [abs_le, roundHalfAway]
  split
  · have hlow := Int.floor_le (-q + 1 / 2)
    have hhigh := Int.lt_floor_add_one (-q + 1 / 2)
    rw [Int.cast_neg]
    constructor <;> linarith
  · have hlow := Int.floor_le (q + 1 / 2)
    have hhigh := Int.lt_floor_add_one (q + 1 / 2)
    constructor <;> linarith

/-- The magnitude is rounded, and the sign put back. -/
theorem roundHalfAway_signed (negative : Bool) {q : ℚ} (hq : 0 ≤ q) :
    roundHalfAway (signed negative q) = if negative then -⌊q + 1 / 2⌋ else ⌊q + 1 / 2⌋ := by
  cases negative with
  | false => rw [signed, if_neg Bool.false_ne_true, if_neg Bool.false_ne_true, roundHalfAway,
      if_neg (not_lt.2 hq)]
  | true =>
    rw [signed, if_pos rfl, if_pos rfl, roundHalfAway]
    split
    · rw [neg_neg]
    next h =>
      have hzero : q = 0 := le_antisymm (by linarith) hq
      have hhalf : ⌊(0 : ℚ) + 1 / 2⌋ = 0 := by norm_num
      rw [hzero, neg_zero, hhalf, neg_zero]

theorem round_eq (x : Binary64) : x.round = roundHalfAway x.value := by
  have hO := unitsPerOne_pos
  have hfloor : (((2 * x.units + unitsPerOne) / (2 * unitsPerOne) : Nat) : Int) =
      ⌊(x.units : ℚ) / unitsPerOne + 1 / 2⌋ := by
    have hsplit : (x.units : ℚ) / unitsPerOne + 1 / 2 =
        ((2 * x.units + unitsPerOne : Nat) : ℚ) / ((2 * unitsPerOne : Nat) : ℚ) := by
      push_cast
      field_simp
    rw [hsplit, Rat.floor_natCast_div_natCast, Int.natCast_ediv]
  rw [value, roundHalfAway_signed _ (div_nonneg (Nat.cast_nonneg _) hO.le), round, hfloor]

/-! ## Far out -/

theorem two_pow_le_overflowBound {k : Nat} (hk : k ≤ 970) : (2 : ℚ) ^ k ≤ overflowBound := by
  have hpow : (2 : ℚ) ^ k ≤ 2 ^ 970 := two_pow_le_two_pow hk
  have hdouble : 2 * (2 : ℚ) ^ 970 ≤ 2 ^ 1024 := by
    rw [← two_pow_succ]
    exact two_pow_le_two_pow (by omega)
  rw [overflowBound]
  generalize (2 : ℚ) ^ 970 = a at hpow hdouble ⊢
  generalize (2 : ℚ) ^ 1024 = b at hdouble ⊢
  linarith

theorem one_le_overflowBound : 1 ≤ overflowBound := by
  have h := two_pow_le_overflowBound (Nat.zero_le 970)
  rwa [pow_zero] at h

/-- A power of ten that passes every finite number, and the fineness of the units. -/
theorem two_pow_le_ten_pow {k : Nat} (hk : k ≤ 1200) : (2 : ℚ) ^ k ≤ 10 ^ 400 := by
  have hcube : ((2 : ℚ) ^ 3) ^ 400 ≤ 10 ^ 400 := pow_le_pow_left₀ (by norm_num) (by norm_num) _
  rw [← pow_mul] at hcube
  exact (two_pow_le_two_pow hk).trans hcube

theorem overflowBound_le_ten_pow {k : Nat} (hk : 400 ≤ k) : overflowBound ≤ 10 ^ k :=
  calc overflowBound ≤ (2 : ℚ) ^ 1024 := sub_le_self _ (pow_nonneg two_pos.le _)
    _ ≤ 10 ^ 400 := two_pow_le_ten_pow (by omega)
    _ ≤ 10 ^ k := pow_le_pow_right₀ (by norm_num) hk

theorem two_mul_unitsPerOne_le : 2 * (unitsPerOne : ℚ) ≤ 10 ^ 400 := by
  rw [cast_unitsPerOne, ← two_pow_succ]
  exact two_pow_le_ten_pow (by omega)

/-- Below half a unit zero is the nearest number. -/
theorem IsNearest.zero_of_lt {q : ℚ} (h : 2 * |q| * unitsPerOne < 1) (negative : Bool) :
    IsNearest q (zero negative) := by
  have hO := unitsPerOne_pos
  -- any other number is at least one unit away from zero, and the value is less than half of one
  have hfar : ∀ y : Binary64, y.value ≠ 0 → |q| < |y.value - q| := by
    intro y hy
    have hunits : (1 : ℚ) ≤ y.units := by
      have h0 : y.units ≠ 0 := fun h0 => hy (value_of_units_eq_zero h0)
      exact_mod_cast Nat.one_le_iff_ne_zero.2 h0
    have hvalue : 2 * |q| < |y.value| := by
      rw [abs_value, lt_div_iff₀ hO]
      linarith
    have htri : |y.value| - |q| ≤ |y.value - q| := abs_sub_abs_le_abs_sub _ _
    linarith
  constructor
  · intro y
    rw [zero_value, zero_sub, abs_neg]
    by_cases hy : y.value = 0
    · rw [hy, zero_sub, abs_neg]
    · exact (hfar y hy).le
  · intro y hne heq
    rw [zero_value] at hne heq
    rw [zero_sub, abs_neg] at heq
    exact absurd heq (hfar y hne).ne'

/-! ## Relative error -/

/-- A value that is no subnormal is off by at most one part in `2 ^ 53`. -/
theorem Counts.abs_sub_le {u : ℚ} {scale m : Nat} (h : Counts u scale m) (hu : 2 ^ 52 ≤ u) :
    |(m : ℚ) * 2 ^ scale - u| ≤ u / 2 ^ 53 := by
  refine h.half.trans ?_
  have hbinade : (2 : ℚ) ^ (52 + scale) ≤ u := by
    by_cases h0 : scale = 0
    · rwa [h0]
    · exact h.binade_le h0
  rw [pow_add] at hbinade
  linarith

theorem signed_abs (q : ℚ) : signed (decide (q < 0)) |q| = q := by
  by_cases h : q < 0
  · simp [signed, h, abs_of_neg h]
  · simp [signed, h, abs_of_nonneg (not_lt.1 h)]

theorem natAbs_num_div_den (q : ℚ) : (q.num.natAbs : ℚ) / q.den = |q| := by
  have hden : (0 : ℚ) < q.den := Nat.cast_pos.2 q.den_pos
  rw [Nat.cast_natAbs, Int.cast_abs, ← abs_of_pos hden, ← abs_div, Rat.num_div_den]

/-- A value below the overflow bound that is no subnormal has a number at most one part in `2 ^ 53`
off. -/
theorem exists_abs_sub_le {q : ℚ} (hlow : 1 / 2 ^ 1022 ≤ |q|) (hup : |q| < overflowBound) :
    ∃ x : Binary64, |x.value - q| ≤ |q| / 2 ^ 53 := by
  have hO := unitsPerOne_pos
  have hu : ((q.num.natAbs * unitsPerOne : Nat) : ℚ) / q.den = |q| * unitsPerOne := by
    rw [Nat.cast_mul, mul_div_right_comm, natAbs_num_div_den]
  have hnormal : (2 : ℚ) ^ 52 ≤ |q| * unitsPerOne := by
    have h : 1 ≤ |q| * 2 ^ 1022 := (div_le_iff₀ (pow_pos two_pos _)).1 hlow
    rw [cast_unitsPerOne, pow_add 2 1022 52, ← mul_assoc]
    exact le_mul_of_one_le_left (pow_nonneg two_pos.le _) h
  obtain ⟨scale, m, hcounts, ⟨x, hx, hneg, hunits, heven, hlt⟩ | ⟨hx, hle⟩⟩ :=
    ofUnits_cases (decide (q < 0)) (q.num.natAbs * unitsPerOne) q.den_pos
  · rw [hu] at hcounts
    have hq : q = signed (decide (q < 0)) (|q| * unitsPerOne / unitsPerOne) := by
      rw [mul_div_cancel_right₀ _ hO.ne', signed_abs]
    have herror := hcounts.abs_sub_le hnormal
    refine ⟨x, ?_⟩
    conv_lhs => rw [hq]
    rw [abs_value_sub, if_pos hneg, hunits, div_le_iff₀ hO]
    linarith
  · rw [hu, ← overflowBound_mul_unitsPerOne] at hle
    exact absurd hup (not_lt.2 (le_of_mul_le_mul_right hle hO))

/-- Rounding zero, or a value that is no subnormal, is off by at most one part in `2 ^ 53`. -/
theorem IsNearest.abs_sub_le {q : ℚ} {x : Binary64} (h : IsNearest q x)
    (hlow : q = 0 ∨ 1 / 2 ^ 1022 ≤ |q|) (hup : |q| < overflowBound) :
    |x.value - q| ≤ |q| / 2 ^ 53 := by
  obtain rfl | hlow := hlow
  · have hzero := h.le (zero false)
    rw [zero_value, sub_zero, sub_zero, abs_zero] at hzero
    rw [abs_zero, zero_div, sub_zero]
    exact hzero
  · obtain ⟨y, hy⟩ := exists_abs_sub_le hlow hup
    exact (h.le y).trans hy

end CardArchive.Binary64
