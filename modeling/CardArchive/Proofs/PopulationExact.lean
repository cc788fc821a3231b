import CardArchive.Proofs.PopulationWords

/-!
# Populations are exact

A population is rounded three times: the literal to a binary number, the product with the power of
ten to another, and that one to an integer. Where the exact population is an integer below `2 ^ 51`
the first two roundings together stay less than a half away from it (`abs_product_sub_lt`), so that
the last one finds it again. In general the population is the rounded product itself, and the range
of the integer is the range of the product: a number of `2 ^ 52` or more is an integer already, so
that rounding moves none across the bounds (`inRange_iff`).
-/

namespace CardArchive

namespace Population

open Text Binary64

/-! ## Two roundings -/

section Product

variable {X : ℚ} {N : Int} {exponent : Nat} {x y : Binary64}

theorem ten_pow_le (h : exponent ≤ 9) : (10 : ℚ) ^ exponent ≤ 2 ^ 1022 :=
  calc (10 : ℚ) ^ exponent ≤ 10 ^ 9 := pow_le_pow_right₀ (by norm_num) h
    _ ≤ 2 ^ 30 := by norm_num
    _ ≤ 2 ^ 1022 := two_pow_le_two_pow (by omega)

/-- The literal is far from the subnormal numbers, unless it is zero. -/
theorem normal_of_integer (he : exponent ≤ 9) (hN : X * 10 ^ exponent = N) :
    X = 0 ∨ 1 / 2 ^ 1022 ≤ |X| := by
  by_cases h0 : N = 0
  · rw [h0, Int.cast_zero] at hN
    exact Or.inl ((mul_eq_zero.1 hN).resolve_right (pow_ne_zero _ (by norm_num)))
  · have hten : (0 : ℚ) < 10 ^ exponent := pow_pos (by norm_num) _
    have hone : (1 : ℚ) ≤ |X| * 10 ^ exponent := by
      rw [← abs_of_pos hten, ← abs_mul, hN]
      exact_mod_cast Int.one_le_abs h0
    refine Or.inr ?_
    rw [div_le_iff₀ (pow_pos two_pos _)]
    exact hone.trans (mul_le_mul_of_nonneg_left (ten_pow_le he) (abs_nonneg X))

theorem abs_lt_overflowBound (hN : X * 10 ^ exponent = N) (hlt : |N| < 2 ^ 51) :
    |X| < overflowBound := by
  have hten : (1 : ℚ) ≤ 10 ^ exponent := one_le_pow₀ (by norm_num)
  have hle : |X| ≤ |(N : ℚ)| := by
    rw [← hN, abs_mul, abs_of_pos (one_pos.trans_le hten)]
    exact le_mul_of_one_le_right (abs_nonneg X) hten
  have hlt' : |(N : ℚ)| < 2 ^ 51 := by exact_mod_cast hlt
  exact (hle.trans_lt hlt').trans_le (two_pow_le_overflowBound (by omega))

/-- The first rounding, seen through the scaling. -/
theorem abs_scaled_sub_le (he : exponent ≤ 9) (hN : X * 10 ^ exponent = N) (hlt : |N| < 2 ^ 51)
    (hx : IsNearest X x) : |x.value * 10 ^ exponent - N| ≤ |(N : ℚ)| / 2 ^ 53 := by
  have hten : (0 : ℚ) < 10 ^ exponent := pow_pos (by norm_num) _
  have hclose := hx.abs_sub_le (normal_of_integer he hN) (abs_lt_overflowBound hN hlt)
  rw [← hN, ← sub_mul, abs_mul, abs_mul, abs_of_pos hten, mul_div_right_comm]
  exact mul_le_mul_of_nonneg_right hclose hten.le

/-- What is that near to an integer is no subnormal number, either. -/
theorem normal_of_abs_sub_le {P : ℚ} (h : |P - N| ≤ |(N : ℚ)| / 2 ^ 53) :
    P = 0 ∨ 1 / 2 ^ 1022 ≤ |P| := by
  by_cases h0 : N = 0
  · rw [h0, Int.cast_zero, sub_zero, abs_zero, zero_div] at h
    exact Or.inl (abs_eq_zero.1 (le_antisymm h (abs_nonneg P)))
  · have hone : (1 : ℚ) ≤ |(N : ℚ)| := by exact_mod_cast Int.one_le_abs h0
    have hbelow := abs_sub_abs_le_abs_sub (N : ℚ) P
    rw [abs_sub_comm] at hbelow
    have htwo : (2 : ℚ) ^ 1 ≤ 2 ^ 1022 := two_pow_le_two_pow (by omega)
    refine Or.inr ((one_div_le_one_div_of_le (pow_pos two_pos 1) htwo).trans ?_)
    linarith

theorem abs_intCast_le (hlt : |N| < 2 ^ 51) : |(N : ℚ)| ≤ 2 ^ 51 - 1 := by
  have h : |N| ≤ 2 ^ 51 - 1 := by omega
  exact_mod_cast h

theorem abs_scaled_lt_overflowBound (he : exponent ≤ 9) (hN : X * 10 ^ exponent = N)
    (hlt : |N| < 2 ^ 51) (hx : IsNearest X x) : |x.value * 10 ^ exponent| < overflowBound := by
  have hscaled := abs_scaled_sub_le he hN hlt hx
  have hbound := abs_intCast_le hlt
  have habove := abs_sub_abs_le_abs_sub (x.value * 10 ^ exponent) (N : ℚ)
  have hsmall : |x.value * 10 ^ exponent| < 2 ^ 52 := by linarith
  exact hsmall.trans_le (two_pow_le_overflowBound (by omega))

/-- Both roundings together stay less than a half away. -/
theorem abs_product_sub_lt (he : exponent ≤ 9) (hN : X * 10 ^ exponent = N) (hlt : |N| < 2 ^ 51)
    (hx : IsNearest X x) (hy : IsNearest (x.value * 10 ^ exponent) y) :
    |y.value - N| < 1 / 2 := by
  have hscaled := abs_scaled_sub_le he hN hlt hx
  have hbound := abs_intCast_le hlt
  have habove := abs_sub_abs_le_abs_sub (x.value * 10 ^ exponent) (N : ℚ)
  have hclose := hy.abs_sub_le (normal_of_abs_sub_le hscaled)
    (abs_scaled_lt_overflowBound he hN hlt hx)
  have htri := abs_sub_le y.value (x.value * 10 ^ exponent) (N : ℚ)
  linarith

end Product

/-! ## The range -/

/-- A number is an integer, or small enough to be far from the bounds. -/
theorem exists_intCast_or_abs_lt (y : Binary64) :
    (∃ n : Int, y.value = n) ∨ |y.value| < 2 ^ 52 := by
  have hO := unitsPerOne_pos
  by_cases hscale : 1074 ≤ y.scale
  · left
    have hvalue : (y.units : ℚ) / unitsPerOne =
        ((y.significand * 2 ^ (y.scale - 1074) : Nat) : ℚ) := by
      rw [div_eq_iff hO.ne', cast_unitsPerOne, Counts.units_eq_mul hscale]
    rw [value, hvalue]
    cases y.negative with
    | false => exact ⟨(y.significand * 2 ^ (y.scale - 1074) : Nat), rfl⟩
    | true => exact ⟨-(y.significand * 2 ^ (y.scale - 1074) : Nat), by rw [Int.cast_neg]; rfl⟩
  · right
    have hdigits : (y.significand : ℚ) < 2 ^ 53 := by exact_mod_cast y.significand_lt
    have hpow : (2 : ℚ) ^ y.scale ≤ 2 ^ 1073 := two_pow_le_two_pow (by omega)
    have hunits : (y.units : ℚ) = y.significand * 2 ^ y.scale := by
      rw [units, Nat.cast_mul, cast_two_pow]
    rw [abs_value, div_lt_iff₀ hO, hunits, cast_unitsPerOne, ← pow_add]
    calc (y.significand : ℚ) * 2 ^ y.scale < 2 ^ 53 * 2 ^ y.scale :=
          mul_lt_mul_of_pos_right hdigits (pow_pos two_pos _)
      _ ≤ 2 ^ 53 * 2 ^ 1073 := mul_le_mul_of_nonneg_left hpow (pow_nonneg two_pos.le _)
      _ = 2 ^ (52 + 1074) := by rw [← pow_add]

theorem inRange_iff (y : Binary64) :
    InRange (roundHalfAway y.value) ↔ -2 ^ 63 ≤ y.value ∧ y.value < 2 ^ 63 := by
  rcases exists_intCast_or_abs_lt y with ⟨n, hn⟩ | hsmall
  · rw [hn, roundHalfAway_intCast, InRange]
    norm_num
    refine and_congr ?_ ?_ <;> norm_cast
  · obtain ⟨hlow, hhigh⟩ := abs_lt.1 hsmall
    have hclose := abs_le.1 (abs_roundHalfAway_sub_le y.value)
    have hint : (-0x8000000000000000 : ℚ) ≤ roundHalfAway y.value ∧
        (roundHalfAway y.value : ℚ) < 0x8000000000000000 := by
      constructor <;> linarith
    refine iff_of_true ⟨by exact_mod_cast hint.1, by exact_mod_cast hint.2⟩ ?_
    constructor <;> linarith

/-! ## Texts -/

/-- How a magnitude goes on to its unit, with the power of ten. -/
inductive UnitText : List Char → Nat → Prop where
  | b : UnitText " b".toList 9
  | billion : UnitText " billion".toList 9
  | bTag : UnitText "b Population".toList 9
  | m : UnitText " m".toList 6
  | million : UnitText " million".toList 6
  | mTag : UnitText "m Population".toList 6

theorem isWord_text (l : Literal) : IsWord l.text := by
  constructor
  · intro hnil
    have hread := Decimal.read?_text l
    rw [hnil] at hread
    cases hread
  · intro c hc
    rcases Literal.mem_text hc with hdigit | hmark
    · exact isBlank_of_isDigit hdigit
    · have hall : ['+', '-', '.', 'e', 'E'].all (!isBlank ·) = true := by decide
      simpa using List.all_eq_true.1 hall c hmark

theorem spelled_of_untagged {first second : List Char} (h : ¬ tagWord <+: second) :
    spelled first second = (first, second) := by
  rw [spelled, if_neg fun htag => h htag.2, if_neg fun htag => h htag.2]

theorem tagged_append (first : List Char) (letter other : Char) :
    Tagged other (first ++ [letter]) tagWord ↔ letter = other := by
  rw [Tagged, List.getLast?_concat, Option.some.injEq]
  exact and_iff_left (List.prefix_refl _)

theorem spelled_append_b (first : List Char) :
    spelled (first ++ ['b']) tagWord = (first, "billion".toList) := by
  rw [spelled, if_pos ((tagged_append first 'b' 'b').2 rfl), List.dropLast_concat]
  rfl

theorem spelled_append_m (first : List Char) :
    spelled (first ++ ['m']) tagWord = (first, "million".toList) := by
  have hb : ¬ Tagged 'b' (first ++ ['m']) tagWord := by
    rw [tagged_append]
    decide
  rw [spelled, if_neg hb, if_pos ((tagged_append first 'm' 'm').2 rfl), List.dropLast_concat]
  rfl

/-- A literal and the text of a unit are two words that spell the literal and a unit. -/
theorem UnitText.exists_words {unitText : List Char} {exponent : Nat}
    (h : UnitText unitText exponent) (l : Literal) {rest : List Char} (hrest : StopsWord rest) :
    ∃ first second, LeadingWords (l.text ++ (unitText ++ rest)) first second ∧
      (spelled first second).1 = l.text ∧ UnitOf (spelled first second).2 exponent := by
  have hword := isWord_text l
  -- the unit is a word of its own
  have hspaced : ∀ unit : List Char, IsWord unit → ¬ tagWord <+: unit → UnitOf unit exponent →
      ∃ first second, LeadingWords (l.text ++ (' ' :: unit ++ rest)) first second ∧
        (spelled first second).1 = l.text ∧ UnitOf (spelled first second).2 exponent := by
    intro unit hunit hprefix hexponent
    refine ⟨l.text, unit, ⟨[], [' '], rest, ?_, by decide, hword, by decide, by decide, hunit,
      hrest⟩, ?_⟩
    · simp only [List.nil_append, List.append_assoc, List.cons_append]
    · rw [spelled_of_untagged hprefix]
      exact ⟨rfl, hexponent⟩
  -- the unit is a letter behind the literal, with the tag for the next word
  have htagged : ∀ letter : Char, isBlank letter = false →
      LeadingWords (l.text ++ (letter :: ' ' :: tagWord ++ rest)) (l.text ++ [letter]) tagWord := by
    intro letter hletter
    refine ⟨[], [' '], rest, ?_, by decide, ⟨?_, ?_⟩, by decide, by decide, by decide, hrest⟩
    · simp only [List.nil_append, List.append_assoc, List.cons_append]
    · exact fun hnil => List.cons_ne_nil _ _ (List.append_eq_nil_iff.1 hnil).2
    · exact List.forall_mem_append.2 ⟨hword.not_blank, List.forall_mem_singleton.2 hletter⟩
  cases h with
  | b => exact hspaced _ (by decide) (by decide) .b
  | billion => exact hspaced _ (by decide) (by decide) .billion
  | m => exact hspaced _ (by decide) (by decide) .m
  | million => exact hspaced _ (by decide) (by decide) .million
  | bTag =>
    refine ⟨_, _, htagged 'b' (by decide), ?_⟩
    rw [spelled_append_b]
    exact ⟨rfl, .billion⟩
  | mTag =>
    refine ⟨_, _, htagged 'm' (by decide), ?_⟩
    rw [spelled_append_m]
    exact ⟨rfl, .million⟩

/-! ## Exactness -/

theorem UnitText.exponent_le {unitText : List Char} {exponent : Nat}
    (h : UnitText unitText exponent) : exponent ≤ 9 := by
  cases h <;> decide

theorem inRange_of_abs_lt {N : Int} (hlt : |N| < 2 ^ 51) : InRange N := by
  obtain ⟨hlow, hhigh⟩ := abs_lt.1 hlt
  unfold InRange
  omega

/-- A population of less than `2 ^ 51` in magnitude that is an integer is found exactly. -/
theorem population?_eq_of_integer {l : Literal} {unitText rest : List Char} {exponent : Nat}
    {N : Int} (hunit : UnitText unitText exponent) (hrest : StopsWord rest)
    (hN : l.value * 10 ^ exponent = N) (hlt : |N| < 2 ^ 51) :
    population? (some (String.ofList (l.text ++ (unitText ++ rest)))) = .ok (some N) := by
  have he := hunit.exponent_le
  obtain ⟨first, second, hwords, htext, hunit⟩ := hunit.exists_words l hrest
  obtain ⟨x, hx⟩ := (rounded_read? l).exists_of_lt (abs_lt_overflowBound hN hlt)
  obtain ⟨product, hproduct, -⟩ := scaled?_eq x hunit
  obtain ⟨y, hy⟩ := hproduct.exists_of_lt (abs_scaled_lt_overflowBound he hN hlt hx.nearest)
  have hround : roundHalfAway y.value = N :=
    roundHalfAway_eq (abs_product_sub_lt he hN hlt hx.nearest hy.nearest)
  have hrange : InRange (roundHalfAway y.value) := hround ▸ inRange_of_abs_lt hlt
  rw [← hround]
  refine population?_of_gives (.words ?_ (.population htext.symm hx hunit hy hrange))
  rw [String.toList_ofList]
  exact hwords

/-- Where two words spell a finite literal and a unit, the population is the rounded product if that
is one of the numbers from `-2 ^ 63` on and below `2 ^ 63`, and out of range if it is any other. -/
theorem population?_of_product {description : String} {first second : List Char} {l : Literal}
    {x : Binary64} {exponent : Nat} (h : LeadingWords description.toList first second)
    (hl : (spelled first second).1 = l.text) (hx : Rounded l.value (some x))
    (hunit : UnitOf (spelled first second).2 exponent) :
    ∃ product, Rounded (x.value * 10 ^ exponent) product ∧
      ((∃ y ∈ product, (-2 ^ 63 ≤ y.value ∧ y.value < 2 ^ 63) ∧
          population? (some description) = .ok (some (roundHalfAway y.value))) ∨
        (∀ y ∈ product, ¬ (-2 ^ 63 ≤ y.value ∧ y.value < 2 ^ 63)) ∧
          population? (some description) = .error (.outOfRange description)) := by
  obtain ⟨product, hproduct, -⟩ := scaled?_eq x hunit
  refine ⟨product, hproduct, ?_⟩
  by_cases hin : ∃ y ∈ product, InRange (roundHalfAway y.value)
  · obtain ⟨y, hy, hrange⟩ := hin
    rw [Option.mem_def.1 hy] at hproduct
    exact Or.inl ⟨y, hy, (inRange_iff y).1 hrange,
      population?_of_gives (.words h (.population hl.symm hx hunit hproduct hrange))⟩
  · refine Or.inr ⟨fun y hy hrange => hin ⟨y, hy, (inRange_iff y).2 hrange⟩, ?_⟩
    exact population?_of_gives (.words h (.outOfRange hl.symm hx hunit hproduct
      fun y hy hrange => hin ⟨y, hy, hrange⟩))

/-- A population is always a rounded product within the range. -/
theorem exists_product_of_population? {description : String} {p : Int}
    (h : population? (some description) = .ok (some p)) :
    ∃ first second l x exponent y, LeadingWords description.toList first second ∧
      (spelled first second).1 = Literal.text l ∧ UnitOf (spelled first second).2 exponent ∧
      Rounded l.value (some x) ∧ Rounded (x.value * 10 ^ exponent) (some y) ∧
      (-2 ^ 63 ≤ y.value ∧ y.value < 2 ^ 63) ∧ p = roundHalfAway y.value := by
  have hgives := gives_population? (some description)
  generalize population? (some description) = result at h hgives
  cases hgives with
  | empty => cases h
  | missingUnit => cases h
  | words hwords hjudged =>
    cases hjudged with
    | invalidMagnitude => cases h
    | unknownUnit => cases h
    | outOfRange => cases h
    | population hl hx hunit hproduct hrange =>
      have hp := Option.some.inj (Except.ok.inj h)
      exact ⟨_, _, _, _, _, _, hwords, hl.symm, hunit, hx, hproduct, (inRange_iff _).1 hrange,
        hp.symm⟩

/-- Populations are exact. A literal whose exact value, times the power of ten of its unit, is an
integer below `2 ^ 51` in magnitude gives that integer, whatever follows behind a blank. And, whatever
the description, a population is the rounded product of the magnitude and the power of ten: the
products from `-2 ^ 63` on and below `2 ^ 63` are let through as they are, and every other one is out
of range, the one that overflows included. -/
theorem population?_exact :
    (∀ (l : Literal) (unitText rest : List Char) (exponent : Nat) (N : Int),
      UnitText unitText exponent → StopsWord rest → l.value * 10 ^ exponent = N → |N| < 2 ^ 51 →
        population? (some (String.ofList (l.text ++ (unitText ++ rest)))) = .ok (some N)) ∧
    (∀ (description : String) (p : Int), population? (some description) = .ok (some p) →
      ∃ first second l x exponent y, LeadingWords description.toList first second ∧
        (spelled first second).1 = Literal.text l ∧ UnitOf (spelled first second).2 exponent ∧
        Rounded l.value (some x) ∧ Rounded (x.value * 10 ^ exponent) (some y) ∧
        (-2 ^ 63 ≤ y.value ∧ y.value < 2 ^ 63) ∧ p = roundHalfAway y.value) ∧
    ∀ (description : String) (first second : List Char) (l : Literal) (x : Binary64)
      (exponent : Nat), LeadingWords description.toList first second →
      (spelled first second).1 = l.text → Rounded l.value (some x) →
      UnitOf (spelled first second).2 exponent →
        ∃ product, Rounded (x.value * 10 ^ exponent) product ∧
          ((∃ y ∈ product, (-2 ^ 63 ≤ y.value ∧ y.value < 2 ^ 63) ∧
              population? (some description) = .ok (some (roundHalfAway y.value))) ∨
            (∀ y ∈ product, ¬ (-2 ^ 63 ≤ y.value ∧ y.value < 2 ^ 63)) ∧
              population? (some description) = .error (.outOfRange description)) :=
  ⟨fun _ _ _ _ _ hunit hrest hN hlt => population?_eq_of_integer hunit hrest hN hlt,
    fun _ _ h => exists_product_of_population? h,
    fun _ _ _ _ _ _ h hl hx hunit => population?_of_product h hl hx hunit⟩

/-- The literal `2251799.813685247`. -/
def tightLiteral : Literal where
  sign := .absent
  whole := "2251799".toList
  fraction := some "813685247".toList
  exponent := none
  whole_isDigit := List.all_eq_true.1 (by decide +kernel)
  fraction_isDigit := List.all_eq_true.1 (by decide +kernel)
  digits_ne_nil := by decide +kernel

/-- Right below the bound a literal that is no binary number is exact; one less than `2 ^ 63` is
rounded up out of the range. -/
theorem population?_exact_tight :
    (tightLiteral.value * 10 ^ 9 = (2251799813685247 : Int) ∧
      population? (some "2251799.813685247b Population of a nation") =
        .ok (some 2251799813685247)) ∧
    (∃ y : Binary64, (-2 ^ 63 ≤ y.value ∧ y.value < 2 ^ 63) ∧
      2251799813685247 = roundHalfAway y.value) ∧
    ∃ l x product, Literal.text l = "9223372036.854775807".toList ∧ Rounded l.value (some x) ∧
      Rounded (x.value * 10 ^ 9) product ∧
      ∀ y ∈ product, ¬ (-2 ^ 63 ≤ y.value ∧ y.value < 2 ^ 63) := by
  have hvalue : tightLiteral.value * 10 ^ 9 = (2251799813685247 : Int) := by
    have hwhole : Number.digitsValue "2251799".toList = 2251799 := by decide +kernel
    have hfraction : Number.digitsValue "813685247".toList = 813685247 := by decide +kernel
    have hlength : "813685247".toList.length = 9 := by decide +kernel
    change ((Number.digitsValue "2251799".toList : ℚ) +
      Number.digitsValue "813685247".toList / 10 ^ "813685247".toList.length) *
        10 ^ (0 : Int) * 10 ^ 9 = _
    rw [hwhole, hfraction, hlength]
    norm_num
  have hexact := population?_exact.1 tightLiteral "b Population".toList " of a nation".toList 9
    2251799813685247 .bTag (by decide +kernel) hvalue (by decide +kernel)
  obtain ⟨_, _, _, _, _, y, _, _, _, _, _, hrange, hround⟩ := population?_exact.2.1 _ _ hexact
  have hread : (Binary64.read? "9223372036.854775807".toList).isSome = true := by decide +kernel
  obtain ⟨x, hx⟩ := Option.isSome_iff_exists.1 hread
  obtain ⟨l, hl, hx⟩ := exists_literal_of_read? hx
  have hwords : LeadingWords "9223372036.854775807 b".toList "9223372036.854775807".toList
      "b".toList :=
    ⟨[], [' '], [], by decide +kernel, by decide +kernel, by decide +kernel, by decide +kernel,
      by decide +kernel, by decide +kernel, by decide +kernel⟩
  have hspelled : spelled "9223372036.854775807".toList "b".toList =
      ("9223372036.854775807".toList, "b".toList) := by decide +kernel
  obtain ⟨product, hproduct, hcases⟩ := population?_exact.2.2 "9223372036.854775807 b" _ _ l x 9
    hwords (by rw [hspelled, hl]) hx (by rw [hspelled]; exact .b)
  have hout : population? (some "9223372036.854775807 b") =
      .error (.outOfRange "9223372036.854775807 b") := by decide +kernel
  refine ⟨⟨hvalue, hexact⟩, ⟨y, hrange, hround⟩, l, x, product, hl, hx, hproduct, ?_⟩
  rcases hcases with ⟨_, _, _, hok⟩ | ⟨houtside, _⟩
  · cases hok.symm.trans hout
  · exact houtside

end Population

end CardArchive
