import CardArchive.Proofs.Rounding
import CardArchive.Proofs.TextSearch

/-!
# Decimal literals and their values

`Literal` is the grammar of the texts that `Decimal.read?` reads: a sign or none, digits with at most
one point among, before or after them, and a power of ten or none. Exactly the texts of literals are read
(`Decimal.read?_text`, `Decimal.exists_literal_of_read?`), and the value of a literal is rounded once
and correctly, however far out the exponent is (`Decimal.rounded_nearest`).
-/

namespace CardArchive

/-! ## The grammar -/

/-- What stands in front of digits. -/
inductive Sign where
  | absent
  | plus
  | minus
  deriving DecidableEq

namespace Sign

/-- How the sign is written. -/
def text : Sign → List Char
  | absent => []
  | plus => ['+']
  | minus => ['-']

/-- Only a minus sign makes a number negative. -/
def isNegative (sign : Sign) : Bool := sign = minus

end Sign

/-- The power of ten at the end of a literal. -/
structure Literal.Exponent where
  capital : Bool
  sign : Sign
  digits : List Char
  digits_ne_nil : digits ≠ []
  isDigit : ∀ c ∈ digits, c.isDigit = true

namespace Literal.Exponent

/-- The letter that begins it. -/
def mark (e : Exponent) : Char := if e.capital then 'E' else 'e'

theorem mark_isMark (e : Exponent) : (e.mark = 'e' || e.mark = 'E') = true := by
  unfold mark
  split <;> rfl

/-- How it is written. -/
def text (e : Exponent) : List Char := e.mark :: (e.sign.text ++ e.digits)

/-- The power itself. -/
def value (e : Exponent) : Int :=
  if e.sign.isNegative then -(Number.digitsValue e.digits : Int) else Number.digitsValue e.digits

/-- How a power is written, or left out. -/
def textOf : Option Exponent → List Char
  | none => []
  | some e => e.text

/-- The power that counts; the zeroth where it is left out. -/
def valueOf : Option Exponent → Int
  | none => 0
  | some e => e.value

end Literal.Exponent

/-- A decimal literal. -/
structure Literal where
  sign : Sign
  whole : List Char
  /-- The digits after the point; none where there is no point. -/
  fraction : Option (List Char)
  /-- The power of ten, if one is given. -/
  exponent : Option Literal.Exponent
  whole_isDigit : ∀ c ∈ whole, c.isDigit = true
  fraction_isDigit : ∀ c ∈ fraction.getD [], c.isDigit = true
  /-- There is one at least, before or after the point. -/
  digits_ne_nil : whole ++ fraction.getD [] ≠ []

namespace Literal

/-- How the digits after the point are written, with the point. -/
def fractionText : Option (List Char) → List Char
  | none => []
  | some digits => '.' :: digits

/-- How the literal is written. -/
def text (l : Literal) : List Char :=
  l.sign.text ++ (l.whole ++ (fractionText l.fraction ++ Exponent.textOf l.exponent))

/-- The power of ten. -/
def power (l : Literal) : Int := Exponent.valueOf l.exponent

/-- The exact value of the literal. -/
def value (l : Literal) : ℚ :=
  Binary64.signed l.sign.isNegative
    ((Number.digitsValue l.whole +
      Number.digitsValue (l.fraction.getD []) / 10 ^ (l.fraction.getD []).length) * 10 ^ l.power)

/-- The literal as a natural number and a power of ten. -/
def decimal (l : Literal) : Decimal where
  negative := l.sign.isNegative
  digits := Number.digitsValue (l.whole ++ l.fraction.getD [])
  exponent := l.power - (l.fraction.getD []).length

/-- The characters of a literal are digits, signs, a point and the mark of a power. -/
theorem mem_text {l : Literal} {c : Char} (hc : c ∈ l.text) :
    c.isDigit = true ∨ c ∈ ['+', '-', '.', 'e', 'E'] := by
  have hsign : ∀ sign : Sign, c ∈ sign.text → c ∈ ['+', '-', '.', 'e', 'E'] := by
    intro sign hsign
    cases sign <;> simp_all [Sign.text]
  rw [Literal.text, List.mem_append, List.mem_append, List.mem_append] at hc
  rcases hc with hc | hc | hc | hc
  · exact Or.inr (hsign _ hc)
  · exact Or.inl (l.whole_isDigit c hc)
  · have hdigits := l.fraction_isDigit
    cases hfraction : l.fraction with
    | none => rw [hfraction] at hc; cases hc
    | some digits =>
      rw [hfraction] at hc hdigits
      rcases List.mem_cons.1 hc with rfl | hc
      · exact Or.inr (by decide)
      · exact Or.inl (hdigits c hc)
  · cases hexponent : l.exponent with
    | none => rw [hexponent] at hc; cases hc
    | some e =>
      rw [hexponent] at hc
      rcases List.mem_cons.1 hc with rfl | hc
      · right
        unfold Literal.Exponent.mark
        split <;> decide
      · rcases List.mem_append.1 hc with hc | hc
        · exact Or.inr (hsign _ hc)
        · exact Or.inl (e.isDigit c hc)

end Literal

/-! ## Reading -/

namespace Number

/-- A sign is taken off if what follows does not look like one. -/
theorem splitSign_text_append {sign : Sign} {s : List Char}
    (h : ∀ c ∈ s.head?, c ≠ '+' ∧ c ≠ '-') : splitSign (sign.text ++ s) = (sign.isNegative, s) := by
  cases sign with
  | plus => rfl
  | minus => rfl
  | absent =>
    cases s with
    | nil => rfl
    | cons c rest =>
      obtain ⟨hplus, hminus⟩ := h c rfl
      rw [Sign.text, List.nil_append]
      unfold splitSign
      split
      next heq => exact absurd (List.cons.inj heq).1 hminus
      next heq => exact absurd (List.cons.inj heq).1 hplus
      next => rfl

/-- What is taken off is a sign. -/
theorem exists_sign_of_splitSign (s : List Char) :
    ∃ (sign : Sign) (body : List Char), s = sign.text ++ body ∧
      splitSign s = (sign.isNegative, body) := by
  unfold splitSign
  split
  · exact ⟨.minus, _, rfl, rfl⟩
  · exact ⟨.plus, _, rfl, rfl⟩
  · exact ⟨.absent, _, rfl, rfl⟩

end Number

theorem ne_sign_of_isDigit {c : Char} (h : c.isDigit = true) : c ≠ '+' ∧ c ≠ '-' :=
  ⟨by rintro rfl; exact absurd h (by decide), by rintro rfl; exact absurd h (by decide)⟩

theorem head?_isDigit {digits : List Char} (h : ∀ c ∈ digits, c.isDigit = true) (rest : List Char)
    (hne : digits ≠ []) : ∀ c ∈ (digits ++ rest).head?, c.isDigit = true := by
  cases digits with
  | nil => exact absurd rfl hne
  | cons d digits =>
    intro c hc
    rw [List.cons_append, List.head?_cons, Option.mem_some_iff] at hc
    exact h c (hc ▸ List.mem_cons_self)

namespace Decimal

theorem readExponent?_text (e : Literal.Exponent) :
    readExponent? (e.sign.text ++ e.digits) = some e.value := by
  have hhead := head?_isDigit e.isDigit [] e.digits_ne_nil
  rw [List.append_nil] at hhead
  have hempty : e.digits.isEmpty = false := by simp [e.digits_ne_nil]
  have hall : e.digits.all Char.isDigit = true := List.all_eq_true.2 e.isDigit
  rw [readExponent?, Number.splitSign_text_append fun c hc => ne_sign_of_isDigit (hhead c hc)]
  simp only [hempty, hall, Bool.not_true, Bool.or_self, Bool.false_eq_true, if_false]
  rfl

theorem exists_of_readExponent? {s : List Char} {n : Int} (h : readExponent? s = some n) :
    ∀ capital, ∃ e : Literal.Exponent, e.capital = capital ∧ s = e.sign.text ++ e.digits ∧
      n = e.value := by
  intro capital
  obtain ⟨sign, digits, hs, hsplit⟩ := Number.exists_sign_of_splitSign s
  rw [readExponent?, hsplit] at h
  dsimp only at h
  split at h
  · cases h
  next hdigits =>
    simp only [Bool.or_eq_true, Bool.not_eq_true', not_or, List.isEmpty_iff,
      Bool.not_eq_false] at hdigits
    refine ⟨⟨capital, sign, digits, hdigits.1, List.all_eq_true.1 hdigits.2⟩, rfl, hs, ?_⟩
    exact (Option.some.inj h).symm

/-- The power of ten that the end of a literal gives: none where it is left out. -/
def readPower? : List Char → Option Int
  | [] => some 0
  | c :: after => if c = 'e' || c = 'E' then readExponent? after else none

/-- The decimal of digits before and after the point and of the power of ten. -/
def assemble? (negative : Bool) (whole fraction rest : List Char) : Option Decimal :=
  if (whole ++ fraction).isEmpty then none
  else (readPower? rest).map fun power =>
    ⟨negative, Number.digitsValue (whole ++ fraction), power - fraction.length⟩

section Stages

variable {s whole fraction rest : List Char} {negative : Bool}

/-- Reading a text whose digits have no point behind them. -/
theorem read?_eq_of_noPoint (hs : Number.splitSign s = (negative, whole ++ rest))
    (hwhole : ∀ c ∈ whole, c.isDigit = true)
    (hrest : ∀ c ∈ rest.head?, c.isDigit = false ∧ c ≠ '.') :
    read? s = assemble? negative whole [] rest := by
  obtain ⟨htake, hdrop⟩ := Text.run_append hwhole fun c hc => (hrest c hc).1
  rw [read?, hs]
  dsimp only
  rw [htake, hdrop]
  cases rest with
  | nil => rfl
  | cons c after =>
    have hc : c ≠ '.' := (hrest c rfl).2
    split
    next heq => exact absurd (List.cons.inj heq).1 hc
    next => rfl

/-- Reading a text whose digits have a point behind them. -/
theorem read?_eq_of_point (hs : Number.splitSign s = (negative, whole ++ '.' :: (fraction ++ rest)))
    (hwhole : ∀ c ∈ whole, c.isDigit = true) (hfraction : ∀ c ∈ fraction, c.isDigit = true)
    (hrest : ∀ c ∈ rest.head?, c.isDigit = false) :
    read? s = assemble? negative whole fraction rest := by
  have hpoint : ∀ c ∈ ('.' :: (fraction ++ rest)).head?, c.isDigit = false :=
    fun c hc => by rw [← Option.mem_some_iff.1 hc]; decide
  obtain ⟨htake, hdrop⟩ := Text.run_append hwhole hpoint
  obtain ⟨htake', hdrop'⟩ := Text.run_append hfraction hrest
  rw [read?, hs]
  dsimp only
  rw [htake, hdrop]
  simp only [htake', hdrop']
  rfl

end Stages

theorem readPower?_textOf (exponent : Option Literal.Exponent) :
    readPower? (Literal.Exponent.textOf exponent) = some (Literal.Exponent.valueOf exponent) := by
  cases exponent with
  | none => rfl
  | some e =>
    change (if (e.mark = 'e' || e.mark = 'E') = true then _ else none) = _
    rw [if_pos e.mark_isMark]
    exact readExponent?_text e

theorem head?_textOf (exponent : Option Literal.Exponent) :
    ∀ c ∈ (Literal.Exponent.textOf exponent).head?, c.isDigit = false ∧ c ≠ '.' := by
  intro c hc
  cases exponent with
  | none => cases hc
  | some e =>
    have hc' : e.mark = c := Option.mem_some_iff.1 hc
    rw [← hc', Literal.Exponent.mark]
    split <;> decide

theorem splitSign_text (l : Literal) : Number.splitSign l.text = (l.sign.isNegative,
    l.whole ++ (Literal.fractionText l.fraction ++ Literal.Exponent.textOf l.exponent)) := by
  refine Number.splitSign_text_append fun c hc => ?_
  by_cases hwhole : l.whole = []
  · have hne := l.digits_ne_nil
    rw [hwhole, List.nil_append] at hc hne
    cases hfraction : l.fraction with
    | none => exact absurd (congrArg (Option.getD · []) hfraction) hne
    | some digits =>
      rw [hfraction] at hc
      rw [← Option.mem_some_iff.1 hc]
      decide
  · exact ne_sign_of_isDigit (head?_isDigit l.whole_isDigit _ hwhole c hc)

/-- The text of a literal is read to the literal. -/
theorem read?_text (l : Literal) : read? l.text = some l.decimal := by
  have hsign := splitSign_text l
  have hrest := head?_textOf l.exponent
  have hassemble : assemble? l.sign.isNegative l.whole (l.fraction.getD [])
      (Literal.Exponent.textOf l.exponent) = some l.decimal := by
    have hdigits : (l.whole ++ l.fraction.getD []).isEmpty = false :=
      List.isEmpty_eq_false_iff.2 l.digits_ne_nil
    rw [assemble?, hdigits, readPower?_textOf]
    rfl
  rw [← hassemble]
  cases hfraction : l.fraction with
  | none =>
    rw [hfraction] at hsign
    exact read?_eq_of_noPoint hsign l.whole_isDigit hrest
  | some digits =>
    have hdigits := l.fraction_isDigit
    rw [hfraction] at hsign hdigits
    exact read?_eq_of_point hsign l.whole_isDigit hdigits fun c hc => (hrest c hc).1

/-- What ends a literal is its power of ten. -/
theorem exists_exponent_of_readPower? {rest : List Char} {power : Int}
    (h : readPower? rest = some power) : ∃ exponent, Literal.Exponent.textOf exponent = rest ∧
      Literal.Exponent.valueOf exponent = power := by
  cases rest with
  | nil => exact ⟨none, rfl, Option.some.inj h⟩
  | cons c after =>
    rw [readPower?] at h
    split at h
    next hmark =>
      obtain ⟨e, hcapital, hafter, hvalue⟩ := exists_of_readExponent? h (c = 'E')
      have hc : e.mark = c := by
        rw [Literal.Exponent.mark, hcapital]
        simp only [Bool.or_eq_true, decide_eq_true_eq] at hmark
        rcases hmark with rfl | rfl <;> rfl
      refine ⟨some e, ?_, hvalue.symm⟩
      change e.mark :: (e.sign.text ++ e.digits) = c :: after
      rw [hc, ← hafter]
    next => cases h

theorem exists_literal_of_assemble? {sign : Sign} {whole rest : List Char}
    (fraction : Option (List Char)) {x : Decimal} (hwhole : ∀ c ∈ whole, c.isDigit = true)
    (hfraction : ∀ c ∈ fraction.getD [], c.isDigit = true)
    (h : assemble? sign.isNegative whole (fraction.getD []) rest = some x) :
    ∃ l : Literal, l.text = sign.text ++ (whole ++ (Literal.fractionText fraction ++ rest)) ∧
      l.decimal = x := by
  rw [assemble?] at h
  split at h
  · cases h
  next hne =>
    obtain ⟨power, hpower, rfl⟩ := Option.map_eq_some_iff.1 h
    obtain ⟨exponent, rfl, rfl⟩ := exists_exponent_of_readPower? hpower
    have hdigits : whole ++ fraction.getD [] ≠ [] := fun hnil => hne (List.isEmpty_iff.2 hnil)
    exact ⟨⟨sign, whole, fraction, exponent, hwhole, hfraction, hdigits⟩, rfl, rfl⟩

/-- A text that is read is the text of a literal. -/
theorem exists_literal_of_read? {s : List Char} {x : Decimal} (h : read? s = some x) :
    ∃ l : Literal, l.text = s ∧ l.decimal = x := by
  obtain ⟨sign, body, rfl, hsplit⟩ := Number.exists_sign_of_splitSign s
  obtain ⟨whole, after, rfl, hwhole, hafter⟩ := Text.exists_run_append Char.isDigit body
  by_cases hpoint : after.head? = some '.'
  · obtain ⟨fractional, rfl⟩ := List.head?_eq_some_iff.1 hpoint
    obtain ⟨fraction, rest, rfl, hfraction, hrest⟩ :=
      Text.exists_run_append Char.isDigit fractional
    rw [read?_eq_of_point hsplit hwhole hfraction hrest] at h
    exact exists_literal_of_assemble? (some fraction) hwhole hfraction h
  · have hrest : ∀ c ∈ after.head?, c.isDigit = false ∧ c ≠ '.' :=
      fun c hc => ⟨hafter c hc, by rintro rfl; exact hpoint hc⟩
    rw [read?_eq_of_noPoint hsplit hwhole hrest] at h
    exact exists_literal_of_assemble? none hwhole (List.forall_mem_nil _) h

end Decimal

/-! ## Values -/

namespace Number

theorem foldl_digits (digits : List Char) (n : Nat) :
    digits.foldl (fun n c => 10 * n + (c.toNat - '0'.toNat)) n =
      n * 10 ^ digits.length + digitsValue digits := by
  induction digits generalizing n with
  | nil => simp [digitsValue]
  | cons c digits ih =>
    rw [digitsValue, List.foldl_cons, ih, List.foldl_cons, ih, List.length_cons, pow_succ]
    ring

theorem digitsValue_append (a b : List Char) :
    digitsValue (a ++ b) = digitsValue a * 10 ^ b.length + digitsValue b := by
  rw [digitsValue, List.foldl_append, foldl_digits]
  rfl

end Number

/-- The rational number that a decimal stands for. -/
def Decimal.value (x : Decimal) : ℚ := Binary64.signed x.negative (x.digits * 10 ^ x.exponent)

theorem Literal.value_decimal (l : Literal) : l.decimal.value = l.value := by
  have hten : (10 : ℚ) ≠ 0 := by norm_num
  rw [Decimal.value, decimal, value, Number.digitsValue_append, Nat.cast_add, Nat.cast_mul,
    Nat.cast_pow, zpow_sub₀ hten, zpow_natCast]
  have hp : (10 : ℚ) ^ (l.fraction.getD []).length ≠ 0 := pow_ne_zero _ hten
  congr 1
  field_simp
  push_cast
  ring

/-! ## Rounding -/

namespace Decimal

theorem lt_ten_pow_digitCount (n : Nat) : n < 10 ^ digitCount n := by
  induction n using Nat.strongRecOn with
  | ind n ih =>
    rw [digitCount, Nat.toDigits_eq_if (by decide)]
    split
    next h => exact h
    next h =>
      have hrest := ih (n / 10) (by omega)
      rw [digitCount] at hrest
      rw [List.length_append, List.length_singleton, pow_succ]
      omega

theorem abs_value (x : Decimal) : |x.value| = x.digits * 10 ^ x.exponent := by
  rw [value, Binary64.abs_signed, abs_of_nonneg]
  exact mul_nonneg (Nat.cast_nonneg _) (zpow_nonneg (by norm_num) _)

/-- What is that small is rounded to zero. -/
theorem rounded_zero_of_small {q : ℚ} (hsmall : |q| * 10 ^ 400 < 1) (negative : Bool) :
    Binary64.Rounded q (some (.zero negative)) := by
  have hnonneg : 0 ≤ |q| := abs_nonneg q
  refine .finite ?_ (.zero_of_lt ?_ negative)
  · have hpow : (1 : ℚ) ≤ 10 ^ 400 := one_le_pow₀ (by norm_num)
    exact ((le_mul_of_one_le_right hnonneg hpow).trans_lt hsmall).trans_le
      Binary64.one_le_overflowBound
  · rw [mul_comm 2, mul_assoc]
    exact (mul_le_mul_of_nonneg_left Binary64.two_mul_unitsPerOne_le hnonneg).trans_lt hsmall

/-- An exponent that is beyond the bound makes any digits but zeros overflow. -/
theorem overflowBound_le_abs_value {x : Decimal} (hdigits : x.digits ≠ 0)
    (hfar : 400 < x.exponent) : Binary64.overflowBound ≤ |x.value| := by
  obtain ⟨k, hk⟩ := Int.eq_ofNat_of_zero_le (a := x.exponent) (by omega)
  have hone : (1 : ℚ) ≤ x.digits := by exact_mod_cast Nat.one_le_iff_ne_zero.2 hdigits
  have hpow : (0 : ℚ) ≤ 10 ^ k := pow_nonneg (by norm_num) k
  rw [abs_value, hk, zpow_natCast]
  exact (Binary64.overflowBound_le_ten_pow (by omega)).trans (le_mul_of_one_le_left hpow hone)

/-- Digits that are fewer than the places after the point by more than 400 make up little. -/
theorem abs_value_mul_lt {x : Decimal} (hfar : (digitCount x.digits + 400 : Int) < -x.exponent) :
    |x.value| * 10 ^ 400 < 1 := by
  obtain ⟨k, hk⟩ := Int.eq_ofNat_of_zero_le (a := -x.exponent) (by omega)
  have hexponent : x.exponent = -(k : Int) := by omega
  have hdigits : (x.digits : ℚ) < 10 ^ digitCount x.digits := by
    exact_mod_cast lt_ten_pow_digitCount x.digits
  have hplaces : (10 : ℚ) ^ (digitCount x.digits + 400) ≤ 10 ^ k :=
    pow_le_pow_right₀ (by norm_num) (by omega)
  rw [pow_add] at hplaces
  rw [abs_value, hexponent, zpow_neg, zpow_natCast, mul_right_comm, ← div_eq_mul_inv,
    div_lt_one (pow_pos (by norm_num) k)]
  exact (mul_lt_mul_of_pos_right hdigits (pow_pos (by norm_num) 400)).trans_le hplaces

/-- The value of a literal is rounded once and correctly. -/
theorem rounded_nearest (x : Decimal) : Binary64.Rounded x.value x.nearest := by
  rw [nearest]
  split
  next hzero =>
    have hvalue : x.value = 0 := by simp [value, Binary64.signed, hzero]
    refine rounded_zero_of_small ?_ _
    rw [hvalue, abs_zero, zero_mul]
    exact one_pos
  next hdigits =>
  split
  next hpos =>
    split
    next hfar => exact .overflow (overflowBound_le_abs_value hdigits hfar)
    next =>
      -- the power is one of the natural ones
      obtain ⟨k, hk⟩ := Int.eq_ofNat_of_zero_le hpos
      have h := Binary64.rounded_ofRatio x.negative (x.digits * Nat.pow 10 k) one_pos
      rw [Nat.cast_one, div_one, Nat.cast_mul, Nat.pow_eq, Nat.cast_pow, Nat.cast_ofNat,
        ← zpow_natCast] at h
      rw [value, hk]
      exact h
  next hneg =>
    split
    next hfar => exact rounded_zero_of_small (abs_value_mul_lt hfar) _
    next =>
      -- the power is the inverse of a natural one, by which the digits are divided
      obtain ⟨k, hk⟩ := Int.eq_ofNat_of_zero_le (a := -x.exponent) (by omega)
      have hexponent : x.exponent = -(k : Int) := by omega
      have h := Binary64.rounded_ofRatio x.negative x.digits (d := Nat.pow 10 k)
        (Nat.pow_pos (by decide))
      rw [Nat.pow_eq, Nat.cast_pow, Nat.cast_ofNat, div_eq_mul_inv] at h
      rw [value, hk, hexponent, zpow_neg, zpow_natCast]
      exact h

end Decimal

namespace Binary64

/-- What is read off a literal is its value, rounded. -/
theorem rounded_read? (l : Literal) : Rounded l.value (read? l.text) := by
  rw [read?, Decimal.read?_text, Option.bind_some, ← l.value_decimal]
  exact l.decimal.rounded_nearest

/-- Nothing but literals is read. -/
theorem exists_literal_of_read? {s : List Char} {x : Binary64} (h : read? s = some x) :
    ∃ l : Literal, l.text = s ∧ Rounded l.value (some x) := by
  obtain ⟨d, hd, -⟩ := Option.bind_eq_some_iff.1 h
  obtain ⟨l, rfl, -⟩ := Decimal.exists_literal_of_read? hd
  exact ⟨l, rfl, h ▸ rounded_read? l⟩

end Binary64

end CardArchive
