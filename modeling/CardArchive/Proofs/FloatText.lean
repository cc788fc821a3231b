import CardArchive.Proofs.JsonNumber
import CardArchive.Proofs.ShortestDecimal

/-!
# The text of a floating point number

A floating point number is written as a decimal literal whose value is its shortest decimal, with a
point or an exponent in any case. So it can be told from an integer, a reader that rounds correctly
finds the number again (`Json.read?_floatText`), and two numbers never share a text. As JSON the
literal is taken apart into the same digits and the same power of ten.
-/

namespace CardArchive.Json

/-- The literal is spelled as JSON spells a number that is no integer. -/
structure SpellsFloat (l : Literal) : Prop where
  sign : l.sign ≠ .plus
  whole : Numeral.isWhole l.whole = true
  fraction : l.fraction ≠ some []
  marked : l.fraction ≠ none ∨ l.exponent ≠ none

/-! ## Taking a spelling apart -/

/-- A point or an exponent stands behind the whole part. -/
theorem SpellsFloat.tail_ne_nil {l : Literal} (h : SpellsFloat l) :
    Literal.fractionText l.fraction ++ Literal.Exponent.textOf l.exponent ≠ [] := by
  intro hnil
  obtain ⟨hfraction, hexponent⟩ := List.append_eq_nil_iff.mp hnil
  rcases h.marked with hmarked | hmarked
  · obtain ⟨digits, hdigits⟩ := Option.ne_none_iff_exists.mp hmarked
    rw [← hdigits] at hfraction
    cases hfraction
  · obtain ⟨e, he⟩ := Option.ne_none_iff_exists.mp hmarked
    rw [← he] at hexponent
    cases hexponent

namespace Numeral

theorem head?_tail_not_isDigit (fraction : Option (List Char))
    (exponent : Option Literal.Exponent) :
    ∀ c ∈ (Literal.fractionText fraction ++ Literal.Exponent.textOf exponent).head?,
      c.isDigit = false := by
  intro c hc
  cases fraction with
  | none => exact (Decimal.head?_textOf exponent c hc).1
  | some digits =>
    obtain rfl : '.' = c := Option.some.inj hc
    decide

theorem isWhole_cons {c : Char} (hc : c ≠ '0') (rest : List Char) : isWhole (c :: rest) = true := by
  rw [isWhole]
  · exact List.cons_ne_nil _ _
  · exact fun _ heq => hc (List.cons.inj heq).1

theorem ne_nil_of_isWhole {digits : List Char} (h : isWhole digits = true) : digits ≠ [] := by
  rintro rfl
  cases h

theorem isWhole_singleton (c : Char) : isWhole [c] = true := by
  by_cases hc : c = '0'
  · rw [hc]
    rfl
  · exact isWhole_cons hc []

theorem readExponent?_textOf (exponent : Option Literal.Exponent) :
    readExponent? (Literal.Exponent.textOf exponent) =
      some (Literal.Exponent.valueOf exponent) := by
  cases exponent with
  | none => rfl
  | some e =>
    have hhead := head?_isDigit e.isDigit [] e.digits_ne_nil
    rw [List.append_nil] at hhead
    have hsplit : Number.splitSign (e.sign.text ++ e.digits) = (e.sign.isNegative, e.digits) :=
      Number.splitSign_text_append fun c hc => ne_sign_of_isDigit (hhead c hc)
    have hempty : e.digits.isEmpty = false := by simp [e.digits_ne_nil]
    have hall : e.digits.all Char.isDigit = true := List.all_eq_true.mpr e.isDigit
    rw [Literal.Exponent.textOf, Literal.Exponent.text, readExponent?, hsplit]
    simp only [e.mark_isMark, hempty, hall, Bool.not_false, Bool.and_self, if_true]
    rfl

theorem takeFraction_text {fraction : Option (List Char)} (exponent : Option Literal.Exponent)
    (hdigit : ∀ c ∈ fraction.getD [], c.isDigit = true) (hne : fraction ≠ some []) :
    takeFraction (Literal.fractionText fraction ++ Literal.Exponent.textOf exponent) =
      some (fraction.getD [], Literal.Exponent.textOf exponent) := by
  have hhead := Decimal.head?_textOf exponent
  cases fraction with
  | none =>
    rw [Literal.fractionText, List.nil_append, Option.getD_none]
    generalize Literal.Exponent.textOf exponent = rest at hhead
    unfold takeFraction
    split
    · exact absurd rfl (hhead '.' rfl).2
    · rfl
  | some digits =>
    obtain ⟨htake, hdrop⟩ := Text.run_append hdigit fun c hc => (hhead c hc).1
    have hempty : digits.isEmpty = false := by
      rw [List.isEmpty_eq_false_iff]
      exact fun h => hne (h ▸ rfl)
    rw [Literal.fractionText, List.cons_append, takeFraction]
    rw [Option.getD_some] at htake hdrop
    simp only [htake, hdrop, hempty, Bool.false_eq_true, if_false, Option.getD_some]

/-- A float is taken apart into the parts of its literal. -/
theorem read?_text {l : Literal} (h : SpellsFloat l) : read? l.text =
    some ⟨l.sign.isNegative, l.whole, l.fraction.getD [], l.power, false⟩ := by
  have hne := ne_nil_of_isWhole h.whole
  have hempty := List.isEmpty_eq_false_iff.mpr h.tail_ne_nil
  obtain ⟨htake, hdrop⟩ :=
    Text.run_append l.whole_isDigit (head?_tail_not_isDigit l.fraction l.exponent)
  have hfraction := takeFraction_text l.exponent l.fraction_isDigit h.fraction
  have hexponent := readExponent?_textOf l.exponent
  rw [Literal.text]
  cases hsign : l.sign with
  | plus => exact absurd hsign h.sign
  | minus =>
    unfold read?
    simp only [Sign.text, List.cons_append, List.nil_append, htake, hdrop, h.whole, hempty,
      hfraction, hexponent, Option.bind_eq_bind, Option.bind_some]
    rfl
  | absent =>
    -- without a sign the text begins with a digit
    have hminus : ∀ body rest, l.whole ++ body ≠ '-' :: rest := by
      intro body rest heq
      have hdigit := head?_isDigit l.whole_isDigit body hne '-' (by rw [heq]; rfl)
      exact absurd hdigit (by decide)
    rw [Sign.text, List.nil_append]
    unfold read?
    split
    next negative body heq =>
      split at heq
      · next h => exact absurd h (hminus _ _)
      · obtain ⟨rfl, rfl⟩ := Prod.mk.inj heq
        simp only [htake, hdrop, h.whole, hempty, hfraction, hexponent, Option.bind_eq_bind,
          Option.bind_some]
        rfl

end Numeral

/-! ## The literal of a text -/

/-- The literal is spelled as a float, with this text behind its sign and this value. -/
structure Spelled (negative : Bool) (body : List Char) (digits : Nat) (exponent : Int)
    (l : Literal) : Prop where
  text : l.text = if negative then '-' :: body else body
  negative : l.sign.isNegative = negative
  value : (l.decimal.digits : ℚ) * 10 ^ l.decimal.exponent = digits * 10 ^ exponent
  spells : SpellsFloat l

/-- The sign of a number that is written without a plus sign. -/
def signOf (negative : Bool) : Sign := if negative then .minus else .absent

theorem signOf_text_append (negative : Bool) (body : List Char) :
    (signOf negative).text ++ body = if negative then '-' :: body else body := by
  cases negative <;> rfl

theorem signOf_isNegative (negative : Bool) : (signOf negative).isNegative = negative := by
  cases negative <;> rfl

theorem signOf_ne_plus (negative : Bool) : signOf negative ≠ .plus := by
  cases negative <;> decide

theorem digitsValue_toDigits (n : Nat) : Number.digitsValue (Nat.toDigits 10 n) = n :=
  Nat.ofDigitChars_ten_toDigits

theorem digitsValue_replicate_zero (n : Nat) :
    Number.digitsValue (List.replicate n '0') = 0 := by
  have hvalue : Number.digitsValue (List.replicate n '0') = 10 ^ n * 0 :=
    Nat.ofDigitChars_replicate_zero
  rw [hvalue, Nat.mul_zero]

theorem isDigit_of_mem_replicate_zero {n : Nat} {c : Char} (h : c ∈ List.replicate n '0') :
    c.isDigit = true := by
  rw [List.eq_of_mem_replicate h]
  rfl

section Spelling

variable {digits : Nat} {exponent : Int}

/-- A whole part, a fraction and a power, with a minus sign or none, are a literal. -/
theorem exists_spelled (negative : Bool) (whole : List Char) (fraction : Option (List Char))
    (power : Option Literal.Exponent) {body : List Char}
    (hwhole : Numeral.isWhole whole = true) (hwholeDigit : ∀ c ∈ whole, c.isDigit = true)
    (hfraction : fraction ≠ some []) (hfractionDigit : ∀ c ∈ fraction.getD [], c.isDigit = true)
    (hmarked : fraction ≠ none ∨ power ≠ none)
    (hbody : body = whole ++ (Literal.fractionText fraction ++ Literal.Exponent.textOf power))
    (hvalue : (Number.digitsValue (whole ++ fraction.getD []) : ℚ) *
      10 ^ (Literal.Exponent.valueOf power - (fraction.getD []).length) = digits * 10 ^ exponent) :
    ∃ l, Spelled negative body digits exponent l := by
  have hne : whole ++ fraction.getD [] ≠ [] := fun hnil =>
    Numeral.ne_nil_of_isWhole hwhole (List.append_eq_nil_iff.mp hnil).1
  refine ⟨⟨signOf negative, whole, fraction, power, hwholeDigit, hfractionDigit, hne⟩, ?_,
    signOf_isNegative negative, hvalue, signOf_ne_plus negative, hwhole, hfraction, hmarked⟩
  rw [← signOf_text_append, hbody]
  rfl

/-- Zeros behind the digits, and a point with one more. -/
theorem spelled_of_nonneg (negative : Bool) (h : 0 < digits ∨ exponent = 0)
    (hexponent : 0 ≤ exponent) :
    ∃ l, Spelled negative (positional (Nat.toDigits 10 digits) exponent) digits exponent l := by
  obtain ⟨k, rfl⟩ := Int.eq_ofNat_of_zero_le hexponent
  have hwhole : Numeral.isWhole (Nat.toDigits 10 digits ++ List.replicate k '0') = true := by
    rcases h with hpos | hzero
    · obtain ⟨c, rest, hc, hne⟩ := toDigits_eq_cons hpos
      rw [hc, List.cons_append]
      exact Numeral.isWhole_cons hne _
    · obtain rfl : k = 0 := by exact_mod_cast hzero
      rw [List.replicate_zero, List.append_nil]
      exact Numeral.isWhole_toDigits digits
  refine exists_spelled negative _ (some ['0']) none hwhole ?_ (by simp)
    (List.forall_mem_singleton.mpr rfl) (Or.inl (Option.some_ne_none _)) (if_pos hexponent) ?_
  · exact List.forall_mem_append.mpr ⟨fun c => isDigit_of_mem_toDigits,
      fun c => isDigit_of_mem_replicate_zero⟩
  · have hzero : Number.digitsValue ['0'] = 0 := rfl
    rw [Option.getD_some, Number.digitsValue_append, Number.digitsValue_append,
      digitsValue_toDigits, digitsValue_replicate_zero, List.length_replicate, hzero,
      List.length_singleton, Literal.Exponent.valueOf, zero_sub, zpow_neg, zpow_natCast,
      zpow_natCast]
    push_cast
    ring

/-- A point among the digits. -/
theorem spelled_of_lt_length (negative : Bool) (hdigits : 0 < digits) {places first : Nat}
    (hplaces : 0 < places) (hfirst : 0 < first)
    (hlength : (Nat.toDigits 10 digits).length = first + places) :
    ∃ l, Spelled negative ((Nat.toDigits 10 digits).take first ++
      '.' :: (Nat.toDigits 10 digits).drop first) digits (-places) l := by
  have hall : ∀ c ∈ Nat.toDigits 10 digits, c.isDigit = true := fun c => isDigit_of_mem_toDigits
  have hdrop : ((Nat.toDigits 10 digits).drop first).length = places := by
    rw [List.length_drop, hlength, Nat.add_sub_cancel_left]
  have hwhole : Numeral.isWhole ((Nat.toDigits 10 digits).take first) = true := by
    obtain ⟨c, rest, hc, hne⟩ := toDigits_eq_cons hdigits
    obtain ⟨m, rfl⟩ := Nat.exists_eq_succ_of_ne_zero hfirst.ne_zero
    rw [hc, List.take_succ_cons]
    exact Numeral.isWhole_cons hne _
  refine exists_spelled negative _ (some ((Nat.toDigits 10 digits).drop first)) none hwhole
    (fun c hc => hall c (List.mem_of_mem_take hc)) ?_
    (fun c hc => hall c (List.mem_of_mem_drop hc)) (Or.inl (Option.some_ne_none _)) ?_ ?_
  · intro hnil
    rw [Option.some.inj hnil] at hdrop
    exact hplaces.ne hdrop
  · rw [Literal.fractionText, Literal.Exponent.textOf, List.append_nil]
  · rw [Option.getD_some, List.take_append_drop, digitsValue_toDigits, hdrop,
      Literal.Exponent.valueOf, zero_sub]

/-- A zero and a point in front of the digits, and zeros between if there are places for them. -/
theorem spelled_of_length_le (negative : Bool) (digits : Nat) {places zeros : Nat}
    (hlength : zeros + (Nat.toDigits 10 digits).length = places) :
    ∃ l, Spelled negative ('0' :: '.' :: List.replicate zeros '0' ++ Nat.toDigits 10 digits)
      digits (-places) l := by
  refine exists_spelled negative ['0'] (some (List.replicate zeros '0' ++ Nat.toDigits 10 digits))
    none rfl (List.forall_mem_singleton.mpr rfl) ?_ ?_ (Or.inl (Option.some_ne_none _)) ?_ ?_
  · intro hnil
    exact Nat.toDigits_ne_nil (List.append_eq_nil_iff.mp (Option.some.inj hnil)).2
  · exact List.forall_mem_append.mpr
      ⟨fun c => isDigit_of_mem_replicate_zero, fun c => isDigit_of_mem_toDigits⟩
  · rw [Literal.fractionText, Literal.Exponent.textOf, List.append_nil]
    rfl
  · have hzero : Number.digitsValue ['0'] = 0 := rfl
    rw [Option.getD_some, Number.digitsValue_append, Number.digitsValue_append, hzero,
      digitsValue_replicate_zero, digitsValue_toDigits, List.length_append, List.length_replicate,
      hlength, Literal.Exponent.valueOf, zero_sub, Nat.zero_mul, Nat.zero_mul, Nat.zero_add,
      Nat.zero_add]

theorem spelled_of_neg (negative : Bool) (hdigits : 0 < digits) (hexponent : exponent < 0) :
    ∃ l, Spelled negative (positional (Nat.toDigits 10 digits) exponent) digits exponent l := by
  obtain ⟨places, hplaces⟩ := Int.eq_ofNat_of_zero_le (show 0 ≤ -exponent by omega)
  obtain rfl : exponent = -(places : Int) := by omega
  have hnot : ¬ (0 : Int) ≤ -(places : Int) := by omega
  have habs : (-(places : Int)).natAbs = places := by omega
  unfold positional
  rw [if_neg hnot, habs]
  dsimp only
  split
  · next hlt => exact spelled_of_lt_length negative hdigits (by omega) (by omega) (by omega)
  · next hge => exact spelled_of_length_le negative digits (by omega)

/-- The exponent of a scientific text, which always has a sign. -/
def exponentOf (lead : Int) : Literal.Exponent where
  capital := false
  sign := if lead < 0 then .minus else .plus
  digits := Nat.toDigits 10 lead.natAbs
  digits_ne_nil := Nat.toDigits_ne_nil
  isDigit := fun _ => isDigit_of_mem_toDigits

theorem exponentOf_value (lead : Int) : (exponentOf lead).value = lead := by
  unfold Literal.Exponent.value exponentOf
  rw [digitsValue_toDigits]
  split_ifs with hlead hnegative hnegative
  · omega
  · exact absurd rfl hnegative
  · cases hnegative
  · omega

theorem exponentOf_text (lead : Int) : (exponentOf lead).text =
    'e' :: (if lead < 0 then '-' else '+') :: Nat.toDigits 10 lead.natAbs := by
  unfold Literal.Exponent.text exponentOf
  split <;> rfl

/-- One digit in front of the point, and an exponent. -/
theorem spelled_scientific (negative : Bool) (digits : Nat) (exponent : Int) :
    ∃ l, Spelled negative (scientific (Nat.toDigits 10 digits)
      (exponent + (Nat.toDigits 10 digits).length - 1)) digits exponent l := by
  have hall : ∀ c ∈ Nat.toDigits 10 digits, c.isDigit = true := fun c => isDigit_of_mem_toDigits
  have hvalue := digitsValue_toDigits digits
  have hne : Nat.toDigits 10 digits ≠ [] := Nat.toDigits_ne_nil
  generalize Nat.toDigits 10 digits = ds at hall hvalue hne
  generalize hlead : exponent + ds.length - 1 = lead
  match ds with
  | [] => exact absurd rfl hne
  | [d] =>
    -- no point stands behind a single digit
    refine exists_spelled negative [d] none (some (exponentOf lead)) (Numeral.isWhole_singleton d)
      hall (by simp) (List.forall_mem_nil _) (Or.inr (Option.some_ne_none _)) ?_ ?_
    · rw [Literal.Exponent.textOf, exponentOf_text]
      rfl
    · rw [Option.getD_none, List.append_nil, hvalue, Literal.Exponent.valueOf, exponentOf_value,
        ← hlead]
      simp
  | d :: next :: rest =>
    obtain ⟨hd, hrest⟩ := List.forall_mem_cons.mp hall
    refine exists_spelled negative [d] (some (next :: rest)) (some (exponentOf lead))
      (Numeral.isWhole_singleton d) (List.forall_mem_singleton.mpr hd) (by simp) hrest
      (Or.inr (Option.some_ne_none _)) ?_ ?_
    · rw [Literal.Exponent.textOf, exponentOf_text]
      rfl
    · rw [Option.getD_some, List.singleton_append, hvalue, Literal.Exponent.valueOf,
        exponentOf_value, ← hlead, List.length_cons]
      congr 2
      push_cast
      omega

end Spelling

/-- The text of a number is a literal for its shortest decimal. -/
theorem exists_literal_floatText (x : Binary64) : ∃ l : Literal, l.text = floatText x ∧
    SpellsFloat l ∧ l.decimal.negative = x.negative ∧
      l.value = Binary64.signed x.negative x.shortest.value := by
  have hdigits : 0 < x.shortest.digits ∨ x.shortest.exponent = 0 := by
    cases hx : x.isZero with
    | true => exact Or.inr (by rw [Binary64.shortest_of_isZero hx])
    | false => exact Or.inl (Binary64.shortest_digits_pos hx)
  have hspelled : ∃ body, floatText x = (if x.negative then '-' :: body else body) ∧
      ∃ l, Spelled x.negative body x.shortest.digits x.shortest.exponent l := by
    refine ⟨_, rfl, ?_⟩
    split
    · by_cases hexponent : 0 ≤ x.shortest.exponent
      · exact spelled_of_nonneg x.negative hdigits hexponent
      · exact spelled_of_neg x.negative
          (hdigits.resolve_right fun hzero => hexponent hzero.ge) (not_le.mp hexponent)
    · exact spelled_scientific x.negative x.shortest.digits x.shortest.exponent
  obtain ⟨body, hbody, l, hl⟩ := hspelled
  refine ⟨l, hl.text.trans hbody.symm, hl.spells, hl.negative, ?_⟩
  rw [← l.value_decimal, Decimal.value, hl.value]
  exact congrArg (Binary64.signed · _) hl.negative

/-! ## Reading the text again -/

/-- A reader that rounds correctly finds the number again. -/
theorem read?_floatText (x : Binary64) : Binary64.read? (floatText x) = some x := by
  cases hx : x.isZero with
  | true =>
    have hzero : ∀ negative, Binary64.read? (floatText (.zero negative)) =
        some (.zero negative) := by decide
    rw [Binary64.eq_zero_of_isZero hx]
    exact hzero x.negative
  | false =>
    obtain ⟨l, htext, -, -, hvalue⟩ := exists_literal_floatText x
    have hread := Binary64.rounded_read? l
    rw [htext, hvalue] at hread
    have hmap := hread.map_value_eq x.rounded_shortest
    obtain ⟨y, hy, hyx⟩ := Option.map_eq_some_iff.mp hmap
    rw [hy, Binary64.eq_of_value_eq hyx.symm hx]

theorem floatText_injective : Function.Injective floatText := by
  intro x y h
  have hx := read?_floatText x
  rw [h, read?_floatText y] at hx
  exact (Option.some.inj hx).symm

theorem inWord_floatText (x : Binary64) : ∀ c ∈ floatText x, Token.inWord c = true := by
  obtain ⟨l, htext, -⟩ := exists_literal_floatText x
  intro c hc
  rw [← htext] at hc
  rcases Literal.mem_text hc with hdigit | hmark
  · simp [Token.inWord, Char.isAlphanum, hdigit]
  · have hall : ['+', '-', '.', 'e', 'E'].all Token.inWord = true := by decide
    exact List.all_eq_true.mp hall c hmark

theorem floatText_ne_nil (x : Binary64) : floatText x ≠ [] := by
  intro hnil
  have hread := read?_floatText x
  rw [hnil] at hread
  cases hread

end CardArchive.Json
