import CardArchive.Proofs.CarriedText
import Mathlib.Data.List.Induction

/-!
# Integers under the keys of texts

A column of texts keeps a number as the text that the number is written with. For an integer literal
this is the literal itself exactly when the number can be held as an integer: it lies within the
signed or the unsigned integers of 64 bits, and it is not a zero with a sign. Everything else is held
as a floating point number, whose text always has a point or an exponent.
-/

namespace CardArchive.Json

/-- An integer as JSON spells it: a minus sign or none, and digits without a zero in front. -/
structure WholeLiteral where
  negative : Bool
  digits : List Char
  isDigit : ∀ c ∈ digits, c.isDigit = true
  ne_nil : digits ≠ []
  noLeadingZero : digits.head? = some '0' → digits = ['0']

namespace WholeLiteral

variable (l : WholeLiteral)

/-- The literal as it is written. -/
def text : List Char := if l.negative then '-' :: l.digits else l.digits

/-- The integer that it denotes. -/
def value : Int :=
  if l.negative then -(Number.digitsValue l.digits : Int) else Number.digitsValue l.digits

end WholeLiteral

/-! ## Digits and their value -/

theorem digitChar_of_isDigit {c : Char} (h : c.isDigit = true) :
    c.toNat - '0'.toNat < 10 ∧ Nat.digitChar (c.toNat - '0'.toNat) = c := by
  have hall : ∀ n < 10, Nat.digitChar n = Char.ofNat (n + '0'.toNat) := by decide
  have hrange : '0'.toNat ≤ c.toNat ∧ c.toNat ≤ '9'.toNat := by
    simpa [Char.isDigit, Char.le_def, UInt32.le_iff_toNat_le] using h
  have hlt : c.toNat - '0'.toNat < 10 := by
    have hnine : '9'.toNat = '0'.toNat + 9 := rfl
    omega
  refine ⟨hlt, ?_⟩
  rw [hall _ hlt, Nat.sub_add_cancel hrange.1, Char.ofNat_toNat]

/-- Digits without a zero in front are those of their value. -/
theorem toDigits_digitsValue {digits : List Char} (hdigit : ∀ c ∈ digits, c.isDigit = true)
    (hne : digits ≠ []) (hzero : digits.head? = some '0' → digits = ['0']) :
    Nat.toDigits 10 (Number.digitsValue digits) = digits := by
  -- the value is folded from the front, so the last digit is the one to take off
  induction digits using List.reverseRecOn with
  | nil => exact absurd rfl hne
  | append_singleton front c ih =>
    obtain ⟨hfront, hc⟩ := List.forall_mem_append.mp hdigit
    obtain ⟨hlt, hchar⟩ := digitChar_of_isDigit (hc c (List.mem_singleton_self c))
    have hvalue : Number.digitsValue (front ++ [c]) =
        10 * Number.digitsValue front + (c.toNat - '0'.toNat) := by
      rw [Number.digitsValue, List.foldl_append]
      rfl
    by_cases hnil : front = []
    · subst hnil
      rw [hvalue, Number.digitsValue, List.foldl_nil, Nat.mul_zero, Nat.zero_add,
        Nat.toDigits_of_lt_base hlt, hchar, List.nil_append]
    · have hhead : front.head? ≠ some '0' := by
        intro h
        have hall := hzero (by rw [List.head?_append_of_ne_nil _ hnil, h])
        have hlength := congrArg List.length hall
        rw [List.length_append, List.length_singleton, List.length_singleton] at hlength
        exact hnil (List.length_eq_zero_iff.mp (by omega))
      have hrest := ih hfront hnil fun h => absurd h hhead
      have hpos : 0 < Number.digitsValue front := by
        refine Nat.pos_of_ne_zero fun hvalue => hhead ?_
        rw [hvalue, Nat.toDigits_zero] at hrest
        rw [← hrest]
        rfl
      rw [hvalue, ← Nat.toDigits_append_toDigits (by decide) hpos hlt, hrest,
        Nat.toDigits_of_lt_base hlt, hchar]

namespace WholeLiteral

variable {l : WholeLiteral}

theorem toDigits_value (l : WholeLiteral) : Nat.toDigits 10 l.value.natAbs = l.digits := by
  have habs : l.value.natAbs = Number.digitsValue l.digits := by
    unfold value
    split <;> omega
  rw [habs, toDigits_digitsValue l.isDigit l.ne_nil l.noLeadingZero]

/-- Every literal but a zero with a sign is the text of its value. -/
theorem integerText_value (h : l.text ≠ ['-', '0']) : integerText l.value = l.text := by
  have hdigits := l.toDigits_value
  rw [integerText, hdigits, text]
  cases hnegative : l.negative with
  | false =>
    have hnot : ¬ l.value < 0 := by
      rw [value, hnegative]
      exact Int.not_lt.mpr (Int.natCast_nonneg _)
    rw [if_neg hnot]
    rfl
  | true =>
    have hlt : l.value < 0 := by
      -- a literal with a sign whose value is not negative is the zero that is left out
      refine Int.lt_of_not_ge fun hge => h ?_
      have hvalue : l.value = -(Number.digitsValue l.digits : Int) := by
        rw [value, hnegative]
        rfl
      have hzero : l.value.natAbs = 0 := by omega
      rw [hzero, Nat.toDigits_zero] at hdigits
      rw [text, hnegative, ← hdigits]
      rfl
    rw [if_pos hlt]
    rfl

theorem mem_text {c : Char} (h : c ∈ l.text) : c.isDigit = true ∨ c = '-' := by
  rw [text] at h
  split at h
  · rcases List.mem_cons.mp h with rfl | h
    · exact Or.inr rfl
    · exact Or.inl (l.isDigit c h)
  · exact Or.inl (l.isDigit c h)

theorem text_ne {w : List Char} {c : Char} (hc : c ∈ w) (hdigit : c.isDigit = false)
    (hminus : c ≠ '-') : l.text ≠ w := by
  rintro rfl
  rcases mem_text hc with h | h
  · exact Bool.false_ne_true (hdigit.symm.trans h)
  · exact hminus h

theorem writes_text (l : WholeLiteral) : Writes l.text [.word l.text] := by
  refine writes_word ?_ fun c hc => ?_
  · rw [text]
    split
    · exact List.cons_ne_nil _ _
    · exact l.ne_nil
  · rcases mem_text hc with h | rfl
    · simp [Token.inWord, Char.isAlphanum, h]
    · decide

end WholeLiteral

/-! ## Numbers that are read -/

theorem Numeral.gather_lt {significand : Nat} (h : significand < significandLimit)
    (digits : List Char) : (gather significand digits).1 < significandLimit := by
  induction digits generalizing significand with
  | nil => exact h
  | cons c rest ih =>
    rw [gather]
    split
    · next hnext => exact ih hnext
    · exact h

theorem Numeral.fits_of_value {x : Numeral} {n : Int} (h : x.value = some (.integer n)) :
    Fits n := by
  have hlt := gather_lt (show 0 < significandLimit by decide) x.whole
  -- only the branch that makes an integer can have made this one
  have hfloat : ∀ {y : Option Binary64} {f : Binary64 → Binary64},
      y.map (fun z => Json.float (f z)) ≠ some (.integer n) := by
    intro y f hy
    obtain ⟨z, -, hz⟩ := Option.map_eq_some_iff.mp hy
    cases hz
  unfold value at h
  simp only at h
  split at h
  · split at h
    · next m hm =>
      cases h
      unfold integer? at hm
      rw [significandLimit] at hlt
      split at hm
      · obtain ⟨hrange, hn⟩ := Option.ite_none_right_eq_some.mp hm
        simp only [Bool.and_eq_true, decide_eq_true_eq] at hrange
        obtain rfl := Option.some.inj hn
        unfold Fits
        omega
      · obtain rfl := Option.some.inj hm
        unfold Fits
        omega
    · exact absurd h hfloat
  · exact absurd h hfloat

theorem Numeral.gather_of_isEmpty {significand : Nat} {digits : List Char}
    (h : (gather significand digits).2.isEmpty = true) :
    (gather significand digits).1 = Nat.ofDigitChars 10 digits significand := by
  induction digits generalizing significand with
  | nil => rfl
  | cons c rest ih =>
    rw [gather] at h ⊢
    split at h
    · next hnext =>
      rw [if_pos hnext, Nat.ofDigitChars_cons]
      exact ih h
    · cases h

/-- Where digits are read as an integer, all of them count, and the integer is not zero after a
sign. -/
theorem Numeral.integer_of_value_ofDigits {negative : Bool} {digits : List Char} {n : Int}
    (h : (ofDigits negative digits).value = some (.integer n)) :
    n = (if negative then -(Number.digitsValue digits : Int) else Number.digitsValue digits) ∧
      (negative = true → 0 < Number.digitsValue digits) := by
  unfold value at h
  simp only [ofDigits, Bool.true_and] at h
  split at h
  · next hempty =>
    rw [gather_of_isEmpty hempty] at h
    split at h
    · next m hm =>
      cases h
      change integer? negative (Number.digitsValue digits) = some n at hm
      unfold integer? at hm
      split at hm
      · next hnegative =>
        obtain ⟨hrange, hn⟩ := Option.ite_none_right_eq_some.mp hm
        simp only [Bool.and_eq_true, decide_eq_true_eq] at hrange
        rw [if_pos hnegative]
        exact ⟨(Option.some.inj hn).symm, fun _ => hrange.1⟩
      · next hnegative =>
        rw [if_neg hnegative]
        exact ⟨(Option.some.inj hm).symm, fun h => absurd h hnegative⟩
    · obtain ⟨f, -, hf⟩ := Option.map_eq_some_iff.mp h
      cases hf
  · obtain ⟨f, -, hf⟩ := Option.map_eq_some_iff.mp h
    cases hf

namespace WholeLiteral

variable {l : WholeLiteral}

theorem wordValue?_text (l : WholeLiteral) :
    wordValue? l.text = (Numeral.ofDigits l.negative l.digits).value := by
  have hnull : l.text ≠ "null".toList := text_ne (c := 'n') (by decide) (by decide) (by decide)
  have htrue : l.text ≠ "true".toList := text_ne (c := 't') (by decide) (by decide) (by decide)
  have hfalse : l.text ≠ "false".toList := text_ne (c := 'f') (by decide) (by decide) (by decide)
  have hwhole : Numeral.isWhole l.digits = true := by
    unfold Numeral.isWhole
    split
    · next h => exact absurd h l.ne_nil
    · next rest h =>
      have hall := l.noLeadingZero (by rw [h]; rfl)
      rw [h] at hall
      rw [(List.cons.inj hall).2]
      rfl
    · rfl
  obtain ⟨hplain, hminus⟩ := Numeral.read?_digits l.isDigit hwhole
  rw [wordValue?, if_neg hnull, if_neg htrue, if_neg hfalse, text]
  split
  · next hnegative => rw [hminus, hnegative, Option.bind_some]
  · next hnegative => rw [hplain, Bool.eq_false_iff.mpr hnegative, Option.bind_some]

theorem wordValue?_cases {v : Json} (h : wordValue? l.text = some v) :
    (∃ n, v = .integer n) ∨ ∃ x, v = .float x := by
  rw [wordValue?_text] at h
  exact Numeral.value_cases h

/-- A literal is read as an integer exactly when that integer has 64 bits and is no zero with a
sign, and then it is its own text. -/
theorem wordValue?_eq_integer_iff {n : Int} : wordValue? l.text = some (.integer n) ↔
    n = l.value ∧ Fits l.value ∧ l.text ≠ ['-', '0'] := by
  constructor
  · intro h
    rw [wordValue?_text] at h
    obtain ⟨hn, hpos⟩ := Numeral.integer_of_value_ofDigits h
    have hvalue : n = l.value := hn
    refine ⟨hvalue, hvalue ▸ Numeral.fits_of_value h, fun hzero => ?_⟩
    rw [text] at hzero
    split at hzero
    · next hnegative =>
      have hlt := hpos hnegative
      rw [(List.cons.inj hzero).2] at hlt
      exact absurd hlt (by decide)
    · have hdigit := l.isDigit '-' (hzero ▸ List.mem_cons_self)
      exact absurd hdigit (by decide)
  · rintro ⟨rfl, hfits, hne⟩
    rw [← integerText_value hne]
    exact wordValue?_integerText hfits

end WholeLiteral

/-! ## Texts of floating point numbers -/

theorem point_mem_positional (digits : List Char) (exponent : Int) :
    '.' ∈ positional digits exponent := by
  unfold positional
  split
  · simp
  · dsimp only
    split
    · simp
    · simp

theorem e_mem_scientific (digits : List Char) (lead : Int) : 'e' ∈ scientific digits lead := by
  unfold scientific
  simp

theorem WholeLiteral.floatText_ne (l : WholeLiteral) (x : Binary64) : floatText x ≠ l.text := by
  have hmark : ∃ c ∈ floatText x, c.isDigit = false ∧ c ≠ '-' := by
    have hbody : ∀ body : List Char, ('.' ∈ body ∨ 'e' ∈ body) →
        ∃ c ∈ if x.negative then '-' :: body else body, c.isDigit = false ∧ c ≠ '-' := by
      rintro body (hmem | hmem)
      · exact ⟨'.', by split <;> simp [hmem], by decide, by decide⟩
      · exact ⟨'e', by split <;> simp [hmem], by decide, by decide⟩
    refine hbody _ ?_
    split
    · exact Or.inl (point_mem_positional _ _)
    · exact Or.inr (e_mem_scientific _ _)
  obtain ⟨c, hc, hdigit, hminus⟩ := hmark
  exact (l.text_ne hc hdigit hminus).symm

/-- The text that a literal leads to is the literal again where the value is an integer of 64 bits
and not a zero with a sign, and nowhere else. -/
theorem WholeLiteral.text_eq_ok_iff {l : WholeLiteral} {v : Json}
    (h : wordValue? l.text = some v) :
    Record.text v = .ok (some (String.ofList l.text)) ↔ Fits l.value ∧ l.text ≠ ['-', '0'] := by
  constructor
  · intro htext
    rcases wordValue?_cases h with ⟨n, rfl⟩ | ⟨x, rfl⟩
    · exact (wordValue?_eq_integer_iff.mp h).2
    · exact absurd (String.ofList_injective (Option.some.inj (Except.ok.inj htext)))
        (l.floatText_ne x)
  · rintro ⟨hfits, hne⟩
    have hread := wordValue?_eq_integer_iff.mpr ⟨rfl, hfits, hne⟩
    rw [h] at hread
    obtain rfl := Option.some.inj hread
    rw [Record.text, integerText_value hne]

end CardArchive.Json

namespace CardArchive.Row

open Json

variable {key : String}

theorem exists_ofLine_literal (l : WholeLiteral) (s : Setting key) (hkey : key ∈ requiredKeys)
    (htext : (key, .text) ∈ sourceKeys) (haccepted : Accepted (s.pairs .null)) {v : Json}
    (hv : wordValue? l.text = some v) : ∃ row text, ofLine (s.line l.text) = .ok row ∧
      Record.text v = .ok text ∧ row.under? key = some (.ofText? text) := by
  have hdescription : key ≠ "DESCRIPTION" := by
    rintro rfl
    exact absurd hkey (by decide)
  obtain ⟨row, hline, hrow⟩ := exists_ofLine_setting s l.writes_text (.word hv) hdescription
    (not_refuses_of_text htext (WholeLiteral.wordValue?_cases hv)) haccepted
  obtain ⟨text, hread, hcell⟩ := under?_text hrow htext
  rw [s.lastValue_self] at hread
  exact ⟨row, text, hline, hread, hcell⟩

/-- Where the literal can be read, it is kept exactly when its value has it for a text. -/
theorem literal_kept_iff_of_read (l : WholeLiteral) (s : Setting key) (hkey : key ∈ requiredKeys)
    (htext : (key, .text) ∈ sourceKeys) (haccepted : Accepted (s.pairs .null)) {v : Json}
    (hv : wordValue? l.text = some v) :
    (∃ row, ofLine (s.line l.text) = .ok row ∧
        row.under? key = some (.text (String.ofList l.text))) ↔
      Fits l.value ∧ l.text ≠ ['-', '0'] := by
  obtain ⟨row, text, hline, hread, hcell⟩ := exists_ofLine_literal l s hkey htext haccepted hv
  rw [← WholeLiteral.text_eq_ok_iff hv, hread]
  constructor
  · rintro ⟨row', hline', hcell'⟩
    rw [hline] at hline'
    cases hline'
    rw [hcell] at hcell'
    cases text with
    | none => cases hcell'
    | some text =>
      cases hcell'
      rfl
  · intro h
    obtain rfl := Except.ok.inj h
    exact ⟨row, hline, hcell⟩

/-- A record with an integer literal under the key of a text keeps the literal as it is exactly when
the integer has 64 bits and is no zero with a sign. Otherwise the literal is read as a floating point
number and kept as the text of that, or the line is refused because there is no such number. -/
theorem integer_literal_kept_iff (l : WholeLiteral) (s : Setting key) (hkey : key ∈ requiredKeys)
    (htext : (key, .text) ∈ sourceKeys) (haccepted : Accepted (s.pairs .null)) :
    ((∃ row, ofLine (s.line l.text) = .ok row ∧
        row.under? key = some (.text (String.ofList l.text))) ↔
      Fits l.value ∧ l.text ≠ ['-', '0']) ∧
    (¬(Fits l.value ∧ l.text ≠ ['-', '0']) →
      ofLine (s.line l.text) = .error (.malformed .syntaxError) ∨
      ∃ row x, wordValue? l.text = some (.float x) ∧ ofLine (s.line l.text) = .ok row ∧
        row.under? key = some (.text (Json.float x).compact)) := by
  cases hv : wordValue? l.text with
  | none =>
    have herror := ofLine_of_parse?_eq_none
      (s.parse?_line_eq_none l.writes_text (List.mem_singleton_self _) hv)
    refine ⟨⟨?_, ?_⟩, fun _ => Or.inl herror⟩
    · rintro ⟨row, hline, -⟩
      rw [herror] at hline
      cases hline
    · rintro ⟨hfits, hne⟩
      have hread := WholeLiteral.wordValue?_eq_integer_iff.mpr ⟨rfl, hfits, hne⟩
      rw [hv] at hread
      cases hread
  | some v =>
    refine ⟨literal_kept_iff_of_read l s hkey htext haccepted hv, fun hnot => Or.inr ?_⟩
    obtain ⟨row, text, hline, hread, hcell⟩ := exists_ofLine_literal l s hkey htext haccepted hv
    rcases WholeLiteral.wordValue?_cases hv with ⟨n, rfl⟩ | ⟨x, rfl⟩
    · exact absurd (WholeLiteral.wordValue?_eq_integer_iff.mp hv).2 hnot
    · obtain rfl := Except.ok.inj hread
      refine ⟨row, x, rfl, hline, ?_⟩
      rw [compact_float]
      exact hcell

/-- The least integer of 64 bits. -/
def leastLiteral : WholeLiteral where
  negative := true
  digits := "9223372036854775808".toList
  isDigit := List.all_eq_true.mp (by decide)
  ne_nil := by decide
  noLeadingZero := by decide

theorem integer_literal_kept_iff_least :
    ∃ row, ofLine ((Setting.bare "NAME").line leastLiteral.text) = .ok row ∧
      row.under? "NAME" = some (.text "-9223372036854775808") := by
  obtain ⟨hkept, -⟩ := integer_literal_kept_iff leastLiteral (Setting.bare "NAME") (by decide)
    (by decide) (Setting.accepted_bare (by decide) (by decide))
  exact hkept.mpr ⟨⟨by decide, by decide⟩, by decide⟩

/-- One more than the largest integer of 64 bits. -/
def pastLargestLiteral : WholeLiteral where
  negative := false
  digits := "18446744073709551616".toList
  isDigit := List.all_eq_true.mp (by decide)
  ne_nil := by decide
  noLeadingZero := by decide

/-- A record that is acceptable otherwise does not keep this literal. -/
theorem integer_literal_past_largest_replaced :
    Accepted ((Setting.bare "NAME").pairs .null) ∧
      ((ofLine ((Setting.bare "NAME").line pastLargestLiteral.text)).toOption.bind
        (under? · "NAME")) = some (.text "1.8446744073709552e+19") :=
  ⟨Setting.accepted_bare (by decide) (by decide), by decide +kernel⟩

end CardArchive.Row
