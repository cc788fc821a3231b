import CardArchive.Card.Population
import CardArchive.Proofs.DecimalLiteral
import CardArchive.Proofs.JsonNumber

/-!
# Populations by their words

A population is read off a text that is first put together from two words, searched for the short
tags and cut apart again. This module says what comes out in terms of the words alone. The tags have
one blank, and so has the text between its two words, so that a tag can stand at one place only
(`tag_infix_iff`); spelled out there, the text still has one blank and is cut into two pieces
(`ofText_of_leadingWords`). What the two pieces give is said by `Judgement`, with the magnitude as a
literal and the rounding as exact arithmetic.
-/

namespace CardArchive

/-- The same error, said of another description. -/
def PopulationError.about (description : String) : PopulationError → PopulationError
  | missingUnit _ => missingUnit description
  | invalidMagnitude magnitude _ => invalidMagnitude magnitude description
  | unknownUnit unit _ => unknownUnit unit description
  | outOfRange _ => outOfRange description

namespace Population

open Text Binary64

/-! ## Short tags -/

/-- The word that a short tag stands in front of. -/
def tagWord : List Char := "Population".toList

/-- A letter in front of that word, with one blank between. -/
def tag (letter : Char) : List Char := letter :: ' ' :: tagWord

/-- The first word ends with the letter of a tag and the second begins with its word. -/
def Tagged (letter : Char) (first second : List Char) : Prop :=
  first.getLast? = some letter ∧ tagWord <+: second

instance (letter : Char) (first second : List Char) : Decidable (Tagged letter first second) :=
  inferInstanceAs (Decidable (_ ∧ _))

/-- The magnitude and the unit that two words spell. -/
def spelled (first second : List Char) : List Char × List Char :=
  if Tagged 'b' first second then
    (first.dropLast, "billion".toList ++ second.drop tagWord.length)
  else if Tagged 'm' first second then
    (first.dropLast, "million".toList ++ second.drop tagWord.length)
  else (first, second)

theorem blank_not_mem {w : List Char} (hw : IsWord w) : ' ' ∉ w := fun h =>
  absurd (hw.not_blank ' ' h) (by decide)

theorem tag_append (letter : Char) (x y : List Char) :
    x ++ tag letter ++ y = (x ++ [letter]) ++ ' ' :: (tagWord ++ y) := by
  simp only [tag, List.append_assoc, List.cons_append, List.nil_append]

section Tags

variable {letter : Char} {first second : List Char}

theorem Tagged.eq_append (h : Tagged letter first second) :
    first ++ ' ' :: second =
      first.dropLast ++ tag letter ++ second.drop tagWord.length := by
  obtain ⟨hlast, y, rfl⟩ := h
  rw [tag_append, List.drop_left, List.dropLast_append_getLast? letter hlast]

/-- A tag stands in two words joined by a blank only if it joins them. -/
theorem eq_of_tag_append (hfirst : ' ' ∉ first) (hsecond : ' ' ∉ second) {x y : List Char}
    (h : x ++ tag letter ++ y = first ++ ' ' :: second) :
    first = x ++ [letter] ∧ second = tagWord ++ y := by
  rw [tag_append] at h
  obtain ⟨hx, hy⟩ := append_cons_inj hfirst hsecond h
  exact ⟨hx.symm, hy.symm⟩

theorem tag_infix_iff (hfirst : ' ' ∉ first) (hsecond : ' ' ∉ second) :
    tag letter <:+: first ++ ' ' :: second ↔ Tagged letter first second := by
  constructor
  · rintro ⟨x, y, h⟩
    obtain ⟨rfl, rfl⟩ := eq_of_tag_append hfirst hsecond h
    exact ⟨List.getLast?_concat, List.prefix_append _ _⟩
  · intro h
    exact ⟨_, _, h.eq_append.symm⟩

/-- Spelling out a tag changes the two words and leaves the blank between them. -/
theorem replaceAll_tag (h : Tagged letter first second) (hfirst : ' ' ∉ first)
    (hsecond : ' ' ∉ second) (word : List Char) :
    replaceAll (tag letter) (' ' :: word) (first ++ ' ' :: second) =
      first.dropLast ++ ' ' :: (word ++ second.drop tagWord.length) := by
  have hne : tag letter ≠ [] := List.cons_ne_nil _ _
  rw [h.eq_append, replaceAll_append hne fun x y hxy => ?_]
  · rw [List.append_assoc, List.cons_append]
  · rw [← h.eq_append] at hxy
    rw [(eq_of_tag_append hfirst hsecond hxy).1, List.dropLast_concat]

end Tags

theorem spellOut_append {first second : List Char} (hfirst : ' ' ∉ first) (hsecond : ' ' ∉ second) :
    spellOut (first ++ ' ' :: second) =
      (spelled first second).1 ++ ' ' :: (spelled first second).2 := by
  have hbillion : billionTag = tag 'b' := rfl
  have hmillion : millionTag = tag 'm' := rfl
  simp only [spellOut, hbillion, hmillion, occursIn_iff, tag_infix_iff hfirst hsecond, spelled]
  split
  next h => exact replaceAll_tag h hfirst hsecond _
  next =>
    split
    next h => exact replaceAll_tag h hfirst hsecond _
    next => rfl

theorem blank_not_mem_spelled {first second : List Char} (hfirst : ' ' ∉ first)
    (hsecond : ' ' ∉ second) : ' ' ∉ (spelled first second).1 ∧ ' ' ∉ (spelled first second).2 := by
  have hdropLast : ' ' ∉ first.dropLast := fun h => hfirst (List.mem_of_mem_dropLast h)
  have hdrop : ' ' ∉ second.drop tagWord.length := fun h => hsecond (List.mem_of_mem_drop h)
  have happend : ∀ word : List Char, ' ' ∉ word → ' ' ∉ word ++ second.drop tagWord.length :=
    fun word hword h => (List.mem_append.1 h).elim hword hdrop
  unfold spelled
  split
  · exact ⟨hdropLast, happend _ (by decide)⟩
  · split
    · exact ⟨hdropLast, happend _ (by decide)⟩
    · exact ⟨hfirst, hsecond⟩

/-! ## Cutting apart -/

/-- What is made of a magnitude and a unit. The way of scaling is left open, so that the order of the
checks is a matter apart from the arithmetic. -/
def judge (scale : Binary64 → Nat → Option Int) (description : String) (magnitude unit : List Char) :
    Except PopulationError Int :=
  match Binary64.read? magnitude with
  | none => .error (.invalidMagnitude (String.ofList magnitude) description)
  | some value =>
    match unitExponent? unit with
    | none => .error (.unknownUnit (String.ofList unit) description)
    | some exponent =>
      match scale value exponent with
      | none => .error (.outOfRange description)
      | some population => .ok population

section Judge

variable {scale : Binary64 → Nat → Option Int} {magnitude unit : List Char} {x : Binary64}
  {exponent : Nat} (description : String)

theorem judge_of_unread (h : Binary64.read? magnitude = none) :
    judge scale description magnitude unit =
      .error (.invalidMagnitude (String.ofList magnitude) description) := by
  simp only [judge, h]

theorem judge_of_unknown (hx : Binary64.read? magnitude = some x) (h : unitExponent? unit = none) :
    judge scale description magnitude unit =
      .error (.unknownUnit (String.ofList unit) description) := by
  simp only [judge, hx, h]

theorem judge_of_known (hx : Binary64.read? magnitude = some x)
    (h : unitExponent? unit = some exponent) : judge scale description magnitude unit =
      (scale x exponent).elim (.error (.outOfRange description)) .ok := by
  simp only [judge, hx, h]
  cases scale x exponent <;> rfl

/-- The description counts for nothing but the text of an error. -/
theorem judge_about (other : String) : judge scale other magnitude unit =
    (judge scale description magnitude unit).mapError (PopulationError.about other) := by
  unfold judge
  cases Binary64.read? magnitude with
  | none => rfl
  | some x =>
    cases unitExponent? unit with
    | none => rfl
    | some exponent =>
      dsimp only
      cases scale x exponent <;> rfl

end Judge

variable {description : String} {first second : List Char}

/-- Two words are judged by the magnitude and the unit that they spell. -/
theorem ofText_of_leadingWords (h : LeadingWords description.toList first second) :
    ofText description =
      judge scaled? description (spelled first second).1 (spelled first second).2 := by
  obtain ⟨others, hwords⟩ := words_of_leadingWords h
  obtain ⟨-, -, -, -, -, hfirst, -, -, hsecond, -⟩ := h
  have hfirst := blank_not_mem hfirst
  have hsecond := blank_not_mem hsecond
  obtain ⟨hmagnitude, hunit⟩ := blank_not_mem_spelled hfirst hsecond
  have hstart : [' '].intercalate ((words description.toList).take 2) =
      first ++ ' ' :: second := by
    rw [hwords]
    simp [List.intercalate]
  rw [ofText, hstart, spellOut_append hfirst hsecond, splitAll_append_cons hmagnitude,
    splitAll_of_not_mem hunit]
  rfl

/-- A text without a blank has no tag. -/
theorem spellOut_of_not_mem {s : List Char} (h : ' ' ∉ s) : spellOut s = s := by
  have habsent : ∀ letter, occursIn (tag letter) s = false := by
    intro letter
    rw [← Bool.not_eq_true, occursIn_iff]
    intro hfound
    exact h (hfound.subset (List.mem_cons_of_mem _ List.mem_cons_self))
  have hbillion : occursIn billionTag s = false := habsent 'b'
  have hmillion : occursIn millionTag s = false := habsent 'm'
  rw [spellOut, hbillion, hmillion]
  rfl

/-- With fewer than two words there is no unit. -/
theorem ofText_of_not_leadingWords
    (h : ¬ ∃ first second, LeadingWords description.toList first second) :
    ofText description = .error (.missingUnit description) := by
  have hstart : ' ' ∉ [' '].intercalate ((words description.toList).take 2) := by
    rcases (leadingWords_cases description.toList).resolve_left h with hnil | ⟨w, hw, hone⟩
    · rw [hnil]
      simp [List.intercalate]
    · rw [hone]
      simpa [List.intercalate] using blank_not_mem hw
  rw [ofText, spellOut_of_not_mem hstart, splitAll_of_not_mem hstart]

/-! ## What a magnitude and a unit give -/

/-- The spellings of a unit, with the power of ten. -/
inductive UnitOf : List Char → Nat → Prop where
  | million : UnitOf "million".toList 6
  | m : UnitOf "m".toList 6
  | billion : UnitOf "billion".toList 9
  | b : UnitOf "b".toList 9

theorem unitExponent?_eq_some_iff {unit : List Char} {exponent : Nat} :
    unitExponent? unit = some exponent ↔ UnitOf unit exponent := by
  constructor
  · intro h
    unfold unitExponent? at h
    split at h
    next hunit =>
      rw [← Option.some.inj h]
      rcases hunit with rfl | rfl
      · exact .million
      · exact .m
    next =>
      split at h
      next hunit =>
        rw [← Option.some.inj h]
        rcases hunit with rfl | rfl
        · exact .billion
        · exact .b
      next => cases h
  · intro h
    cases h <;> decide

/-- An integer of 64 bits with a sign. -/
def InRange (n : Int) : Prop := -0x8000000000000000 ≤ n ∧ n < 0x8000000000000000

/-- What a magnitude and a unit give: the magnitude is looked at first, then the unit; the magnitude
is rounded to a binary number, scaled with one more rounding, and rounded to an integer. -/
inductive Judgement (description : String) (magnitude unit : List Char) :
    Except PopulationError Int → Prop where
  /-- The magnitude is no literal, or one beyond the finite numbers. -/
  | invalidMagnitude (h : ∀ l : Literal, l.text = magnitude → Rounded l.value none) :
    Judgement description magnitude unit
      (.error (.invalidMagnitude (String.ofList magnitude) description))
  | unknownUnit {l : Literal} {x : Binary64} (hl : l.text = magnitude)
      (hx : Rounded l.value (some x)) (hunit : ∀ exponent, ¬ UnitOf unit exponent) :
    Judgement description magnitude unit
      (.error (.unknownUnit (String.ofList unit) description))
  | outOfRange {l : Literal} {x : Binary64} {exponent : Nat} {product : Option Binary64}
      (hl : l.text = magnitude) (hx : Rounded l.value (some x)) (hunit : UnitOf unit exponent)
      (hproduct : Rounded (x.value * 10 ^ exponent) product)
      (hrange : ∀ y ∈ product, ¬ InRange (roundHalfAway y.value)) :
    Judgement description magnitude unit (.error (.outOfRange description))
  | population {l : Literal} {x y : Binary64} {exponent : Nat}
      (hl : l.text = magnitude) (hx : Rounded l.value (some x)) (hunit : UnitOf unit exponent)
      (hproduct : Rounded (x.value * 10 ^ exponent) (some y))
      (hrange : InRange (roundHalfAway y.value)) :
    Judgement description magnitude unit (.ok (roundHalfAway y.value))

/-- The powers of ten of the units are numbers exactly. -/
theorem exists_ofNat_of_unitOf {unit : List Char} {exponent : Nat} (h : UnitOf unit exponent) :
    ∃ factor, Binary64.ofNat (Nat.pow 10 exponent) = some factor ∧
      factor.value = 10 ^ exponent := by
  have hunits : (Binary64.ofNat (Nat.pow 10 exponent)).map (fun f => (f.negative, f.units)) =
      some (false, Nat.pow 10 exponent * unitsPerOne) := by
    cases h <;> decide +kernel
  obtain ⟨factor, hfactor, hpair⟩ := Option.map_eq_some_iff.1 hunits
  obtain ⟨hsign, hcount⟩ := Prod.mk.inj hpair
  refine ⟨factor, hfactor, ?_⟩
  rw [value, hsign, hcount, Nat.cast_mul, mul_div_cancel_right₀ _ unitsPerOne_pos.ne', Nat.pow_eq,
    Nat.cast_pow, Nat.cast_ofNat, signed, if_neg Bool.false_ne_true]

theorem toInt64?_eq_some_iff {n m : Int} :
    Number.toInt64? n = some m ↔ InRange n ∧ m = n := by
  rw [Number.toInt64?, InRange]
  split
  next h =>
    have hrange := Json.fitsInt64_iff.1 h
    constructor
    · intro hm
      exact ⟨hrange, (Option.some.inj hm).symm⟩
    · rintro ⟨-, rfl⟩
      rfl
  next h =>
    constructor
    · intro hm
      cases hm
    · rintro ⟨hrange, -⟩
      exact absurd (Json.fitsInt64_iff.2 hrange) h

/-- Scaling rounds the exact product once, and the rounded product to an integer. -/
theorem scaled?_eq (x : Binary64) {unit : List Char} {exponent : Nat} (h : UnitOf unit exponent) :
    ∃ product, Rounded (x.value * 10 ^ exponent) product ∧
      scaled? x exponent = product.bind fun y => Number.toInt64? (roundHalfAway y.value) := by
  obtain ⟨factor, hfactor, hvalue⟩ := exists_ofNat_of_unitOf h
  refine ⟨x.mul factor, hvalue ▸ rounded_mul x factor, ?_⟩
  simp only [scaled?, hfactor, Option.bind_eq_bind, Option.bind_some, round_eq]

/-- A magnitude and a unit are judged as said. -/
theorem judgement_judge (description : String) (magnitude unit : List Char) :
    Judgement description magnitude unit (judge scaled? description magnitude unit) := by
  cases hread : Binary64.read? magnitude with
  | none =>
    rw [judge_of_unread description hread]
    refine .invalidMagnitude fun l hl => ?_
    have hrounded := rounded_read? l
    rwa [hl, hread] at hrounded
  | some x =>
    obtain ⟨l, hl, hx⟩ := exists_literal_of_read? hread
    cases hexponent : unitExponent? unit with
    | none =>
      rw [judge_of_unknown description hread hexponent]
      refine .unknownUnit hl hx fun exponent hunit => ?_
      rw [unitExponent?_eq_some_iff.2 hunit] at hexponent
      cases hexponent
    | some exponent =>
      have hunit := unitExponent?_eq_some_iff.1 hexponent
      obtain ⟨product, hproduct, hscaled⟩ := scaled?_eq x hunit
      rw [judge_of_known description hread hexponent, hscaled]
      cases hresult : product.bind fun y => Number.toInt64? (roundHalfAway y.value) with
      | none =>
        refine .outOfRange hl hx hunit hproduct fun y hy hrange => ?_
        rw [Option.mem_def.1 hy, Option.bind_some, toInt64?_eq_some_iff.2 ⟨hrange, rfl⟩] at hresult
        cases hresult
      | some n =>
        obtain ⟨y, rfl, hy⟩ := Option.bind_eq_some_iff.1 hresult
        obtain ⟨hrange, rfl⟩ := toInt64?_eq_some_iff.1 hy
        exact .population hl hx hunit hproduct hrange

/-- Whatever is judged of the number that is read holds of every number that it could be read as. -/
theorem exists_read?_of_rounded {l : Literal} {magnitude : List Char} {x : Binary64}
    (hl : l.text = magnitude) (hx : Rounded l.value (some x)) :
    ∃ y, Binary64.read? magnitude = some y ∧ y.value = x.value := by
  have hread := rounded_read? l
  rw [hl] at hread
  have hvalue := hread.map_value_eq hx
  obtain ⟨y, hy, hyx⟩ := Option.map_eq_some_iff.1 hvalue
  exact ⟨y, hy, hyx⟩

/-- The judgement is the only one there is. -/
theorem judgement_iff {description : String} {magnitude unit : List Char}
    {r : Except PopulationError Int} :
    Judgement description magnitude unit r ↔ r = judge scaled? description magnitude unit := by
  constructor
  · intro h
    cases h with
    | invalidMagnitude h =>
      cases hread : Binary64.read? magnitude with
      | none => rw [judge_of_unread description hread]
      | some x =>
        obtain ⟨l, hl, hx⟩ := exists_literal_of_read? hread
        cases hx.map_value_eq (h l hl)
    | unknownUnit hl hx hunit =>
      obtain ⟨x', hread, -⟩ := exists_read?_of_rounded hl hx
      have hnone : unitExponent? unit = none :=
        Option.eq_none_iff_forall_ne_some.2 fun e he => hunit e (unitExponent?_eq_some_iff.1 he)
      rw [judge_of_unknown description hread hnone]
    | outOfRange hl hx hunit hproduct hrange =>
      obtain ⟨x', hread, hx'⟩ := exists_read?_of_rounded hl hx
      obtain ⟨product', hproduct', hscaled⟩ := scaled?_eq x' hunit
      rw [hx'] at hproduct'
      have hvalue := hproduct.map_value_eq hproduct'
      have hnone : (product'.bind fun y => Number.toInt64? (roundHalfAway y.value)) = none := by
        refine Option.eq_none_iff_forall_ne_some.2 fun n hn => ?_
        obtain ⟨y', rfl, hy'⟩ := Option.bind_eq_some_iff.1 hn
        obtain ⟨y, hy, hyy'⟩ := Option.map_eq_some_iff.1 hvalue
        exact hrange y hy (hyy' ▸ (toInt64?_eq_some_iff.1 hy').1)
      rw [judge_of_known description hread (unitExponent?_eq_some_iff.2 hunit), hscaled, hnone]
      rfl
    | population hl hx hunit hproduct hrange =>
      obtain ⟨x', hread, hx'⟩ := exists_read?_of_rounded hl hx
      obtain ⟨product', hproduct', hscaled⟩ := scaled?_eq x' hunit
      rw [hx'] at hproduct'
      have hvalue := hproduct'.map_value_eq hproduct
      obtain ⟨y', rfl, hy'⟩ := Option.map_eq_some_iff.1 hvalue
      rw [judge_of_known description hread (unitExponent?_eq_some_iff.2 hunit), hscaled,
        Option.bind_some, hy', toInt64?_eq_some_iff.2 ⟨hrange, rfl⟩]
      rfl
  · rintro rfl
    exact judgement_judge description magnitude unit

/-! ## Descriptions -/

/-- What a description gives, by its first two words. -/
inductive Gives : Option String → Except PopulationError (Option Int) → Prop where
  | absent : Gives none (.ok none)
  /-- Nor does an empty one give any. -/
  | empty : Gives (some "") (.ok none)
  /-- Fewer than two words have no unit among them. -/
  | missingUnit {description : String} (hne : description ≠ "")
      (h : ¬ ∃ first second, LeadingWords description.toList first second) :
    Gives (some description) (.error (.missingUnit description))
  | words {description : String} {first second : List Char} {r : Except PopulationError Int}
      (h : LeadingWords description.toList first second)
      (hr : Judgement description (spelled first second).1 (spelled first second).2 r) :
    Gives (some description) (r.map some)

theorem ne_empty_of_leadingWords (h : LeadingWords description.toList first second) :
    description ≠ "" := by
  rintro rfl
  obtain ⟨others, hwords⟩ := words_of_leadingWords h
  cases hwords

theorem population?_some (hne : description ≠ "") :
    population? (some description) = (ofText description).map some := by
  rw [population?, if_neg (by simpa using hne)]

theorem gives_population? (description : Option String) :
    Gives description (population? description) := by
  cases description with
  | none => exact .absent
  | some description =>
    by_cases hne : description = ""
    · rw [hne]
      exact .empty
    · by_cases h : ∃ first second, LeadingWords description.toList first second
      · obtain ⟨first, second, h⟩ := h
        rw [population?_some hne, ofText_of_leadingWords h]
        exact .words h (judgement_judge _ _ _)
      · rw [population?_some hne, ofText_of_not_leadingWords h]
        exact .missingUnit hne h

theorem population?_of_gives {description : Option String}
    {r : Except PopulationError (Option Int)} (h : Gives description r) :
    population? description = r := by
  cases h with
  | absent => rfl
  | empty => rfl
  | missingUnit hne h =>
    rw [population?_some hne, ofText_of_not_leadingWords h]
    rfl
  | words h hr =>
    rw [population?_some (ne_empty_of_leadingWords h), ofText_of_leadingWords h,
      judgement_iff.1 hr]

/-- A population is what the first two words of the description give, and nothing else in the
description counts: the value, the kind of an error, its magnitude and its unit depend neither on
what follows the second word nor on the blanks around the words. -/
theorem population?_eq_iff_gives :
    (∀ description r, population? description = r ↔ Gives description r) ∧
    ∀ (description other : String) (first second : List Char),
      LeadingWords description.toList first second → LeadingWords other.toList first second →
        population? (some other) =
          (population? (some description)).mapError (PopulationError.about other) := by
  refine ⟨fun description r => ⟨?_, population?_of_gives⟩, ?_⟩
  · rintro rfl
    exact gives_population? description
  · intro description other first second h hother
    rw [population?_some (ne_empty_of_leadingWords h),
      population?_some (ne_empty_of_leadingWords hother), ofText_of_leadingWords h,
      ofText_of_leadingWords hother, judge_about description other]
    cases judge scaled? description (spelled first second).1 (spelled first second).2 <;> rfl

/-- A comma behind the word of a tag stays with the unit, and the error of one description is the
error of any other that begins with the same two words. -/
theorem population?_eq_iff_gives_comma :
    LeadingWords "1.2b Population, a nation".toList "1.2b".toList "Population,".toList ∧
    LeadingWords "\t1.2b \u3000Population,\nand more".toList "1.2b".toList "Population,".toList ∧
    population? (some "\t1.2b \u3000Population,\nand more") =
      .error (.unknownUnit "billion," "\t1.2b \u3000Population,\nand more") := by
  have hfirst : IsWord "1.2b".toList := by decide +kernel
  have hsecond : IsWord "Population,".toList := by decide +kernel
  have hspaced : LeadingWords "1.2b Population, a nation".toList "1.2b".toList
      "Population,".toList :=
    ⟨[], [' '], " a nation".toList, by decide +kernel, by decide +kernel, hfirst,
      by decide +kernel, by decide +kernel, hsecond, by decide +kernel⟩
  have hother : LeadingWords "\t1.2b \u3000Population,\nand more".toList "1.2b".toList
      "Population,".toList :=
    ⟨['\t'], [' ', '\u3000'], "\nand more".toList, by decide +kernel, by decide +kernel, hfirst,
      by decide +kernel, by decide +kernel, hsecond, by decide +kernel⟩
  have hunknown : population? (some "1.2b Population, a nation") =
      .error (.unknownUnit "billion," "1.2b Population, a nation") := by
    decide +kernel
  refine ⟨hspaced, hother, ?_⟩
  rw [population?_eq_iff_gives.2 _ _ _ _ hspaced hother, hunknown]
  rfl

end Population

end CardArchive
