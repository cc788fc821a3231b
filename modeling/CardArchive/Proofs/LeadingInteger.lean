import CardArchive.Proofs.ElementText

/-!
# The integer with which a text opens

`Number.Opens` says which integer stands at the start of a text: blanks, a sign or none, and digits
as far as they go, of whatever size. At most one integer stands there, and what follows the digits
has no part in it. `Number.Leads`, which is what gets read, is this with a bound on the digits taken
without their sign; of the integers of 64 bits the bound leaves out exactly the least one.
-/

namespace CardArchive

namespace Number

variable {s more : List Char} {n m : Int}

/-- The text opens with the integer: after blanks, a sign or none, and digits as far as they go. -/
def Opens (s : List Char) (n : Int) : Prop :=
  ∃ (blanks : List Char) (sign : Sign) (digits rest : List Char),
    s = blanks ++ (sign.text ++ (digits ++ rest)) ∧ Text.AllBlank blanks ∧ digits ≠ [] ∧
      (∀ c ∈ digits, c.isDigit = true) ∧ (∀ c ∈ rest.head?, c.isDigit = false) ∧
      n = sign.signed (digitsValue digits)

theorem signed_bounds_of_lt (sign : Sign) {size : Nat} (h : size < 0x8000000000000000) :
    -0x8000000000000000 < sign.signed size ∧ sign.signed size < 0x8000000000000000 := by
  unfold Sign.signed
  split <;> omega

theorem lt_of_signed_bounds (sign : Sign) {size : Nat}
    (h : -0x8000000000000000 < sign.signed size ∧ sign.signed size < 0x8000000000000000) :
    size < 0x8000000000000000 := by
  unfold Sign.signed at h
  split at h <;> omega

/-- The bound on the digits is a bound on the integer that leaves out the least one of 64 bits. -/
theorem leads_iff_opens : Leads s n ↔
    Opens s n ∧ -0x8000000000000000 < n ∧ n < 0x8000000000000000 := by
  constructor
  · rintro ⟨blanks, sign, digits, rest, hs, hblanks, hne, hdigits, hrest, hlt, rfl⟩
    exact ⟨⟨blanks, sign, digits, rest, hs, hblanks, hne, hdigits, hrest, rfl⟩,
      signed_bounds_of_lt sign hlt⟩
  · rintro ⟨⟨blanks, sign, digits, rest, hs, hblanks, hne, hdigits, hrest, rfl⟩, hn⟩
    exact ⟨blanks, sign, digits, rest, hs, hblanks, hne, hdigits, hrest,
      lt_of_signed_bounds sign hn, rfl⟩

theorem Opens.unique (hn : Opens s n) (hm : Opens s m) : n = m := by
  obtain ⟨blanks, sign, digits, rest, rfl, hblanks, hne, hdigits, hrest, rfl⟩ := hn
  obtain ⟨blanks', sign', digits', rest', hs, hblanks', hne', hdigits', hrest', rfl⟩ := hm
  -- cutting off the blanks, then the sign, then the digits leaves the same parts of both
  have htext : sign.text ++ (digits ++ rest) = sign'.text ++ (digits' ++ rest') := by
    have hleft := Text.trimStart_append hblanks (head?_not_isBlank sign hdigits hne rest)
    have hright := Text.trimStart_append hblanks' (head?_not_isBlank sign' hdigits' hne' rest')
    rw [← hleft, ← hright, hs]
  have hbody : (sign.isNegative, digits ++ rest) = (sign'.isNegative, digits' ++ rest') := by
    rw [← splitSign_text_digits sign hdigits hne rest,
      ← splitSign_text_digits sign' hdigits' hne' rest', htext]
  obtain ⟨hsign, hrun⟩ := Prod.mk.inj hbody
  have hdigitsEq : digits = digits' := by
    have hleft := (Text.run_append hdigits hrest).1
    have hright := (Text.run_append hdigits' hrest').1
    rw [← hleft, ← hright, hrun]
  rw [Sign.signed, Sign.signed, hsign, hdigitsEq]

theorem Opens.append (h : Opens s n) (hmore : ∀ c ∈ more.head?, c.isDigit = false) :
    Opens (s ++ more) n := by
  obtain ⟨blanks, sign, digits, rest, rfl, hblanks, hne, hdigits, hrest, rfl⟩ := h
  refine ⟨blanks, sign, digits, rest ++ more, by simp, hblanks, hne, hdigits, ?_, rfl⟩
  intro c hc
  cases rest with
  | nil => exact hmore c hc
  | cons d rest => exact hrest c hc

end Number

open Number

section Reading

variable {s more : List Char} {n : Int}

theorem leadingInt?_of_opens (h : Opens s n) : leadingInt? s =
    if -0x8000000000000000 < n ∧ n < 0x8000000000000000 then some n else none := by
  split
  · next hn => exact leadingInt?_eq_some_iff.mpr (leads_iff_opens.mpr ⟨h, hn⟩)
  · next hn =>
    rw [Option.eq_none_iff_forall_ne_some]
    intro m hm
    obtain ⟨hopens, hbounds⟩ := leads_iff_opens.mp (leadingInt?_eq_some_iff.mp hm)
    obtain rfl : n = m := h.unique hopens
    exact hn hbounds

theorem leadingInt?_append_of_opens (h : Opens s n)
    (hmore : ∀ c ∈ more.head?, c.isDigit = false) :
    leadingInt? (s ++ more) = leadingInt? s := by
  rw [leadingInt?_of_opens h, leadingInt?_of_opens (h.append hmore)]

/-- Reading is exact on the integers of 64 bits for every text except one that opens with the least
of them. There nothing is read. What follows the digits is never looked at. -/
theorem leadingInt?_exact_iff_not_least (s : List Char) :
    ((∀ n, leadingInt? s = some n ↔
        Opens s n ∧ -0x8000000000000000 ≤ n ∧ n < 0x8000000000000000) ↔
      ¬ Opens s (-0x8000000000000000)) ∧
    (Opens s (-0x8000000000000000) → leadingInt? s = none) ∧
    ∀ n more, Opens s n → (∀ c ∈ more.head?, c.isDigit = false) →
      leadingInt? (s ++ more) = leadingInt? s := by
  have hleast : Opens s (-0x8000000000000000) → leadingInt? s = none := fun h => by
    rw [leadingInt?_of_opens h, if_neg (by omega)]
  refine ⟨⟨fun hexact h => ?_, fun h n => ?_⟩, hleast, fun n more => leadingInt?_append_of_opens⟩
  · have hread := (hexact _).mpr ⟨h, by omega, by omega⟩
    rw [hleast h] at hread
    cases hread
  · rw [leadingInt?_eq_some_iff, leads_iff_opens]
    have hne : Opens s n → n ≠ -0x8000000000000000 := fun hn hmin => h (hmin ▸ hn)
    constructor
    · rintro ⟨hn, hlow, hhigh⟩
      exact ⟨hn, by omega, hhigh⟩
    · rintro ⟨hn, hlow, hhigh⟩
      exact ⟨hn, by have := hne hn; omega, hhigh⟩

/-- The least integer of 64 bits stands at the start of this text and is not read. -/
theorem leadingInt?_least_unread :
    Opens "-9223372036854775808".toList (-0x8000000000000000) ∧
      leadingInt? "-9223372036854775808".toList = none := by
  have hopens : Opens "-9223372036854775808".toList (-0x8000000000000000) :=
    ⟨[], .minus, "9223372036854775808".toList, [], by decide, List.forall_mem_nil _, by decide,
      List.all_eq_true.mp (by decide), by simp, by decide⟩
  exact ⟨hopens, by decide⟩

end Reading

end CardArchive
