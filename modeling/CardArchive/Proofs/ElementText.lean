import CardArchive.Proofs.Awards
import CardArchive.Proofs.DecimalLiteral

/-!
# What the text of an element says

The text of an element counts without the blanks around it, and where an integer is wanted, the
whole text or its beginning has to be one. All of it is described here by the parts of the text:
`Text.Trims` by the blanks that are cut off, `Number.Denotes` and `Number.Leads` by a sign and digits.
The functions that trim and read compute exactly that (`Text.trim_of_trims`,
`Number.readInt64?_eq_some_iff`, `leadingInt?_eq_some_iff`).
-/

namespace CardArchive

namespace Text

variable {s t front back : List Char}

/-- Nothing but blanks is cut off at either end, and no blank is left there. -/
def Trims (s t : List Char) : Prop :=
  ∃ front back, s = front ++ (t ++ back) ∧ AllBlank front ∧ AllBlank back ∧
    (∀ c ∈ t.head?, isBlank c = false) ∧ ∀ c ∈ t.getLast?, isBlank c = false

theorem trimStart_append (hfront : AllBlank front) (h : ∀ c ∈ t.head?, isBlank c = false) :
    trimStart (front ++ t) = t := (run_append hfront h).2

theorem trimEnd_append (hback : AllBlank back) (h : ∀ c ∈ t.getLast?, isBlank c = false) :
    trimEnd (t ++ back) = t := by
  have hreverse : AllBlank back.reverse := fun c hc => hback c (List.mem_reverse.1 hc)
  have hdrop := trimStart_append (t := t.reverse) hreverse (by rwa [List.head?_reverse])
  rw [trimStart] at hdrop
  rw [trimEnd, List.reverse_append, hdrop, List.reverse_reverse]

theorem trim_of_trims (h : Trims s t) : trim s = t := by
  obtain ⟨front, back, rfl, hfront, hback, hhead, hlast⟩ := h
  by_cases ht : t = []
  · -- nothing is left, so all blanks are in front
    subst ht
    have hblank : AllBlank (front ++ back) := fun c hc =>
      (List.mem_append.1 hc).elim (hfront c) (hback c)
    have hstart := trimStart_append (t := []) hblank (by simp)
    rw [List.append_nil] at hstart
    rw [List.nil_append, trim, hstart]
    rfl
  · have hhead' : ∀ c ∈ (t ++ back).head?, isBlank c = false := by
      rwa [List.head?_append_of_ne_nil _ ht]
    rw [trim, trimStart_append hfront hhead', trimEnd_append hback hlast]

theorem trims_trim (s : List Char) : Trims s (trim s) := by
  obtain ⟨front, rest, rfl, hfront, hrest⟩ := exists_run_append isBlank s
  obtain ⟨back, t, hback', hback, ht⟩ := exists_run_append isBlank rest.reverse
  have hsplit : rest = t.reverse ++ back.reverse := by
    rw [← List.reverse_append, ← hback', List.reverse_reverse]
  have hblank : AllBlank back.reverse := fun c hc => hback c (List.mem_reverse.1 hc)
  have hlast : ∀ c ∈ t.reverse.getLast?, isBlank c = false := by rwa [List.getLast?_reverse]
  have htrim : trim (front ++ rest) = t.reverse := by
    rw [trim, trimStart_append hfront hrest, hsplit, trimEnd_append hblank hlast]
  rw [htrim, hsplit]
  refine ⟨front, back.reverse, rfl, hfront, hblank, ?_, hlast⟩
  intro c hc
  refine hrest c ?_
  rw [hsplit, List.head?_append, Option.mem_def.1 hc]
  rfl

theorem trims_self (h : ∀ c ∈ s, isBlank c = false) : Trims s s :=
  ⟨[], [], (List.append_nil s).symm, List.forall_mem_nil _, List.forall_mem_nil _,
    fun c hc => h c (List.mem_of_mem_head? hc), fun c hc => h c (List.mem_of_mem_getLast? hc)⟩

end Text

/-- An integer by its sign and its size. -/
def Sign.signed (sign : Sign) (n : Nat) : Int := if sign.isNegative then -(n : Int) else n

namespace Number

variable {s digits rest : List Char} {n m : Int}

/-- The whole text is an integer: a sign or none, and digits. -/
def Denotes (s : List Char) (n : Int) : Prop :=
  ∃ (sign : Sign) (digits : List Char), s = sign.text ++ digits ∧ digits ≠ [] ∧
    (∀ c ∈ digits, c.isDigit = true) ∧ n = sign.signed (digitsValue digits)

/-- The text begins with the integer, after blanks: a sign or none, and digits as far as they go.
The value of the digits has 64 bits before the sign is applied. -/
def Leads (s : List Char) (n : Int) : Prop :=
  ∃ (blanks : List Char) (sign : Sign) (digits rest : List Char),
    s = blanks ++ (sign.text ++ (digits ++ rest)) ∧ Text.AllBlank blanks ∧ digits ≠ [] ∧
      (∀ c ∈ digits, c.isDigit = true) ∧ (∀ c ∈ rest.head?, c.isDigit = false) ∧
      digitsValue digits < 0x8000000000000000 ∧ n = sign.signed (digitsValue digits)

/-- A sign in front of digits is taken off. -/
theorem splitSign_text_digits (sign : Sign) (hdigits : ∀ c ∈ digits, c.isDigit = true)
    (hne : digits ≠ []) (rest : List Char) :
    splitSign (sign.text ++ (digits ++ rest)) = (sign.isNegative, digits ++ rest) :=
  splitSign_text_append fun c hc => ne_sign_of_isDigit (head?_isDigit hdigits rest hne c hc)

/-- What is read is the integer that the whole text denotes, if it has 64 bits. -/
theorem readInt64?_eq_some_iff : readInt64? s = some n ↔
    Denotes s n ∧ -0x8000000000000000 ≤ n ∧ n < 0x8000000000000000 := by
  constructor
  · intro h
    obtain ⟨sign, digits, rfl, hsplit⟩ := exists_sign_of_splitSign s
    rw [readInt64?, hsplit] at h
    dsimp only at h
    split at h
    · cases h
    · next hdigits =>
      simp only [Bool.or_eq_true, List.isEmpty_iff, Bool.not_eq_true', not_or,
        Bool.not_eq_false, List.all_eq_true] at hdigits
      obtain ⟨rfl, hfits⟩ := toInt64?_eq_some h
      exact ⟨⟨sign, digits, rfl, hdigits.1, hdigits.2, rfl⟩, Json.fitsInt64_iff.mp hfits⟩
  · rintro ⟨⟨sign, digits, rfl, hne, hdigits, rfl⟩, hn⟩
    have hsplit := splitSign_text_digits sign hdigits hne []
    rw [List.append_nil] at hsplit
    have hempty : digits.isEmpty = false := by simp [hne]
    have hall : digits.all Char.isDigit = true := List.all_eq_true.mpr hdigits
    rw [readInt64?, hsplit]
    simp only [hempty, hall, Bool.not_true, Bool.or_self, Bool.false_eq_true, if_false]
    exact if_pos (Json.fitsInt64_iff.mpr hn)

/-- No blank stands in front of a sign or a digit. -/
theorem head?_not_isBlank (sign : Sign) (hdigits : ∀ c ∈ digits, c.isDigit = true)
    (hne : digits ≠ []) (rest : List Char) :
    ∀ c ∈ (sign.text ++ (digits ++ rest)).head?, Text.isBlank c = false := by
  intro c hc
  cases sign with
  | absent => exact Text.isBlank_of_isDigit (head?_isDigit hdigits rest hne c hc)
  | plus =>
    obtain rfl : '+' = c := Option.some.inj hc
    decide
  | minus =>
    obtain rfl : '-' = c := Option.some.inj hc
    decide

end Number

section LeadingInteger

variable {blanks digits rest s : List Char} {n : Int}

/-- Blanks in front are passed over, and the digits are read as far as they go. Their value has to
have 64 bits before the sign is applied. -/
theorem leadingInt?_append (sign : Sign) (hblanks : Text.AllBlank blanks)
    (hdigits : ∀ c ∈ digits, c.isDigit = true) (hne : digits ≠ [])
    (hrest : ∀ c ∈ rest.head?, c.isDigit = false) :
    leadingInt? (blanks ++ (sign.text ++ (digits ++ rest))) =
      (Number.toInt64? (Number.digitsValue digits)).map
        fun n => if sign.isNegative then -n else n := by
  have htrim := Text.trimStart_append hblanks (Number.head?_not_isBlank sign hdigits hne rest)
  have hsplit := Number.splitSign_text_digits sign hdigits hne rest
  have htake := (Text.run_append hdigits hrest).1
  have hempty : digits.isEmpty = false := by simp [hne]
  unfold leadingInt?
  simp only [htrim, hsplit, htake, hempty, Bool.false_eq_true, if_false]

/-- What is read is the integer with which the text begins. -/
theorem leadingInt?_eq_some_iff : leadingInt? s = some n ↔ Number.Leads s n := by
  constructor
  · intro h
    obtain ⟨blanks, text, rfl, hblanks, htext⟩ := Text.exists_run_append Text.isBlank s
    obtain ⟨sign, body, rfl, hsplit⟩ := Number.exists_sign_of_splitSign text
    obtain ⟨digits, rest, rfl, hdigits, hrest⟩ := Text.exists_run_append Char.isDigit body
    by_cases hne : digits = []
    · have htake := (Text.run_append hdigits hrest).1
      unfold leadingInt? at h
      simp only [Text.trimStart_append hblanks htext, hsplit, htake] at h
      rw [hne, List.isEmpty_nil, if_pos rfl] at h
      cases h
    · rw [leadingInt?_append sign hblanks hdigits hne hrest] at h
      obtain ⟨m, hm, rfl⟩ := Option.map_eq_some_iff.mp h
      obtain ⟨rfl, hfits⟩ := Number.toInt64?_eq_some hm
      -- the digits are read without the sign, so their bound is that of a positive integer
      have hlt := (Json.fitsInt64_iff.mp hfits).2
      exact ⟨blanks, sign, digits, rest, rfl, hblanks, hne, hdigits, hrest, by omega, rfl⟩
  · rintro ⟨blanks, sign, digits, rest, rfl, hblanks, hne, hdigits, hrest, hlt, rfl⟩
    have hfits : Number.fitsInt64 (Number.digitsValue digits) = true := by
      rw [Json.fitsInt64_iff]
      omega
    rw [leadingInt?_append sign hblanks hdigits hne hrest, Number.toInt64?, if_pos hfits]
    rfl

/-- A text that is an integer begins with it. The least one of 64 bits is too large without sign. -/
theorem Number.leads_of_denotes (h : Number.Denotes s n)
    (hn : -0x8000000000000000 < n ∧ n < 0x8000000000000000) : Number.Leads s n := by
  obtain ⟨sign, digits, rfl, hne, hdigits, rfl⟩ := h
  refine ⟨[], sign, digits, [], ?_, List.forall_mem_nil _, hne, hdigits, by simp, ?_, rfl⟩
  · rw [List.nil_append, List.append_nil]
  · unfold Sign.signed at hn
    split at hn <;> omega

end LeadingInteger

end CardArchive
