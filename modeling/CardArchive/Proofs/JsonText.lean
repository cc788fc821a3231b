import CardArchive.Json.Text

/-!
# Texts between quotes

What is written between quotes is read back as the same text, whatever characters it has. A
character is written in one of three ways, and everything that is said here about a text is said
about these three first.
-/

namespace CardArchive.Json

/-- The three ways in which a character is written. -/
theorem escapeChar_cases (c : Char) :
    (∃ d, escapeChar c = ['\\', d] ∧ simpleEscape? d = some c ∧ d ≠ 'u' ∧ 0x20 ≤ d.toNat) ∨
    (escapeChar c = ['\\', 'u', '0', '0', Nat.digitChar (c.toNat / 16),
      Nat.digitChar (c.toNat % 16)] ∧ c.toNat < 0x20) ∨
    (escapeChar c = [c] ∧ 0x20 ≤ c.toNat ∧ c ≠ '"' ∧ c ≠ '\\') := by
  unfold escapeChar
  by_cases h1 : c = '"'
  · subst h1; exact Or.inl ⟨'"', rfl, rfl, by decide, by decide⟩
  by_cases h2 : c = '\\'
  · subst h2; exact Or.inl ⟨'\\', rfl, rfl, by decide, by decide⟩
  by_cases h3 : c = '\x08'
  · subst h3; exact Or.inl ⟨'b', rfl, rfl, by decide, by decide⟩
  by_cases h4 : c = '\x0c'
  · subst h4; exact Or.inl ⟨'f', rfl, rfl, by decide, by decide⟩
  by_cases h5 : c = '\n'
  · subst h5; exact Or.inl ⟨'n', rfl, rfl, by decide, by decide⟩
  by_cases h6 : c = '\r'
  · subst h6; exact Or.inl ⟨'r', rfl, rfl, by decide, by decide⟩
  by_cases h7 : c = '\t'
  · subst h7; exact Or.inl ⟨'t', rfl, rfl, by decide, by decide⟩
  rw [if_neg h1, if_neg h2, if_neg h3, if_neg h4, if_neg h5, if_neg h6, if_neg h7]
  by_cases h8 : c.toNat < 0x20
  · exact Or.inr (Or.inl ⟨if_pos h8, h8⟩)
  · exact Or.inr (Or.inr ⟨if_neg h8, Nat.le_of_not_lt h8, h1, h2⟩)

theorem escape_cons (c : Char) (s : List Char) : escape (c :: s) = escapeChar c ++ escape s := rfl

/-! ## Digits in base sixteen -/

theorem hexDigit?_digitChar {n : Nat} (h : n < 16) : hexDigit? (Nat.digitChar n) = some n := by
  have hall : ∀ n < 16, hexDigit? (Nat.digitChar n) = some n := by decide
  exact hall n h

/-- A digit ends no text and begins no escape. -/
theorem digitChar_plain {n : Nat} (h : n < 16) :
    Nat.digitChar n ≠ '"' ∧ Nat.digitChar n ≠ '\\' ∧ 0x20 ≤ (Nat.digitChar n).toNat := by
  have hall : ∀ n < 16, Nat.digitChar n ≠ '"' ∧ Nat.digitChar n ≠ '\\' ∧
      0x20 ≤ (Nat.digitChar n).toNat := by decide
  exact hall n h

/-! ## Reading what was written -/

/-- The piece that a character is read as once it was written. -/
def pieceOf (c : Char) : Piece :=
  if (escapeChar c).length = 6 then .unit c.toNat else .char c

/-- What was written for a character is read as one piece, whatever follows it. -/
theorem pieces_escapeChar (c : Char) (rest : List Char) :
    pieces (escapeChar c ++ rest) = (pieces rest).map (pieceOf c :: ·) := by
  unfold pieceOf
  rcases escapeChar_cases c with ⟨d, hc, hd, hu, -⟩ | ⟨hc, hlt⟩ | ⟨hc, hle, -, hne⟩
  · rw [hc]
    -- a letter behind a backslash
    show pieces ('\\' :: d :: rest) = _
    rw [pieces, hd]
    · cases pieces rest <;> rfl
    · rintro _ _ _ _ _ rfl
      exact absurd rfl hu
  · have hdiv := hexDigit?_digitChar (n := c.toNat / 16) (by omega)
    have hmod := hexDigit?_digitChar (n := c.toNat % 16) (by omega)
    have hzero : hexDigit? '0' = some 0 := by decide
    have hval : 4096 * 0 + 256 * 0 + 16 * (c.toNat / 16) + c.toNat % 16 = c.toNat := by omega
    rw [hc]
    -- the number of a control character, which has two digits
    show pieces ('\\' :: 'u' :: '0' :: '0' :: _ :: _ :: rest) = _
    rw [pieces, hdiv, hmod, hzero]
    simp only [bind, Option.bind, pure, hval]
    cases pieces rest <;> rfl
  · rw [hc]
    -- the character itself
    show pieces (c :: rest) = _
    rw [pieces]
    · have hplain : (c.toNat < 0x20 || c = '\\') = false := by simp [hne, hle]
      rw [hplain]
      cases pieces rest <;> rfl
    · rintro _ _ _ _ _ rfl
      exact absurd rfl hne
    · rintro _ _ rfl
      exact absurd rfl hne

theorem pieces_escape (s : List Char) : pieces (escape s) = some (s.map pieceOf) := by
  induction s with
  | nil => rfl
  | cons c s ih =>
    rw [escape_cons, pieces_escapeChar, ih]
    rfl

/-- A unit that a character is read as is that of a control character. -/
theorem pieceOf_cases (c : Char) :
    pieceOf c = .char c ∨ pieceOf c = .unit c.toNat ∧ c.toNat < 0x20 := by
  unfold pieceOf
  rcases escapeChar_cases c with ⟨d, hc, -⟩ | ⟨hc, hlt⟩ | ⟨hc, -⟩
  · exact Or.inl (by rw [hc]; rfl)
  · exact Or.inr ⟨by rw [hc]; rfl, hlt⟩
  · exact Or.inl (by rw [hc]; rfl)

theorem not_surrogate_of_lt {n : Nat} (h : n < 0x20) :
    isHighSurrogate n = false ∧ isLowSurrogate n = false := by
  unfold isHighSurrogate isLowSurrogate
  constructor <;> simp <;> omega

theorem joinPieces_map_pieceOf (s : List Char) : joinPieces (s.map pieceOf) = some s := by
  induction s with
  | nil => rfl
  | cons c s ih =>
    rw [List.map_cons]
    rcases pieceOf_cases c with hc | ⟨hc, hlt⟩
    · rw [hc, joinPieces, ih]
      rfl
    · -- a unit that stands for a character is no surrogate, so it does not ask for a second one
      obtain ⟨hhigh, hlow⟩ := not_surrogate_of_lt hlt
      rw [hc]
      cases s with
      | nil => simp [joinPieces, hhigh, hlow, Char.ofNat_toNat]
      | cons d s =>
        rw [List.map_cons] at ih ⊢
        rcases pieceOf_cases d with hd | ⟨hd, hlt'⟩
        · rw [hd] at ih ⊢
          rw [joinPieces, ih, hhigh, hlow]
          · simp [Char.ofNat_toNat]
          · simp
        · rw [hd] at ih ⊢
          rw [joinPieces, ih, hhigh, (not_surrogate_of_lt hlt').2]
          simp [hlow, Char.ofNat_toNat]

theorem unescape_escape (s : List Char) : unescape (escape s) = some s := by
  rw [unescape, pieces_escape, Option.bind_some, joinPieces_map_pieceOf]

theorem le_toNat_of_mem_escape {s : List Char} {c : Char} (h : c ∈ escape s) :
    0x20 ≤ c.toNat := by
  obtain ⟨x, -, hx⟩ := List.mem_flatMap.mp h
  rcases escapeChar_cases x with ⟨d, hc, -, -, hd⟩ | ⟨hc, hlt⟩ | ⟨hc, hle, -⟩
  · rw [hc] at hx
    simp only [List.mem_cons, List.not_mem_nil, or_false] at hx
    rcases hx with rfl | rfl
    · decide
    · exact hd
  · have hdiv := (digitChar_plain (n := x.toNat / 16) (by omega)).2.2
    have hmod := (digitChar_plain (n := x.toNat % 16) (by omega)).2.2
    rw [hc] at hx
    simp only [List.mem_cons, List.not_mem_nil, or_false] at hx
    rcases hx with rfl | rfl | rfl | rfl | rfl | rfl
    · decide
    · decide
    · decide
    · decide
    · exact hdiv
    · exact hmod
  · rw [hc] at hx
    cases List.mem_singleton.mp hx
    exact hle

end CardArchive.Json
