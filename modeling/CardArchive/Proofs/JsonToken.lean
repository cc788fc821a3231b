import CardArchive.Proofs.JsonLexing
import CardArchive.Proofs.JsonText

/-!
# Tokens read back from their characters

Tokens are read back from their characters when their words are words and no two words stand next to
each other: what was written for them then obeys the rules by which characters write tokens, so the
scanner has no other choice.
-/

namespace CardArchive.Json

namespace Token

/-- Whether the token is a word. -/
def isWord : Token → Bool
  | word _ => true
  | _ => false

/-- A word has characters, and only those of words. -/
def Proper : Token → Prop
  | word w => w ≠ [] ∧ ∀ c ∈ w, inWord c = true
  | _ => True

theorem proper_of_isWord_eq_false {t : Token} (h : t.isWord = false) : t.Proper := by
  cases t with
  | word w => cases h
  | _ => trivial

/-- No two words stand next to each other; the flag says whether a word stands before the first. -/
def Separated : Bool → List Token → Prop
  | _, [] => True
  | wordBefore, t :: ts => (wordBefore = true → t.isWord = false) ∧ Separated t.isWord ts

/-- Around a token that is no word, words are apart. -/
theorem separated_append_cons {first second : List Token} {t : Token} (ht : t.isWord = false)
    {wordBefore : Bool} (hfirst : Separated wordBefore first) (hsecond : Separated false second) :
    Separated wordBefore (first ++ t :: second) := by
  induction first generalizing wordBefore with
  | nil => exact ⟨fun _ => ht, ht ▸ hsecond⟩
  | cons a first ih =>
    obtain ⟨ha, hrest⟩ := hfirst
    exact ⟨ha, ih hrest⟩

/-- A token that is no word begins with a character that goes on with none. -/
theorem chars_of_isWord_eq_false {t : Token} (h : t.isWord = false) :
    ∃ c rest, t.chars = c :: rest ∧ inWord c = false := by
  cases t with
  | word w => cases h
  | _ => exact ⟨_, _, rfl, by decide⟩

/-- Behind a word, the characters of the tokens do not go on with it. -/
theorem head?_flatMap_chars {ts : List Token} (h : Separated true ts) :
    ∀ c ∈ (ts.flatMap chars).head?, inWord c = false := by
  intro c hc
  cases ts with
  | nil => cases hc
  | cons t ts =>
    obtain ⟨d, rest, hchars, hd⟩ := chars_of_isWord_eq_false (h.1 rfl)
    rw [List.flatMap_cons, hchars] at hc
    cases hc
    exact hd

end Token

/-! ## What is written for tokens -/

theorem quotable_append {first second : List Char} (hfirst : Quotable first)
    (hsecond : Quotable second) : Quotable (first ++ second) := by
  induction hfirst with
  | nil => exact hsecond
  | plain hquote hslash _ ih => exact .plain hquote hslash ih
  | escape d _ ih => exact .escape d ih

theorem quotable_escapeChar (c : Char) : Quotable (escapeChar c) := by
  rcases escapeChar_cases c with ⟨d, hc, -⟩ | ⟨hc, hlt⟩ | ⟨hc, -, hquote, hslash⟩
  · rw [hc]
    exact .escape d .nil
  · obtain ⟨hquote, hslash, -⟩ := digitChar_plain (n := c.toNat / 16) (by omega)
    obtain ⟨hquote', hslash', -⟩ := digitChar_plain (n := c.toNat % 16) (by omega)
    rw [hc]
    exact .escape 'u' (.plain (by decide) (by decide) (.plain (by decide) (by decide)
      (.plain hquote hslash (.plain hquote' hslash' .nil))))
  · rw [hc]
    exact .plain hquote hslash .nil

/-- What was written for a text may stand between quotes. -/
theorem quotable_escape (s : List Char) : Quotable (escape s) := by
  induction s with
  | nil => exact .nil
  | cons c s ih => exact quotable_append (quotable_escapeChar c) ih

/-- The characters of tokens write them. -/
theorem writes_flatMap_chars {ts : List Token} {wordBefore : Bool}
    (hproper : ∀ t ∈ ts, t.Proper) (hsep : Token.Separated wordBefore ts) :
    Writes (ts.flatMap Token.chars) ts := by
  induction ts generalizing wordBefore with
  | nil => exact .nil
  | cons t ts ih =>
    obtain ⟨-, hrest⟩ := hsep
    obtain ⟨ht, hmore⟩ := List.forall_mem_cons.mp hproper
    have hw := ih hmore hrest
    rw [List.flatMap_cons]
    cases t with
    | word w =>
      obtain ⟨hne, hall⟩ := ht
      cases w with
      | nil => exact absurd rfl hne
      | cons c w =>
        obtain ⟨hc, hall⟩ := List.forall_mem_cons.mp hall
        exact .word hc hall (Token.head?_flatMap_chars hrest) hw
    | text s =>
      have htext := Writes.text (quotable_escape s) (unescape_escape s) hw
      rw [List.append_cons] at htext
      exact htext
    | _ => exact .punctuation rfl hw

end CardArchive.Json
