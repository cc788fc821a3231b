/-!
# White space

The characters with the Unicode property `White_Space`, and what follows from them: trimming a text
and cutting it into words. Texts are lists of characters here, so that each rule is a rule about
one list.
-/

namespace CardArchive.Text

/-- The characters with the property `White_Space`. -/
def isBlank (c : Char) : Bool :=
  (0x09 ≤ c.toNat && c.toNat ≤ 0x0D) || c.toNat = 0x20 || c.toNat = 0x85 || c.toNat = 0xA0
    || c.toNat = 0x1680 || (0x2000 ≤ c.toNat && c.toNat ≤ 0x200A) || c.toNat = 0x2028
    || c.toNat = 0x2029 || c.toNat = 0x202F || c.toNat = 0x205F || c.toNat = 0x3000

/-! ## Trimming -/

/-- Drops the blanks in front. -/
def trimStart (s : List Char) : List Char := s.dropWhile isBlank

/-- Drops the blanks at the end. -/
def trimEnd (s : List Char) : List Char := (s.reverse.dropWhile isBlank).reverse

/-- Drops the blanks at both ends. -/
def trim (s : List Char) : List Char := trimEnd (trimStart s)

/-! ## Words -/

/-- A word in the making and the words after it. -/
abbrev WordsFrom := List Char × List (List Char)

/-- The words once nothing more is added in front: an unfinished empty word is none. -/
def WordsFrom.close : WordsFrom → List (List Char)
  | ([], done) => done
  | (w, done) => w :: done

/-- One more character in front: a blank closes the word behind it, any other joins it. -/
def WordsFrom.push (c : Char) (acc : WordsFrom) : WordsFrom :=
  if isBlank c then ([], acc.close) else (c :: acc.1, acc.2)

/-- The maximal runs of characters that are not blank, in order. -/
def words (s : List Char) : List (List Char) :=
  (s.foldr WordsFrom.push ([], [])).close

end CardArchive.Text
