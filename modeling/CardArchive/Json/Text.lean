import CardArchive.Text.Quoted

/-!
# Texts in JSON

Between its quotes a text stands as it is, except for the quote, the backslash and the control
characters, which are written as escapes. Reading accepts more escapes than writing produces: an
escape may give any UTF-16 unit, and two units, a high and a low surrogate, make one character.
-/

namespace CardArchive.Json

/-! ## Writing -/

/-- One character between quotes. -/
def escapeChar (c : Char) : List Char :=
  if c = '"' then ['\\', '"']
  else if c = '\\' then ['\\', '\\']
  else if c = '\x08' then ['\\', 'b']
  else if c = '\x0c' then ['\\', 'f']
  else if c = '\n' then ['\\', 'n']
  else if c = '\r' then ['\\', 'r']
  else if c = '\t' then ['\\', 't']
  else if c.toNat < 0x20 then
    ['\\', 'u', '0', '0', Nat.digitChar (c.toNat / 16), Nat.digitChar (c.toNat % 16)]
  else [c]

/-- The characters of a text between quotes. -/
def escape (s : List Char) : List Char := s.flatMap escapeChar

/-! ## Reading -/

/-- The value of a digit in base sixteen, in either case. -/
def hexDigit? (c : Char) : Option Nat :=
  if '0' ≤ c ∧ c ≤ '9' then some (c.toNat - '0'.toNat)
  else if 'a' ≤ c ∧ c ≤ 'f' then some (c.toNat - 'a'.toNat + 10)
  else if 'A' ≤ c ∧ c ≤ 'F' then some (c.toNat - 'A'.toNat + 10)
  else none

/-- The character that an escape of one letter stands for. -/
def simpleEscape? : Char → Option Char
  | '"' => some '"'
  | '\\' => some '\\'
  | '/' => some '/'
  | 'b' => some '\x08'
  | 'f' => some '\x0c'
  | 'n' => some '\n'
  | 'r' => some '\r'
  | 't' => some '\t'
  | _ => none

/-- A piece of a text: a character, or a UTF-16 unit given by its number. -/
inductive Piece where
  /-- A character, written as itself or by an escape of one letter. -/
  | char (c : Char)
  /-- A UTF-16 unit, written by its number. -/
  | unit (n : Nat)
  deriving DecidableEq

/-- The pieces of what stands between the quotes; none for an escape that is not known and for a
control character. -/
def pieces : List Char → Option (List Piece)
  | [] => some []
  | '\\' :: 'u' :: a :: b :: c :: d :: rest => do
    let a ← hexDigit? a
    let b ← hexDigit? b
    let c ← hexDigit? c
    let d ← hexDigit? d
    let more ← pieces rest
    return .unit (4096 * a + 256 * b + 16 * c + d) :: more
  | '\\' :: c :: rest => do
    let c ← simpleEscape? c
    let more ← pieces rest
    return .char c :: more
  | c :: rest => do
    if c.toNat < 0x20 || c = '\\' then none
    let more ← pieces rest
    return .char c :: more

/-- Whether a unit is the first half of a character. -/
def isHighSurrogate (n : Nat) : Bool := 0xD800 ≤ n && n < 0xDC00

/-- Whether a unit is the second half of a character. -/
def isLowSurrogate (n : Nat) : Bool := 0xDC00 ≤ n && n < 0xE000

/-- The characters of some pieces; none when half a character stands alone. -/
def joinPieces : List Piece → Option (List Char)
  | [] => some []
  | .char c :: rest => (joinPieces rest).map (c :: ·)
  | .unit high :: .unit low :: rest =>
    if isHighSurrogate high && isLowSurrogate low then
      (joinPieces rest).map (Char.ofNat (0x10000 + (high - 0xD800) * 0x400 + (low - 0xDC00)) :: ·)
    else if isHighSurrogate high || isLowSurrogate high then none
    else (joinPieces (.unit low :: rest)).map (Char.ofNat high :: ·)
  | .unit n :: rest =>
    if isHighSurrogate n || isLowSurrogate n then none
    else (joinPieces rest).map (Char.ofNat n :: ·)

/-- The text that stands between the quotes. -/
def unescape (body : List Char) : Option (List Char) := (pieces body).bind joinPieces

end CardArchive.Json
