/-!
# Integers as text

Reading whole numbers. Identifiers, badge counts and badge values are 64-bit integers, so a reader
refuses what does not fit instead of wrapping around.
-/

namespace CardArchive.Number

/-- The value of a run of decimal digits; the empty run is zero. -/
def digitsValue (digits : List Char) : Nat :=
  digits.foldl (fun n c => 10 * n + (c.toNat - '0'.toNat)) 0

/-- Whether an integer fits 64 bits with a sign. -/
def fitsInt64 (n : Int) : Bool := -0x8000000000000000 ≤ n && n < 0x8000000000000000

/-- An integer, if it fits 64 bits with a sign. -/
def toInt64? (n : Int) : Option Int := if fitsInt64 n then some n else none

/-- A sign and what follows it; without a sign the number is positive. -/
def splitSign : List Char → Bool × List Char
  | '-' :: rest => (true, rest)
  | '+' :: rest => (false, rest)
  | s => (false, s)

/-- Reads the whole text as an integer: an optional sign, then digits and nothing else. -/
def readInt64? (s : List Char) : Option Int :=
  let (negative, digits) := splitSign s
  if digits.isEmpty || !digits.all Char.isDigit then none
  else
    let n : Int := digitsValue digits
    toInt64? (if negative then -n else n)

end CardArchive.Number
