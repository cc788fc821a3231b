import CardArchive.Json.Value
import CardArchive.Number.Integer
import CardArchive.Number.Shortest

/-!
# Numbers in JSON text

A number without fraction and exponent is an integer when it fits 64 bits, signed when it is
negative and unsigned otherwise. Every other number is floating point. Its digits are gathered into
an unsigned 64-bit integer as long as they fit; the power of ten that is left over is applied in one
rounded operation, so the result can differ from the nearest number in its last bit.

A floating point number is written with the shortest digits that read back exactly, positionally
when its first digit counts between `10 ^ -5` and `10 ^ 15`, otherwise with an exponent.
-/

namespace CardArchive.Json

/-! ## Reading -/

/-- A number as it is spelled. -/
structure Numeral where
  /-- Whether a minus sign stands in front. -/
  negative : Bool
  whole : List Char
  fraction : List Char
  /-- The power of ten after `e`. -/
  exponent : Int
  /-- Whether there is neither a point nor an exponent. -/
  integral : Bool
  deriving DecidableEq

namespace Numeral

/-- Whether a run of digits may stand before the point: it is not empty, and a zero in front is
the only digit. -/
def isWhole : List Char → Bool
  | [] => false
  | '0' :: rest => rest.isEmpty
  | _ => true

/-- The fraction at the start of a text and what follows it; none when a point has no digit after
it. -/
def takeFraction : List Char → Option (List Char × List Char)
  | '.' :: rest =>
    let digits := rest.takeWhile Char.isDigit
    if digits.isEmpty then none else some (digits, rest.dropWhile Char.isDigit)
  | rest => some ([], rest)

/-- The exponent that makes up the whole of a text, which may be empty. -/
def readExponent? : List Char → Option Int
  | [] => some 0
  | e :: rest =>
    let (negative, digits) := Number.splitSign rest
    if (e = 'e' || e = 'E') && !digits.isEmpty && digits.all Char.isDigit then
      let n : Int := Number.digitsValue digits
      some (if negative then -n else n)
    else none

/-- Takes the spelling of a number apart. -/
def read? (s : List Char) : Option Numeral := do
  let (negative, body) := match s with
    | '-' :: rest => (true, rest)
    | _ => (false, s)
  let whole := body.takeWhile Char.isDigit
  if !isWhole whole then none
  let tail := body.dropWhile Char.isDigit
  let (fraction, rest) ← takeFraction tail
  let exponent ← readExponent? rest
  return ⟨negative, whole, fraction, exponent, tail.isEmpty⟩

/-- One past the largest significand. -/
def significandLimit : Nat := 0x10000000000000000

/-- Appends digits to a significand as long as it stays below the limit; the digits that are left
over come second. -/
def gather : Nat → List Char → Nat × List Char
  | significand, [] => (significand, [])
  | significand, c :: rest =>
    let next := 10 * significand + (c.toNat - '0'.toNat)
    if next < significandLimit then gather next rest else (significand, c :: rest)

/-- The largest power of ten below the limit of floating point. -/
def largestPower : Nat := 308

/-- Divides by a power of ten, in steps as large as possible; each step rounds. -/
def divPower (x : Binary64) (n : Nat) : Option Binary64 :=
  if n ≤ largestPower then (Binary64.ofNat (Nat.pow 10 n)).bind x.div
  else if x.isZero then some x
  else (Binary64.ofNat (Nat.pow 10 largestPower)).bind x.div |>.bind (divPower · (n - largestPower))
termination_by n
decreasing_by have : 0 < largestPower := by decide
              omega

/-- The floating point number of a significand and a power of ten; none when it is too large. -/
def scaled (significand : Nat) (exponent : Int) : Option Binary64 := do
  let x ← Binary64.ofNat significand
  if exponent < 0 then divPower x exponent.natAbs
  else if exponent.natAbs ≤ largestPower then
    let power ← Binary64.ofNat (Nat.pow 10 exponent.natAbs)
    x.mul power
  else if x.isZero then return x
  else none

/-- The integer of a sign and a significand, unless only a floating point number can hold it: minus
zero, and what is too far below zero. -/
def integer? (negative : Bool) (significand : Nat) : Option Int :=
  if negative then
    if 0 < significand && significand ≤ 0x8000000000000000 then some (-significand) else none
  else some significand

/-- The value of a number; none when it is too large. -/
def value (x : Numeral) : Option Json :=
  let (significand, restWhole) := gather 0 x.whole
  let (digits, restFraction) := gather significand x.fraction
  let exponent : Int :=
    restWhole.length - (x.fraction.length - restFraction.length : Nat) + x.exponent
  let asFloat := (scaled digits exponent).map fun f => Json.float (f.withSign x.negative)
  if x.integral && restWhole.isEmpty then
    match integer? x.negative significand with
    | some n => some (.integer n)
    | none => asFloat
  else asFloat

end Numeral

/-! ## Writing -/

/-- The digits of an integer, after a minus sign when it is negative. -/
def integerText (n : Int) : List Char :=
  if n < 0 then '-' :: Nat.toDigits 10 n.natAbs else Nat.toDigits 10 n.natAbs

/-- The least power of ten whose digit still leads a positional number. -/
def positionalFrom : Int := -5

/-- The largest power of ten whose digit still leads a positional number. -/
def positionalTo : Int := 15

/-- Digits with a point: `digits` stand for `digits * 10 ^ exponent`. -/
def positional (digits : List Char) (exponent : Int) : List Char :=
  if 0 ≤ exponent then digits ++ List.replicate exponent.toNat '0' ++ ['.', '0']
  else
    let places := exponent.natAbs
    if places < digits.length then
      digits.take (digits.length - places) ++ '.' :: digits.drop (digits.length - places)
    else '0' :: '.' :: List.replicate (places - digits.length) '0' ++ digits

/-- Digits with an exponent, which is the power of ten of the first digit and always has a sign. -/
def scientific (digits : List Char) (lead : Int) : List Char :=
  let mantissa := match digits with
    | first :: second :: rest => first :: '.' :: second :: rest
    | few => few
  mantissa ++ 'e' :: (if lead < 0 then '-' else '+') :: Nat.toDigits 10 lead.natAbs

/-- The text of a floating point number. -/
def floatText (x : Binary64) : List Char :=
  let s := x.shortest
  let digits := Nat.toDigits 10 s.digits
  let lead := s.exponent + digits.length - 1
  let body :=
    if positionalFrom ≤ lead && lead ≤ positionalTo then positional digits s.exponent
    else scientific digits lead
  if x.negative then '-' :: body else body

end CardArchive.Json
