import CardArchive.Number.Binary64
import CardArchive.Number.Integer

/-!
# Decimal literals

A decimal literal is read in two steps: its text is taken apart into a sign, a natural number and a
power of ten, and that exact value is rounded once.
-/

namespace CardArchive

/-- The exact value of a decimal literal, plus or minus `digits * 10 ^ exponent`. -/
structure Decimal where
  /-- Whether a minus sign stands in front. -/
  negative : Bool
  /-- The digits before and after the point, read as one number. -/
  digits : Nat
  /-- The power of ten they count. -/
  exponent : Int
  deriving DecidableEq

namespace Decimal

/-- A power of ten that is read after `e` or `E`: an optional sign and digits, to the end. -/
def readExponent? (s : List Char) : Option Int :=
  let (negative, digits) := Number.splitSign s
  if digits.isEmpty || !digits.all Char.isDigit then none
  else
    let n : Int := Number.digitsValue digits
    some (if negative then -n else n)

/-- Reads the whole text as a decimal literal: an optional sign; digits with an optional point
among, before or after them, at least one digit in all; an optional exponent. -/
def read? (s : List Char) : Option Decimal :=
  let (negative, body) := Number.splitSign s
  let whole := body.takeWhile Char.isDigit
  let rest := body.dropWhile Char.isDigit
  let (fraction, rest) :=
    match rest with
    | '.' :: after => (after.takeWhile Char.isDigit, after.dropWhile Char.isDigit)
    | rest => ([], rest)
  let digits := whole ++ fraction
  if digits.isEmpty then none
  else
    let exponent? :=
      match rest with
      | [] => some 0
      | c :: after => if c = 'e' || c = 'E' then readExponent? after else none
    exponent?.map fun exponent =>
      ⟨negative, Number.digitsValue digits, exponent - fraction.length⟩

/-- How many decimal digits a number has. -/
def digitCount (n : Nat) : Nat := (Nat.toDigits 10 n).length

/-- The binary number nearest to the literal; none when it would be infinite. Exponents so far out
that the answer is certain are not multiplied out. -/
def nearest (x : Decimal) : Option Binary64 :=
  if x.digits = 0 then some (.zero x.negative)
  else if 0 ≤ x.exponent then
    if 400 < x.exponent then none
    else Binary64.ofRatio x.negative (x.digits * Nat.pow 10 x.exponent.toNat) 1
  else if (digitCount x.digits + 400 : Int) < -x.exponent then some (.zero x.negative)
  else Binary64.ofRatio x.negative x.digits (Nat.pow 10 (-x.exponent).toNat)

end Decimal

/-- Reads the whole text as a decimal literal and rounds it; none when it is no literal or beyond
the finite numbers. -/
def Binary64.read? (s : List Char) : Option Binary64 := (Decimal.read? s).bind Decimal.nearest

end CardArchive
