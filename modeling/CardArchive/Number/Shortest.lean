import CardArchive.Number.Binary64

/-!
# Shortest decimal digits

A binary number is written with the fewest decimal digits that read back as it, and of those digit
strings the one nearest to it. For each number of digits only the two neighbours of the value on
that decimal grid can qualify; the first grid with a qualifying neighbour decides.
-/

namespace CardArchive.Binary64

/-- How many decimal digits a number has. -/
private def places (n : Nat) : Nat := (Nat.toDigits 10 n).length

/-- A decimal number `digits * 10 ^ exponent`. -/
structure Shortest where
  /-- The digits, without a trailing zero unless they are zero. -/
  digits : Nat
  /-- The power of ten that they count. -/
  exponent : Int
  deriving DecidableEq

/-- The same number without trailing zeros in its digits. -/
def Shortest.trimmed (digits : Nat) (exponent : Int) : Shortest :=
  if h : digits ≠ 0 ∧ digits % 10 = 0 then
    Shortest.trimmed (digits / 10) (exponent + 1)
  else ⟨digits, exponent⟩
termination_by digits
decreasing_by omega

/-- The power of ten of the first digit of a number other than zero. The value is scaled by
`10 ^ 400` first, which makes every such number larger than one. -/
def leadingExponent (x : Binary64) : Int :=
  (places (x.units * Nat.pow 10 400 / unitsPerOne) : Int) - 401

/-- Quarter units up to which a larger decimal still reads back as the number. -/
def roomAbove (x : Binary64) : Nat := 2 * Nat.pow 2 x.scale

/-- Quarter units down to which a smaller decimal still reads back as the number. Below a power of
two the numbers lie twice as close. -/
def roomBelow (x : Binary64) : Nat :=
  if x.significand = 0x10000000000000 ∧ x.scale ≠ 0 then Nat.pow 2 x.scale
  else 2 * Nat.pow 2 x.scale

/-- Whether `n / d` units read back as the number. A decimal halfway between two numbers reads back
as the one with the even significand. -/
def readsBack (x : Binary64) (n d : Nat) : Bool :=
  let low := (4 * x.units - x.roomBelow) * d
  let high := (4 * x.units + x.roomAbove) * d
  if x.significand % 2 = 0 then low ≤ 4 * n && 4 * n ≤ high
  else low < 4 * n && 4 * n < high

/-- The better neighbour of the number on the grid of multiples of `10 ^ exponent`, if one reads
back: the nearer, and of two equally near ones the even. -/
def onGrid (x : Binary64) (exponent : Int) : Option Nat :=
  let step := if 0 ≤ exponent then unitsPerOne * Nat.pow 10 exponent.toNat else unitsPerOne
  let d := if 0 ≤ exponent then 1 else Nat.pow 10 (-exponent).toNat
  let n := x.units * d
  let below := n / step
  let above := below + 1
  match x.readsBack (below * step) d, x.readsBack (above * step) d with
  | true, true => some (roundHalfEven n step)
  | true, false => some below
  | false, true => some above
  | false, false => none

/-- The shortest decimal that reads back as the number. Seventeen digits always do. -/
def shortest (x : Binary64) : Shortest :=
  if x.isZero then ⟨0, 0⟩
  else
    let lead := x.leadingExponent
    let found := (List.range 17).findSome? fun (more : Nat) =>
      (x.onGrid (lead - more)).map fun digits => Shortest.trimmed digits (lead - more)
    found.getD ⟨0, 0⟩

end CardArchive.Binary64
