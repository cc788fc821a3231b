import CardArchive.Number.Binary64

/-!
# Progress

How far the work on a data file has come.
-/

namespace CardArchive

/-- How many records of a file have been worked on. -/
structure Progress where
  /-- The records so far. -/
  current : Nat
  /-- The lines of the file. -/
  total : Nat
  label : String
  deriving DecidableEq

namespace Progress

/-- One, as a binary number. -/
def one : Binary64 where
  negative := false
  significand := 0x10000000000000
  scale := 1022
  significand_lt := Binary64.least_normal_lt
  scale_le := by decide
  normal := Or.inr (Nat.le_refl _)

/-- The part of the file that is done: both counts are rounded to binary numbers, their quotient is
rounded once, and the part never exceeds one. Of an empty file nothing is done. -/
def ratio (p : Progress) : Binary64 :=
  if p.total = 0 then .zero false
  else
    let quotient := do (← Binary64.ofNat p.current).div (← Binary64.ofNat p.total)
    match quotient with
    | some x => if x.magnitudeLe one then x else one
    | none => one

end Progress

end CardArchive
