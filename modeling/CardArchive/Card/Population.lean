import CardArchive.Number.Decimal
import CardArchive.Text.Blank
import CardArchive.Text.Quoted
import CardArchive.Text.Search

/-!
# Populations

The description of a card begins with the population: a magnitude and a unit, such as `3 million` or
`2.5b Population`. Only the first two words count. The short tags `b Population` and `m Population`
are spelled out first; then the text up to the first space is the magnitude and the text up to the
second one the unit. A description that does not begin so is refused; an absent or empty one has no
population.
-/

namespace CardArchive

/-- Why a description has no readable population. -/
inductive PopulationError where
  | missingUnit (description : String)
  | invalidMagnitude (magnitude description : String)
  | unknownUnit (unit description : String)
  | outOfRange (description : String)
  deriving DecidableEq

/-- What is said about the error. -/
def PopulationError.message : PopulationError → String
  | missingUnit description => "no population unit in " ++ Text.quoted description
  | invalidMagnitude magnitude description =>
    "invalid population magnitude `" ++ magnitude ++ "` in " ++ Text.quoted description
  | unknownUnit unit description =>
    "unknown population unit `" ++ unit ++ "` in " ++ Text.quoted description
  | outOfRange description => "population out of range in " ++ Text.quoted description

namespace Population

/-- The short tag for billions. -/
def billionTag : List Char := "b Population".toList

/-- The short tag for millions. -/
def millionTag : List Char := "m Population".toList

/-- Spells out the short tags; the one for millions only where there is none for billions. -/
def spellOut (s : List Char) : List Char :=
  if Text.occursIn billionTag s then Text.replaceAll billionTag " billion".toList s
  else if Text.occursIn millionTag s then Text.replaceAll millionTag " million".toList s
  else s

/-- The power of ten of a unit. -/
def unitExponent? (unit : List Char) : Option Nat :=
  if unit = "million".toList ∨ unit = "m".toList then some 6
  else if unit = "billion".toList ∨ unit = "b".toList then some 9
  else none

/-- A magnitude times a power of ten, rounded to an integer; none when that does not fit 64 bits. -/
def scaled? (magnitude : Binary64) (exponent : Nat) : Option Int := do
  let factor ← Binary64.ofNat (Nat.pow 10 exponent)
  let product ← magnitude.mul factor
  Number.toInt64? product.round

/-- The population at the start of a description that is not empty. -/
def ofText (description : String) : Except PopulationError Int :=
  let start := [' '].intercalate ((Text.words description.toList).take 2)
  match Text.splitAll ' ' (spellOut start) with
  | magnitude :: unit :: _ =>
    match Binary64.read? magnitude with
    | none => .error (.invalidMagnitude (String.ofList magnitude) description)
    | some value =>
      match unitExponent? unit with
      | none => .error (.unknownUnit (String.ofList unit) description)
      | some exponent =>
        match scaled? value exponent with
        | none => .error (.outOfRange description)
        | some population => .ok population
  | _ => .error (.missingUnit description)

end Population

/-- The population that a description gives. -/
def population? : Option String → Except PopulationError (Option Int)
  | none => .ok none
  | some description =>
    if description.isEmpty then .ok none else (Population.ofText description).map some

end CardArchive
