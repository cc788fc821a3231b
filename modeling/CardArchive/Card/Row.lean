import CardArchive.Card.Record

/-!
# Rows of a card table

A row is a record with the population added and the badges and trophies as JSON text. Its cells
stand in the order of the columns.
-/

namespace CardArchive

/-- A value in a table. -/
inductive Cell where
  | null
  | integer (n : Int)
  | text (s : String)
  deriving DecidableEq

namespace Cell

/-- The cell of a text that may be absent. -/
def ofText? : Option String → Cell
  | none => null
  | some s => text s

/-- The cell of an integer that may be absent. -/
def ofInt? : Option Int → Cell
  | none => null
  | some n => integer n

end Cell

/-- A card as a table keeps it. -/
structure Row where
  id : Int
  name : Option String
  type : Option String
  motto : Option String
  category : Option String
  region : Option String
  flag : Option String
  cardCategory : Option String
  population : Option Int
  description : Option String
  /-- The badges as JSON text. -/
  badges : String
  /-- The trophies as JSON text. -/
  trophies : String
  deriving DecidableEq

namespace Row

/-- The row of a record. -/
def ofRecord (r : Record) : Except PopulationError Row :=
  (population? r.description).map fun population =>
    { id := r.id
      name := r.name
      type := r.type
      motto := r.motto
      category := r.category
      region := r.region
      flag := r.flag
      cardCategory := r.cardCategory
      population := population
      description := r.description
      badges := r.badges.compact
      trophies := r.trophies.compact }

/-- Reads a line. -/
def ofLine (line : String) : Except RecordError Row := do
  let record ← Record.ofLine line
  (ofRecord record).mapError .population

/-- The cells of a row, in the order of the columns. -/
def cells (r : Row) : List Cell :=
  [ .integer r.id
  , .ofText? r.name
  , .ofText? r.type
  , .ofText? r.motto
  , .ofText? r.category
  , .ofText? r.region
  , .ofText? r.flag
  , .ofText? r.cardCategory
  , .ofInt? r.population
  , .ofText? r.description
  , .text r.badges
  , .text r.trophies ]

end Row

end CardArchive
