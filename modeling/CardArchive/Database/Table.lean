import CardArchive.Card.Row
import CardArchive.Text.Case
import Std.Data.ExtTreeMap

/-!
# Databases

A database is a list of card tables, and a card table maps identifiers to rows. Tables are told
apart by their names without regard to the case of ASCII letters; a table keeps the spelling with
which it was made. Nothing is ever taken out: a table that is there is not made again, and a row
whose identifier is there is not added.
-/

namespace CardArchive

/-- The rows of a table by their identifiers. -/
abbrev Rows := Std.ExtTreeMap Int Row

/-- A card table. -/
structure Table where
  /-- The name, as it was first spelled. -/
  name : String
  rows : Rows

/-- The tables of a database, in the order in which they were made. -/
structure Database where
  tables : List Table := []

namespace Database

/-- The table with a name. -/
def table? (db : Database) (name : String) : Option Table :=
  db.tables.find? fun t => Text.sameName t.name name

/-- Whether a name belongs to a table. -/
def has (db : Database) (name : String) : Bool := (db.table? name).isSome

/-- The database with an empty table of the given name, unless there is one already. -/
def addTable (db : Database) (name : String) : Database :=
  if db.has name then db else ⟨db.tables ++ [⟨name, ∅⟩]⟩

/-- The database with other rows in the table with a name. -/
def setRows (db : Database) (name : String) (rows : Rows) : Database :=
  ⟨db.tables.map fun t => if Text.sameName t.name name then { t with rows := rows } else t⟩

/-- The rows of the table with a name. -/
def rows? (db : Database) (name : String) : Option Rows := (db.table? name).map Table.rows

/-- The names of the tables in ascending order. -/
def tableNames (db : Database) : List String :=
  (db.tables.map Table.name).mergeSort fun a b => a ≤ b

end Database

end CardArchive
