import CardArchive.Database.Table
import CardArchive.Json.Document

/-!
# Stored databases

A database is stored as text: a first line that tells what it is, a line with the name of each
table, and below it a line with the cells of each row.
-/

namespace CardArchive.Database

/-- The first line of a stored database. -/
def firstLine : String := "card archive database"

/-- A cell as a JSON value. -/
def cellJson : Cell → Json
  | .null => .null
  | .integer n => .integer n
  | .text s => .string s

/-- The cell that a JSON value stands for. -/
def cell? : Json → Option Cell
  | .null => some .null
  | .integer n => some (.integer n)
  | .string s => some (.text s)
  | _ => none

/-- The text in a cell, if it holds one or nothing. -/
def textIn? : Cell → Option (Option String)
  | .null => some none
  | .text s => some (some s)
  | .integer _ => none

/-- The integer in a cell, if it holds one or nothing. -/
def integerIn? : Cell → Option (Option Int)
  | .null => some none
  | .integer n => some (some n)
  | .text _ => none

/-- The row that has some cells. -/
def row? : List Cell → Option Row
  | [.integer id, name, type, motto, category, region, flag, cardCategory, population, description,
      .text badges, .text trophies] => do
    return { id := id
             name := ← textIn? name
             type := ← textIn? type
             motto := ← textIn? motto
             category := ← textIn? category
             region := ← textIn? region
             flag := ← textIn? flag
             cardCategory := ← textIn? cardCategory
             population := ← integerIn? population
             description := ← textIn? description
             badges := badges
             trophies := trophies }
  | _ => none

/-- The lines of a table. -/
def tableLines (t : Table) : List String :=
  (Json.string t.name).compact ::
    t.rows.toList.map fun (_, r) => (Json.array (r.cells.map cellJson)).compact

/-- The text of a database. -/
def stored (db : Database) : String :=
  "\n".intercalate (firstLine :: db.tables.flatMap tableLines) ++ "\n"

/-- The database after a line of its text; its last table comes first here. -/
def addLine? (tables : List Table) (line : String) : Option (List Table) := do
  match ← Json.parse? line, tables with
  | .string name, tables => some (⟨name, ∅⟩ :: tables)
  | .array cells, t :: others => do
    let r ← row? (← cells.mapM cell?)
    some ({ t with rows := t.rows.insert r.id r } :: others)
  | _, _ => none

/-- The database that some lines store. -/
def ofLines? : List String → Option Database
  | [] => none
  | first :: lines =>
    if first = firstLine then (lines.foldlM addLine? []).map fun tables => ⟨tables.reverse⟩
    else none

end CardArchive.Database
