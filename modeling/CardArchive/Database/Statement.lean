import CardArchive.Card.Column

/-!
# Statements

The two statements that are put to the database: one makes a card table unless it is there, the
other adds a row unless its identifier is there. The name of the table stands between quotes, as it
is.
-/

namespace CardArchive.Statement

/-- The lines that declare the columns and the primary key. -/
def declarations : List String :=
  cardColumns.map (fun c => "    " ++ c.name ++ " " ++ c.type.sqlType) ++
    ["    PRIMARY KEY (" ++
      ", ".intercalate ((cardColumns.filter Column.primaryKey).map Column.name) ++ ")"]

/-- Makes a card table unless one with the name is there. -/
def create (table : String) : String :=
  "CREATE TABLE IF NOT EXISTS \"" ++ table ++ "\" (\n" ++ ",\n".intercalate declarations ++ "\n)"

/-- Adds a row unless its primary key is there. -/
def insert (table : String) : String :=
  "INSERT OR IGNORE INTO \"" ++ table ++ "\" (" ++ ", ".intercalate columnNames ++ ") VALUES (" ++
    ", ".intercalate (columnNames.map fun _ => "?") ++ ")"

end CardArchive.Statement
