/-!
# Columns of a card table

Every card table has the same columns. Most hold the value of one key of the record that a row comes
from; the population is worked out of the description and has no key of its own.
-/

namespace CardArchive

/-- What a column holds. -/
inductive ColumnType where
  | integer
  | text
  /-- The text of a JSON value. -/
  | json
  deriving DecidableEq

/-- The type under which the database stores a column. -/
def ColumnType.sqlType : ColumnType → String
  | integer => "INTEGER"
  | text => "TEXT"
  | json => "TEXT"

/-- A column of a table. -/
structure Column where
  name : String
  type : ColumnType
  /-- Whether its value tells the rows apart. -/
  primaryKey : Bool := false
  /-- The key of the record that it is read from; none for a column worked out of others. -/
  key : Option String := none
  deriving DecidableEq

namespace Column

/-- A column that is the primary key. -/
def primary (name : String) (type : ColumnType) : Column where
  name := name
  type := type
  primaryKey := true

/-- The same column, read from a key. -/
def readFrom (c : Column) (key : String) : Column := { c with key := some key }

end Column

/-- The columns of a card table, in the order in which a row is written. -/
def cardColumns : List Column :=
  [ (Column.primary "id" .integer).readFrom "ID"
  , { name := "name", type := .text, key := "NAME" }
  , { name := "type", type := .text, key := "TYPE" }
  , { name := "motto", type := .text, key := "MOTTO" }
  , { name := "category", type := .text, key := "CATEGORY" }
  , { name := "region", type := .text, key := "REGION" }
  , { name := "flag", type := .text, key := "FLAG" }
  , { name := "cardcategory", type := .text, key := "CARDCATEGORY" }
  , { name := "population", type := .integer }
  , { name := "description", type := .text, key := "DESCRIPTION" }
  , { name := "badges", type := .json, key := "BADGES" }
  , { name := "trophies", type := .json, key := "TROPHIES" } ]

/-- The names of the columns. -/
def columnNames : List String := cardColumns.map Column.name

/-- The keys that a record may leave out. -/
def optionalKeys : List String := ["DESCRIPTION"]

/-- The keys that every record has, in the order of the columns. -/
def requiredKeys : List String :=
  (cardColumns.filterMap Column.key).filter fun key => !optionalKeys.contains key

end CardArchive
