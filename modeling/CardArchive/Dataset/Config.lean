import CardArchive.Database.Name
import CardArchive.Dataset.Basic

/-!
# Configurations

A configuration says which datasets are loaded, where their files are and which database they go to.
The tags of its datasets are different, and so are their tables, without regard to case; the names
of tables are plain identifiers, so that they can stand between quotes in a statement.
-/

namespace CardArchive

/-- What is wrong with a configuration. -/
inductive ConfigError where
  | noDatasets
  | emptyTag
  | invalidTable (name : String)
  /-- The name of a table is kept for the database itself. -/
  | reservedTable (name : String)
  | duplicateTag (tag : String)
  | duplicateTable (name : String)
  deriving DecidableEq

/-- What is said about the error. -/
def ConfigError.message (e : ConfigError) : String :=
  "invalid dataset configuration: " ++ match e with
  | noDatasets => "no datasets selected"
  | emptyTag => "empty dataset tag"
  | invalidTable name => "`" ++ name ++ "` is not a valid table name"
  | reservedTable name => "`" ++ name ++ "` uses the reserved sqlite_ prefix"
  | duplicateTag tag => "duplicate dataset tag `" ++ tag ++ "`"
  | duplicateTable name => "duplicate table `" ++ name ++ "`"

/-! ## Names of tables -/

/-- Checks the name of a table. -/
def checkTable (name : String) : Except ConfigError Unit :=
  if !isIdentifier name then .error (.invalidTable name)
  else if isReserved name then .error (.reservedTable name)
  else .ok ()

/-! ## Configurations -/

/-- Checks datasets that come after others with the given tags and tables. -/
def checkDatasetsAfter : List String → List String → List Dataset → Except ConfigError Unit
  | _, _, [] => .ok ()
  | tags, tables, d :: rest => do
    if d.tag.isEmpty then throw .emptyTag
    checkTable d.table
    if tags.contains d.tag then throw (.duplicateTag d.tag)
    if tables.any (Text.sameName d.table) then throw (.duplicateTable d.table)
    checkDatasetsAfter (d.tag :: tags) (d.table :: tables) rest

/-- Checks the datasets of a configuration. -/
def checkDatasets (datasets : List Dataset) : Except ConfigError Unit :=
  if datasets.isEmpty then .error .noDatasets else checkDatasetsAfter [] [] datasets

/-- Which datasets are loaded, from where and into what. -/
structure Config where
  dataDir : String
  database : String
  /-- The datasets, in the order in which they are loaded. -/
  datasets : List Dataset
  deriving DecidableEq

namespace Config

/-- The directory that is used by default. -/
def defaultDataDir : String := "data"

/-- The database that is used by default. -/
def defaultDatabase : String := "cardingser.db"

/-- The configuration that is used by default. -/
def standard : Config where
  dataDir := defaultDataDir
  database := defaultDatabase
  datasets := Dataset.defaults

/-- A configuration whose datasets have been checked. -/
def make (dataDir database : String) (datasets : List Dataset) : Except ConfigError Config :=
  (checkDatasets datasets).map fun _ => ⟨dataDir, database, datasets⟩

/-- The data file of a dataset. -/
def inputPath (c : Config) (d : Dataset) : String := Path.join c.dataDir d.inputFile

end Config

end CardArchive
