import CardArchive.Dataset.Config
import CardArchive.Run.Import

/-!
# Loading

Loading puts the data files of a configuration into the tables of its database, one dataset after
the other. Each dataset is loaded as a whole or not at all, and the first that fails ends the run;
what was loaded before it stays. That a dataset was loaded is reported after its rows are in the
database.

The lines of a file are counted before any is read. A directory can be opened as a file, but every
reading of it fails, and counting passes over failed readings: it does not come to an end. The lines
are read when the table has been made, and by then a data file that was empty may hold the database.
-/

namespace CardArchive

/-- Why datasets cannot be loaded. -/
inductive LoadError where
  | missingFile (path : String)
  | io (path : String) (fault : FileFault)
  /-- A line of a data file is not the row of a card; lines are counted from one. -/
  | record (dataset : String) (line : Nat) (e : RecordError)
  | database (e : DatabaseError)
  | invalidConfig (e : ConfigError)
  /-- Counting the lines does not come to an end. -/
  | endless (path : String)

/-- What is said about the error, where there is an explanation. -/
def LoadError.message? : LoadError → Option String
  | missingFile path => some ("input file not found: " ++ path)
  | io path fault => some ("failed to read " ++ path ++ ": " ++ fault.message)
  | record dataset line e =>
    e.message?.map fun m => "dataset " ++ dataset ++ ", line " ++ toString line ++ ": " ++ m
  | database e => some ("database error: " ++ e.message)
  | invalidConfig e => some e.message
  | endless _ => none

namespace Load

/-- The error for a data file that cannot be used. -/
def inputError (path : String) : FileFault → LoadError
  | .notFound => .missingFile path
  | fault => .io path fault

/-- The lines of a data file. -/
def inputLines (f : Files) (path : String) : Except LoadError (List (List UInt8)) :=
  match f.read path with
  | .error .isADirectory => .error (.endless path)
  | .error fault => .error (inputError path fault)
  | .ok bytes => .ok (Text.splitLines bytes)

/-- Opens a database. -/
def connect (path : String) : Run LoadError Connection := do
  let (c, f) ← Run.orFail .database (Connection.connect (← Run.files) path)
  Run.setFiles f
  return c

/-- Makes a card table unless it is there. -/
def createTable (c : Connection) (table : String) : Run LoadError Connection := do
  let db ← Run.orFail .database (c.database (← Run.files))
  let made ← Run.orFail .database (db.create table)
  let (c, f) := c.store (← Run.files) made
  Run.setFiles f
  return c

/-- Adds the rows of some lines to the table of a dataset: all of them, or none when a line is not a
row. The reports on the way are made before the rows are in the database, the last one after. -/
def importLines (c : Connection) (d : Dataset) (source : String) (lines : List (List UInt8))
    (total : Nat) : Run LoadError (Connection × LoadStats) := do
  let db ← Run.orFail .database (c.database (← Run.files))
  let (name, rows) ← Run.orFail .database (db.target d.table)
  let (i, fault?) := ({ rows := rows } : Import).addLines lines
  Run.reportAll (i.reported.reverse.map fun n => .progress ⟨n, total, d.tag⟩)
  match fault? with
  | some .notText => throw (.io source .notText)
  | some (.record e) => throw (.record d.tag (i.read + 1) e)
  | none =>
    let (c, f) := c.store (← Run.files) (db.setRows name i.rows)
    Run.setFiles f
    Run.report (.progress ⟨i.read, total, d.tag⟩)
    return (c, i.stats d)

/-- Adds the rows of a data file to the table of its dataset; so many of its lines were counted. -/
def importFile (config : Config) (c : Connection) (d : Dataset) (counted : Nat) :
    Run LoadError (Connection × LoadStats) := do
  let path := config.inputPath d
  let lines ← Run.orFail id (inputLines (← Run.files) path)
  importLines c d path lines counted

/-- Loads a dataset. -/
def loadDataset (config : Config) (d : Dataset) : Run LoadError LoadStats := do
  let path := config.inputPath d
  let lines ← Run.orFail id (inputLines (← Run.files) path)
  Run.report (.info (path ++ " -> " ++ config.database))
  Run.report (.log (d.tag ++ ": reading " ++ path))
  let c ← connect config.database
  let c ← createTable c d.table
  let (_, stats) ← importFile config c d lines.length
  Run.report (.loaded stats)
  return stats

/-- Loads datasets, one after the other. -/
def loadEach (config : Config) : List Dataset → Run LoadError (List LoadStats)
  | [] => return []
  | d :: rest => do
    let stats ← loadDataset config d
    let more ← loadEach config rest
    return stats :: more

/-- Loads the datasets of a configuration. -/
def loadDatasets (config : Config) : Run LoadError RunSummary := do
  Run.report (.phase .preparing)
  Run.report
    (.log (toString config.datasets.length ++ " datasets into " ++ config.database))
  Run.report (.phase .loading)
  let stats ← loadEach config config.datasets
  Run.report .noProgress
  return ⟨stats⟩

end Load

end CardArchive
