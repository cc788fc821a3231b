import CardArchive.Run.Load
import CardArchive.Storage.Readings

/-!
# Loading what is read

Loading a dataset as it goes on reading by reading. The data file is opened twice, once to count its
lines and once to import them, and both go through the same lines by different rules: counting asks
for lines until there is none, whether they can be read or not, and an import stops at the first
that cannot be read or is no row.
-/

namespace CardArchive

/-- A run that may fail, and that may go on for ever: then its outcome is undefined. -/
abbrev OpenRun (ε α : Type) := ExceptT ε (StateT RunState Part) α

namespace OpenRun

variable {ε α : Type}

/-- Runs from a state: the outcome and the state that is left, if it comes to an end. -/
def exec (r : OpenRun ε α) (s : RunState) : Part (Except ε α × RunState) := (r.run).run s

/-- A run that comes to an end. -/
def ofRun (r : Run ε α) : OpenRun ε α := ExceptT.mk fun s => Part.some ((r.run).run s)

/-- Waits for a value, which may take for ever. -/
def await (x : Part α) : OpenRun ε α := ExceptT.mk fun s => x.map fun a => (.ok a, s)

end OpenRun

/-- Why an import stops before the last line. -/
inductive Stop where
  /-- A line cannot be read. -/
  | unreadable (fault : FileFault)
  /-- A line is no record of a card. -/
  | record (e : RecordError)

/-- The error for a line, after a number of lines that are rows. -/
def Stop.error (d : Dataset) (source : String) (before : Nat) : Stop → LoadError
  | unreadable fault => .io source fault
  | record e => .record d.tag (before + 1) e

namespace Import

/-- Adds one line that is read, unless there is none, or it cannot be read or is no row. -/
def addReading (r : Readings) : Import × Nat → Part (Import × Option Stop ⊕ Import × Nat)
  | (i, place) => (r.nextLine place []).map fun
    | (none, _) => .inl (i, none)
    | (some (.error fault), _) => .inl (i, some (.unreadable fault))
    | (some (.ok line), next) =>
      match Row.ofLine line with
      | .ok row => .inr (i.add row, next)
      | .error e => .inl (i, some (.record e))

/-- Adds the lines that are read from a place on, up to the first that cannot be read or is no
row. -/
def addReadings (i : Import) (r : Readings) (place : Nat) : Part (Import × Option Stop) :=
  PFun.fix (addReading r) (i, place)

end Import

namespace Load

open OpenRun

/-- Finds the table to which the rows of a dataset go. -/
def beginImport (c : Connection) (d : Dataset) : Run LoadError (Database × String × Rows) := do
  let db ← Run.orFail .database (c.database (← Run.files))
  let (name, rows) ← Run.orFail .database (db.target d.table)
  return (db, name, rows)

/-- Stores the rows of an import, unless it ended with an error. -/
def endImport (c : Connection) (d : Dataset) (total : Nat) (db : Database) (name : String)
    (i : Import) (error? : Option LoadError) : Run LoadError (Connection × LoadStats) := do
  Run.reportAll (i.reported.reverse.map fun n => .progress ⟨n, total, d.tag⟩)
  match error? with
  | some e => throw e
  | none =>
    let (c, f) := c.store (← Run.files) (db.setRows name i.rows)
    Run.setFiles f
    Run.report (.progress ⟨i.read, total, d.tag⟩)
    return (c, i.stats d)

/-- Adds the rows of the lines that are read to the table of a dataset, or none of them. -/
def importReading (c : Connection) (d : Dataset) (source : String) (r : Readings) (total : Nat) :
    OpenRun LoadError (Connection × LoadStats) := do
  let (db, name, rows) ← ofRun (beginImport c d)
  let (i, stop?) ← await (Import.addReadings { rows := rows } r 0)
  ofRun (endImport c d total db name i (stop?.map (Stop.error d source i.read)))

/-- Loads a dataset whose data file gives these readings when its lines are counted and when they
are imported. -/
def loadReading (config : Config) (d : Dataset) (counted imported : Readings) :
    OpenRun LoadError LoadStats := do
  let path := config.inputPath d
  let total ← await (counted.countLines 0 0)
  ofRun (Run.report (.info (path ++ " -> " ++ config.database)))
  ofRun (Run.report (.log (d.tag ++ ": reading " ++ path)))
  let c ← ofRun (connect config.database)
  let c ← ofRun (createTable c d.table)
  let (_, stats) ← importReading c d path imported total
  ofRun (Run.report (.loaded stats))
  return stats

end Load

end CardArchive
