import CardArchive.Database.Connection
import CardArchive.Dataset.Basic
import CardArchive.Run.Report
import CardArchive.Text.Lines

/-!
# Imports

An import reads the lines of a data file and adds a row for each to a table, unless there is a row
with its identifier. It ends at the first line that is not a row; then nothing of it is kept. From
time to time it reports how many lines it has read.
-/

namespace CardArchive

/-- Why a line is not a row. -/
inductive LineFault where
  | notText
  | record (e : RecordError)

/-- The row that the bytes of a line give. -/
def Row.ofBytes (bytes : List UInt8) : Except LineFault Row :=
  match Text.decode bytes with
  | none => .error .notText
  | some line => (Row.ofLine line).mapError .record

/-- An import under way. -/
structure Import where
  /-- The rows of the table, those added included. -/
  rows : Rows
  read : Nat := 0
  inserted : Nat := 0
  /-- The lines whose identifier was there. -/
  skipped : Nat := 0
  /-- The numbers of lines read that were reported, last first. -/
  reported : List Nat := []

namespace Import

/-- After how many lines the next report is due. -/
def reportInterval : Nat := 1000

/-- One more row. -/
def add (i : Import) (row : Row) : Import :=
  let read := i.read + 1
  let reported := if read % reportInterval = 0 then read :: i.reported else i.reported
  if i.rows.contains row.id then
    { i with read := read, skipped := i.skipped + 1, reported := reported }
  else
    { i with
      rows := i.rows.insert row.id row
      read := read
      inserted := i.inserted + 1
      reported := reported }

/-- Reads lines up to the first that is not a row, which is the one after those that were read. -/
def addLines : Import → List (List UInt8) → Import × Option LineFault
  | i, [] => (i, none)
  | i, line :: rest =>
    match Row.ofBytes line with
    | .ok row => addLines (i.add row) rest
    | .error fault => (i, some fault)

/-- What is counted. -/
def stats (i : Import) (d : Dataset) : LoadStats where
  tag := d.tag
  table := d.table
  read := i.read
  inserted := i.inserted
  skipped := i.skipped

end Import

end CardArchive
