import CardArchive.Run.Report
import CardArchive.Screen.Grid

/-!
# Panels

The four panels of the screen: what is going on, how far it has come, what has been loaded, and what
has happened.
-/

namespace CardArchive.Screen

/-! ## Status -/

/-- The mark of a phase. -/
def phaseMark : Phase → String
  | .converting => "⇄"
  | .preparing => "…"
  | .loading => "⚙"
  | .complete => "✓"

/-- The colour of a phase. -/
def phaseColor : Phase → Color
  | .converting => .magenta
  | .preparing => .yellow
  | .loading => .cyan
  | .complete => .green

/-- The phase and what is worked on. -/
structure StatusPanel where
  phase : Phase := .preparing
  /-- What is worked on. -/
  info : String := ""

/-- Draws the panel. -/
def StatusPanel.draw (p : StatusPanel) (width height : Nat) : Grid :=
  framed " Cardlist to SQLite " width height
    [ styled (phaseColor p.phase) (" " ++ phaseMark p.phase ++ " " ++ p.phase.label)
    , []
    , styled .gray ("   " ++ p.info) ]

/-! ## Progress -/

/-- The progress on the data file under way, if there is one. -/
structure ProgressPanel where
  current : Option Progress := none

/-- The text on a gauge. -/
def gaugeLabel (p : Progress) : String :=
  p.label ++ ": " ++ toString p.current ++ "/" ++ toString p.total ++ " records"

/-- How many of some cells a part of them makes, to the nearest. -/
def filledCells (width : Nat) (ratio : Binary64) : Nat :=
  match (Binary64.ofNat width).bind ratio.mul with
  | some x => x.round.toNat
  | none => 0

/-- A cell of a gauge with `filled` full cells. The label stands in the middle of the row in the
middle; full cells make room for it and for one cell behind it. -/
def gaugeCell (width height filled : Nat) (label : List Char) (row column : Nat) : Cell :=
  let shown := min width label.length
  let start := (width - shown) / 2
  let color := fun (covered : Bool) => if covered then Color.darkGray else Color.cyan
  if row = height / 2 && start ≤ column && column < start + shown then
    ⟨label.getD (column - start) ' ', color (column < filled)⟩
  else if column < filled then
    if row = height / 2 && column = start + shown then ⟨' ', .darkGray⟩ else ⟨'█', .cyan⟩
  else ⟨' ', .cyan⟩

/-- Draws a gauge. -/
def gauge (p : Progress) (width height : Nat) : Grid :=
  let filled := filledCells width p.ratio
  let label := (gaugeLabel p).toList
  (List.range height).map fun row =>
    (List.range width).map fun column => gaugeCell width height filled label row column

/-- Draws the panel, which has sides only. -/
def ProgressPanel.draw (p : ProgressPanel) (width height : Nat) : Grid :=
  let inner := match p.current with
    | some progress => gauge progress (width - 2) height
    | none => []
  (fit (width - 2) height inner).map (between width)

/-! ## Datasets -/

/-- The datasets that were loaded. -/
structure DatasetPanel where
  /-- The counts of each, in the order of loading. -/
  rows : List LoadStats := []

/-- The widths of the columns. -/
def columnWidths : List Nat := [10, 12, 10, 10, 10]

/-- A row of the table: texts cut to their columns, with a space between two columns. -/
def tableLine (texts : List String) : Line :=
  [blank].intercalate
    ((texts.zip columnWidths).map fun (s, width) => fitLine width (styled .reset s))

/-- The largest height that there is. -/
def maxHeight : Nat := 0xFFFF

namespace DatasetPanel

/-- The height that the panel asks for: the rows, counted in sixteen bits, and three more for the
frame and the header, up to the largest height. -/
def height (p : DatasetPanel) : Nat := min (p.rows.length % 0x10000 + 3) maxHeight

/-- Draws the panel. -/
def draw (p : DatasetPanel) (width height : Nat) : Grid :=
  framed " Datasets " width height
    (tableLine ["Dataset", "Table", "Read", "Inserted", "Skipped"] ::
      p.rows.map fun s =>
        tableLine [s.tag, s.table, toString s.read, toString s.inserted, toString s.skipped])

end DatasetPanel

/-! ## Log -/

/-- What has happened, the newest last. -/
structure LogPanel where
  entries : List String := []

namespace LogPanel

/-- How many entries are kept. -/
def maxEntries : Nat := 200

/-- One more entry; the oldest makes room for it. -/
def push (p : LogPanel) (message : String) : LogPanel :=
  let entries := p.entries ++ [message]
  ⟨if maxEntries < entries.length then entries.drop 1 else entries⟩

/-- The place of the first entry that a panel of the given height shows. -/
def start (p : LogPanel) (height : Nat) : Nat := p.entries.length - (height - 2)

/-- The entries that a panel of the given height shows, and whether each is the newest. -/
def visible (p : LogPanel) (height : Nat) : List (String × Bool) :=
  let last := p.entries.length - 1
  (p.entries.drop (p.start height)).zipIdx.map fun (entry, i) => (entry, p.start height + i = last)

/-- Draws the panel. -/
def draw (p : LogPanel) (width height : Nat) : Grid :=
  framed " Activity " width height
    ((p.visible height).map fun (entry, newest) =>
      styled (if newest then .white else .darkGray) (" " ++ entry))

end LogPanel

end CardArchive.Screen
