import CardArchive.Screen.Panel

/-!
# The full screen

The panels stand one below the other. Every report of a run changes one of them and draws the screen
once. When a run has come to a good end, the screen says so and waits for a key.
-/

namespace CardArchive.Screen

/-- What the screen shows. -/
structure Dashboard where
  /-- The phase and what is worked on. -/
  status : StatusPanel := {}
  progress : ProgressPanel := {}
  /-- The datasets that were loaded. -/
  datasets : DatasetPanel := {}
  log : LogPanel := {}

namespace Dashboard

/-- The screen after one more entry in the log. -/
def addEntry (d : Dashboard) (message : String) : Dashboard :=
  { d with log := d.log.push message }

/-- The screen after a report. -/
def apply (d : Dashboard) : Report → Dashboard
  | .phase p => { d with status := { d.status with phase := p } }
  | .info s => { d with status := { d.status with info := s } }
  | .progress p => { d with progress := ⟨some p⟩ }
  | .noProgress => { d with progress := ⟨none⟩ }
  | .log s => d.addEntry s
  | .loaded s =>
    { d with datasets := ⟨d.datasets.rows ++ [s]⟩ }.addEntry (s.tag ++ ": committed")

/-- The rows of the status panel. -/
def statusHeight : Nat := 5

/-- The rows of the progress panel. -/
def progressHeight : Nat := 3

/-- The fewest rows of the log. -/
def minLogHeight : Nat := 4

/-- Draws the screen. The log takes the rows that are left. -/
def draw (d : Dashboard) (width height : Nat) : Grid :=
  let used := statusHeight + progressHeight + d.datasets.height
  (d.status.draw width statusHeight ++ d.progress.draw width progressHeight
    ++ d.datasets.draw width d.datasets.height
    ++ d.log.draw width (max minLogHeight (height - used))).take height

/-- What is logged when a run is over. -/
def prompt : String := "Press any key to exit..."

/-- The reports with which a run ends well. -/
def closing (summary : RunSummary) : List Report :=
  [.phase .complete, .noProgress, .log summary.display, .log prompt]

/-- The screens after each of some reports. -/
def screens : Dashboard → List Report → List Dashboard
  | _, [] => []
  | d, r :: rest => d.apply r :: screens (d.apply r) rest

end Dashboard

end CardArchive.Screen
