import CardArchive.Run.Progress
import CardArchive.Run.Stats
import CardArchive.Storage.Files

/-!
# Reports

While a run goes on it reports what it does: the phase it is in, what it works on, how far it has
come, and what it has finished. A run is a function of the files that either fails or gives a
result, and either way leaves files behind and the reports that it made. With each report the files
are kept as they were at that moment, so that it can be said what was true when something was
reported.
-/

namespace CardArchive

/-- The phase of a run. -/
inductive Phase where
  | converting
  | preparing
  | loading
  | complete
  deriving DecidableEq

/-- The phase in words. -/
def Phase.label : Phase → String
  | converting => "Converting XML dumps"
  | preparing => "Preparing datasets"
  | loading => "Loading cards"
  | complete => "Complete"

/-- What a run reports. -/
inductive Report where
  | phase (p : Phase)
  /-- This is worked on. -/
  | info (s : String)
  | progress (p : Progress)
  /-- There is no progress to show any more. -/
  | noProgress
  | log (s : String)
  /-- A dataset was loaded: its import has committed, and its connection is closed. -/
  | loaded (s : LoadStats)
  deriving DecidableEq

/-- The counts of the dataset that a report announces, if it does. -/
def Report.loaded? : Report → Option LoadStats
  | .loaded stats => some stats
  | _ => none

/-- A report and the files at the moment when it was made. -/
structure Moment where
  report : Report
  files : Files

/-- The state of a run. -/
structure RunState where
  files : Files
  /-- The reports so far, last first. -/
  moments : List Moment := []

namespace RunState

/-- The state after a report. -/
def report (s : RunState) (r : Report) : RunState :=
  { s with moments := ⟨r, s.files⟩ :: s.moments }

/-- The reports in the order in which they were made. -/
def reports (s : RunState) : List Report := s.moments.reverse.map Moment.report

end RunState

/-- A run that may fail. -/
abbrev Run (ε α : Type) := ExceptT ε (StateM RunState) α

namespace Run

variable {ε α : Type}

/-- Makes a report. -/
def report (r : Report) : Run ε Unit := modify fun s => s.report r

/-- Makes some reports, one after the other. -/
def reportAll (rs : List Report) : Run ε Unit := modify fun s => rs.foldl RunState.report s

/-- The files at this moment. -/
def files : Run ε Files := do return (← get).files

/-- Puts other files in place. -/
def setFiles (f : Files) : Run ε Unit := modify fun s => { s with files := f }

/-- The value of something that may fail for a reason of its own. -/
def orFail {δ : Type} (wrap : δ → ε) : Except δ α → Run ε α
  | .ok a => pure a
  | .error e => throw (wrap e)

/-- Runs on some files: the outcome and the state that is left. -/
def start (r : Run ε α) (f : Files) : Except ε α × RunState := (r.run).run ⟨f, []⟩

end Run

end CardArchive
