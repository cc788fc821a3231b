import CardArchive.Command.Line
import CardArchive.Dataset.Selection
import CardArchive.Run.Convert
import CardArchive.Run.Load
import CardArchive.Screen.Dashboard
import CardArchive.Text.Quoted

/-!
# The program

What a command does to the files, what it prints, and with which status it ends. A failure is told
as a chain: what could not be done, and below it the causes, from the nearest to the last.
-/

namespace CardArchive.Command

/-! ## Failures -/

/-- A failure and its causes. -/
structure Failure where
  /-- What could not be done. -/
  top : String
  /-- The causes, the nearest first. -/
  causes : List String := []
  deriving DecidableEq

namespace Failure

/-- A cause, its further lines indented. -/
def indented (first further cause : String) : String :=
  first ++ ("\n" ++ further).intercalate
    ((Text.splitAll '\n' cause.toList).map String.ofList)

/-- The causes: one by itself, several numbered from zero. -/
def causeLines : List String → List String
  | [cause] => [indented "    " "    " cause]
  | causes => causes.zipIdx.map fun (cause, i) =>
    let number := toString i
    let indent := String.ofList (List.replicate (5 - number.length) ' ')
    indented (indent ++ number ++ ": ") "       " cause

/-- The failure as it is printed. -/
def text (f : Failure) : String :=
  let below := if f.causes.isEmpty then ""
    else "\n\nCaused by:\n" ++ "\n".intercalate (causeLines f.causes)
  "Error: " ++ f.top ++ below ++ "\n"

end Failure

/-- The causes behind an error in a record: itself, and what is behind it. -/
def recordCauses : RecordError → List String
  | .malformed defect =>
    let message := defect.message?.getD "invalid JSON"
    ["malformed record: " ++ message, message]
  | .missingField key => ((RecordError.missingField key).message?).toList
  | .population e => [e.message]

/-- The causes behind an error in loading: itself, and what is behind it. -/
def loadCauses : LoadError → List String
  | .record dataset line e =>
    let causes := recordCauses e
    ("dataset " ++ dataset ++ ", line " ++ toString line ++ ": " ++ causes.headD "") :: causes
  | .io path fault => ((LoadError.io path fault).message?).toList ++ [fault.message]
  | .database e => ((LoadError.database e).message?).toList ++ [e.message]
  | e => e.message?.toList

/-- The causes behind an error in converting: itself, and what is behind it. -/
def convertCauses : ConvertError → List String
  | .io path fault => [(ConvertError.io path fault).message, fault.message]
  | e => [e.message]

/-! ## Commands -/

/-- How a command ends. -/
structure Outcome where
  failure? : Option Failure := none
  output : String := ""
  /-- The files that it leaves. -/
  files : Files
  /-- The screens that it showed, one after each report. -/
  screens : List Screen.Dashboard := []
  /-- Whether it waits for a key at the end. -/
  waits : Bool := false

namespace Outcome

/-- The status with which the program ends. -/
def status (o : Outcome) : Nat := if o.failure?.isSome then 1 else 0

/-- What is printed about a failure. -/
def errorText (o : Outcome) : String := (o.failure?.map Failure.text).getD ""

end Outcome

/-- The failure of a selection. -/
def selectionFailure (e : SelectionError) : Failure := { top := e.message }

/-- Loads datasets. The full screen shows every report. -/
def runLoad (o : LoadOptions) (f : Files) : Outcome :=
  match Selection.select o.include? o.exclude? with
  | .error e => { failure? := some (selectionFailure e), files := f }
  | .ok datasets =>
    match Config.make o.dataDir o.outputDb datasets with
    | .error e =>
      { failure? := some { top := "Invalid dataset configuration", causes := [e.message] }
        files := f }
    | .ok config =>
      let (result, state) := Run.start (Load.loadDatasets config) f
      let shown (last : List Report) : List Screen.Dashboard :=
        if o.tui then Screen.Dashboard.screens {} (state.reports ++ last) else []
      match result with
      | .ok summary =>
        { files := state.files
          screens := shown (Screen.Dashboard.closing summary)
          waits := o.tui }
      | .error e =>
        { failure? := some
            { top := "Failed to load cards into " ++ Text.quoted o.outputDb
              causes := loadCauses e }
          files := state.files
          screens := shown [] }

/-- Converts dumps, and prints what was converted. -/
def runConvert (o : ConvertOptions) (f : Files) : Outcome :=
  match Selection.select o.include? o.exclude? with
  | .error e => { failure? := some (selectionFailure e), files := f }
  | .ok datasets =>
    let (result, state) := Run.start (Convert.convertDatasets o.dataDir datasets) f
    match result with
    | .ok converted =>
      { output := String.join (converted.map fun s => s.display ++ "\n"), files := state.files }
    | .error e =>
      { failure? := some
          { top := "Failed to convert XML dumps in " ++ Text.quoted o.dataDir
            causes := convertCauses e }
        files := state.files }

/-- The line of a dataset in a list; tags are filled up to four characters. -/
def datasetLine (c : Config) (d : Dataset) : String :=
  let tag := d.tag ++ String.ofList (List.replicate (4 - d.tag.length) ' ')
  "  " ++ tag ++ " " ++ c.inputPath d ++ " -> table " ++ d.table ++ "\n"

/-- The list of the default datasets. -/
def datasetList : String :=
  "Configured datasets:\n\n" ++
    String.join (Config.standard.datasets.map (datasetLine Config.standard))

/-- Carries out a command. -/
def run (f : Files) : Command → Outcome
  | .load o => runLoad o f
  | .convert o => runConvert o f
  | .listDatasets => { output := datasetList, files := f }

end CardArchive.Command
