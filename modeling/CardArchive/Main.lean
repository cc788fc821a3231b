import CardArchive.Command.Help
import CardArchive.Command.Program
import CardArchive.Database.Format

/-!
# Running the program

The files that a command may touch are read, the command is carried out on them, and what it changed
is written back.
-/

namespace CardArchive.Main

open CardArchive.Command

/-- The data files and the database that loading may touch. -/
def loadPaths (o : LoadOptions) : List String :=
  Dataset.defaults.map fun d => Path.join o.dataDir d.inputFile

/-- The dumps that converting may read. -/
def dumpPaths (o : ConvertOptions) : List String :=
  Dataset.defaults.flatMap fun d =>
    let plain := Path.join o.dataDir d.dumpFile
    [plain, plain ++ "." ++ Convert.compressedExtension]

/-- The data files that converting may write. -/
def outputPaths (o : ConvertOptions) : List String :=
  Dataset.defaults.map fun d => Path.join o.dataDir d.inputFile

/-- The entry that the bytes of a file make. -/
def entryOf (bytes : List UInt8) : Entry :=
  let lines := (Text.splitLines bytes).mapM Text.decode
  match lines.bind Database.ofLines? with
  | some db => .database db
  | none => .file bytes

/-- Puts what is at a path among the files. -/
def look (f : Files) (path : String) : IO Files := do
  let above := f.makeDirectoryAbove path
  try
    let data ← IO.FS.readBinFile path
    match above.locate path with
    | .ok place => return above.put place (entryOf data.data.toList)
    | .error _ => return f
  catch e =>
    match e with
    | .inappropriateType .. => return f.makeDirectory path
    | _ => return f

/-- Writes what is at a path among the files. -/
def save (f : Files) (path : String) : IO Unit := do
  match f.open? path with
  | .ok (.file bytes) => IO.FS.writeBinFile path ⟨bytes.toArray⟩
  | .ok (.database db) => IO.FS.writeFile path db.stored
  | _ => return

/-- Shows the last screen and waits for a line. -/
def showScreen (o : Outcome) : IO Unit := do
  match o.screens.getLast? with
  | none => return
  | some screen =>
    for line in screen.draw 100 30 do
      IO.println (Screen.lineText line)
    if o.waits then
      let _ ← (← IO.getStdin).getLine

/-- The files that a command starts with. -/
def filesFor : Command → IO Files
  | .load o => do
    let f := Files.empty.makeDirectoryAbove o.outputDb
    (loadPaths o ++ [o.outputDb]).foldlM look f
  | .convert o => do
    let f := (outputPaths o).foldl Files.makeDirectoryAbove Files.empty
    (dumpPaths o).foldlM look f
  | .listDatasets => return .empty

/-- The paths that a command may have written. -/
def written : Command → List String
  | .load o => if o.outputDb = Connection.memoryPath then [] else [o.outputDb]
  | .convert o => outputPaths o
  | .listDatasets => []

/-- Carries out a command; the result is the status of the program. -/
def perform (c : Command) : IO UInt32 := do
  let outcome := c.run (← filesFor c)
  for path in written c do
    save outcome.files path
  showScreen outcome
  IO.print outcome.output
  IO.eprint outcome.errorText
  return UInt32.ofNat outcome.status

/-- What is said about a command line that is not carried out. -/
def usageText : Usage → String
  | .help about => about.text
  | .version => versionText
  | .unknownArgument => "error: unexpected argument found\n"
  | .invalidValue => "error: a value is required\n"
  | .conflict => "error: an argument cannot be used multiple times\n"
  | .unknownCommand => "error: unrecognized subcommand\n"
  | .unneededValue => "error: unexpected value for an argument\n"

end CardArchive.Main

/-- Carries out a command line. -/
def main (args : List String) : IO UInt32 := do
  match CardArchive.Command.read? args with
  | .ok c? => CardArchive.Main.perform (c?.getD CardArchive.Command.standard)
  | .error e =>
    match e with
    | .help _ | .version =>
      IO.print (CardArchive.Main.usageText e)
      return 0
    | _ =>
      IO.eprint (CardArchive.Main.usageText e)
      return 2
