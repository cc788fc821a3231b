import CardArchive.Command.Line

/-!
# Help

What the program says about itself.
-/

namespace CardArchive.Command

/-- The name of the program. -/
def programName : String := "cardlist-to-sqlite"

/-- The name and the version of the program. -/
def versionText : String := programName ++ " 0.1.0\n"

/-- The line of an option. -/
def Opt.helpLine (width : Nat) (purpose : Opt → String) (opt : Opt) : String :=
  let letter := match opt.letter? with
    | some c => "-" ++ String.ofList [c] ++ ", "
    | none => "    "
  let value := if opt.takesValue then
      " <" ++ String.ofList (opt.word.toList.map fun c => if c = '-' then '_' else c.toUpper) ++ ">"
    else ""
  let head := letter ++ "--" ++ opt.word ++ value
  let gap := String.ofList (List.replicate (width + 2 - head.length) ' ')
  "  " ++ head ++ gap ++ purpose opt ++ "\n"

/-- What the options of loading are for. -/
def loadPurpose : Opt → String
  | .dataDir => "Directory containing the cardlist_<tag>.jsonl files [default: data]"
  | .outputDb => "Output SQLite database path [default: cardingser.db]"
  | .includeTags => "Only load these datasets (comma-separated tags)"
  | .excludeTags => "Skip these datasets (comma-separated tags)"
  | .tui => "Show a terminal progress UI"
  | .help => "Print help"
  | .version => "Print version"

/-- What the options of converting are for. -/
def convertPurpose : Opt → String
  | .dataDir =>
    "Directory holding the XML dumps; JSONL files are written beside them [default: data]"
  | .includeTags => "Only convert these datasets (comma-separated tags)"
  | opt => loadPurpose opt

/-- The help of a command with the given purpose and options. -/
def commandHelp (purpose usage : String) (lines : List String) : String :=
  purpose ++ "\n\nUsage: " ++ programName ++ " " ++ usage ++ "\n\nOptions:\n" ++ String.join lines

/-- The help about a topic. -/
def Topic.text : Topic → String
  | .program =>
    "Load NationStates card dumps into a SQLite database\n\nUsage: " ++ programName ++
      " [COMMAND]\n\nCommands:\n" ++
      "  load           Load the JSONL card dumps into SQLite (default)\n" ++
      "  convert        Convert cardlist_<tag>.xml dumps into the JSONL files `load` reads\n" ++
      "  list-datasets  List the configured datasets\n" ++
      "  help           Print this message or the help of the given subcommand(s)\n" ++
      "\nOptions:\n" ++ String.join (topOptions.map (Opt.helpLine 13 loadPurpose))
  | .load =>
    commandHelp "Load the JSONL card dumps into SQLite (default)" "load [OPTIONS]"
      (loadOptions.map (Opt.helpLine 27 loadPurpose))
  | .convert =>
    commandHelp "Convert cardlist_<tag>.xml dumps into the JSONL files `load` reads"
      "convert [OPTIONS]" (convertOptions.map (Opt.helpLine 25 convertPurpose))
  | .listDatasets =>
    commandHelp "List the configured datasets" "list-datasets"
      (listOptions.map (Opt.helpLine 10 loadPurpose))
  | .help =>
    "Print this message or the help of the given subcommand(s)\n\nUsage: " ++ programName ++
      " help [COMMAND]...\n\nArguments:\n  [COMMAND]...  Print help for the subcommand(s)\n"

end CardArchive.Command
