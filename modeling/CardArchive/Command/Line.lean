import CardArchive.Dataset.Config
import CardArchive.Text.Search

/-!
# The command line

The program has three commands, each with options of its own; without a command it loads with all
options at their defaults. An option that takes a value has it behind an equals sign, behind its
letter, or as the next argument. An option is settled when the next one comes, or at the end: only
then it shows that a value is missing or wrong, or that the option was given before.
-/

namespace CardArchive.Command

/-- The options of loading. -/
structure LoadOptions where
  dataDir : String := Config.defaultDataDir
  outputDb : String := Config.defaultDatabase
  /-- The tags of the datasets to load, if only some are to be loaded. -/
  include? : Option (List String) := none
  /-- The tags of the datasets to leave out, if some are to be left out. -/
  exclude? : Option (List String) := none
  /-- Whether the full screen is used. -/
  tui : Bool := false
  deriving DecidableEq

/-- The options of converting. -/
structure ConvertOptions where
  /-- The directory of the dumps and the data files. -/
  dataDir : String := Config.defaultDataDir
  /-- The tags of the datasets to convert, if only some are to be converted. -/
  include? : Option (List String) := none
  /-- The tags of the datasets to leave out, if some are to be left out. -/
  exclude? : Option (List String) := none
  deriving DecidableEq

end CardArchive.Command

namespace CardArchive

/-- What the program is asked to do. -/
inductive Command where
  | load (o : Command.LoadOptions)
  | convert (o : Command.ConvertOptions)
  | listDatasets
  deriving DecidableEq

end CardArchive

namespace CardArchive.Command

/-- What help is about. -/
inductive Topic where
  | program
  | load
  | convert
  | listDatasets
  | help
  deriving DecidableEq

/-- Why a command line is not carried out. -/
inductive Usage where
  | help (about : Topic)
  | version
  | unknownArgument
  | invalidValue
  /-- An option that is given once is given again. -/
  | conflict
  | unknownCommand
  /-- An option that takes no value has one. -/
  | unneededValue
  deriving DecidableEq

/-! ## Options -/

/-- An option. -/
inductive Opt where
  | dataDir
  | outputDb
  /-- The datasets to take. -/
  | includeTags
  /-- The datasets to leave out. -/
  | excludeTags
  | tui
  | help
  | version
  deriving DecidableEq

namespace Opt

/-- The word for an option. -/
def word : Opt → String
  | dataDir => "data-dir"
  | outputDb => "output-db"
  | includeTags => "include"
  | excludeTags => "exclude"
  | tui => "tui"
  | help => "help"
  | version => "version"

/-- The letter for an option, if it has one. -/
def letter? : Opt → Option Char
  | dataDir => some 'd'
  | outputDb => some 'o'
  | includeTags => some 'i'
  | excludeTags => some 'e'
  | tui => none
  | help => some 'h'
  | version => some 'V'

/-- Whether an option takes a value. -/
def takesValue : Opt → Bool
  | dataDir | outputDb | includeTags | excludeTags => true
  | tui | help | version => false

/-- Whether an option may be given more than once; its values are then put together. -/
def repeats : Opt → Bool
  | includeTags | excludeTags => true
  | _ => false

end Opt

/-- The topic that a command's name stands for. -/
def topic? : String → Option Topic
  | "load" => some .load
  | "convert" => some .convert
  | "list-datasets" => some .listDatasets
  | "help" => some .help
  | _ => none

/-- The options that stand before a command. -/
def topOptions : List Opt := [.help, .version]

/-- The options of loading. -/
def loadOptions : List Opt := [.dataDir, .outputDb, .includeTags, .excludeTags, .tui, .help]

/-- The options of converting. -/
def convertOptions : List Opt := [.dataDir, .includeTags, .excludeTags, .help]

/-- The options of listing. -/
def listOptions : List Opt := [.help]

/-- The options that were read. -/
structure Options where
  /-- What the options are about. -/
  about : Topic := .program
  /-- The options that are settled, with their values, in order. -/
  settled : List (Opt × List String) := []
  /-- The option that is not settled yet, and its value if that has come. -/
  pending : Option (Opt × Option String) := none
  deriving DecidableEq

namespace Options

/-- Whether an option is settled. -/
def has (o : Options) (opt : Opt) : Bool := o.settled.any fun (other, _) => other = opt

/-- Settles the option that comes next. -/
def add (o : Options) (opt : Opt) (value? : Option String) : Except Usage Options :=
  match opt, value? with
  | .help, _ => .error (.help o.about)
  | .version, _ => .error .version
  | opt, none =>
    if opt.takesValue then .error .invalidValue
    else if o.has opt then .error .conflict
    else .ok { o with settled := o.settled ++ [(opt, [])] }
  | opt, some value =>
    if opt.repeats then
      let tags := (Text.splitAll ',' value.toList).map String.ofList
      .ok { o with settled := o.settled ++ [(opt, tags)] }
    else if o.has opt then .error .conflict
    else if value.isEmpty then .error .invalidValue
    else .ok { o with settled := o.settled ++ [(opt, [value])] }

/-- Settles the option that is not settled yet. -/
def settle (o : Options) : Except Usage Options :=
  match o.pending with
  | none => .ok o
  | some (opt, value?) => { o with pending := none }.add opt value?

/-- The option has come, and all that belongs to it. -/
def take (o : Options) (opt : Opt) (value? : Option String) : Except Usage Options := do
  (← o.settle).add opt value?

/-- The option has come, and its value is the next argument. -/
def await (o : Options) (opt : Opt) : Except Usage Options := do
  return { (← o.settle) with pending := some (opt, none) }

/-- Options that are given by their letters. The first that takes a value takes the letters behind
it, without an equals sign in front, or the next argument if there are none. -/
def takeLetters (known : List Opt) : Options → List Char → Except Usage Options
  | o, [] => .ok o
  | o, c :: rest =>
    match known.find? fun opt => opt.letter? = some c with
    | none => .error .unknownArgument
    | some opt =>
      if opt.takesValue then
        match rest with
        | [] => o.await opt
        | '=' :: value => o.take opt (some (String.ofList value))
        | value => o.take opt (some (String.ofList value))
      else do
        let o ← o.take opt none
        takeLetters known o rest

/-- An option that is given by its word. -/
def takeWord (known : List Opt) (o : Options) (s : List Char) : Except Usage Options :=
  let (word, value?) := match Text.splitOnce '=' s with
    | some (word, value) => (word, some (String.ofList value))
    | none => (s, none)
  match known.find? fun opt => opt.word.toList = word with
  | none => .error .unknownArgument
  | some opt =>
    match opt.takesValue, value? with
    | true, some value => o.take opt (some value)
    | true, none => o.await opt
    | false, some _ => .error .unneededValue
    | false, none => o.take opt none

/-- An argument that is an option, read; none when it is a value. -/
def takeOption? (known : List Opt) (o : Options) (arg : String) : Option (Except Usage Options) :=
  match arg.toList with
  | '-' :: '-' :: word => some (o.takeWord known word)
  | '-' :: c :: letters => some (o.takeLetters known (c :: letters))
  | _ => none

/-- Reads the arguments of a command that takes no other arguments than options. Behind two hyphens
nothing is an option. -/
def read (known : List Opt) : Options → List String → Except Usage Options
  | o, [] => o.settle
  | o, arg :: rest =>
    if arg = "--" then if rest.isEmpty then o.settle else .error .unknownArgument
    else
      match o.takeOption? known arg with
      | some (.ok o) => read known o rest
      | some (.error e) => .error e
      | none =>
        match o.pending with
        | some (opt, none) => read known { o with pending := some (opt, some arg) } rest
        | _ => .error .unknownArgument

/-- The values of an option that may be given more than once. -/
def values? (o : Options) (opt : Opt) : Option (List String) :=
  if o.has opt then some ((o.settled.filter fun (other, _) => other = opt).flatMap Prod.snd)
  else none

/-- The value of an option, or its default. -/
def valueOr (o : Options) (opt : Opt) (default : String) : String :=
  ((o.values? opt).bind List.head?).getD default

end Options

/-! ## Commands -/

/-- The command for a topic, given its arguments. Help takes the name of a topic, and no topic has
topics below it. -/
def readCommand : Topic → List String → Except Usage Command
  | .load, args => do
    let o ← Options.read loadOptions { about := .load } args
    return .load
      { dataDir := o.valueOr .dataDir Config.defaultDataDir
        outputDb := o.valueOr .outputDb Config.defaultDatabase
        include? := o.values? .includeTags
        exclude? := o.values? .excludeTags
        tui := o.has .tui }
  | .convert, args => do
    let o ← Options.read convertOptions { about := .convert } args
    return .convert
      { dataDir := o.valueOr .dataDir Config.defaultDataDir
        include? := o.values? .includeTags
        exclude? := o.values? .excludeTags }
  | .listDatasets, args => do
    let _ ← Options.read listOptions { about := .listDatasets } args
    return .listDatasets
  | _, [] => .error (.help .program)
  | _, [name] =>
    match topic? name with
    | some about => .error (.help about)
    | none => .error .unknownCommand
  | _, _ => .error .unknownCommand

/-- The command that a command line names; none when it names none. -/
def read? : List String → Except Usage (Option Command)
  | [] => .ok none
  | arg :: rest =>
    match topic? arg with
    | some about => (readCommand about rest).map some
    | none =>
      if arg = "--" then
        match rest with
        | [] => .ok none
        | next :: _ =>
          .error (if (topic? next).isSome then .unknownArgument else .unknownCommand)
      else
        match ({} : Options).takeOption? topOptions arg with
        | some (.error e) => .error e
        | some (.ok _) => read? rest
        | none => .error .unknownCommand

/-- The command that is carried out when none is named. -/
def standard : Command := .load {}

end CardArchive.Command
