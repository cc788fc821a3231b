import CardArchive.Dataset.Basic
import CardArchive.Dump.Card
import CardArchive.Gzip.Member
import CardArchive.Run.Report
import CardArchive.Text.Lines
import CardArchive.Xml.Document

/-!
# Converting

Converting makes data files out of dumps, one dataset after the other. A dump may be compressed;
then its name has one extension more. A data file is written when the whole of its dump has been
read, so a dump that fails leaves its data file alone and ends the run.
-/

namespace CardArchive

/-- Why dumps cannot be converted. -/
inductive ConvertError where
  | missingFile (path : String)
  | io (path : String) (fault : FileFault)
  | invalidXml
  | card (fault : CardFault)

/-- What is said about the error. -/
def ConvertError.message : ConvertError → String
  | missingFile path => "input file not found: " ++ path
  | io path fault => "failed to access " ++ path ++ ": " ++ fault.message
  | invalidXml => "invalid XML"
  | card fault => fault.message

namespace Convert

/-- The extension of compressed dumps. -/
def compressedExtension : String := "gz"

/-- The plain dump of a dataset. -/
def plainDump (dataDir : String) (d : Dataset) : String := Path.join dataDir d.dumpFile

/-- The compressed dump of a dataset. -/
def compressedDump (dataDir : String) (d : Dataset) : String :=
  plainDump dataDir d ++ "." ++ compressedExtension

/-- The dump of a dataset: the plain one if it is there, otherwise the compressed one, and the plain
one if neither is. -/
def source (f : Files) (dataDir : String) (d : Dataset) : String :=
  if f.exists? (plainDump dataDir d) then plainDump dataDir d
  else if f.exists? (compressedDump dataDir d) then compressedDump dataDir d
  else plainDump dataDir d

/-- The error for a dump that cannot be used. -/
def inputError (path : String) : FileFault → ConvertError
  | .notFound => .missingFile path
  | fault => .io path fault

/-- The text that the bytes of a dump stand for, by the extension of its path. -/
def decodeDump (path : String) (bytes : List UInt8) : Except ConvertError String := do
  let bytes ←
    if Path.extension? path = some compressedExtension then
      match Gzip.decode? bytes with
      | some bytes => pure bytes
      | none => throw (.io path .damaged)
    else pure bytes
  match Text.decode bytes with
  | some text => return text
  | none => throw (.io path .notText)

/-- The text of a dump. -/
def readDump (f : Files) (path : String) : Except ConvertError String :=
  match f.read path with
  | .error fault => .error (inputError path fault)
  | .ok bytes => decodeDump path bytes

/-- The cards of the dump that a text is. -/
def cardsOf (text : String) : Except ConvertError (List DumpCard) :=
  match Xml.rootElement? text with
  | none => .error .invalidXml
  | some root => (Dump.cards root).mapError .card

/-- Makes a data file out of a dump; the result is the number of its cards. -/
def convertFile (dump output : String) : Run ConvertError Nat := do
  let text ← Run.orFail id (readDump (← Run.files) dump)
  let cards ← Run.orFail id (cardsOf text)
  let f ← Run.orFail (.io output ·)
    ((← Run.files).write output (Text.encode (Dump.dataText cards)))
  Run.setFiles f
  return cards.length

/-- Converts the dump of a dataset. -/
def convertDataset (dataDir : String) (d : Dataset) : Run ConvertError ConvertStats := do
  let dump := source (← Run.files) dataDir d
  let output := Path.join dataDir d.inputFile
  Run.report (.info (dump ++ " -> " ++ output))
  let cards ← convertFile dump output
  return ⟨d.tag, dump, output, cards⟩

/-- Converts the dumps of datasets, one after the other; `done` of `total` are converted already. -/
def convertEach (dataDir : String) (total : Nat) :
    Nat → List Dataset → Run ConvertError (List ConvertStats)
  | _, [] => return []
  | done, d :: rest => do
    let stats ← convertDataset dataDir d
    Run.report (.log stats.display)
    Run.report (.progress ⟨done + 1, total, d.tag⟩)
    let more ← convertEach dataDir total (done + 1) rest
    return stats :: more

/-- Converts the dumps of datasets. -/
def convertDatasets (dataDir : String) (datasets : List Dataset) :
    Run ConvertError (List ConvertStats) := do
  Run.report (.phase .converting)
  Run.report (.log (toString datasets.length ++ " dumps in " ++ dataDir))
  let stats ← convertEach dataDir datasets.length 0 datasets
  Run.report .noProgress
  return stats

end Convert

end CardArchive
