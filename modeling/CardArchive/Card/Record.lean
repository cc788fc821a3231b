import CardArchive.Card.Column
import CardArchive.Card.Population
import CardArchive.Json.Document

/-!
# Card records

A record is one line of a data file: a JSON object with the keys of the card columns. Which keys are
there is settled first, in the order of the columns; then the values are taken in ascending order of
their keys, and the first that has a wrong type decides. Keys that no column is read from are
ignored.
-/

namespace CardArchive

/-- What is wrong with a record as such. -/
inductive Defect where
  | syntaxError
  | notAnObject
  | notAText (found : Json)
  | notAnInteger (found : Json)
  /-- The identifier does not fit 64 bits with a sign. -/
  | integerTooLarge (n : Int)

/-- How a message calls a value that is not of the type it should be. -/
def Json.kind : Json → String
  | .null => "null"
  | .bool b => if b then "boolean `true`" else "boolean `false`"
  | .integer n => "integer `" ++ String.ofList (Json.integerText n) ++ "`"
  | .float x => "floating point `" ++ String.ofList (Json.floatText x) ++ "`"
  | .string s => "string " ++ Text.quoted s
  | .array _ => "sequence"
  | .object _ => "map"

/-- What is said about a defect. A line that is no JSON text gets no explanation here. -/
def Defect.message? : Defect → Option String
  | syntaxError => none
  | notAnObject => some "record is not a JSON object"
  | notAText found => some ("expected text, found " ++ found.compact)
  | notAnInteger found => some ("invalid type: " ++ found.kind ++ ", expected i64")
  | integerTooLarge n => some ("invalid value: " ++ (Json.integer n).kind ++ ", expected i64")

/-- Why a line is not the row of a card. -/
inductive RecordError where
  | malformed (defect : Defect)
  | missingField (key : String)
  | population (e : PopulationError)

/-- What is said about the error, where there is an explanation. -/
def RecordError.message? : RecordError → Option String
  | malformed defect => defect.message?.map ("malformed record: " ++ ·)
  | missingField key => some ("missing field `" ++ key ++ "`")
  | population e => some e.message

/-- A card as a line of a data file gives it. -/
structure Record where
  id : Int
  name : Option String
  /-- The kind of state. -/
  type : Option String
  motto : Option String
  category : Option String
  region : Option String
  /-- The picture of the flag. -/
  flag : Option String
  /-- The rarity of the card. -/
  cardCategory : Option String
  description : Option String
  badges : Json
  trophies : Json

namespace Record

/-- The identifier that a value gives. -/
def identifier : Json → Except Defect Int
  | .integer n => if Number.fitsInt64 n then .ok n else .error (.integerTooLarge n)
  | found => .error (.notAnInteger found)

/-- The text that a value gives. Numbers keep their JSON text, truth values become digits. -/
def text : Json → Except Defect (Option String)
  | .null => .ok none
  | .string s => .ok (some s)
  | .bool b => .ok (some (if b then "1" else "0"))
  | .integer n => .ok (some (String.ofList (Json.integerText n)))
  | .float x => .ok (some (String.ofList (Json.floatText x)))
  | found => .error (.notAText found)

/-- The record of an object; a key that is not there counts as null. -/
def ofMembers (members : Json.Members) : Except Defect Record := do
  let value (key : String) : Json := (members.get? key).getD .null
  let cardCategory ← text (value "CARDCATEGORY")
  let category ← text (value "CATEGORY")
  let description ← text (value "DESCRIPTION")
  let flag ← text (value "FLAG")
  let id ← identifier (value "ID")
  let motto ← text (value "MOTTO")
  let name ← text (value "NAME")
  let region ← text (value "REGION")
  let type ← text (value "TYPE")
  return { id, name, type, motto, category, region, flag, cardCategory, description
           badges := value "BADGES", trophies := value "TROPHIES" }

/-- The first key that every record has and this object lacks. -/
def missingKey? (members : Json.Members) : Option String :=
  requiredKeys.find? fun key => (members.get? key).isNone

/-- The record of a JSON value. -/
def ofJson : Json → Except RecordError Record
  | .object members =>
    match missingKey? members with
    | some key => .error (.missingField key)
    | none => (ofMembers members).mapError .malformed
  | _ => .error (.malformed .notAnObject)

/-- Reads a line. -/
def ofLine (line : String) : Except RecordError Record :=
  match Json.parse? line with
  | some value => ofJson value
  | none => .error (.malformed .syntaxError)

end Record

end CardArchive
