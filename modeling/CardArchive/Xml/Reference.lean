import CardArchive.Number.Integer
import CardArchive.Xml.Token

/-!
# References and line ends

Text and attribute values are cut into pieces: characters that stand for themselves, characters
given by a reference, and references to entities. A line may end with a carriage return, a line feed
or both; what is read always has a line feed. Outside entities a character given by a reference is
taken as it is, and so is the character behind it.
-/

namespace CardArchive.Xml

/-- A piece of text. -/
inductive Piece where
  /-- A character that stands for itself. -/
  | char (c : Char)
  /-- A character given by a reference. -/
  | reference (c : Char)
  | entity (name : List Char)
  deriving DecidableEq

/-! ## References -/

/-- The value of digits in base sixteen, in either case. -/
def hexValue? (digits : List Char) : Option Nat :=
  digits.foldlM (fun n c =>
    if c.isDigit then some (16 * n + (c.toNat - '0'.toNat))
    else if 'a' ≤ c ∧ c ≤ 'f' then some (16 * n + (c.toNat - 'a'.toNat + 10))
    else if 'A' ≤ c ∧ c ≤ 'F' then some (16 * n + (c.toNat - 'A'.toNat + 10))
    else none) 0

/-- The number of a character reference, after its hash mark. -/
def characterNumber? : List Char → Option Nat
  | 'x' :: digits => if digits.isEmpty then none else hexValue? digits
  | digits =>
    if digits.isEmpty || !digits.all Char.isDigit then none else some (Number.digitsValue digits)

/-- The character of a number below `2 ^ 32`; what is no character becomes U+FFFD, and characters
that no document may hold are refused. -/
def characterOf? (n : Nat) : Option Char :=
  if 0x100000000 ≤ n then none
  else
    let c := if n.isValidChar then Char.ofNat n else '\ufffd'
    if isAllowed c then some c else none

/-- The entities that every document knows. -/
def knownEntity? (name : List Char) : Option Char :=
  if name = "quot".toList then some '"'
  else if name = "amp".toList then some '&'
  else if name = "apos".toList then some '\''
  else if name = "lt".toList then some '<'
  else if name = "gt".toList then some '>'
  else none

/-- What stands between the ampersand and the semicolon. -/
def reference? : List Char → Option Piece
  | '#' :: number => ((characterNumber? number).bind characterOf?).map Piece.reference
  | body => do
    let (name, rest) ← name? body
    if !rest.isEmpty then none
    match knownEntity? name with
    | some c => some (.reference c)
    | none => some (.entity name)

/-- The state of cutting a text into pieces. -/
structure Cutting where
  /-- The characters of the reference under way, last first. -/
  under : Option (List Char)
  /-- The pieces before, last first. -/
  pieces : List Piece

/-- One more character. -/
def Cutting.feed : Cutting → Char → Option Cutting
  | ⟨none, pieces⟩, c => some (if c = '&' then ⟨some [], pieces⟩ else ⟨none, .char c :: pieces⟩)
  | ⟨some seen, pieces⟩, c =>
    if c = ';' then (reference? seen.reverse).map fun piece => ⟨none, piece :: pieces⟩
    else some ⟨some (c :: seen), pieces⟩

/-- The pieces of a text. -/
def pieces? (s : List Char) : Option (List Piece) :=
  (s.foldlM Cutting.feed ⟨none, []⟩).bind fun
    | ⟨none, pieces⟩ => some pieces.reverse
    | ⟨some _, _⟩ => none

/-! ## Line ends -/

/-- Puts a character behind a text, which is kept last first. A carriage return waits for the next
character: there it becomes a line feed, which takes a line feed behind it along. At the end of the
text it does not wait. -/
def pushLineEnd (atEnd : Bool) (before : List Char) (c : Char) : List Char :=
  let settled := match before with
    | '\r' :: earlier => '\n' :: earlier
    | _ => before
  if atEnd && c = '\r' then '\n' :: settled
  else if c = '\n' && before.head? = some '\r' then settled
  else c :: settled

/-- The text without references that some characters stand for, after the text in `before`, which is
kept last first. -/
def withLineEnds (before : List Char) : List Char → List Char
  | [] => before.reverse
  | c :: rest => withLineEnds (pushLineEnd rest.isEmpty before c) rest

/-! ## Attribute values -/

/-- A character of an attribute value: white space becomes a space. -/
def attributeChar (c : Char) : Char := if isSpace c then ' ' else c

/-- The limit on the number of entities used within one that is used outside entities. -/
def maxReferences : Nat := 255

/-- How deep entities may be used within entities. -/
def maxDepth : Nat := 10

/-- Whether a depth that is left says that an entity is under way. -/
def insideEntity (depth : Nat) : Bool := depth < maxDepth

/-- Counts the use of an entity where `count` were used before; only uses within others count. -/
def countReference? (depth count : Nat) : Option Nat :=
  if !insideEntity depth then some count
  else if count < maxReferences then some (count + 1)
  else none

/-- The count after an entity has come to its end. -/
def settleCount (depth count : Nat) : Nat := if insideEntity depth then count else 0

/-- The characters that the pieces of an attribute value stand for, with the number of entities
used, after the characters in `before`, which are kept last first. The function `expand` puts the
value of an entity behind a text. -/
def attributePieces (entities : List Entity) (depth : Nat)
    (expand : List Char → List Char × Nat → Option (List Char × Nat)) :
    List Piece → List Char × Nat → Option (List Char × Nat)
  | [], done => some done
  | .char c :: rest, (before, count) =>
    if c = '\r' && rest.head? = some (.char '\n') then
      attributePieces entities depth expand rest (before, count)
    else attributePieces entities depth expand rest (attributeChar c :: before, count)
  | .reference c :: rest, (before, count) =>
    if !insideEntity depth then attributePieces entities depth expand rest (c :: before, count)
    else if c = '<' then none
    else attributePieces entities depth expand rest (attributeChar c :: before, count)
  | .entity name :: rest, (before, count) => do
    let value ← entities.lookup name
    let count ← countReference? depth count
    let (before, count) ← expand value (before, count)
    attributePieces entities depth expand rest (before, settleCount depth count)

/-- Puts the value of an entity behind the text of an attribute, with `depth` levels of entities
left to be used. -/
def expandInAttribute (entities : List Entity) :
    Nat → List Char → List Char × Nat → Option (List Char × Nat)
  | 0, _, _ => none
  | depth + 1, value, before => do
    let pieces ← pieces? value
    attributePieces entities depth (expandInAttribute entities depth) pieces before

/-- The value of an attribute that is written as `s`, and the number of entities used. -/
def attributeValue? (entities : List Entity) (depth count : Nat) (s : List Char) :
    Option (List Char × Nat) := do
  let pieces ← pieces? s
  let (value, count) ←
    attributePieces entities depth (expandInAttribute entities depth) pieces ([], count)
  return (value.reverse, count)

end CardArchive.Xml
