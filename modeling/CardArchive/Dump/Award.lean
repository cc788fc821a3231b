import CardArchive.Json.Value
import CardArchive.Number.Decimal
import CardArchive.Text.Blank
import CardArchive.Text.Search
import CardArchive.Xml.Tree

/-!
# Awards

The badges and trophies of a card, as a dump lists them, become objects. A badge without attributes
is counted: `Name (x3)` stands for three, `Name` for one. A badge with a type carries a value. A
trophy has a type and a count. A trophy that is the only one of its card is put with the badges.

An award says what is put under which key; several awards are put one after the other, so that the
last one with a key decides.
-/

namespace CardArchive

/-- A value under a key. -/
abbrev Award := String × Json

/-- The integer at the start of a text, after blanks: an optional sign and digits. None without
digits, and when the digits by themselves do not fit a signed 64-bit integer. -/
def leadingInt? (s : List Char) : Option Int :=
  let (negative, rest) := Number.splitSign (Text.trimStart s)
  let digits := rest.takeWhile Char.isDigit
  if digits.isEmpty then none
  else
    (Number.toInt64? (Number.digitsValue digits)).map fun n => if negative then -n else n

namespace Award

/-- A count, or null when the text starts with none. -/
def count (s : List Char) : Json :=
  match leadingInt? s with
  | some n => .integer n
  | none => .null

/-- The characters of numbers. -/
def inNumber (c : Char) : Bool :=
  c.isDigit || c = '.' || c = '-' || c = '+' || c = 'e' || c = 'E'

/-- The value of a badge with a type: a number where the text is one, otherwise the text. -/
def scalar (s : List Char) : Json :=
  match Number.readInt64? s with
  | some n => .integer n
  | none =>
    if s.all inNumber then
      match Binary64.read? s with
      | some x => .float x
      | none => .string (String.ofList s)
    else .string (String.ofList s)

/-- The name under which a counted badge is kept: one plural becomes singular. -/
def countedName (name : List Char) : List Char :=
  if name = "Easter Eggs".toList then "Easter Egg".toList else name

/-- A badge without attributes. The count stands between the first parenthesis and the next; one `x`
and one closing parenthesis are dropped from it. -/
def counted (text : List Char) : Award :=
  match Text.splitOnce '(' text with
  | some (name, rest) =>
    (String.ofList (countedName (Text.trim name)),
      count (((rest.takeWhile (· ≠ '(')).erase 'x').erase ')'))
  | none => (String.ofList text, .integer 1)

/-- The text of an element without the blanks around it. -/
def textOf (n : Xml.Node) : List Char := Text.trim n.directText

/-- The award of a badge; none when it has attributes but no type or no text. -/
def ofBadge (n : Xml.Node) : Option Award :=
  let text := textOf n
  if n.attributes.isEmpty then some (counted text)
  else
    match n.attribute? "type" with
    | some type => if text.isEmpty then none else some (type, scalar text)
    | none => none

/-- The award of a trophy; none without a type. -/
def ofTrophy (n : Xml.Node) : Option Award :=
  (n.attribute? "type").map fun type => (type, count (textOf n))

end Award

/-- The badges and the trophies of a card. -/
def awards (badges trophies : Xml.Node) : Json.Members × Json.Members :=
  let fromBadges := (badges.childrenWith "BADGE").filterMap Award.ofBadge
  match trophies.childrenWith "TROPHY" with
  | [single] => (Json.Members.ofList (fromBadges ++ (Award.ofTrophy single).toList), [])
  | several => (Json.Members.ofList fromBadges,
      Json.Members.ofList (several.filterMap Award.ofTrophy))

end CardArchive
