import CardArchive.Dump.Award
import CardArchive.Json.Document

/-!
# Card dumps

A dump is a document whose root holds sets and whose sets hold cards. Each card becomes one line of
a data file. Elements that a card may have are looked up by their names; the first with a name
counts. A card that lacks its identifier or its awards makes the dump unusable, and the first such
card is reported by its position.
-/

namespace CardArchive

/-- What is wrong with a card of a dump. -/
inductive CardFault where
  /-- An element that every card has is not there. -/
  | missingElement (card : Nat) (element : String)
  /-- The identifier is not an integer of 64 bits. -/
  | invalidId (card : Nat) (value : String)
  deriving DecidableEq

/-- What is said about the fault. -/
def CardFault.message : CardFault → String
  | missingElement card element => "card " ++ toString card ++ ": missing <" ++ element ++ ">"
  | invalidId card value => "card " ++ toString card ++ ": invalid ID `" ++ value ++ "`"

/-- A card of a dump. Texts whose element is not there are absent, texts of empty elements are
empty. -/
structure DumpCard where
  id : Int
  name : Option String
  /-- The kind of state. -/
  type : Option String
  motto : Option String
  category : Option String
  region : Option String
  /-- The picture of the flag. -/
  flag : Option String
  /-- The rarity of the card. -/
  cardCategory : Option String
  description : Option String
  badges : Json.Members
  trophies : Json.Members

namespace DumpCard

/-- The text of the first element with a name. -/
def text? (n : Xml.Node) (label : String) : Option String :=
  (n.child? label).map fun child => String.ofList (Award.textOf child)

/-- The card at a position, which counts from one. -/
def ofNode (position : Nat) (n : Xml.Node) : Except CardFault DumpCard :=
  match text? n "ID" with
  | none => .error (.missingElement position "ID")
  | some value =>
    match Number.readInt64? value.toList with
    | none => .error (.invalidId position value)
    | some id =>
      match n.child? "BADGES", n.child? "TROPHIES" with
      | none, _ => .error (.missingElement position "BADGES")
      | some _, none => .error (.missingElement position "TROPHIES")
      | some badges, some trophies =>
        let given := awards badges trophies
        .ok { id := id
              name := text? n "NAME"
              type := text? n "TYPE"
              motto := text? n "MOTTO"
              category := text? n "CATEGORY"
              region := text? n "REGION"
              flag := text? n "FLAG"
              cardCategory := text? n "CARDCATEGORY"
              description := text? n "DESCRIPTION"
              badges := given.1
              trophies := given.2 }

/-- The members of the object that stands for a card; absent texts have none. -/
def members (c : DumpCard) : List (String × Json) :=
  let text (key : String) (s : Option String) : List (String × Json) :=
    s.toList.map fun s => (key, .string s)
  ("ID", .integer c.id) ::
    (text "NAME" c.name ++ text "TYPE" c.type ++ text "MOTTO" c.motto
      ++ text "CATEGORY" c.category ++ text "REGION" c.region ++ text "FLAG" c.flag
      ++ text "CARDCATEGORY" c.cardCategory ++ text "DESCRIPTION" c.description
      ++ [("BADGES", .object c.badges), ("TROPHIES", .object c.trophies)])

/-- The line of a data file. -/
def line (c : DumpCard) : String := Json.compactInOrder c.members

end DumpCard

namespace Dump

/-- The elements of the cards of a dump, in the order of the document. A root with another name
holds none. -/
def cardNodes (root : Xml.Node) : List Xml.Node :=
  if root.hasLabel "CARDS" then
    (root.childrenWith "SET").flatMap (Xml.Node.childrenWith "CARD")
  else []

/-- The cards that some elements stand for, the first at the given position. -/
def cardsFrom : Nat → List Xml.Node → Except CardFault (List DumpCard)
  | _, [] => .ok []
  | position, n :: rest => do
    let card ← DumpCard.ofNode position n
    let cards ← cardsFrom (position + 1) rest
    return card :: cards

/-- The cards of a dump. -/
def cards (root : Xml.Node) : Except CardFault (List DumpCard) := cardsFrom 1 (cardNodes root)

/-- The text of a data file: one line for each card, a line feed between two. -/
def dataText (cards : List DumpCard) : String := "\n".intercalate (cards.map DumpCard.line)

end Dump

end CardArchive
