import CardArchive.Json.Number
import CardArchive.Json.Token

/-!
# JSON documents

Reading and writing whole values. Writing goes through the tokens of a value, with nothing between
them; reading is a machine that takes one token after the other and keeps the containers that are
still open on a stack. Sequences and objects may lie in each other `maxDepth` levels deep.
-/

namespace CardArchive.Json

/-! ## Writing -/

mutual

/-- The tokens of a value. -/
def tokens : Json → List Token
  | null => [.word "null".toList]
  | bool b => [.word (if b then "true".toList else "false".toList)]
  | integer n => [.word (integerText n)]
  | float x => [.word (floatText x)]
  | string s => [.text s.toList]
  | array items => .openArray :: itemTokens items ++ [.closeArray]
  | object members => .openObject :: memberTokens members ++ [.closeObject]

/-- The tokens between the brackets of a sequence. -/
def itemTokens : List Json → List Token
  | [] => []
  | [item] => item.tokens
  | item :: next :: rest => item.tokens ++ .comma :: itemTokens (next :: rest)

/-- The tokens between the braces of an object. -/
def memberTokens : List (String × Json) → List Token
  | [] => []
  | [(key, value)] => .text key.toList :: .colon :: value.tokens
  | (key, value) :: next :: rest =>
    .text key.toList :: .colon :: value.tokens ++ .comma :: memberTokens (next :: rest)

end

/-- The compact text of a value: no white space outside texts. -/
def compact (v : Json) : String := String.ofList (v.tokens.flatMap Token.chars)

/-- The compact text of an object whose members are written in the order given. -/
def compactInOrder (members : List (String × Json)) : String :=
  String.ofList
    ((Token.openObject :: memberTokens members ++ [Token.closeObject]).flatMap Token.chars)

/-! ## Reading -/

/-- How many levels of containers may lie in each other. -/
def maxDepth : Nat := 127

/-- A container whose end is still to come. -/
inductive Frame where
  /-- A sequence and its items so far, last first. -/
  | array (items : List Json)
  /-- An object, its members so far and the key whose value is under way. -/
  | object (members : Members) (key : String)

/-- What has been read, and what may come next. -/
inductive Reading where
  | value (stack : List Frame)
  | firstItem (stack : List Frame)
  | firstKey (stack : List Frame)
  | key (members : Members) (stack : List Frame)
  /-- The colon after a key has to come. -/
  | colon (members : Members) (key : String) (stack : List Frame)
  | complete (v : Json) (stack : List Frame)

/-- The value of a word. -/
def wordValue? (w : List Char) : Option Json :=
  if w = "null".toList then some null
  else if w = "true".toList then some (bool true)
  else if w = "false".toList then some (bool false)
  else (Numeral.read? w).bind Numeral.value

namespace Reading

/-- The first token of a value. -/
def begin (stack : List Frame) : Token → Option Reading
  | .word w => (wordValue? w).map (complete · stack)
  | .text s => some (complete (.string (String.ofList s)) stack)
  | .openArray => if stack.length < maxDepth then some (firstItem stack) else none
  | .openObject => if stack.length < maxDepth then some (firstKey stack) else none
  | _ => none

/-- One more token. -/
def feed : Reading → Token → Option Reading
  | value stack, t => begin stack t
  | firstItem stack, .closeArray => some (complete (.array []) stack)
  | firstItem stack, t => begin (.array [] :: stack) t
  | firstKey stack, .closeObject => some (complete (.object []) stack)
  | firstKey stack, .text k => some (colon [] (String.ofList k) stack)
  | key members stack, .text k => some (colon members (String.ofList k) stack)
  | colon members k stack, .colon => some (value (.object members k :: stack))
  | complete v (.array items :: stack), .comma => some (value (.array (v :: items) :: stack))
  | complete v (.array items :: stack), .closeArray =>
    some (complete (.array (v :: items).reverse) stack)
  | complete v (.object members k :: stack), .comma => some (key (members.insert k v) stack)
  | complete v (.object members k :: stack), .closeObject =>
    some (complete (.object (members.insert k v)) stack)
  | _, _ => none

/-- The value that was read, if it is complete and nothing is left open. -/
def finish : Reading → Option Json
  | complete v [] => some v
  | _ => none

end Reading

/-- The value of a sequence of tokens. -/
def ofTokens? (ts : List Token) : Option Json :=
  (ts.foldlM Reading.feed (Reading.value [])).bind Reading.finish

/-- The value that a text is the spelling of. -/
def parse? (s : String) : Option Json := (tokens? s.toList).bind ofTokens?

end CardArchive.Json
