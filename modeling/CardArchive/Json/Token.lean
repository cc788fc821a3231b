import CardArchive.Json.Text

/-!
# JSON tokens

A JSON text is a sequence of tokens with white space between them: punctuation, texts, and words,
which are runs of letters, digits, signs and points. What a word means is not decided here.
-/

namespace CardArchive.Json

/-- A token of a JSON text. -/
inductive Token where
  | openArray
  | closeArray
  | openObject
  | closeObject
  /-- The mark between a key and its value. -/
  | colon
  /-- The mark between two items or members. -/
  | comma
  | word (w : List Char)
  | text (s : List Char)
  deriving DecidableEq

namespace Token

/-- How a token is written. -/
def chars : Token → List Char
  | openArray => ['[']
  | closeArray => [']']
  | openObject => ['\x7b']
  | closeObject => ['\x7d']
  | colon => [':']
  | comma => [',']
  | word w => w
  | text s => '"' :: escape s ++ ['"']

/-- The token that a character is by itself. -/
def punctuation? : Char → Option Token
  | '[' => some openArray
  | ']' => some closeArray
  | '\x7b' => some openObject
  | '\x7d' => some closeObject
  | ':' => some colon
  | ',' => some comma
  | _ => none

/-- The white space of JSON. -/
def isSpace (c : Char) : Bool := c = ' ' || c = '\n' || c = '\r' || c = '\t'

/-- The characters of words. -/
def inWord (c : Char) : Bool := c.isAlphanum || c = '+' || c = '-' || c = '.'

end Token

/-- What is under way at some point of a JSON text; the characters seen are kept last first. -/
inductive Scanning where
  /-- Nothing: the next character starts a token. -/
  | between
  | word (seen : List Char)
  /-- What stands between quotes. -/
  | text (seen : List Char)
  /-- The same, right after a backslash. -/
  | escaped (seen : List Char)
  deriving DecidableEq

/-- The state of scanning a JSON text. -/
structure Scanner where
  /-- What is under way. -/
  scanning : Scanning
  /-- The tokens before it, last first. -/
  tokens : List Token
  deriving DecidableEq

namespace Scanner

/-- The state at the start. -/
def start : Scanner := ⟨.between, []⟩

/-- A character that no token has begun before. -/
def begin (tokens : List Token) (c : Char) : Option Scanner :=
  if Token.isSpace c then some ⟨.between, tokens⟩
  else if c = '"' then some ⟨.text [], tokens⟩
  else if Token.inWord c then some ⟨.word [c], tokens⟩
  else (Token.punctuation? c).map fun t => ⟨.between, t :: tokens⟩

/-- One more character. -/
def feed : Scanner → Char → Option Scanner
  | ⟨.between, tokens⟩, c => begin tokens c
  | ⟨.word seen, tokens⟩, c =>
    if Token.inWord c then some ⟨.word (c :: seen), tokens⟩
    else begin (.word seen.reverse :: tokens) c
  | ⟨.text seen, tokens⟩, c =>
    if c = '"' then (unescape seen.reverse).map fun s => ⟨.between, .text s :: tokens⟩
    else if c = '\\' then some ⟨.escaped (c :: seen), tokens⟩
    else some ⟨.text (c :: seen), tokens⟩
  | ⟨.escaped seen, tokens⟩, c => some ⟨.text (c :: seen), tokens⟩

/-- The tokens of a text that ends here; none inside a text. -/
def finish : Scanner → Option (List Token)
  | ⟨.between, tokens⟩ => some tokens.reverse
  | ⟨.word seen, tokens⟩ => some (.word seen.reverse :: tokens).reverse
  | ⟨.text _, _⟩ => none
  | ⟨.escaped _, _⟩ => none

end Scanner

/-- The tokens of a JSON text. -/
def tokens? (s : List Char) : Option (List Token) :=
  (s.foldlM Scanner.feed Scanner.start).bind Scanner.finish

end CardArchive.Json
