/-!
# Lines of bytes

A file is cut into lines before it is decoded, so that one line which is not valid UTF-8 leaves the
others readable. A line ends at a line feed; one carriage return before the line feed belongs to the
ending too. The last line needs no ending, and nothing follows a final line feed.
-/

namespace CardArchive.Text

/-- The byte that ends a line. -/
def lineFeed : UInt8 := 0x0A

/-- The byte that is dropped once before a line feed. -/
def carriageReturn : UInt8 := 0x0D

/-- One more byte in front of the lines of the rest. A line feed starts a line of its own; any other
byte joins the line behind it, or is the last line. A carriage return that meets a line feed is
dropped, which the flag `ends` announces: it says that the rest begins with a line feed. -/
def pushByte (b : UInt8) : Bool × List (List UInt8) → Bool × List (List UInt8)
  | (ends, lines) =>
    if b = lineFeed then (true, [] :: lines)
    else if b = carriageReturn && ends then (false, lines)
    else match lines with
      | [] => (false, [[b]])
      | line :: others => (false, (b :: line) :: others)

/-- The lines of a file, without their endings. -/
def splitLines (bytes : List UInt8) : List (List UInt8) :=
  (bytes.foldr pushByte (false, [])).2

/-- The bytes of a line that a line feed ends, without the carriage return that belongs to it. -/
def dropReturn (line : List UInt8) : List UInt8 :=
  if line.getLast? = some carriageReturn then line.dropLast else line

/-- The text of some bytes, when they are valid UTF-8. -/
def decode (bytes : List UInt8) : Option String :=
  String.fromUTF8? ⟨bytes.toArray⟩

/-- The bytes of a text. -/
def encode (s : String) : List UInt8 := s.toUTF8.data.toList

end CardArchive.Text
