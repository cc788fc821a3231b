import CardArchive.Storage.Files
import CardArchive.Text.Lines
import Mathlib.Data.PFun

/-!
# Readings

A file that is open is read on and on, and every reading comes to something: bytes, the end of the
file, or a failure. In what portions bytes come makes no difference to the lines that are made of
them, so a reading is of one byte here. Nothing is taken for granted about how readings follow each
other: there may be more bytes after the end, and a failure does not keep anyone from reading on.

Who asks for a line may have to wait for ever: the value of a function here may be undefined. Each
of them is a step that is made again and again, until it gives a result.
-/

namespace CardArchive

/-- What one reading comes to. -/
inductive Reading where
  | byte (b : UInt8)
  | ended
  /-- It was interrupted, and is made again. -/
  | interrupted
  | failed (fault : FileFault)

/-- What the readings of an open file come to, one after the other. -/
abbrev Readings := Nat → Reading

/-- The text of a line. -/
def Text.decodeLine (line : List UInt8) : Except FileFault String :=
  match decode line with
  | some s => .ok s
  | none => .error .notText

namespace Readings

/-- One reading of a line. The state is the place of the reading and what the readings before it
gave of the line, last byte first. The line is found or cannot be read, or there is none where the
file ends before one has begun; with it goes the place after it. A line that cannot be read is given
up, and the next one begins after the failure. -/
def readOn (r : Readings) :
    Nat × List UInt8 → Option (Except FileFault String) × Nat ⊕ Nat × List UInt8
  | (place, begun) =>
    match r place with
    | .byte b =>
      if b = Text.lineFeed then
        .inl (some (Text.decodeLine (Text.dropReturn begun.reverse)), place + 1)
      else .inr (place + 1, b :: begun)
    | .ended =>
      .inl (if begun.isEmpty then none else some (Text.decodeLine begun.reverse), place + 1)
    | .interrupted => .inr (place + 1, begun)
    | .failed fault => .inl (some (.error fault), place + 1)

/-- Asks for a line from a place on, of which some bytes were read before it, the last one first. -/
def nextLine (r : Readings) (place : Nat) (begun : List UInt8) :
    Part (Option (Except FileFault String) × Nat) :=
  PFun.fix (fun p => Part.some (r.readOn p)) (place, begun)

/-- Counts one line, if there is one. Those that cannot be read count too. -/
def countOn (r : Readings) : Nat × Nat → Part (Nat ⊕ Nat × Nat)
  | (place, count) => (r.nextLine place []).map fun
    | (none, _) => .inl count
    | (some _, next) => .inr (next, count + 1)

/-- Counts the lines from a place on, and some before it. -/
def countLines (r : Readings) (place before : Nat) : Part Nat :=
  PFun.fix r.countOn (place, before)

end Readings

/-- The readings from a place on come to some bytes and then to the end, for ever. -/
inductive Readings.Deliver (r : Readings) : Nat → List UInt8 → Prop where
  | byte {place : Nat} {b : UInt8} {rest : List UInt8} (hread : r place = .byte b)
      (hrest : Deliver r (place + 1) rest) : Deliver r place (b :: rest)
  | interrupted {place : Nat} {bytes : List UInt8} (hread : r place = .interrupted)
      (hrest : Deliver r (place + 1) bytes) : Deliver r place bytes
  | ended {place : Nat} (hread : ∀ n, place ≤ n → r n = .ended) : Deliver r place []

/-- What the readings of an open entry come to. In a directory every reading fails. -/
def Entry.Gives : Entry → Readings → Prop
  | .directory, r => ∀ n, r n = .failed .isADirectory
  | .file bytes, r => r.Deliver 0 bytes
  | .database _, r => r.Deliver 0 Files.databaseBytes

end CardArchive
