import CardArchive.Database.Table
import CardArchive.Text.Search

/-!
# Files

What a run works on: directories, files with bytes, and files that hold a database. A place is named
by the names on the way to it, the last one first, starting at the directory in which the run takes
place. Directories above it and the root of all files are places too; nothing is known of what else
lies in them.

Permissions and links are left out. Every directory here may be gone through and every file may be
read and written, and two ways that differ in their names end at different places. So the faults
below are not all that opening a file can end in: where a directory may not be searched, or a link
leads back to itself, a file that seems not to be there cannot be opened for another reason than that
it is not found.
-/

namespace CardArchive

/-- A place where a file may be: the names on the way to it, the last one first. -/
abbrev Location := List String

namespace Location

/-- The name of the root. -/
def root : String := "/"

/-- The name of a directory above. -/
def above : String := ".."

/-- The places that are always directories: where the run takes place, what is above it, and the
root. -/
def isFixed (place : Location) : Bool := place.all (· = above) || place = [root]

/-- The directory that a place is in. -/
def parent (place : Location) : Location :=
  if place = [root] then place
  else match place with
    | name :: rest => if name = above then above :: name :: rest else rest
    | [] => [above]

end Location

/-- What is at a place. -/
inductive Entry where
  | directory
  | file (bytes : List UInt8)
  | database (db : Database)

/-- Why a file cannot be used. -/
inductive FileFault where
  | notFound
  /-- The way to it leads through a file. -/
  | notADirectory
  | isADirectory
  | nameTooLong
  /-- A name holds a character that no name holds. -/
  | invalidName
  | notText
  | damaged
  deriving DecidableEq

/-- What is said about the fault. -/
def FileFault.message : FileFault → String
  | notFound => "No such file or directory (os error 2)"
  | notADirectory => "Not a directory (os error 20)"
  | isADirectory => "Is a directory (os error 21)"
  | nameTooLong => "File name too long (os error 36)"
  | invalidName => "file name contained an unexpected NUL byte"
  | notText => "stream did not contain valid UTF-8"
  | damaged => "corrupt gzip stream"

/-- What is at each place. -/
structure Files where
  /-- What is at a place, if anything. -/
  lookup : Location → Option Entry

namespace Files

/-- There is nothing but the fixed directories. -/
def empty : Files := ⟨fun place => if place.isFixed then some .directory else none⟩

/-- The files with something put at a place. -/
def put (f : Files) (place : Location) (e : Entry) : Files :=
  ⟨fun other => if other = place then some e else f.lookup other⟩

/-- The files without what is at a place. -/
def remove (f : Files) (place : Location) : Files :=
  ⟨fun other => if other = place then none else f.lookup other⟩

theorem lookup_put (f : Files) (place other : Location) (e : Entry) :
    (f.put place e).lookup other = if other = place then some e else f.lookup other := rfl

/-! ## Ways -/

/-- How many bytes a name may have. -/
def maxName : Nat := 255

/-- Follows names from a place. All but the last have to be there, and to be directories; a name
that is empty or one point stays where it is. -/
def follow (f : Files) : Location → List String → Except FileFault Location
  | place, [] => .ok place
  | place, name :: rest =>
    match f.lookup place with
    | none => .error .notFound
    | some .directory =>
      if name.isEmpty || name = "." then follow f place rest
      else if name = Location.above then follow f place.parent rest
      else if maxName < name.utf8ByteSize then .error .nameTooLong
      else follow f (name :: place) rest
    | some _ => .error .notADirectory

/-- The place at which a path starts, and the names on its way. -/
def way (path : String) : Location × List String :=
  let names := (Text.splitAll '/' path.toList).map String.ofList
  (if path.toList.head? = some '/' then [Location.root] else [], names)

/-- How many bytes a path may have. -/
def maxPath : Nat := 4095

/-- The place that a path leads to. -/
def locate (f : Files) (path : String) : Except FileFault Location :=
  if path.isEmpty then .error .notFound
  else if path.toList.contains '\x00' then .error .invalidName
  else if maxPath < path.utf8ByteSize then .error .nameTooLong
  else
    let (start, names) := way path
    f.follow start names

/-- What a path leads to. -/
def open? (f : Files) (path : String) : Except FileFault Entry := do
  let place ← f.locate path
  match f.lookup place with
  | some e => .ok e
  | none => .error .notFound

/-- Whether a path leads to something. -/
def exists? (f : Files) (path : String) : Bool := (f.open? path).toBool

/-- What stands for the bytes of a database. A real one begins with a line of text and has many lines;
what matters here is only that some line of it is no row, so that neither a data file nor a dump is
ever taken for it. Where a path of input leads to a database, the number of its lines, and which of
them is the first that is no row and why, are not those of a real one. -/
def databaseBytes : List UInt8 := [0xff]

/-- The bytes of what a path leads to; those of a database only stand for what it has. -/
def read (f : Files) (path : String) : Except FileFault (List UInt8) := do
  match ← f.open? path with
  | .file bytes => .ok bytes
  | .directory => .error .isADirectory
  | .database _ => .ok databaseBytes

/-- Writes a file, which replaces what was at its place. -/
def write (f : Files) (path : String) (bytes : List UInt8) : Except FileFault Files := do
  let place ← f.locate path
  match f.lookup place with
  | some .directory => .error .isADirectory
  | _ => .ok (f.put place (.file bytes))

/-! ## Directories -/

/-- Makes a directory at every place on the way along some names. -/
def makeWay : Files → Location → List String → Files
  | f, _, [] => f
  | f, place, name :: rest =>
    if name.isEmpty || name = "." then makeWay f place rest
    else if name = Location.above then makeWay f place.parent rest
    else
      let next := name :: place
      makeWay (if (f.lookup next).isSome then f else f.put next .directory) next rest

/-- Makes a directory, and those above it. -/
def makeDirectory (f : Files) (path : String) : Files :=
  let (start, names) := way path
  f.makeWay start names

/-- Makes the directories above a path. -/
def makeDirectoryAbove (f : Files) (path : String) : Files :=
  let (start, names) := way path
  f.makeWay start names.dropLast

/-- Removes a file; none when there is none at the path. -/
def removeFile? (f : Files) (path : String) : Option Files :=
  match f.locate path with
  | .error _ => none
  | .ok place =>
    match f.lookup place with
    | none => none
    | some .directory => none
    | some _ => some (f.remove place)

end Files

end CardArchive
