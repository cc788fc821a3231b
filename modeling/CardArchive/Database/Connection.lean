import CardArchive.Database.Name
import CardArchive.Storage.Files

/-!
# Connections

A connection leads to a database in a file, or to one that is private to it and kept in memory. A
file is made when it is not there; an empty file is an empty database. That a file holds something
else shows at the first statement only. A database in memory is gone when its connection is closed.

Part of what SQLite does with paths and files is left out. A path that begins with `file:` is an
address with options of its own, which may even stand for a database in memory; here it is the name
of a file. While SQLite works it keeps files beside a database (`-journal`, `-wal`, `-shm`), and a
data file with such a name may be lost; here it is a file like any other. SQLite has a limit of its
own for the length of a path; here it is that of the file system.
-/

namespace CardArchive

/-- Why a database cannot do what it is asked to. -/
inductive DatabaseError where
  | cannotOpen (path : String)
  | notADatabase
  /-- The file is no longer where it was. -/
  | moved
  | noSuchTable (name : String)
  /-- The name of a table is kept for the database itself. -/
  | reservedName (name : String)
  /-- The name of a table breaks its statement. -/
  | brokenStatement
  deriving DecidableEq

/-- What is said about the error. -/
def DatabaseError.message : DatabaseError → String
  | cannotOpen path => "unable to open database file: " ++ path
  | notADatabase => "file is not a database"
  | moved => "attempt to write a readonly database"
  | noSuchTable name => "no such table: " ++ name
  | reservedName name => "object name reserved for internal use: " ++ name
  | brokenStatement => "unrecognized token"

/-- What leads to a database. -/
inductive Connection where
  | file (place : Location)
  | memory (db : Database)

namespace Connection

/-- The path that stands for a database in memory; the empty one does so too. -/
def memoryPath : String := ":memory:"

/-- What an address of a database begins with. -/
def addressPrefix : String := "file:"

/-- Opens a database. -/
def connect (f : Files) (path : String) : Except DatabaseError (Connection × Files) :=
  if path = memoryPath || path.isEmpty then .ok (.memory {}, f)
  else
    match f.locate path with
    | .error _ => .error (.cannotOpen path)
    | .ok place =>
      match f.lookup place with
      | some .directory => .error (.cannotOpen path)
      | some _ => .ok (.file place, f)
      | none => .ok (.file place, f.put place (.file []))

/-- The database that a place holds. -/
def databaseAt (f : Files) (place : Location) : Except DatabaseError Database :=
  match f.lookup place with
  | some (.database db) => .ok db
  | some (.file []) => .ok {}
  | some _ => .error .notADatabase
  | none => .error .moved

/-- The database that a connection leads to. -/
def database (f : Files) : Connection → Except DatabaseError Database
  | .file place => databaseAt f place
  | .memory db => .ok db

/-- Puts another database where a connection leads to. -/
def store (f : Files) (db : Database) : Connection → Connection × Files
  | .file place => (.file place, f.put place (.database db))
  | .memory _ => (.memory db, f)

end Connection

/-! ## Names in statements -/

namespace Statement

/-- What a text between double quotes says: two quotes stand for one. A quote that stands alone ends
the text too early, and no character after the one with the number zero is looked at. -/
def unquote? : List Char → Option (List Char)
  | [] => some []
  | '"' :: '"' :: rest => (unquote? rest).map ('"' :: ·)
  | c :: rest => if c = '"' || c = '\x00' then none else (unquote? rest).map (c :: ·)

/-- The name of the table that a statement is about, given what stands between its quotes. -/
def tableName (between : String) : Except DatabaseError String :=
  match unquote? between.toList with
  | some name => .ok (String.ofList name)
  | none => .error .brokenStatement

end Statement

namespace Database

/-- Makes a card table unless there is one with the name. -/
def create (db : Database) (between : String) : Except DatabaseError Database := do
  let name ← Statement.tableName between
  if isReserved name then throw (.reservedName name)
  return db.addTable name

/-- The rows to which a statement adds. -/
def target (db : Database) (between : String) : Except DatabaseError (String × Rows) := do
  let name ← Statement.tableName between
  match db.rows? name with
  | some rows => .ok (name, rows)
  | none => .error (.noSuchTable name)

end Database

end CardArchive
