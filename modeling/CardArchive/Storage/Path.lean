/-!
# Paths

A path is a text whose parts are separated by slashes. It is kept as it was given: nothing is
normalised, and only what is asked for is worked out of it.
-/

namespace CardArchive.Path

/-- A path below another; an absolute one stands for itself. A separator is added where there is
none. -/
def join (base path : String) : String :=
  let b := base.toList
  let p := path.toList
  if p.head? = some '/' then path
  else if b.isEmpty || b.getLast? = some '/' then String.ofList (b ++ p)
  else String.ofList (b ++ '/' :: p)

/-- A path without what follows its last name: separators, and parts that are one point. The path is
given, and the result is, last character first. -/
def dropTrailing : List Char → List Char
  | '/' :: rest => dropTrailing rest
  | '.' :: '/' :: rest => dropTrailing ('/' :: rest)
  | rest => rest
termination_by s => s.length

/-- The last name of a path, and the path up to it; none where the path ends in no name, such as one
that ends with two points. -/
def lastName? (path : List Char) : Option (List Char × List Char) :=
  let back := dropTrailing path.reverse
  let name := (back.takeWhile (· ≠ '/')).reverse
  if name = [] ∨ name = ['.'] ∨ name = ['.', '.'] then none
  else some ((back.dropWhile (· ≠ '/')).reverse, name)

/-- A name cut at its last point: the stem and the extension. A point in front does not count. -/
def splitName (name : List Char) : List Char × Option (List Char) :=
  let back := name.reverse
  match back.dropWhile (· ≠ '.') with
  | [] => (name, none)
  | _ :: stem =>
    if stem.isEmpty then (name, none)
    else (stem.reverse, some (back.takeWhile (· ≠ '.')).reverse)

/-- The extension of the last name of a path. -/
def extension? (path : String) : Option String := do
  let (_, name) ← lastName? path.toList
  let extension ← (splitName name).2
  return String.ofList extension

/-- The path with the extension of its last name replaced. As many characters as the old extension
has are cut off the end of the path first. -/
def withExtension (path extension : String) : String :=
  let s := path.toList
  let old := ((lastName? s).bind fun (_, name) => (splitName name).2).getD []
  let cut := s.take (s.length - old.length)
  match lastName? cut with
  | none => String.ofList cut
  | some (before, name) =>
    String.ofList (before ++ (splitName name).1 ++ '.' :: extension.toList)

end CardArchive.Path
