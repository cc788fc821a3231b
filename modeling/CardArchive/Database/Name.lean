import CardArchive.Text.Case

/-!
# Names of tables

Names that can stand between quotes in a statement, and names that a database keeps for itself.
-/

namespace CardArchive

/-- Whether a name is an identifier: a letter or an underscore, then letters, digits and
underscores, all of them ASCII. -/
def isIdentifier (name : String) : Bool :=
  match name.toList with
  | [] => false
  | c :: rest => (c.isAlpha || c = '_') && rest.all fun c => c.isAlphanum || c = '_'

/-- How the names begin that a database keeps for itself, in any case. -/
def reservedStart : List Char := "sqlite_".toList

/-- Whether a database keeps a name for itself. -/
def isReserved (name : String) : Bool := reservedStart.isPrefixOf (Text.foldCase name).toList

end CardArchive
