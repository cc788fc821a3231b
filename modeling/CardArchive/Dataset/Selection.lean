import CardArchive.Dataset.Basic
import CardArchive.Text.Case

/-!
# Selections

A run works on the default datasets or on a selection of them: those that are included, or those
that are not excluded. Tags are compared without regard to case, and the order of the datasets stays
as it is.
-/

namespace CardArchive

/-- What is wrong with a selection. -/
inductive SelectionError where
  | bothFilters
  | unknownTag (tag : String)
  | nothingLeft
  deriving DecidableEq

/-- What is said about the error. -/
def SelectionError.message : SelectionError → String
  | bothFilters => "Cannot use both --include and --exclude at the same time"
  | unknownTag tag => "Unknown dataset: " ++ tag
  | nothingLeft => "No datasets left to load"

namespace Selection

/-- Whether a dataset has one of the tags. -/
def named (tags : List String) (d : Dataset) : Bool := tags.any (Text.sameName d.tag)

/-- The default datasets for which having one of the tags is the same as `keep`. -/
def filtered (tags : List String) (keep : Bool) : Except SelectionError (List Dataset) :=
  match tags.find? fun tag => !Dataset.defaults.any fun d => Text.sameName d.tag tag with
  | some tag => .error (.unknownTag tag)
  | none =>
    match Dataset.defaults.filter fun d => named tags d = keep with
    | [] => .error .nothingLeft
    | selected => .ok selected

/-- The datasets of a selection. -/
def select (include? exclude? : Option (List String)) : Except SelectionError (List Dataset) :=
  match include?, exclude? with
  | some _, some _ => .error .bothFilters
  | some tags, none => filtered tags true
  | none, some tags => filtered tags false
  | none, none => .ok Dataset.defaults

end Selection

end CardArchive
