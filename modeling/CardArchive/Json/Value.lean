import CardArchive.Number.Binary64

/-!
# JSON values

A number is an integer or a binary floating point number, and the two are never mixed up: an integer
keeps all its digits. The members of an object stand in strictly ascending order of their keys,
which is the order of their code points; `Members.insert` keeps that order, and a key that comes a
second time gets the later value.
-/

namespace CardArchive

/-- A JSON value. -/
inductive Json where
  | null
  | bool (b : Bool)
  | integer (n : Int)
  /-- A number with a fraction or an exponent, or one too large for an integer. -/
  | float (x : Binary64)
  | string (s : String)
  /-- A sequence of values. -/
  | array (items : List Json)
  | object (members : List (String × Json))
  deriving Inhabited

namespace Json

/-- The members of an object. -/
abbrev Members := List (String × Json)

namespace Members

/-- Puts a value under a key, in the place that the order of the keys gives it. -/
def insert (key : String) (value : Json) : Members → Members
  | [] => [(key, value)]
  | (k, v) :: rest =>
    if key < k then (key, value) :: (k, v) :: rest
    else if key = k then (key, value) :: rest
    else (k, v) :: insert key value rest

/-- The value under a key. -/
def get? (members : Members) (key : String) : Option Json := members.lookup key

/-- The object whose members are given one after the other. -/
def ofList (pairs : List (String × Json)) : Members :=
  pairs.foldl (fun members (key, value) => members.insert key value) []

/-- The keys stand in strictly ascending order. -/
def Ascending (members : Members) : Prop := members.Pairwise fun a b => a.1 < b.1

end Members

end Json

end CardArchive
