/-!
# Searching and splitting

Finding a pattern in a text, putting another in its place, and cutting a text at a character.
-/

namespace CardArchive.Text

/-- Whether `pattern` stands somewhere in the text. -/
def occursIn (pattern : List Char) : List Char → Bool
  | [] => pattern.isEmpty
  | c :: rest => pattern.isPrefixOf (c :: rest) || occursIn pattern rest

/-- Replaces the occurrences of `pattern`, from the left, while `skip` counts the characters of an
occurrence that are still to be passed over. -/
def replaceFrom (pattern new : List Char) : Nat → List Char → List Char
  | _, [] => []
  | skip + 1, _ :: rest => replaceFrom pattern new skip rest
  | 0, c :: rest =>
    if pattern.isPrefixOf (c :: rest) then
      new ++ replaceFrom pattern new (pattern.length - 1) rest
    else c :: replaceFrom pattern new 0 rest

/-- Replaces every occurrence of a non-empty `pattern`; occurrences do not overlap, the leftmost
goes first. -/
def replaceAll (pattern new s : List Char) : List Char := replaceFrom pattern new 0 s

/-- Cuts a text at every `sep`, which is dropped: one piece more than there are separators. -/
def splitAll (sep : Char) (s : List Char) : List (List Char) :=
  let (piece, pieces) := s.foldr
    (fun c (piece, pieces) => if c = sep then ([], piece :: pieces) else (c :: piece, pieces))
    (([], []) : List Char × List (List Char))
  piece :: pieces

/-- The text before and after the first `sep`. -/
def splitOnce (sep : Char) (s : List Char) : Option (List Char × List Char) :=
  match s.dropWhile (· ≠ sep) with
  | [] => none
  | _ :: after => some (s.takeWhile (· ≠ sep), after)

end CardArchive.Text
