import CardArchive.Xml.Character

/-!
# XML tokens

A document is cut into a prolog, which may declare entities, and the tokens of its root element:
tags, their attributes, text, and what is to be passed over. No token is looked into here; in
particular references stay as they are.

The value of an entity is cut in the same way as what stands between two tags. Such *content* ends
with its text, or at the first closing tag that nothing in it has opened; that tag is its last
token.
-/

namespace CardArchive.Xml

/-- A name with a prefix, which may be empty. -/
structure QName where
  space : List Char
  label : List Char
  deriving DecidableEq

/-- A token of an element. -/
inductive Token where
  /-- The start of an opening tag. -/
  | tag (name : QName)
  | attribute (name : QName) (value : List Char)
  /-- The end of an opening tag; what follows belongs to the element. -/
  | opened
  /-- The end of a tag that is an element by itself. -/
  | empty
  | close (name : QName)
  | text (s : List Char)
  | verbatim (s : List Char)
  | comment (s : List Char)
  | instruction (s : List Char)
  deriving DecidableEq

/-! ## Small parts

Each reader takes the text that is left and gives back what it read and the rest. -/

/-- Passes over a fixed text. -/
def skip? (pattern s : List Char) : Option (List Char) :=
  if pattern.isPrefixOf s then some (s.drop pattern.length) else none

/-- Passes over white space. -/
def skipSpace (s : List Char) : List Char := s.dropWhile isSpace

/-- Passes over white space, of which there has to be some. -/
def skipSomeSpace? (s : List Char) : Option (List Char) :=
  if (s.takeWhile isSpace).isEmpty then none else some (skipSpace s)

/-- The text before the first place where a pattern stands, after the characters in `seen`, and the
text behind that place. -/
def untilFrom (pattern : List Char) (seen : List Char) : List Char → Option (List Char × List Char)
  | [] => none
  | c :: rest =>
    if pattern.isPrefixOf (c :: rest) then some (seen.reverse, (c :: rest).drop pattern.length)
    else untilFrom pattern (c :: seen) rest

/-- The text up to a pattern, all of its characters allowed, and the text behind the pattern. -/
def until? (pattern s : List Char) : Option (List Char × List Char) :=
  (untilFrom pattern [] s).filter fun (before, _) => before.all isAllowed

/-- Whether a pattern stands somewhere in a text. -/
def contains (pattern : List Char) (s : List Char) : Bool := (untilFrom pattern [] s).isSome

/-- A name. -/
def name? : List Char → Option (List Char × List Char)
  | [] => none
  | c :: rest =>
    if isNameStart c then some (c :: rest.takeWhile isNameChar, rest.dropWhile isNameChar) else none

/-- A name with at most one colon. Both parts start as names do, and the second is not empty. -/
def qname? (s : List Char) : Option (QName × List Char) :=
  let run := s.takeWhile isNameChar
  let rest := s.dropWhile isNameChar
  let first := run.takeWhile (· ≠ ':')
  let startsWell (part : List Char) : Bool := part.head?.all isNameStart
  let whole : Option QName := match run.dropWhile (· ≠ ':') with
    | [] => some ⟨[], run⟩
    | _ :: second => if second.contains ':' then none else some ⟨first, second⟩
  match whole with
  | some q =>
    if startsWell q.space && startsWell q.label && !q.label.isEmpty then some (q, rest) else none
  | none => none

/-- An equals sign with white space around it. -/
def equals? (s : List Char) : Option (List Char) := (skip? ['='] (skipSpace s)).map skipSpace

/-- A quoted text in which the characters accepted by `inside` may stand. -/
def quoted? (inside : Char → Bool) : List Char → Option (List Char × List Char)
  | q :: rest =>
    if q = '"' || q = '\'' then
      let value := rest.takeWhile fun c => c ≠ q && inside c
      match rest.dropWhile fun c => c ≠ q && inside c with
      | c :: behind => if c = q then some (value, behind) else none
      | [] => none
    else none
  | [] => none

/-- An attribute: a name, an equals sign and a quoted value without an opening angle bracket. -/
def attribute? (s : List Char) : Option (QName × List Char × List Char) := do
  let (name, rest) ← qname? s
  let rest ← equals? rest
  let (value, rest) ← quoted? (· ≠ '<') rest
  if value.all isAllowed then some (name, value, rest) else none

/-- What stands in a comment after its opening mark. Two hyphens neither stand in it nor cross its
end. -/
def comment? (s : List Char) : Option (List Char × List Char) :=
  (until? "-->".toList s).filter fun (text, _) =>
    !contains "--".toList text && text.getLast? ≠ some '-'

/-- An instruction after its opening mark; one that looks like a declaration of the document is out
of place. -/
def instruction? (s : List Char) : Option (List Char × List Char) :=
  if "xml ".toList.isPrefixOf s then none
  else do
    let (target, rest) ← name? s
    let (_, rest) ← until? "?>".toList (skipSpace rest)
    return (target, rest)

/-! ## Elements -/

/-- The attributes of a tag and its end, after the tokens in `seen`, and whether the tag opens an
element. A tag may also break off with the text. Every attribute takes at least one character, so
that one more than the length of the text is fuel enough. -/
def tagEnd? : Nat → List Char → List Token → Option (List Token × Bool × List Char)
  | 0, _, _ => none
  | fuel + 1, s, seen =>
    if s.isEmpty then some (seen, false, [])
    else match skipSpace s with
      | '/' :: '>' :: rest => some (.empty :: seen, false, rest)
      | '>' :: rest => some (.opened :: seen, true, rest)
      | body =>
        if s.head?.any isSpace then do
          let (name, value, rest) ← attribute? body
          tagEnd? fuel rest (.attribute name value :: seen)
        else none

/-- A tag after its angle bracket, after the tokens in `seen`. A name takes at least one character,
so that the length of the text is fuel enough. -/
def tag? (fuel : Nat) (s : List Char) (seen : List Token) :
    Option (List Token × Bool × List Char) := do
  let (name, rest) ← qname? s
  tagEnd? fuel rest (.tag name :: seen)

/-- Text up to the next tag. -/
def text? (s : List Char) : Option (List Char × List Char) :=
  let text := s.takeWhile (· ≠ '<')
  if text.all isAllowed && !contains "]]>".toList text then some (text, s.dropWhile (· ≠ '<'))
  else none

/-- The tokens of content, after those in `seen`, last first; `depth` counts the elements that the
content has opened and not closed. Every token takes at least one character, so that the length of
the text is fuel enough. -/
def contentFrom : Nat → Nat → List Char → List Token → Option (List Token × List Char)
  | _, _, [], seen => some (seen, [])
  | 0, _, _, _ => none
  | fuel + 1, depth, '<' :: '!' :: rest, seen =>
    match skip? "--".toList rest with
    | some rest => do
      let (text, rest) ← comment? rest
      contentFrom fuel depth rest (.comment text :: seen)
    | none => do
      let rest ← skip? "[CDATA[".toList rest
      let (text, rest) ← until? "]]>".toList rest
      contentFrom fuel depth rest (.verbatim text :: seen)
  | fuel + 1, depth, '<' :: '?' :: rest, seen => do
    let (target, rest) ← instruction? rest
    contentFrom fuel depth rest (.instruction target :: seen)
  | fuel + 1, depth, '<' :: '/' :: rest, seen => do
    let (name, rest) ← qname? rest
    let rest ← skip? ['>'] (skipSpace rest)
    match depth with
    | 0 => some (.close name :: seen, rest)
    | depth + 1 => contentFrom fuel depth rest (.close name :: seen)
  | fuel + 1, depth, '<' :: rest, seen => do
    let (seen, opened, rest) ← tag? fuel rest seen
    contentFrom fuel (if opened then depth + 1 else depth) rest seen
  | fuel + 1, depth, s, seen => do
    let (text, rest) ← text? s
    contentFrom fuel depth rest (.text text :: seen)

/-- The tokens of content. What stands behind an unopened closing tag is left out. -/
def contentTokens? (s : List Char) : Option (List Token) :=
  (contentFrom s.length 0 s []).map fun (seen, _) => seen.reverse

/-! ## Around the root element -/

/-- Passes over comments, instructions and the white space before each of them. -/
def skipMisc? : Nat → List Char → Option (List Char)
  | 0, s => some s
  | fuel + 1, s =>
    match skipSpace s with
    | '<' :: '!' :: '-' :: '-' :: rest => do
      let (_, rest) ← comment? rest
      skipMisc? fuel rest
    | '<' :: '?' :: rest => do
      let (_, rest) ← instruction? rest
      skipMisc? fuel rest
    | rest => some rest

/-- Passes over the declaration of the document, after its first word. -/
def skipDeclaration? (s : List Char) : Option (List Char) := do
  let spaced (s : List Char) : Option (List Char) :=
    if s.head?.any isSpace then some (skipSpace s)
    else if s.isEmpty || "?>".toList.isPrefixOf s then some s
    else none
  let s ← spaced s
  if !"version".toList.isPrefixOf s then none
  let (_, _, s) ← attribute? s
  let s ← spaced s
  let s ← if "encoding".toList.isPrefixOf s then do
      let (_, _, s) ← attribute? s
      spaced s
    else some s
  let s ← if "standalone".toList.isPrefixOf s then do
      let (_, _, s) ← attribute? s
      some s
    else some s
  skip? "?>".toList (skipSpace s)

/-- An entity: a name that stands for a text. -/
abbrev Entity := List Char × List Char

/-- Whether a place outside the document follows. -/
def startsExternal (s : List Char) : Bool :=
  "SYSTEM".toList.isPrefixOf s || "PUBLIC".toList.isPrefixOf s

/-- Passes over the place where something outside the document is to be found: a public one has two
addresses. -/
def skipExternal? (s : List Char) : Option (List Char) :=
  let address? (s : List Char) : Option (List Char) := do
    let s ← skipSomeSpace? s
    let (_, s) ← quoted? (fun _ => true) s
    return s
  if "SYSTEM".toList.isPrefixOf s then address? (s.drop 6)
  else (address? (s.drop 6)).bind address?

/-- Passes over the name of the notation of something outside the document, if there is one. -/
def skipNotation? (s : List Char) : Option (List Char) :=
  match skip? "NDATA".toList s with
  | none => some s
  | some rest => do
    let rest ← skipSomeSpace? rest
    if rest.isEmpty then some rest else (name? rest).map Prod.snd

/-- The declaration of an entity after its first word. One that lies outside the document has no
value here. -/
def entity? (s : List Char) : Option (Option Entity × List Char) := do
  let s ← skipSomeSpace? s
  let general := s.head? ≠ some '%'
  let s ← if general then some s else skipSomeSpace? (s.drop 1)
  let (name, s) ← name? s
  let s ← skipSomeSpace? s
  let (entity, s) ←
    if startsExternal s then do
      let s ← skipExternal? s
      let s ← if general then skipNotation? (skipSpace s) else some s
      some (none, s)
    else do
      let (value, s) ← quoted? (fun _ => true) s
      some (some (name, value), s)
  let s ← skip? ['>'] (skipSpace s)
  return (entity, s)

/-- The declarations between the brackets of a document type, after the entities in `seen`, last
first, and what stands behind the document type. -/
def declarations? : Nat → List Char → List Entity → Option (List Entity × List Char)
  | 0, _, _ => none
  | fuel + 1, s, seen =>
    let s := skipSpace s
    match skip? "<!ENTITY".toList s with
    | some rest => do
      let (entity, rest) ← entity? rest
      declarations? fuel rest (entity.toList ++ seen)
    | none =>
      match s with
      | '<' :: '!' :: '-' :: '-' :: rest => do
        let (_, rest) ← comment? rest
        declarations? fuel rest seen
      | '<' :: '?' :: rest => do
        let (_, rest) ← instruction? rest
        declarations? fuel rest seen
      | ']' :: rest => (skip? ['>'] (skipSpace rest)).map fun rest => (seen, rest)
      | _ =>
        if ["<!ELEMENT", "<!ATTLIST", "<!NOTATION"].any fun word => word.toList.isPrefixOf s then do
          let (_, rest) ← untilFrom ['>'] [] s
          declarations? fuel rest seen
        else none

/-- The document type after its first word: the entities that it declares, in their order. -/
def documentType? (s : List Char) : Option (List Entity × List Char) := do
  let s ← skipSomeSpace? s
  let (_, s) ← name? s
  let s := skipSpace s
  let s ← if startsExternal s then skipExternal? s else some s
  match skipSpace s with
  | '>' :: rest => some ([], rest)
  | '[' :: rest => do
    let (entities, rest) ← declarations? (rest.length + 1) rest []
    some (entities.reverse, rest)
  | _ => none

/-- A document: the entities that its prolog declares and the tokens of its root element. -/
structure Tokens where
  /-- The entities, in the order of their declarations. -/
  entities : List Entity
  root : List Token

/-- The tokens of a document. -/
def tokens? (s : List Char) : Option Tokens := do
  let s := if s.head? = some '\ufeff' then s.drop 1 else s
  let s ← if "<?xml ".toList.isPrefixOf s then skipDeclaration? (s.drop 5) else some s
  let s ← skipMisc? s.length s
  let (entities, s) ← match skip? "<!DOCTYPE".toList (skipSpace s) with
    | some rest => do
      let (entities, rest) ← documentType? rest
      let rest ← skipMisc? rest.length rest
      some (entities, rest)
    | none => some ([], s)
  let s ← skip? ['<'] (skipSpace s)
  let (seen, opened, s) ← tag? s.length s []
  let (seen, s) ← if opened then contentFrom s.length 0 s seen else some (seen, s)
  let s ← skipMisc? s.length s
  if (skipSpace s).isEmpty then some ⟨entities, seen.reverse⟩ else none

end CardArchive.Xml
