import CardArchive.Xml.Reference
import CardArchive.Xml.Tree

/-!
# Documents

The tree of a document is built from its tokens, one after the other. Elements whose closing tag is
still to come are kept on a stack. A reference to an entity in text makes the content of the entity
stand in its place, markup included; it may even close an element that was opened before the
reference, but only after a tag of its own.

Names are resolved when a tag ends: prefixes stand for namespaces that the element or one around it
has declared, two attributes of one element never have the same name, and the namespaces of XML
itself are bound to their own prefixes only.
-/

namespace CardArchive.Xml

/-- The namespace that the prefix `xml` stands for. -/
def xmlSpace : List Char := "http://www.w3.org/XML/1998/namespace".toList

/-- The namespace of namespace declarations. -/
def xmlnsSpace : List Char := "http://www.w3.org/2000/xmlns/".toList

/-- A namespace declaration: a prefix, which is empty for names without one, and a namespace. -/
abbrev Binding := List Char × List Char

/-- An element whose closing tag is still to come. -/
structure OpenElement where
  /-- The name as it stands in the tag. -/
  tag : QName
  name : Name
  attributes : List Attribute
  /-- The namespaces that are declared here or around, the innermost first. -/
  bindings : List Binding
  /-- The nodes in it so far, last first. -/
  children : List Node

/-- The element with all that has come. -/
def OpenElement.close (e : OpenElement) : Node := .element e.name e.attributes e.children.reverse

/-- A document in the making. -/
structure Builder where
  /-- The elements under way, the innermost first. -/
  stack : List OpenElement
  /-- The nodes outside them, last first. -/
  top : List Node
  /-- The last tag that began in the same content. -/
  tag : Option QName
  /-- The attributes that came since a tag last ended, last first. -/
  attributes : List (QName × List Char)
  /-- The namespace declarations that came since a tag last ended, last first. -/
  declared : List Binding
  /-- The number of entities used within one that is under way. -/
  references : Nat

namespace Builder

/-- Nothing has come. -/
def start : Builder := ⟨[], [], none, [], [], 0⟩

/-- Puts a node where the document is under way. -/
def append (b : Builder) (n : Node) : Builder :=
  match b.stack with
  | [] => { b with top := n :: b.top }
  | e :: around => { b with stack := { e with children := n :: e.children } :: around }

/-- The namespaces that are declared around. -/
def bindings (b : Builder) : List Binding := (b.stack.head?.map OpenElement.bindings).getD []

/-- An attribute with its value: a namespace declaration, or an attribute of the element. -/
def declare? (b : Builder) (name : QName) (value : List Char) : Option Builder :=
  if name.space = "xmlns".toList then
    if value = xmlnsSpace then none
    else if (name.label == "xml".toList) != (value == xmlSpace) then none
    else if (b.declared.lookup name.label).isSome then none
    else if value = xmlSpace then some b
    else some { b with declared := (name.label, value) :: b.declared }
  else if name.label = "xmlns".toList then
    if value = xmlSpace ∨ value = xmlnsSpace then none
    else some { b with declared := ([], value) :: b.declared }
  else some { b with attributes := (name, value) :: b.attributes }

/-- The namespace that a prefix stands for; none when it stands for nothing. -/
def space? (bindings : List Binding) (prefixed : List Char) : Option (List Char) :=
  bindings.lookup prefixed

/-- The name of an element. -/
def elementName? (bindings : List Binding) (q : QName) : Option Name :=
  match space? bindings q.space with
  | some space => some ⟨some (String.ofList space), String.ofList q.label⟩
  | none => if q.space.isEmpty then some ⟨none, String.ofList q.label⟩ else none

/-- The name of an attribute; without a prefix it is in no namespace. -/
def attributeName? (bindings : List Binding) (q : QName) : Option Name :=
  if q.space.isEmpty then some ⟨none, String.ofList q.label⟩
  else if q.space = "xml".toList then some ⟨some (String.ofList xmlSpace), String.ofList q.label⟩
  else (space? bindings q.space).map fun space =>
    ⟨some (String.ofList space), String.ofList q.label⟩

/-- The attributes of an element, in their order. -/
def resolveAttributes? (bindings : List Binding) (attributes : List (QName × List Char)) :
    Option (List Attribute) :=
  attributes.foldlM (fun done (q, value) => do
    let name ← attributeName? bindings q
    if done.any fun a => a.name = name then none
    return done ++ [⟨name, String.ofList value⟩]) []

/-- The end of a tag: names are resolved, and an element is added, opened or closed. -/
def endTag? (b : Builder) (t : Token) : Option Builder := do
  let tag ← b.tag
  let bindings := b.declared.reverse ++ b.bindings
  let attributes ← resolveAttributes? bindings b.attributes.reverse
  let b := { b with attributes := [], declared := [] }
  match t with
  | .empty => do
    let name ← elementName? bindings tag
    return b.append (.element name attributes [])
  | .opened => do
    let name ← elementName? bindings tag
    return { b with stack := ⟨tag, name, attributes, bindings, []⟩ :: b.stack }
  | .close name =>
    match b.stack with
    | [] => none
    | e :: around =>
      if e.tag = name then some ({ b with stack := around }.append e.close) else none
  | _ => none

/-- Puts text where the document is under way; no text leaves no node. -/
def appendText (b : Builder) (before : List Char) : Builder :=
  if before.isEmpty then b else b.append (.text (String.ofList before.reverse))

/-- Puts the text of some pieces behind that in `before`, which is kept last first; `verbatim` says
that the next character is taken as it is. The function `expand` puts the content of an entity where
the document is under way. -/
def text? (entities : List Entity) (depth : Nat) (expand : Builder → List Char → Option Builder) :
    List Piece → Bool → List Char → Builder → Option Builder
  | [], _, before, b => some (b.appendText before)
  | .char c :: rest, verbatim, before, b =>
    let before := if verbatim then c :: before else pushLineEnd rest.isEmpty before c
    text? entities depth expand rest false before b
  | .reference c :: rest, verbatim, before, b =>
    if insideEntity depth then
      text? entities depth expand rest verbatim (pushLineEnd rest.isEmpty before c) b
    else text? entities depth expand rest true (c :: before) b
  | .entity name :: rest, _, before, b => do
    let value ← entities.lookup name
    let b := b.appendText before
    let count ← countReference? depth b.references
    let inner ← expand { b with tag := none, references := count } value
    let b := { inner with tag := b.tag, references := settleCount depth inner.references }
    text? entities depth expand rest false [] b

/-- One more token, with `depth` levels of entities left to be used. -/
def feed (entities : List Entity) (depth : Nat) (expand : Builder → List Char → Option Builder)
    (b : Builder) : Token → Option Builder
  | .tag name =>
    if name.space = "xmlns".toList then none else some { b with tag := some name }
  | .attribute name value => do
    let (value, count) ← attributeValue? entities depth b.references value
    { b with references := count }.declare? name value
  | .opened => b.endTag? .opened
  | .empty => b.endTag? .empty
  | .close name => b.endTag? (.close name)
  | .text s => do
    let pieces ← pieces? s
    text? entities depth expand pieces false [] b
  | .verbatim s => some (b.appendText (withLineEnds [] s).reverse)
  | .comment s => some (b.append (.comment (String.ofList s)))
  | .instruction s => some (b.append (.instruction (String.ofList s)))

/-- Puts the content of an entity where the document is under way, with `depth` levels of entities
left to be used. -/
def expand (entities : List Entity) : Nat → Builder → List Char → Option Builder
  | 0, _, _ => none
  | depth + 1, b, value => do
    let tokens ← contentTokens? value
    tokens.foldlM (feed entities depth (expand entities depth)) b

/-- The root element, when nothing is left open. -/
def finish? (b : Builder) : Option Node :=
  if b.stack.isEmpty then b.top.reverse.find? Node.isElement else none

end Builder

/-- The root element of the document with some tokens. -/
def Tokens.root? (ts : Tokens) : Option Node := do
  let b ← ts.root.foldlM
    (Builder.feed ts.entities maxDepth (Builder.expand ts.entities maxDepth)) Builder.start
  b.finish?

/-- The root element of the document that a text is the spelling of. -/
def rootElement? (s : String) : Option Node := (tokens? s.toList).bind Tokens.root?

end CardArchive.Xml
