/-!
# Document trees

A document is a tree of elements with text between them. Comments and processing instructions are
kept as nodes, so that a reader of the tree decides what they mean. Text that belongs together may
lie in several nodes; `Node.directText` is the view that puts it together.
-/

namespace CardArchive.Xml

/-- The name of an element or an attribute. -/
structure Name where
  /-- The namespace, if the name is in one. -/
  space : Option String := none
  label : String
  deriving DecidableEq

/-- An attribute of an element. -/
structure Attribute where
  name : Name
  /-- The value, with references replaced. -/
  value : String
  deriving DecidableEq

/-- A node of a document. -/
inductive Node where
  /-- An element with its attributes and what stands between its tags. -/
  | element (name : Name) (attributes : List Attribute) (children : List Node)
  | text (s : String)
  | comment (s : String)
  | instruction (s : String)
  deriving Inhabited

namespace Node

/-- What stands between the tags of an element; nothing for other nodes. -/
def children : Node → List Node
  | element _ _ children => children
  | _ => []

/-- The attributes of an element. -/
def attributes : Node → List Attribute
  | element _ attributes _ => attributes
  | _ => []

/-- Whether the node is an element. -/
def isElement : Node → Bool
  | element .. => true
  | _ => false

/-- Whether the node is an element whose name has the given label, in any namespace. -/
def hasLabel (label : String) : Node → Bool
  | element name _ _ => name.label = label
  | _ => false

/-- The text of a text node; nothing for other nodes. -/
def ownText : Node → List Char
  | text s => s.toList
  | _ => []

/-- The text that stands directly between the tags of an element. -/
def directText (n : Node) : List Char := n.children.flatMap ownText

/-- The value of the attribute with the given label and no namespace. -/
def attribute? (label : String) (n : Node) : Option String :=
  (n.attributes.find? fun a => a.name = { label := label }).map Attribute.value

/-- The elements with the given label directly between the tags of an element. -/
def childrenWith (label : String) (n : Node) : List Node := n.children.filter (hasLabel label)

/-- The first of them. -/
def child? (label : String) (n : Node) : Option Node := n.children.find? (hasLabel label)

end Node

end CardArchive.Xml
