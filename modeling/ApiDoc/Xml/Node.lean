/-!
# XML trees

A node is a text or an element; adjacent texts are one node, and comments and processing
instructions leave no trace.
-/

namespace ApiDoc.Xml

/-- A name in a namespace, which is empty for names in none. -/
structure Name where
  space : String := ""
  label : String
deriving DecidableEq, Repr, Inhabited

/-- A name outside all namespaces. -/
def Name.plain (label : String) : Name := { label }

/-- `\x7bspace\x7dlabel`, or the bare label outside all namespaces. -/
def Name.display (n : Name) : String :=
  if n.space.isEmpty then n.label else "\x7b" ++ n.space ++ "\x7d" ++ n.label

abbrev Attributes := List (Name × String)

inductive Node where
  | text (s : String)
  | element (name : Name) (attributes : Attributes) (content : List Node)
deriving Repr, Inhabited

namespace Node

def isElement : Node → Bool
  | .text _ => false
  | .element .. => true

/-- The name of an element, as it is displayed; empty for a text. -/
def tag : Node → String
  | .text _ => ""
  | .element name _ _ => name.display

def attributes : Node → Attributes
  | .text _ => []
  | .element _ attributes _ => attributes

def content : Node → List Node
  | .text _ => []
  | .element _ _ content => content

/-- The child elements. -/
def children (n : Node) : List Node := n.content.filter isElement

/-- The value of an attribute outside all namespaces. -/
def attribute? (n : Node) (label : String) : Option String := n.attributes.lookup (.plain label)

def hasTag (n : Node) (tag : String) : Bool := n.isElement && n.tag == tag

/-- The first child element with a tag. -/
def find? (n : Node) (tag : String) : Option Node := n.content.find? (·.hasTag tag)

def findAll (n : Node) (tag : String) : List Node := n.content.filter (·.hasTag tag)

mutual

/-- All text below a node, in document order. -/
def innerText : Node → String
  | .text s => s
  | .element _ _ content => innerTexts content

def innerTexts : List Node → String
  | [] => ""
  | n :: rest => innerText n ++ innerTexts rest

end

mutual

/-- The elements of a tree, each before those below it. -/
def elements : Node → List Node
  | .text _ => []
  | .element name attributes content => .element name attributes content :: elementsOf content

def elementsOf : List Node → List Node
  | [] => []
  | n :: rest => elements n ++ elementsOf rest

end

/-- The elements with a tag, the node itself among them. -/
def elementsNamed (n : Node) (tag : String) : List Node := n.elements.filter (·.hasTag tag)

end Node

end ApiDoc.Xml
