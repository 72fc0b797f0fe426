import ApiDoc.Xml.Node

/-!
# Documentation entries

An entry is the element that documents one symbol. Its sections are child elements. An entry with a
marker among them defers to what the symbol overrides or implements.
-/

namespace ApiDoc.Entry

open Xml (Node)

/-- The marker by which an entry defers. -/
def deferMarker : String := "inheritdoc"

/-- The first section with a tag. -/
def sectionOf? (entry : Option Node) (tag : String) : Option Node := entry.bind (·.find? tag)

/-- The element for a parameter: the first at any depth that bears its name. -/
def parameter? (entry : Option Node) (name : String) : Option Node :=
  entry.bind fun n => (n.elementsNamed "param").find? fun e => e.attribute? "name" = some name

def isDeferred (entry : Option Node) (marker : String) : Bool :=
  (sectionOf? entry marker).isSome

end ApiDoc.Entry
