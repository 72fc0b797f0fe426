import ApiDoc.Xml.Node

/-!
# Writing elements

An element is written with its attributes in their order and a blank before the slash of an empty
tag. Namespaces are declared on the outermost element, by prefix in ascending order; a namespace
gets its usual prefix or else `ns` and the number of namespaces met before it.
-/

namespace ApiDoc.Xml

/-- Namespaces that have a usual prefix. -/
def usualPrefixes : List (String × String) :=
  [("http://www.w3.org/XML/1998/namespace", "xml"),
   ("http://www.w3.org/1999/xhtml", "html"),
   ("http://www.w3.org/1999/02/22-rdf-syntax-ns#", "rdf"),
   ("http://schemas.xmlsoap.org/wsdl/", "wsdl"),
   ("http://www.w3.org/2001/XMLSchema", "xs"),
   ("http://www.w3.org/2001/XMLSchema-instance", "xsi"),
   ("http://purl.org/dc/elements/1.1/", "dc")]

/-- The prefixes of the namespaces that have to be declared, in the order they were met. -/
abbrev Prefixes := List (String × String)

/-- Gives a namespace a prefix if it has none yet. The one of `xml` is never declared. -/
def Prefixes.meet (prefixes : Prefixes) (n : Name) : Prefixes :=
  if n.space.isEmpty || (prefixes.lookup n.space).isSome then prefixes
  else
    let pre := (usualPrefixes.lookup n.space).getD ("ns" ++ toString prefixes.length)
    if pre = "xml" then prefixes else prefixes ++ [(n.space, pre)]

def Prefixes.write (prefixes : Prefixes) (n : Name) : String :=
  if n.space.isEmpty then n.label
  else
    let pre := (prefixes.lookup n.space).getD ((usualPrefixes.lookup n.space).getD "")
    if pre.isEmpty then n.label else pre ++ ":" ++ n.label

/-- The prefixes an element needs: each element's own before those of its attributes, and outer
elements first. -/
def prefixesOf (n : Node) : Prefixes :=
  n.elements.foldl (fun prefixes e =>
    match e with
    | .element name attributes _ => attributes.foldl (fun p a => p.meet a.1) (prefixes.meet name)
    | .text _ => prefixes) []

def escapeTextChar (c : Char) : List Char :=
  match c with
  | '&' => "&amp;".toList
  | '<' => "&lt;".toList
  | '>' => "&gt;".toList
  | c => [c]

def escapeAttributeChar (c : Char) : List Char :=
  match c with
  | '"' => "&quot;".toList
  | '\r' => "&#13;".toList
  | '\n' => "&#10;".toList
  | '\t' => "&#09;".toList
  | c => escapeTextChar c

def escapeText (s : String) : String := String.ofList (s.toList.flatMap escapeTextChar)

def escapeAttribute (s : String) : String := String.ofList (s.toList.flatMap escapeAttributeChar)

def writeAttribute (name value : String) : String := " " ++ name ++ "=\"" ++ escapeAttribute value ++ "\""

mutual

def writeNode (prefixes : Prefixes) (declarations : String) : Node → String
  | .text s => escapeText s
  | .element name attributes content =>
    let tag := prefixes.write name
    let written := attributes.map fun (n, v) => writeAttribute (prefixes.write n) v
    let head := "<" ++ tag ++ declarations ++ String.join written
    if content.isEmpty then head ++ " />"
    else head ++ ">" ++ writeNodes prefixes content ++ "</" ++ tag ++ ">"

def writeNodes (prefixes : Prefixes) : List Node → String
  | [] => ""
  | n :: rest => writeNode prefixes "" n ++ writeNodes prefixes rest

end

/-- An element as markup. -/
def write (n : Node) : String :=
  let prefixes := prefixesOf n
  let sorted := prefixes.mergeSort fun a b => a.2 ≤ b.2
  writeNode prefixes (String.join (sorted.map fun (space, pre) => writeAttribute ("xmlns:" ++ pre) space)) n

end ApiDoc.Xml
