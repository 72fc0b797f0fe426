import ApiDoc.Xml.Node
import ApiDoc.Xml.Doctype
import ApiDoc.Xml.Declaration

/-!
# Reading documents

`readDocument` builds the tree of a document, or says what makes it ill-formed and where.
Namespaces are resolved, entities declared in the document are replaced, and a value declared as
default stands in for an attribute that is not given.
-/

namespace ApiDoc.Xml

/-! ## Namespaces -/

def xmlNamespace : String := "http://www.w3.org/XML/1998/namespace"
def xmlnsNamespace : String := "http://www.w3.org/2000/xmlns/"

/-- The namespaces of the prefixes in force, the innermost first. The empty prefix is that of
unprefixed element names. -/
abbrev Scope := List (List Char × String)

def Scope.initial : Scope := [("xml".toList, xmlNamespace)]

/-- A qualified name as prefix and local name. -/
def splitName (name : List Char) : Option (List Char) × List Char :=
  if name.contains ':' then
    (some (name.takeWhile (· ≠ ':')), (name.dropWhile (· ≠ ':')).drop 1)
  else (none, name)

/-- Characters that a namespace name may not smuggle in. -/
def Scope.bind (scope : Scope) (pre : List Char) (space : String) : Except Cause Scope :=
  if space.isEmpty && !pre.isEmpty then .error .undeclaredPrefix
  else if pre = "xmlns".toList then .error .reservedXmlnsPrefix
  else if pre = "xml".toList && space ≠ xmlNamespace then .error .reservedXmlPrefix
  else if pre ≠ "xml".toList && space = xmlNamespace then .error .reservedNamespace
  else if space = xmlnsNamespace then .error .reservedNamespace
  else if space.toList.contains '\x7d' then .error .misplacedText
  else .ok ((pre, space) :: scope)

/-- The prefix that an attribute declares. -/
def declaredPrefix? (name : List Char) : Option (List Char) :=
  match splitName name with
  | (none, label) => if label = "xmlns".toList then some [] else none
  | (some pre, label) => if pre = "xmlns".toList then some label else none

def Scope.name (scope : Scope) (useDefault : Bool) (name : List Char) : Except Cause Name :=
  match splitName name with
  | (none, label) =>
    .ok { space := if useDefault then (scope.lookup []).getD "" else "", label := String.ofList label }
  | (some pre, label) =>
    match scope.lookup pre with
    | some space => if space.isEmpty then .error .unboundPrefix else .ok { space, label := String.ofList label }
    | none => .error .unboundPrefix

/-! ## Start tags -/

/-- An attribute whose value is known but whose prefix is not yet resolved. -/
structure Valued where
  name : List Char
  value : String

/-- The attributes of a tag in order, with the namespaces it declares taken out. -/
def valueAttributes (dtd : Doctype) (element tagAt : List Char) :
    List (List Char) → Scope → List RawAttribute → Except Problem (List Valued × Scope)
  | _, scope, [] => .ok ([], scope)
  | seen, scope, a :: rest =>
    if seen.contains a.name then .error ⟨.duplicateAttribute, a.nameAt⟩
    else do
      let value ← attributeValue dtd (dtd.isCdata element a.name) tagAt a.value a.valueAt
      let value := String.ofList value
      match declaredPrefix? a.name with
      | some pre => do
        let scope ← (scope.bind pre value).mapError fun cause => ⟨cause, tagAt⟩
        valueAttributes dtd element tagAt (a.name :: seen) scope rest
      | none => do
        let (more, scope) ← valueAttributes dtd element tagAt (a.name :: seen) scope rest
        .ok (⟨a.name, value⟩ :: more, scope)

/-- Adds the declared defaults of the attributes that were not given. -/
def addDefaults (element tagAt : List Char) (given : List (List Char)) :
    List AttributeType → Scope → Except Problem (List Valued × Scope)
  | [], scope => .ok ([], scope)
  | a :: rest, scope =>
    match a.default with
    | some value =>
      if a.element = element && !given.contains a.name then
        let value := String.ofList value
        match declaredPrefix? a.name with
        | some pre => do
          let scope ← (scope.bind pre value).mapError fun cause => ⟨cause, tagAt⟩
          addDefaults element tagAt given rest scope
        | none => do
          let (more, scope) ← addDefaults element tagAt given rest scope
          .ok (⟨a.name, value⟩ :: more, scope)
      else addDefaults element tagAt given rest scope
    | none => addDefaults element tagAt given rest scope

/-- Resolves the prefixes; two attributes may not have one name in one namespace. -/
def resolveAttributes (scope : Scope) : List Valued → List Name → Except Cause Attributes
  | [], _ => .ok []
  | a :: rest, seen => do
    let name ← scope.name false a.name
    if seen.contains name then .error .duplicateAttribute
    else do
      let more ← resolveAttributes scope rest (name :: seen)
      .ok ((name, a.value) :: more)

/-- An element that has been opened. Its content is collected in reverse. -/
structure Frame where
  rawName : List Char
  name : Name
  attributes : Attributes
  scope : Scope
  content : List Node := []

def openElement (dtd : Doctype) (scope : Scope) (tag : StartTag) (tagAt : List Char) :
    Except Problem Frame := do
  let (given, scope) ← valueAttributes dtd tag.name tagAt [] scope tag.attributes
  let (defaults, scope) ← addDefaults tag.name tagAt (tag.attributes.map RawAttribute.name) dtd.attributes scope
  let locate {α : Type} (r : Except Cause α) : Except Problem α := r.mapError fun cause => ⟨cause, tagAt⟩
  let attributes ← locate (resolveAttributes scope (given ++ defaults) [])
  let name ← locate (scope.name true tag.name)
  .ok { rawName := tag.name, name, attributes, scope }

/-! ## Content -/

/-- The elements that are open, the innermost first. -/
abbrev Stack := List Frame

def Frame.push (f : Frame) (n : Node) : Frame := { f with content := n :: f.content }

/-- Adds character data, to the text before it if there is one. -/
def Frame.pushText (f : Frame) (chars : List Char) : Frame :=
  if chars.isEmpty then f
  else
    let s := String.ofList chars
    match f.content with
    | .text t :: rest => { f with content := .text (t ++ s) :: rest }
    | content => { f with content := .text s :: content }

def Frame.node (f : Frame) : Node := .element f.name f.attributes f.content.reverse

def Stack.pushText (stack : Stack) (chars : List Char) : Stack :=
  match stack with
  | f :: rest => f.pushText chars :: rest
  | [] => []

/-- Where the reading of content ends. -/
inductive Ending where
  /-- The last open element has been closed. -/
  | closed (root : Node) (rest : List Char)
  /-- The text has been read to its end. -/
  | exhausted (stack : Stack)

/-- Closes the innermost element: it becomes content of the next, or the root. -/
def closeElement (f : Frame) (rest : Stack) (after : List Char) : Ending ⊕ Stack :=
  match rest with
  | [] => .inl (.closed f.node after)
  | outer :: more => .inr (outer.push f.node :: more)

/-- Reads content while elements are open. `base` is the number of elements that were open when the
text began, and `expand` reads the text of an entity. -/
def contentFrom (dtd : Doctype) (base : Nat)
    (expand : List Char → List Char → Stack → Except Cause Stack) :
    Nat → Stack → List Char → Except Problem Ending
  | 0, stack, _ => .ok (.exhausted stack)
  | fuel + 1, stack, cs =>
    let next (stack : Stack) (rest : List Char) := contentFrom dtd base expand fuel stack rest
    match cs with
    | [] => .ok (.exhausted stack)
    | _ =>
      match scanContent cs with
      | .invalid bad => .error ⟨.invalidToken, bad⟩
      | .unfinished => .error ⟨.unclosedToken, cs⟩
      | .done token rest =>
        match token with
        | .comment | .instruction .processing => next stack rest
        | .instruction (.declaration _) => .error ⟨.misplacedDeclaration, cs⟩
        | .text chars => next (stack.pushText (normalizeNewlines chars)) rest
        | .cdata none => .error ⟨.unclosedCdata, rest⟩
        | .cdata (some chars) => next (stack.pushText (normalizeNewlines chars)) rest
        | .reference (.character code) =>
          match referredChar? code with
          | some c => next (stack.pushText [c]) rest
          | none => .error ⟨.badCharacterReference, cs⟩
        | .reference (.entity name) =>
          match predefined? name with
          | some c => next (stack.pushText [c]) rest
          | none =>
            match dtd.entity? name with
            | some (.replaced text) =>
              match expand name text stack with
              | .ok stack => next stack rest
              | .error cause => .error ⟨cause, cs⟩
            | some .unparsed => .error ⟨.binaryEntityReference, cs⟩
            | some .external => .error ⟨.unresolvedEntity (String.ofList name), cs⟩
            | none =>
              if dtd.isComplete then .error ⟨.undefinedEntity, cs⟩
              else .error ⟨.unresolvedEntity (String.ofList name), cs⟩
        | .startTag tag =>
          let scope := match stack with
            | f :: _ => f.scope
            | [] => Scope.initial
          match openElement dtd scope tag cs with
          | .error p => .error p
          | .ok frame =>
            if tag.isEmpty then
              match closeElement frame stack rest with
              | .inl ending => .ok ending
              | .inr stack => next stack rest
            else next (frame :: stack) rest
        | .endTag name =>
          if stack.length = base && base ≠ 0 then .error ⟨.asynchronousEntity, cs⟩
          else match stack with
          | [] => .error ⟨.asynchronousEntity, cs⟩
          | f :: outer =>
            if f.rawName ≠ name then .error ⟨.tagMismatch, cs.drop 2⟩
            else match closeElement f outer rest with
            | .inl ending => .ok ending
            | .inr stack => next stack rest

/-- Reads the text of an entity inside the open elements. No more entities than are declared can be
open at once, for none may be opened inside itself; `depth` counts those that are left. -/
def entityContent (dtd : Doctype) :
    Nat → List (List Char) → List Char → List Char → Stack → Except Cause Stack
  | 0, _, _, _, _ => .error .recursiveEntity
  | depth + 1, opened, name, text, stack =>
    if opened.contains name then .error .recursiveEntity
    else
      let expand := entityContent dtd depth (name :: opened)
      match contentFrom dtd stack.length expand (text.length + 1) stack text with
      | .error p => .error p.cause
      | .ok (.closed ..) => .error .asynchronousEntity
      | .ok (.exhausted after) =>
        if after.length = stack.length then .ok after else .error .asynchronousEntity

/-- Reads the document element and its content. -/
def documentElement (dtd : Doctype) (cs : List Char) : Except Problem (Node × List Char) :=
  let expand := entityContent dtd (dtd.entities.length + 1) []
  match contentFrom dtd 0 expand (cs.length + 1) [] cs with
  | .error p => .error p
  | .ok (.closed root rest) => .ok (root, rest)
  | .ok (.exhausted _) => .error ⟨.noElement, if cs.getLast? = some '\r' then ['\r'] else []⟩

/-! ## Documents -/

/-- What may follow the document element: space, comments and instructions. -/
def epilog : Nat → List Char → Except Problem Unit
  | 0, _ => .ok ()
  | fuel + 1, cs =>
    if cs.isEmpty then .ok ()
    else match scanProlog cs with
    | .invalid bad => .error ⟨.invalidToken, bad⟩
    | .unfinished => .error ⟨.unclosedToken, cs⟩
    | .done .space rest | .done .comment rest | .done (.instruction .processing) rest => epilog fuel rest
    | .done _ _ => .error ⟨.junkAfterDocument, cs⟩

/-- The document from its prolog on. `started` once something stands before, after which no XML
declaration may come; a document type may be declared once. -/
def prolog (dtd : Doctype) (typed : Bool) : Nat → List Char → Except Problem Node
  | 0, cs => .error ⟨.noElement, cs⟩
  | fuel + 1, cs =>
    if cs.isEmpty then .error ⟨.noElement, cs⟩
    else match scanProlog cs with
    | .invalid bad => .error ⟨.invalidToken, bad⟩
    | .unfinished => .error ⟨.unclosedToken, cs⟩
    | .done token rest =>
      match token with
      | .space | .comment | .instruction .processing => prolog dtd typed fuel rest
      | .declOpen word =>
        if typed || keyword word ≠ "DOCTYPE" then .error ⟨.misplacedText, cs⟩
        else do
          let (dtd, rest) ← doctypeDeclaration dtd.standalone rest
          prolog dtd true fuel rest
      | .documentElement => do
        let (root, rest) ← documentElement dtd cs
        epilog (rest.length + 1) rest
        .ok root
      | t => .error (Item.token t cs).problem

/-- Skips a byte order mark. -/
def skipMark (cs : List Char) : List Char :=
  match cs with
  | c :: rest => if c.toNat = 0xfeff then rest else cs
  | [] => []

/-- The XML declaration that a document opens with, and what follows it. -/
def openingDeclaration (cs : List Char) : Except Problem (Option XmlDeclaration × List Char) :=
  match cs with
  | '<' :: '?' :: rest =>
    match scanInstruction rest with
    | .done (.declaration text) after =>
      match xmlDeclaration text with
      | .ok d =>
        let locate (fault : List Char) := fault ++ '?' :: '>' :: after
        .ok (some { d with encoding := d.encoding.map fun (name, here) => (name, locate here) }, after)
      | .error fault => .error ⟨.malformedDeclaration, fault ++ '?' :: '>' :: after⟩
    | _ => .ok (none, cs)
  | _ => .ok (none, cs)

/-- Reads what follows the opening declaration. -/
def readBody (declaration : Option XmlDeclaration) (rest : List Char) : Except Problem Node :=
  prolog { standalone := declaration.any XmlDeclaration.standalone } false (rest.length + 1) rest

/-- The root element of a document given as characters. A declared encoding says nothing then. -/
def readChars (cs : List Char) : Except Problem Node := do
  let (declaration, rest) ← openingDeclaration (skipMark cs)
  readBody declaration rest

def readDocument (cs : List Char) : Except SyntaxError Node :=
  (readChars cs).mapError fun p => p.locate cs

def readText (s : String) : Except SyntaxError Node := readDocument s.toList

end ApiDoc.Xml
