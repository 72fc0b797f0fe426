import ApiDoc.Resolution
import ApiDoc.Metadata.DisplayName
import ApiDoc.Text.Dedent
import ApiDoc.Text.Summary
import ApiDoc.Xml.Writer

/-!
# Rendering markup

Turns the markup of a documentation entry into a fragment of a document. A reference to a symbol is
a link if the symbol's unit is indexed, its name as code if it is known, and the identifier as code
if it is not. Elements without a meaning here are written out as they are. Plain rendering gives
texts only, with no link and no decoration, as a table cell or a summary needs them.
-/

namespace ApiDoc

open Document (Node Fragment)

namespace Markup

inductive Mode where
  | normal
  /-- Texts only. -/
  | plain
deriving DecidableEq, Repr

/-- Elements that are rendered as what they contain. -/
def containers : List String := ["summary", "remarks", "example", "returns", "value", "description", "term"]

/-- The mark of an identifier that could not be resolved when the entry was written. -/
def unresolvedMark : String := "!:"

def withoutMark (key : String) : String :=
  if key.startsWith unresolvedMark then String.ofList (key.toList.drop unresolvedMark.length) else key

/-- Code, or plain text where only texts are wanted. -/
def codeOr (mode : Mode) (s : String) : Node :=
  match mode with
  | .normal => .code s
  | .plain => .text s

/-- The first text unless it is empty. -/
def orElse (s other : String) : String := if s.isEmpty then other else s

end Markup

open Markup

/-- A context, and the type whose page is being written. -/
structure Renderer extends Context where
  current : Option TypeSymbol := none

namespace Renderer

/-! ## References -/

/-- How a reference shows a symbol: within the page of its type, a member goes by its short name. -/
def referenceName (r : Renderer) (s : Symbol) : String :=
  match s with
  | .member m => m.qualifiedName r.current
  | s => s.displayName

/-- The unit of the type that a reference leads to. A member without a type leads nowhere. -/
def referenceUnit (s : Symbol) : Option String :=
  match s with
  | .parameter _ => none
  | s => s.unit

/-- A reference to the symbol with an identifier, shown as `inner` if that is not empty. -/
def reference (r : Renderer) (mode : Mode) (key inner : String) : Answer Node :=
  let symbol := if key.startsWith unresolvedMark then none else r.findSymbol key
  match symbol with
  | none => do
    Answer.log .debug "cref_unknown" [("key", .text key)]
    pure (codeOr mode (orElse inner (withoutMark key)))
  | some s => do
    let name := orElse inner (r.referenceName s)
    if mode = .plain then pure (.text name)
    else if ← r.isIndexed (referenceUnit s) then
      let path ← Answer.ofExcept (r.paths s)
      Answer.link name path
    else pure (.code name)

/-- A `see` or `seealso` element: a keyword, an outside link, or a reference. -/
def see (r : Renderer) (mode : Mode) (e : Xml.Node) : Answer Node :=
  let value (label : String) := (e.attribute? label).getD ""
  let inner := Text.flat e.innerText
  if value "langword" ≠ "" then pure (codeOr mode (value "langword"))
  else if value "href" ≠ "" then
    let shown := orElse inner (value "href")
    if mode = .plain then pure (.text shown) else Answer.link shown (value "href")
  else r.reference mode (value "cref") inner

/-! ## Elements -/

def codeBlock (r : Renderer) (mode : Mode) (e : Xml.Node) : Node :=
  match mode with
  | .plain => .text (Text.collapse e.innerText)
  | .normal => .codeBlock (Text.codeText e.innerText) r.settings.render.codeLanguage

/-- Elements that resolution has already dealt with. -/
def isMarker (r : Renderer) (tag : String) : Bool :=
  tag = Entry.deferMarker || tag = r.settings.documentation.deferTag

/-- An element without a meaning here, as markup. -/
def unknown (e : Xml.Node) : Answer Fragment := do
  Answer.log .warning "unrecognized_markup_tag" [("tag", .text e.tag)]
  pure [.text (Text.collapse (Xml.write e))]

/-- The heads of a table that names none. -/
def tableHeads : List String := ["Term", "Description"]

mutual

def node (r : Renderer) (mode : Mode) : Xml.Node → Answer Fragment
  | .text s => pure [.text (Text.collapse s)]
  | .element name attributes content =>
    let e : Xml.Node := .element name attributes content
    let tag := e.tag
    if containers.contains tag then nodes r mode content
    else if tag = "para" then
      if mode = .plain then do
        let inner ← nodes r mode content
        pure (.text " " :: inner ++ [.text " "])
      else if content.any Xml.Node.isElement then do
        let inner ← nodes r mode content
        pure [.paragraph (Document.normalize inner)]
      else
        let words := Text.flat e.innerText
        pure (if words.isEmpty then [.lineBreak] else [.lineBreak, .text words])
    else if tag = "code" then pure [codeBlock r mode e]
    else if tag = "c" then pure [codeOr mode (Text.flat e.innerText)]
    else if tag = "paramref" || tag = "typeparamref" then
      pure [codeOr mode ((e.attribute? "name").getD "")]
    else if tag = "see" || tag = "seealso" then do
      let n ← r.see mode e
      pure [n]
    else if tag = "list" then
      if mode = .plain then itemsBelow r content
      else if e.attribute? "type" = some "table" then do
        let heads ← tableHead r content
        let rows ← tableRows r content
        pure [.table heads rows]
      else do
        let items ← listItems r content
        pure [.bullets items]
    else if tag = "br" then pure [if mode = .normal then .lineBreak else .text " "]
    else if r.isMarker tag then pure []
    else unknown e

def nodes (r : Renderer) (mode : Mode) : List Xml.Node → Answer Fragment
  | [] => pure []
  | n :: rest => do
    let first ← node r mode n
    let others ← nodes r mode rest
    pure (first ++ others)

/-- The content of the first element with a tag. -/
def firstTagged (r : Renderer) (mode : Mode) (tag : String) : List Xml.Node → Answer Fragment
  | [] => pure []
  | .text _ :: rest => firstTagged r mode tag rest
  | .element name attributes content :: rest =>
    if (Xml.Node.element name attributes content).hasTag tag then do
      let inner ← nodes r mode content
      pure (Document.normalize inner)
    else firstTagged r mode tag rest

/-- The items of a list that are not empty. -/
def listItems (r : Renderer) : List Xml.Node → Answer (List Fragment)
  | [] => pure []
  | .text _ :: rest => listItems r rest
  | .element name attributes content :: rest =>
    if (Xml.Node.element name attributes content).hasTag "item" then do
      let inner ← nodes r .normal content
      let item := Document.normalize inner
      let others ← listItems r rest
      pure (if item.isEmpty then others else item :: others)
    else listItems r rest

/-- The heads of a table: those of its first header, with the usual heads for missing ones. -/
def tableHead (r : Renderer) : List Xml.Node → Answer (List String)
  | [] => pure tableHeads
  | .text _ :: rest => tableHead r rest
  | .element name attributes content :: rest =>
    if (Xml.Node.element name attributes content).hasTag "listheader" then do
      let term ← firstTagged r .plain "term" content
      let description ← firstTagged r .plain "description" content
      pure [orElse (Document.plainText term) "Term", orElse (Document.plainText description) "Description"]
    else tableHead r rest

/-- A row for each item of a table, with a cell for its term and one for its description. -/
def tableRows (r : Renderer) : List Xml.Node → Answer (List (List Fragment))
  | [] => pure []
  | .text _ :: rest => tableRows r rest
  | .element name attributes content :: rest =>
    if (Xml.Node.element name attributes content).hasTag "item" then do
      let term ← firstTagged r .normal "term" content
      let description ← firstTagged r .normal "description" content
      let others ← tableRows r rest
      pure ([Document.inlineRun term, Document.inlineRun description] :: others)
    else tableRows r rest

/-- The items at any depth as texts, each after a blank; items within items come again. -/
def itemsBelow (r : Renderer) : List Xml.Node → Answer Fragment
  | [] => pure []
  | .text _ :: rest => itemsBelow r rest
  | .element name attributes content :: rest => do
    let own ←
      if (Xml.Node.element name attributes content).hasTag "item" then do
        let inner ← nodes r .plain content
        pure (.text " " :: inner)
      else pure []
    let below ← itemsBelow r content
    let others ← itemsBelow r rest
    pure (own ++ below ++ others)

end

/-! ## Entries -/

/-- The content of an element. -/
def render (r : Renderer) (mode : Mode) (e : Option Xml.Node) : Answer Fragment :=
  match e with
  | none => pure []
  | some e => do
    let inner ← nodes r mode e.content
    pure (Document.normalize inner)

/-- The content of an element on one line, cut to a budget if there is one. -/
def renderText (r : Renderer) (e : Option Xml.Node) (budget : Option Int) : Answer String := do
  let f ← r.render .plain e
  let line := Document.plainText f
  pure (budget.elim line (Text.summarize · line))

end Renderer

namespace Context

/-- A section of the entry that documents a symbol, as it stands on the page of the symbol's type. -/
def renderSection (ctx : Context) (s : Symbol) (tag : String) (mode : Mode) : Answer Fragment := do
  let current := match s with
    | .type t => some t
    | .member m => m.owner
    | .parameter _ => none
  let entry ← ctx.resolve s
  ({ ctx with current } : Renderer).render mode (Entry.sectionOf? entry tag)

/-- The summary of a symbol on one line; that of a parameter is its whole entry. -/
def summary (ctx : Context) (s : Symbol) (budget : Option Int) : Answer String := do
  let entry ← ctx.resolve s
  let part := match s with
    | .parameter _ => entry
    | _ => Entry.sectionOf? entry "summary"
  ({ ctx with } : Renderer).renderText part budget

end Context

end ApiDoc
