import ApiDoc.Markup
import ApiDoc.Page.Visibility
import ApiDoc.Metadata.Declaration

/-!
# Parts of pages

The parts that pages of all kinds are put together from. A type or member is a link if its unit is
indexed, and code otherwise.
-/

namespace ApiDoc

open Document (Node)

namespace Renderer

/-- The blocks of a section of a symbol's documentation. -/
def sectionBlocks (r : Renderer) (s : Symbol) (tag : String) : Answer (List Node) := do
  let entry ← r.resolve s
  let f ← r.render .normal (Entry.sectionOf? entry tag)
  pure (Document.blocksOf f)

/-- The summary of a symbol, cut to the room it has in a table. -/
def summaryText (r : Renderer) (s : Symbol) : Answer String := do
  let entry ← r.resolve s
  r.renderText (Entry.sectionOf? entry "summary") (some r.settings.render.summaryBudget)

/-- The attributes that are not ignored, if there are any. -/
def badges (r : Renderer) (attributes : List String) : List Node :=
  let shown := attributes.filter fun a => !r.settings.render.ignoredAttributes.contains a
  if shown.isEmpty then [] else [.paragraph (shown.map .badge)]

def codeLine (r : Renderer) (declaration : String) : Node :=
  .codeBlock declaration r.settings.render.codeLanguage

/-- A name, as a link to a symbol of an indexed unit. -/
def nameCell (r : Renderer) (name : String) (s : Symbol) : Answer Node := do
  if ← r.isIndexed s.unit then
    let path ← Answer.ofExcept (r.paths s)
    Answer.link name path
  else pure (.code name)

def typeCell (r : Renderer) (ref : TypeRef) : Answer Node :=
  match if ref.isParameter then none else r.findType ref with
  | some t => r.nameCell ref.displayName (.type t)
  | none => pure (.code ref.displayName)

def memberCell (r : Renderer) (m : MemberSymbol) (text : Option String) : Answer Node :=
  r.nameCell (text.getD m.displayName) (.member m)

/-- Cells in one line, with commas between. -/
def commaList (cells : List Node) : Node := .paragraph (cells.intersperse (.text ", "))

/-- A row of cells that hold one node each. -/
def row (cells : List Node) : List (List Node) := cells.map ([·])

/-- The head of every page of a unit. -/
def unitHeader (unit : String) (framework : Option String) : Answer (List Node) := do
  let link ← Answer.link unit (unitPath unit)
  let framework := match framework with
    | some f => if f.isEmpty then "Unknown" else f
    | none => "Unknown"
  pure [.heading 1 [.text unit],
    .quote [.bold "Framework", .text (": " ++ framework), .lineBreak, .bold "Assembly", .text ": ", link]]

/-- The framework a unit was built for, as far as that is known. -/
def framework (r : Renderer) (unit : String) : Option String := (r.frameworks.lookup unit).join

end Renderer

end ApiDoc
