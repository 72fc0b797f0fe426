import ApiDoc.Page.Member

/-!
# Pages of types

The page of a type: its declaration and documentation, for an enumeration its values, and for what
is neither enumeration nor delegate its members, first by name and then in tables.
-/

namespace ApiDoc

open Document (Node Page)

namespace Renderer

def heading (level : Nat) (title : String) : Node := .heading level [.text title]

/-! ## Lists of names -/

/-- Of members that show one name, the first. -/
def distinctByName : List MemberSymbol → List MemberSymbol
  | [] => []
  | m :: rest => m :: (distinctByName rest).filter fun n => n.displayName ≠ m.displayName

/-- The names of members under a heading, if there are any. -/
def nameList (r : Renderer) (title : String) (members : List MemberSymbol) : Answer (List Node) :=
  if members.isEmpty then pure []
  else do
    let cells ← Answer.each (fun m => r.memberCell m none) (distinctByName members)
    pure [heading 3 title, commaList cells]

/-- The visible members of a kind that are static or not. -/
def partition (r : Renderer) (t : TypeSymbol) (kind : MemberKind) (static : Bool) : List MemberSymbol :=
  (t.visible r.settings.render kind).filter fun m => m.decl.isStatic = static

/-- The lists that open the page: instance members and then static ones, constants first of all. -/
def nameLists (r : Renderer) (t : TypeSymbol) : List (String × List MemberSymbol) :=
  let staticFields := r.partition t .field true
  [("Constants", staticFields.filter (·.decl.isConstant)),
   ("Fields", r.partition t .field false),
   ("Properties", r.partition t .property false),
   ("Methods", r.partition t .method false),
   ("Events", r.partition t .event false),
   ("Static Fields", staticFields.filter fun m => !m.decl.isConstant),
   ("Static Properties", r.partition t .property true),
   ("Static Methods", r.partition t .method true),
   ("Static Events", r.partition t .event true)]

/-! ## Tables -/

/-- The type that a table shows for a member. -/
def shownType (m : Member) : TypeRef :=
  match m with
  | .method d => d.returnType
  | .field f => f.type
  | .property p => p.type
  | .event e => e.handler
  | _ => .void

/-- What a table shows a member as: its name, and for a method its signature in the room there is. -/
def shownName (r : Renderer) (m : MemberSymbol) : Option String :=
  match m.decl with
  | .method _ => some (Text.summarize r.settings.render.signatureBudget m.compactSignature)
  | _ => none

def memberRow (r : Renderer) (m : MemberSymbol) : Answer (List (List Node)) := do
  let name ← r.memberCell m (r.shownName m)
  let type ← r.typeCell (shownType m.decl)
  let summary ← r.summaryText (.member m)
  pure (row [name, type, .text summary])

/-- What the table of a kind is headed, and what it calls the types it shows. -/
def tableTitles : MemberKind → String × String
  | .field => ("Fields", "Type")
  | .property => ("Properties", "Type")
  | .event => ("Events", "Handler Type")
  | .method => ("Methods", "Return Type")
  | .constructor => ("Constructors", "Type")

/-- The members of a kind in a table for instance members and one for static ones. A lone table of
static members has no heading of its own. -/
def memberTables (r : Renderer) (t : TypeSymbol) (kind : MemberKind) : Answer (List Node) :=
  let instances := r.partition t kind false
  let statics := r.partition t kind true
  let (title, typeTitle) := tableTitles kind
  let table (members : List MemberSymbol) : Answer (List Node) := do
    let rows ← Answer.each r.memberRow members
    pure [.table ["Name", typeTitle, "Summary"] rows]
  if instances.isEmpty && statics.isEmpty then pure []
  else do
    let first ← if instances.isEmpty then pure [] else do
      let blocks ← table instances
      pure (heading 4 "Instance" :: blocks)
    let second ← if statics.isEmpty then pure [] else do
      let blocks ← table statics
      pure (if instances.isEmpty then blocks else heading 4 "Static" :: blocks)
    pure (heading 2 title :: first ++ second)

/-! ## Bodies -/

def inheritsList (r : Renderer) (t : TypeSymbol) : Answer (List Node) :=
  if t.decl.inherits.isEmpty then pure []
  else do
    let cells ← Answer.each r.typeCell t.decl.inherits
    pure [heading 3 "Inherits", commaList cells]

def constructorSections (r : Renderer) (t : TypeSymbol) : Answer (List Node) :=
  let constructors := (t.membersOf .constructor).filter fun m => m.decl.isVisible r.settings.render
  if constructors.isEmpty then pure []
  else do
    let sections ← Answer.concatEach r.callableSection constructors
    pure (heading 2 "Constructors" :: sections)

/-- The values of an enumeration. -/
def enumBody (r : Renderer) (t : TypeSymbol) : Answer (List Node) := do
  let rows ← Answer.each (fun m => do
    let entry ← r.resolve (.member m)
    let text ← r.renderText (Entry.sectionOf? entry "summary") none
    pure (row [.text m.decl.name, .text text])) (t.visible r.settings.render .field)
  pure [.table ["Name", "Summary"] rows]

def objectBody (r : Renderer) (t : TypeSymbol) : Answer (List Node) := do
  let inherits ← r.inheritsList t
  let lists ← Answer.concatEach (fun (title, members) => r.nameList title members) (r.nameLists t)
  let constructors ← r.constructorSections t
  let tables ← Answer.concatEach (r.memberTables t) [.field, .property, .event, .method]
  pure (inherits ++ lists ++ constructors ++ tables)

def typeBody (r : Renderer) (t : TypeSymbol) : Answer (List Node) :=
  match t.decl.category with
  | .enumType => r.enumBody t
  | .delegateType => pure []
  | _ => r.objectBody t

end Renderer

def Context.typePage (ctx : Context) (t : TypeSymbol) : Answer Page :=
  let r : Renderer := { ctx with current := some t }
  let unit := t.unit.getD ""
  let title := t.displayName ++ " (" ++ t.decl.category.label ++ ")"
  Answer.page title do
    let header ← Renderer.unitHeader unit (r.framework unit)
    let space ← Answer.link t.decl.ref.space (unitPath unit)
    let summary ← r.sectionBlocks (.type t) "summary"
    let more ← r.paragraphs (.type t)
    let body ← r.typeBody t
    pure (header ++ [Renderer.heading 2 title, .quote [.bold "Namespace", .text ": ", space]] ++ summary
      ++ [r.codeLine (t.decl.declaration t.decl.inherits)] ++ r.badges t.decl.attributes ++ more ++ body)

end ApiDoc
