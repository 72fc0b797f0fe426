import ApiDoc.Page.Cell

/-!
# Pages of members

A section for each member with its declaration and documentation, and a page for the members of one
type that share a path.
-/

namespace ApiDoc

open Document (Node Page)

namespace Renderer

def paragraphs (r : Renderer) (s : Symbol) : Answer (List Node) := do
  let remarks ← r.sectionBlocks s "remarks"
  let example_ ← r.sectionBlocks s "example"
  pure (remarks ++ example_)

/-! ## Callables -/

/-- The parameters of a callable with what is said of them, in a table. -/
def parameterTable (r : Renderer) (entry : Option Xml.Node) (parameters : List Parameter) :
    Answer (List Node) :=
  if parameters.isEmpty then pure []
  else do
    let rows ← Answer.each (fun p => do
      let type ← r.typeCell p.type
      let text ← r.renderText (Entry.parameter? entry p.name) (some r.settings.render.summaryBudget)
      pure (row [.text p.name, type, .text text])) parameters
    pure [.table ["Name", "Type", "Summary"] rows]

/-- The type that a method returns and what is said of it. -/
def returnQuote (r : Renderer) (entry : Option Xml.Node) (type : TypeRef) : Answer (List Node) := do
  let cell ← r.typeCell type
  let text ← r.renderText (Entry.sectionOf? entry "returns") (some r.settings.render.summaryBudget)
  let said := if text.isEmpty then [] else [Node.text (" - " ++ text)]
  pure [.quote ([.bold "Returns", .text " - ", cell] ++ said)]

def parameterSummary (r : Renderer) (m : MemberSymbol) : Answer (List Node) := do
  let entry ← r.resolve (.member m)
  let table ← r.parameterTable entry m.decl.parameters
  let returns ← match m.decl with
    | .method d => r.returnQuote entry d.returnType
    | _ => pure []
  pure (table ++ returns)

def callableSection (r : Renderer) (m : MemberSymbol) : Answer (List Node) := do
  let summary ← r.sectionBlocks (.member m) "summary"
  let parameters ← r.parameterSummary m
  let more ← r.paragraphs (.member m)
  pure ([.heading 3 [.text m.compactSignature]] ++ summary ++ [r.codeLine m.declaration]
    ++ r.badges m.decl.declared.attributes ++ parameters ++ more)

/-! ## Other members -/

def fieldSection (r : Renderer) (m : MemberSymbol) (f : Field) : Answer (List Node) := do
  let summary ← r.sectionBlocks (.member m) "summary"
  let more ← r.paragraphs (.member m)
  pure ([.heading 4 [.text f.name]] ++ summary ++ [r.codeLine m.declaration] ++ r.badges f.attributes ++ more)

def propertySection (r : Renderer) (m : MemberSymbol) (p : Property) : Answer (List Node) := do
  let summary ← r.sectionBlocks (.member m) "summary"
  let returns ←
    if p.getter.isSome then do
      let cell ← r.typeCell p.type
      pure [Node.quote [.bold "Returns", .text ": ", cell]]
    else pure []
  let more ← r.paragraphs (.member m)
  pure ([.heading 3 [.text m.displayName]] ++ summary ++ [r.codeLine m.declaration] ++ returns
    ++ r.badges p.attributes ++ more)

def eventSection (r : Renderer) (m : MemberSymbol) (e : ApiDoc.Event) : Answer (List Node) := do
  let summary ← r.sectionBlocks (.member m) "summary"
  let more ← r.paragraphs (.member m)
  pure ([.heading 4 [.text e.name]] ++ summary ++ [r.codeLine m.declaration] ++ r.badges e.attributes
    ++ [.paragraph [.text "Type: ", .code e.handler.displayName]] ++ more)

def memberSection (r : Renderer) (m : MemberSymbol) : Answer (List Node) :=
  match m.decl with
  | .field f => r.fieldSection m f
  | .property p => r.propertySection m p
  | .event e => r.eventSection m e
  | .method _ | .constructor _ => r.callableSection m
  | .unclassified _ => throw (.unsupportedKind (.ofText "MemberSymbol"))
  | .unclassifiedCallable _ => throw (.unsupportedKind (.ofText "CallableSymbol"))

/-- The section of a symbol; only members have one. -/
def symbolSection (r : Renderer) (s : Symbol) : Answer (List Node) :=
  match s with
  | .member m => r.memberSection m
  | .type _ => throw (.unsupportedKind (.ofText "TypeSymbol"))
  | .parameter _ => throw (.unsupportedKind (.ofText "ParameterSymbol"))

end Renderer

namespace Context

/-- The names of the types that members are declared on, each once and in order. -/
def ownerNames (members : List MemberSymbol) : List String :=
  let names := members.filterMap fun m => m.owner.map TypeSymbol.displayName
  names.eraseDups.mergeSort (· ≤ ·)

/-- The sections of members, with dividers between. -/
def dividedSections (r : Renderer) (members : List MemberSymbol) : Answer (List Node) := do
  let sections ← Answer.each r.memberSection members
  pure (sections.intersperse [.divider]).flatten

/-- The page of members of one type. -/
def ownedPage (ctx : Context) (owner : TypeSymbol) (kind : String) (first : MemberSymbol)
    (others : List MemberSymbol) : Answer Page :=
  let r : Renderer := { ctx with current := some owner }
  let unit := owner.unit.getD ""
  let title := owner.displayName ++ "." ++ first.displayName ++ " (" ++ kind ++ ")"
  Answer.page title do
    let header ← Renderer.unitHeader unit (r.framework unit)
    let space ← Answer.link owner.decl.ref.space (unitPath unit)
    let declaring ← r.typeCell owner.decl.ref
    let sections ← dividedSections r (first :: others)
    pure (header ++ [.heading 2 [.text title],
      .quote [.bold "Namespace", .text ": ", space, .lineBreak, .bold "Declaring Type", .text ": ", declaring]]
      ++ sections)

def asMember (s : Symbol) : Answer MemberSymbol :=
  match s with
  | .member m => pure m
  | _ => throw .notApplicable

/-- The page of members that share a path. They have to be declared on one type. -/
def memberPage (ctx : Context) (symbols : List Symbol) : Answer Page :=
  match symbols with
  | [] => throw (.unexpected "empty member group" [])
  | s :: rest => do
    let first ← asMember s
    match first.owner with
    | none => throw (.detachedMember first.decl.name)
    | some owner =>
      let others ← Answer.each asMember rest
      if others.all fun m => m.isDeclaredOn owner then
        match first.decl.kind? with
        | some kind => ctx.ownedPage owner kind.label first others
        | none => throw .notApplicable
      else throw (.mixedMembers first.displayName (ownerNames (first :: others)))

/-! ## Groups -/

/-- The visible fields, properties, methods and events of a type. -/
def listedMembers (ctx : Context) (t : TypeSymbol) : List MemberSymbol :=
  [MemberKind.field, .property, .method, .event].flatMap (t.visible ctx.settings.render)

/-- The listed members by path, in the order in which the paths come up. -/
def memberGroups (ctx : Context) (t : TypeSymbol) : Except Error (List (String × List MemberSymbol)) := do
  let located ← (ctx.listedMembers t).mapM fun m => do
    let path ← ctx.paths (.member m)
    .ok (path, m)
  .ok ((located.map Prod.fst).eraseDups.map fun path =>
    (path, (located.filter fun l => l.1 = path).map Prod.snd))

end Context

end ApiDoc
