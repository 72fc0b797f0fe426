import ApiDoc.Page.Type

/-!
# Pages of units

The contents page of a unit lists its visible types by namespace and category. `unitPages` are all
pages of a unit, each with the path it is to be found at.
-/

namespace ApiDoc

open Document (Node Page)

namespace TypeSymbol

/-- The key that sorts the types of a table: a type stands with those that share its base. -/
def sortKey (t : TypeSymbol) : String :=
  match t.decl.shownBase? with
  | some base => base.displayName ++ "_" ++ t.displayName
  | none => t.displayName

end TypeSymbol

def sortTypes (types : List TypeSymbol) : List TypeSymbol := types.mergeSort fun a b => a.sortKey ≤ b.sortKey

namespace Renderer

def typeRow (r : Renderer) (t : TypeSymbol) : Answer (List (List Node)) := do
  let name ← r.typeCell t.decl.ref
  let summary ← r.summaryText (.type t)
  pure (row [name, .text summary])

/-- The types of a category in a table, if there are any. -/
def categoryTable (r : Renderer) (types : List TypeSymbol) (category : TypeCategory) : Answer (List Node) :=
  let listed := types.filter fun t => t.decl.category = category
  if listed.isEmpty then pure []
  else do
    let rows ← Answer.each r.typeRow (sortTypes listed)
    pure [heading 3 category.label, .table ["Name", "Summary"] rows]

/-- The types of a namespace by category. -/
def namespaceTables (r : Renderer) (types : List TypeSymbol) (space : String) : Answer (List Node) := do
  let listed := types.filter fun t => t.decl.ref.space = space
  let tables ← Answer.concatEach (r.categoryTable listed) TypeCategory.all
  pure (heading 2 space :: tables)

/-- The namespaces of types, each once and in ascending order. -/
def namespaces (types : List TypeSymbol) : List String :=
  ((types.map fun t => t.decl.ref.space).eraseDups).mergeSort (· ≤ ·)

/-- The units that a unit refers to, if there are any. -/
def references (u : MetadataUnit) : List Node :=
  if u.references.isEmpty then []
  else [heading 2 "Assembly Dependencies", .bullets (u.references.map ([.text ·]))]

end Renderer

namespace Context

/-- The context once the framework of a unit has been taken down. -/
def withFramework (ctx : Context) (u : MetadataUnit) : Context :=
  { ctx with frameworks := (u.name, u.framework) :: ctx.frameworks }

def unitPage (ctx : Context) (u : UnitSymbol) : Answer Page :=
  let r : Renderer := { ctx with }
  Answer.page u.name do
    let header ← Renderer.unitHeader u.name u.decl.framework
    let types := u.visibleTypes
    let tables ← Answer.concatEach (r.namespaceTables types) (Renderer.namespaces types)
    pure (header ++ Renderer.references u.decl ++ tables)

/-- The pages of a type and of its members. The values of an enumeration have none, and neither have
the members of a delegate. -/
def typePages (ctx : Context) (t : TypeSymbol) : Answer (List (String × Page)) := do
  let path ← Answer.ofExcept (ctx.paths (.type t))
  let page ← ctx.typePage t
  if t.decl.category = .enumType || t.decl.category = .delegateType then pure [(path, page)]
  else
    let groups ← Answer.ofExcept (ctx.memberGroups t)
    let members ← Answer.each (fun (path, group) => do
      let page ← ctx.memberPage (group.map .member)
      pure (path, page)) groups
    pure ((path, page) :: members)

/-- Every page of a unit with its path. -/
def unitPages (ctx : Context) (u : UnitSymbol) : Answer (List (String × Page)) := do
  let ctx := ctx.withFramework u.decl
  let contents ← ctx.unitPage u
  let pages ← Answer.concatEach ctx.typePages u.visibleTypes
  Answer.log .debug "unit_documents_built" [("unit", .text u.name)]
  pure ((unitPath u.name, contents) :: pages)

end Context

end ApiDoc
