import ApiDoc.Answer
import ApiDoc.Documentation.Entry
import ApiDoc.Documentation.Index
import ApiDoc.Hierarchy.Build
import ApiDoc.Metadata.Location
import ApiDoc.Settings.Basic

/-!
# What questions are answered from

A context holds all that an answer depends on: the catalog and its hierarchy, what comes of each
source, the dispatch tables that have been built, and the settings. Questions only read it.
-/

namespace ApiDoc

/-- Which unit was built for which framework. -/
abbrev Frameworks := List (String × Option String)

structure Context where
  catalog : Catalog
  hierarchy : Hierarchy
  /-- What comes of the source of each registered unit. -/
  outcomes : List (String × Except Error Contents)
  dispatches : List ((Address × List TypeRef) × DispatchTable) := []
  frameworks : Frameworks := []
  settings : Settings := .usual
  /-- The path of the page of a symbol. -/
  paths : Symbol → Except Error String := fun s => .ok s.path

namespace Context

/-! ## The hierarchy -/

def findType (ctx : Context) (ref : TypeRef) : Option TypeSymbol := ctx.hierarchy.findType ctx.catalog ref

/-- The symbol with an identifier or documentation key. -/
def findSymbol (ctx : Context) (key : String) : Option Symbol :=
  (ctx.hierarchy.symbols.lookup key).bind ctx.catalog.symbol?

/-- The declaration that a method overrides in the end; itself if it overrides none. -/
def overrideRoot (ctx : Context) (m : MethodSymbol) : MethodSymbol :=
  ((ctx.hierarchy.roots.lookup m.address).bind ctx.catalog.method?).getD m

/-! ## Documentation entries -/

/-- The contents of the index of a unit, if there is such an index. -/
def contents (ctx : Context) (unit : Option String) : Answer (Option (String × Contents)) :=
  match unit with
  | none => pure none
  | some unit =>
    match ctx.outcomes.lookup unit with
    | none => pure none
    | some outcome => do
      Answer.record (.consulted unit)
      let c ← Answer.ofExcept outcome
      pure (some (unit, c))

/-- Whether a unit has an index, whatever is in it. -/
def hasIndex (ctx : Context) (unit : Option String) : Bool :=
  unit.any fun unit => (ctx.outcomes.lookup unit).isSome

/-- Whether the source of a unit was found and could be read. -/
def isIndexed (ctx : Context) (unit : Option String) : Answer Bool := do
  let found ← ctx.contents unit
  pure (found.any fun (_, c) => c.isReady)

/-- The entry of a type or member in its own unit. With `strict`, a malformed source is an error. -/
def lookUp (ctx : Context) (strict : Bool) (s : Symbol) : Answer (Option Xml.Node) := do
  if ctx.hasIndex s.unit then
    let key ← Answer.ofExcept s.documentationKey
    match ← ctx.contents s.unit with
    | none => pure none
    | some (unit, c) =>
      let c ← Answer.ofExcept (Index.demand strict unit c)
      pure (c.find? key)
  else pure none

/-- The entry of a symbol; that of a parameter is within the entry of its member. -/
def entryWith (ctx : Context) (strict : Bool) (s : Symbol) : Answer (Option Xml.Node) :=
  match s with
  | .parameter p =>
    match p.member with
    | none => pure none
    | some m => do
      let entry ← ctx.lookUp strict (.member m)
      pure (Entry.parameter? entry p.decl.name)
  | s => ctx.lookUp strict s

/-- The entry of a symbol on its own account. -/
def entry (ctx : Context) (s : Symbol) : Answer (Option Xml.Node) :=
  ctx.entryWith ctx.settings.documentation.failOnMalformed s

/-- The entry of a symbol on account of another unit, for which a malformed source is no source. -/
def foreignEntry (ctx : Context) (s : Symbol) : Answer (Option Xml.Node) := ctx.entryWith false s

/-- The first entry of a key, over all units. -/
def entryByKey (ctx : Context) (key : String) : Answer (Option Xml.Node) :=
  search ctx.outcomes
where
  search : List (String × Except Error Contents) → Answer (Option Xml.Node)
    | [] => pure none
    | (unit, _) :: rest => do
      match ← ctx.contents (some unit) with
      | some (_, c) =>
        match c.find? key with
        | some n => pure (some n)
        | none => search rest
      | none => search rest

end Context

end ApiDoc
