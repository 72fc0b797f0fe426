import ApiDoc.Page.Unit

/-!
# Sessions

A session answers one question after another about a growing catalog. Between questions it keeps what
earlier answers left in their journals: which indices have been settled, which dispatch tables have
been built, and the frameworks of the units whose pages were written. The hierarchy is that of the
catalog as it was when the session was created or refreshed.
-/

namespace ApiDoc

structure Session where
  catalog : Catalog
  hierarchy : Hierarchy
  /-- One index for each unit name, in the order of registration. -/
  registry : List Index
  dispatches : List ((Address × List TypeRef) × DispatchTable) := []
  frameworks : Frameworks := []
  settings : Settings
  paths : Symbol → Except Error String

/-- What a question came to: a result, the session after it, the links it left and the log. -/
structure Reply (α : Type) where
  result : Except Error α
  session : Session
  links : Document.LinkTable := .empty
  log : List Log.Record := []

namespace Session

/-! ## Registration -/

/-- Adds the index of a unit, unless its name is taken. -/
def registered (registry : List Index) (u : MetadataUnit) : List Index :=
  if registry.any fun i => i.unit = u.name then registry
  else registry ++ [Index.ofSource u.name u.documentation]

/-- The number of fetches that the index of a unit has counted. -/
def fetchesOf (registry : List Index) (unit : String) : Nat :=
  ((registry.find? fun i => i.unit = unit).map Index.fetches).getD 0

/-- Empty indices for the units of a catalog, which go on counting fetches. -/
def freshRegistry (c : Catalog) (old : List Index) : List Index :=
  (c.units.foldl registered []).map fun i => { i with fetches := fetchesOf old i.unit }

/-! ## Creation -/

/-- What building a hierarchy leaves in the log. -/
def hierarchyReport (c : Catalog) (h : Hierarchy) : Log.Record :=
  { level := .debug, event := "hierarchy_built"
    fields := [("units", .int c.units.length), ("types", .int h.typeCount), ("overrides", .int h.roots.length)] }

def createdReport (c : Catalog) : Log.Record :=
  { level := .debug, event := "context_created"
    fields := [("units", .list (c.units.map fun u => .text u.name))] }

/-- A session over a catalog, with what creating it leaves in the log. -/
def create (c : Catalog) (settings : Settings) (paths : Symbol → Except Error String) (old : List Index) :
    Except Error (Session × List Log.Record) := do
  let hierarchy ← Hierarchy.build c
  .ok ({ catalog := c, hierarchy, registry := freshRegistry c old, settings, paths
         frameworks := (c.units.map fun u => (u.name, u.framework)).reverse },
    [hierarchyReport c hierarchy, createdReport c])

/-- Starts anew from the catalog as it is now. If that fails the session stays as it was. -/
def refresh (s : Session) : Reply Unit :=
  match create s.catalog s.settings s.paths s.registry with
  | .ok (fresh, log) => { result := .ok (), session := fresh, log }
  | .error e => { result := .error e, session := s }

/-! ## Questions -/

/-- What answers are given from. -/
def context (s : Session) : Context :=
  { catalog := s.catalog, hierarchy := s.hierarchy
    outcomes := s.registry.map fun i => (i.unit, i.settle.1)
    dispatches := s.dispatches, frameworks := s.frameworks, settings := s.settings, paths := s.paths }

/-- Settles the index of a unit. -/
def settleUnit (unit : String) : List Index → List Index × List Log.Record
  | [] => ([], [])
  | i :: rest =>
    if i.unit = unit then
      let (_, i, log) := i.settle
      (i :: rest, log)
    else
      let (rest, log) := settleUnit unit rest
      (i :: rest, log)

/-- Takes over one entry of a journal; the second part is the log so far. -/
def absorb (state : Session × List Log.Record) (e : JournalEntry) : Session × List Log.Record :=
  let (s, log) := state
  match e with
  | .logged r => (s, log ++ [r])
  | .consulted unit =>
    let (registry, more) := settleUnit unit s.registry
    ({ s with registry }, log ++ more)
  | .dispatched interface arguments table =>
    if (s.context.builtDispatch? interface arguments).isSome then (s, log)
    else ({ s with dispatches := s.dispatches ++ [((interface, arguments), table)] }, log)

/-- Asks a question with some links already made. -/
def askWith {α : Type} (s : Session) (links : Document.LinkTable) (question : Context → Answer α) : Reply α :=
  let (result, journal) := (question s.context).result { links }
  let (session, log) := journal.entries.reverse.foldl absorb (s, [])
  { result, session, links := journal.links, log }

def ask {α : Type} (s : Session) (question : Context → Answer α) : Reply α := s.askWith .empty question

/-! ## Questions that are remembered -/

def withFramework (s : Session) (u : UnitSymbol) : Session :=
  { s with frameworks := (u.name, u.decl.framework) :: s.frameworks }

/-- The contents page of a unit, whose framework is taken down. -/
def unitPage (s : Session) (u : UnitSymbol) : Reply Document.Page :=
  (s.withFramework u).ask fun ctx => ctx.unitPage u

/-- All pages of a unit, whose framework is taken down. -/
def unitPages (s : Session) (u : UnitSymbol) : Reply (List (String × Document.Page)) :=
  (s.withFramework u).ask fun ctx => ctx.unitPages u

/-- Asks the index of a unit itself, if there is one. -/
def askIndex {α : Type} (s : Session) (unit : String)
    (question : Index → Except Error α × Index × List Log.Record) : Reply (Option α) :=
  match s.registry.find? fun i => i.unit = unit with
  | none => { result := .ok none, session := s }
  | some i =>
    let (result, i, log) := question i
    let registry := s.registry.map fun j => if j.unit = unit then i else j
    { result := result.map some, session := { s with registry }, log }

/-! ## Growth -/

/-- Registers a unit, which the hierarchy does not know until the session is refreshed. The result
is whether its name was taken. -/
def register (s : Session) (u : MetadataUnit) : Reply Bool :=
  { result := .ok (s.registry.any fun i => i.unit = u.name)
    session := { s with catalog := s.catalog.addUnit u, registry := registered s.registry u } }

def addTypes (s : Session) (number : Nat) (types : List TypeDecl) : Session :=
  { s with catalog := s.catalog.addTypes number types }

def addMembers (s : Session) (root : Root) (members : List Member) : Session :=
  { s with catalog := s.catalog.addMembers root members }

end Session

end ApiDoc
