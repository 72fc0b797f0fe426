import ApiDoc.Metadata.Identifier
import ApiDoc.Documentation.Source

/-!
# Catalogs

The metadata that is loaded: units with their types, in load order, and symbols outside all units.
Every symbol can be looked up by its address.
-/

namespace ApiDoc

/-- A compiled unit: what it declares, and where its documentation is. -/
structure MetadataUnit where
  name : String
  types : List TypeDecl := []
  framework : Option String := none
  references : List String := []
  documentation : Source := .absent
deriving Repr

/-- A unit with its number in the catalog. -/
structure UnitSymbol where
  number : Nat
  decl : MetadataUnit
deriving Repr

namespace UnitSymbol

def name (u : UnitSymbol) : String := u.decl.name

/-- The types of the unit in their places. -/
def types (u : UnitSymbol) : List TypeSymbol :=
  u.decl.types.zipIdx.map fun (t, i) => ⟨{ root := .declared u.number i }, some u.name, t⟩

/-- Every type and member, a type before its members. -/
def symbols (u : UnitSymbol) : List Symbol := u.types.flatMap TypeSymbol.symbols

end UnitSymbol

/-- A declaration outside all units. -/
inductive Detached where
  | type (t : TypeDecl)
  | member (m : Member)
  | parameter (p : Parameter)
deriving Repr

/-- A detached declaration as a symbol. -/
def Detached.toSymbol (d : Detached) (index : Nat) : Symbol :=
  let address : Address := { root := .detached index }
  match d with
  | .type t => .type ⟨address, none, t⟩
  | .member m => .member ⟨address, none, m⟩
  | .parameter p => .parameter ⟨address, none, p⟩

structure Catalog where
  units : List MetadataUnit := []
  detached : List Detached := []
deriving Repr

namespace Catalog

def unitSymbols (c : Catalog) : List UnitSymbol := c.units.zipIdx.map fun (u, i) => ⟨i, u⟩

/-- The first unit of a name. -/
def unit? (c : Catalog) (name : String) : Option UnitSymbol := c.unitSymbols.find? (·.name = name)

/-- The types of all units in load order. -/
def types (c : Catalog) : List TypeSymbol := c.unitSymbols.flatMap UnitSymbol.types

/-! ## Addresses -/

/-- The symbol at a root. -/
def rootSymbol? (c : Catalog) (root : Root) : Option Symbol :=
  match root with
  | .declared u t => do
    let unit ← c.unitSymbols[u]?
    let type ← unit.types[t]?
    some (.type type)
  | .detached i => do
    let d ← c.detached[i]?
    some (d.toSymbol i)

end Catalog

/-- The symbol one step below another. -/
def Symbol.below? (s : Symbol) (step : Step) : Option Symbol :=
  match s, step with
  | .type t, .member i => t.members[i]?.map .member
  | .type t, .invoke => t.invoke?.map fun m => .member m.toMember
  | .member m, .parameter i => m.parameters[i]?.map .parameter
  | .member m, step =>
    (m.accessors.find? fun a => a.address = m.address.under step).map fun a => .member a.toMember
  | _, _ => none

namespace Catalog

def symbol? (c : Catalog) (a : Address) : Option Symbol :=
  a.path.foldl (fun s step => s.bind (·.below? step)) (c.rootSymbol? a.root)

def type? (c : Catalog) (a : Address) : Option TypeSymbol :=
  match c.symbol? a with
  | some (.type t) => some t
  | _ => none

def method? (c : Catalog) (a : Address) : Option MethodSymbol :=
  match c.symbol? a with
  | some (.member m) => m.method?
  | _ => none

/-! ## Growth -/

def addUnit (c : Catalog) (u : MetadataUnit) : Catalog := { c with units := c.units ++ [u] }

/-- Adds types to a unit. -/
def addTypes (c : Catalog) (number : Nat) (types : List TypeDecl) : Catalog :=
  { c with units := c.units.modify number fun u => { u with types := u.types ++ types } }

/-- Adds members to the type at a root. -/
def addMembers (c : Catalog) (root : Root) (members : List Member) : Catalog :=
  let extend (t : TypeDecl) : TypeDecl := { t with members := t.members ++ members }
  match root with
  | .declared u i =>
    { c with units := c.units.modify u fun unit => { unit with types := unit.types.modify i extend } }
  | .detached i =>
    { c with detached := c.detached.modify i fun d =>
        match d with
        | .type t => .type (extend t)
        | d => d }

end Catalog

end ApiDoc
