import ApiDoc.Metadata.Catalog

/-!
# The hierarchy

What is worked out once for a catalog: its types by full name, its symbols by identifier, and for
each overriding method the declaration that it overrides in the end. The tables hold addresses, so
that they still serve when types gain members.
-/

namespace ApiDoc

/-! ## Lookup of types -/

namespace TypeRef

mutual

/-- The named type that is left when arrays, references and pointers are unwrapped. -/
def named? : TypeRef → Option TypeRef
  | { shape, name, space, declaring, arguments, element, rank, position, methodLevel } =>
    match shape with
    | .named => some ⟨shape, name, space, declaring, arguments, element, rank, position, methodLevel⟩
    | .array | .byRef | .pointer => namedIn? element
    | _ => none

def namedIn? : Option TypeRef → Option TypeRef
  | none => none
  | some r => named? r

end

end TypeRef

structure Hierarchy where
  /-- The types in load order by full name; of one name the first counts. -/
  types : List (String × Address) := []
  /-- The symbols in load order by their identifiers and documentation keys. -/
  symbols : List (String × Address) := []
  /-- Overriding methods and the declarations they override in the end. -/
  roots : List (Address × Address) := []
deriving Repr

namespace Hierarchy

/-- The definition of a type, in the catalog that the hierarchy was built from. -/
def findType (h : Hierarchy) (c : Catalog) (ref : TypeRef) : Option TypeSymbol := do
  let named ← ref.named?
  let address ← h.types.lookup named.fullName
  c.type? address

/-! ## Override chains -/

/-- The first method with a signature on a type constructed with the given arguments. -/
def firstWithSignature (signature : String) (arguments : List TypeRef) :
    List MethodSymbol → Except Error (Option MethodSymbol)
  | [] => .ok none
  | m :: rest => do
    let s ← m.signature arguments
    if s = signature then .ok (some m) else firstWithSignature signature arguments rest

/-- Leaves out the type at an address. -/
def without (types : List TypeSymbol) (a : Address) : List TypeSymbol :=
  types.filter fun t => t.address ≠ a

theorem length_without_lt {types : List TypeSymbol} {a : Address}
    (h : types.any (fun t => t.address = a) = true) : (without types a).length < types.length := by
  obtain ⟨t, ht, ha⟩ := List.any_eq_true.1 h
  exact List.length_filter_lt_length_iff_exists.2 ⟨t, ht, by simpa using ha⟩

/-- Follows the chain of base types from `base` and returns the furthest method met that has the
signature. The first one that overrides nothing ends the chain, and so does a type that is unknown
or not among the `unseen`. -/
def overridden (find : TypeRef → Option TypeSymbol) (signature : String) (unseen : List TypeSymbol)
    (root : MethodSymbol) (base : Option TypeRef) : Except Error MethodSymbol :=
  match base with
  | none => .ok root
  | some ref =>
    match find ref with
    | none => .ok root
    | some type =>
      if _h : unseen.any (fun t => t.address = type.address) = true then do
        let found ← firstWithSignature signature ref.arguments type.callables
        match found with
        | some m =>
          if !m.decl.isOverride then .ok m
          else do
            let next ← TypeRef.substitute? ref.arguments type.decl.base
            overridden find signature (without unseen type.address) m next
        | none => do
          let next ← TypeRef.substitute? ref.arguments type.decl.base
          overridden find signature (without unseen type.address) root next
      else .ok root
termination_by unseen.length
decreasing_by
  all_goals exact length_without_lt _h

/-- The declaration that a method overrides in the end; itself if it overrides none. -/
def overrideRootOf (find : TypeRef → Option TypeSymbol) (types : List TypeSymbol) (m : MethodSymbol) :
    Except Error MethodSymbol :=
  match m.owner with
  | none => .ok m
  | some owner => do
    let signature ← m.signature []
    overridden find signature (without types owner.address) m owner.decl.base

/-! ## Building -/

/-- The keys by which a symbol is found. -/
def keysOf (s : Symbol) : Except Error (List (String × Address)) := do
  let id ← s.identifier
  match s with
  | .member ⟨_, _, .event _⟩ => do
    let key ← s.documentationKey
    .ok [(id, s.address), (key, s.address)]
  | _ => .ok [(id, s.address)]

def build (c : Catalog) : Except Error Hierarchy := do
  let keys ← (c.types.flatMap TypeSymbol.symbols).mapM keysOf
  let tables : Hierarchy :=
    { types := c.types.map fun t => (t.decl.ref.fullName, t.address), symbols := keys.flatten }
  let overrides := (c.types.flatMap TypeSymbol.callables).filter fun m => m.decl.isOverride
  let roots ← overrides.mapM fun m => do
    let root ← overrideRootOf (tables.findType c) c.types m
    .ok (m.address, root.address)
  .ok { tables with roots }

/-- The number of types that can be found. -/
def typeCount (h : Hierarchy) : Nat := (h.types.map Prod.fst).eraseDups.length

end Hierarchy

end ApiDoc
