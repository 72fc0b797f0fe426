import ApiDoc.Context

/-!
# Interfaces

Which interfaces a type has, with those of its bases and of the interfaces themselves, and which of
their members a method implements.
-/

namespace ApiDoc

namespace Context

/-- The interfaces of a list that are not known by their keys yet, with the keys then known. -/
def newInterfaces (known : List String) : List TypeRef → Except Error (List TypeRef × List String)
  | [] => .ok ([], known)
  | ref :: rest => do
    let key ← ref.key true
    if known.contains key then newInterfaces known rest
    else do
      let (more, known) ← newInterfaces (known ++ [key]) rest
      .ok (ref :: more, known)

/-- Works off the pending types, first come first served: each that is unseen adds its interfaces,
and then its interfaces' and its base's definitions are pending. -/
def gatherInterfaces (ctx : Context) (unseen : List TypeSymbol) (known : List String) :
    List TypeSymbol → Except Error (List TypeRef)
  | [] => .ok []
  | t :: pending =>
    if _h : unseen.any (fun u => u.address = t.address) = true then do
      let (found, known) ← newInterfaces known t.decl.interfaces
      let next := found.filterMap ctx.findType ++ (t.decl.base.bind ctx.findType).toList
      let more ← gatherInterfaces ctx (Hierarchy.without unseen t.address) known (pending ++ next)
      .ok (found ++ more)
    else gatherInterfaces ctx unseen known pending
termination_by pending => (unseen.length, pending.length)
decreasing_by
  · exact Prod.Lex.left _ _ (Hierarchy.length_without_lt _h)
  · exact Prod.Lex.right _ (Nat.lt_succ_self _)

/-- Every interface of a type, in the order in which they are met; of one key the first. -/
def allInterfaces (ctx : Context) (t : TypeSymbol) : Except Error (List TypeRef) :=
  ctx.gatherInterfaces (t :: Hierarchy.without ctx.catalog.types t.address) [] [t]

/-! ## Dispatch -/

def dispatchEntries (arguments : List TypeRef) : List MethodSymbol → Except Error DispatchTable
  | [] => .ok []
  | m :: rest => do
    let signature ← m.signature arguments
    let more ← dispatchEntries arguments rest
    .ok ((signature, m.address) :: more)

/-- The table of an interface that has been built for some arguments. -/
def builtDispatch? (ctx : Context) (interface : Address) (arguments : List TypeRef) : Option DispatchTable :=
  (ctx.dispatches.find? fun e => e.1.1 = interface && TypeRef.sameAll e.1.2 arguments).map Prod.snd

/-- The methods of an interface by signature. A table that has been built stays as it is. -/
def dispatch (ctx : Context) (ref : TypeRef) : Answer DispatchTable :=
  match ctx.findType ref with
  | none => pure []
  | some interface =>
    match ctx.builtDispatch? interface.address ref.arguments with
    | some table => pure table
    | none => do
      let table ← Answer.ofExcept (dispatchEntries ref.arguments interface.callables)
      Answer.record (.dispatched interface.address ref.arguments table)
      pure table

/-- The methods of the given interfaces that have a signature, other than the one at `self`. -/
def implementedBy (ctx : Context) (self : Address) (signature : String) :
    List TypeRef → Answer (List MethodSymbol)
  | [] => pure []
  | ref :: rest => do
    let table ← ctx.dispatch ref
    let candidate := (table.lookup signature).bind ctx.catalog.method?
    let more ← implementedBy ctx self signature rest
    pure ((candidate.filter fun m => m.address ≠ self).toList ++ more)

/-- The interface members that a member implements, in the order of the interfaces. -/
def interfaceMethods (ctx : Context) (m : MemberSymbol) : Answer (List MethodSymbol) :=
  match m.owner with
  | none => pure []
  | some owner => do
    let signature ← Answer.ofExcept (m.decl.signature [])
    let interfaces ← Answer.ofExcept (ctx.allInterfaces owner)
    ctx.implementedBy m.address signature interfaces

end Context

/-! ## Properties -/

/-- The first property of a simple name. -/
def TypeSymbol.property? (t : TypeSymbol) (name : String) : Option PropertySymbol :=
  t.properties.find? fun p => Text.simpleName p.decl.name = Text.simpleName name

/-- The property that an accessor belongs to. -/
def MethodSymbol.property? (m : MethodSymbol) : Option PropertySymbol :=
  m.owner.bind fun owner =>
    owner.properties.find? fun p => p.toMember.accessors.any fun a => a.address = m.address

end ApiDoc
