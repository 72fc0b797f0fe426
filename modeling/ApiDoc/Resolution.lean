import ApiDoc.Hierarchy.Interfaces

/-!
# Inherited documentation

An entry that defers stands for the entry of what the symbol overrides or implements: the furthest
overridden declaration, or else the interface members in their order. Candidates that defer in turn
contribute their own candidates, depth first. A key is entered once; a candidate whose key is on the
way that led to it closes a cycle. Nothing documented is no error.
-/

namespace ApiDoc

namespace Context

/-! ## Candidates -/

/-- What a method inherits its documentation from. -/
def methodSources (ctx : Context) (m : MethodSymbol) : Answer (List MethodSymbol) :=
  let root := ctx.overrideRoot m
  if root.address = m.address then ctx.interfaceMethods m.toMember else pure [root]

/-- The property of a name on the type that declares a method, or else the one the method serves. -/
def sourceProperty? (name : String) (source : MethodSymbol) : Option PropertySymbol :=
  (source.owner.bind (·.property? name)).orElse fun _ => source.property?

/-- What a property inherits its documentation from: the properties of what its accessor overrides
or implements. -/
def propertySources (ctx : Context) (p : PropertySymbol) : Answer (List PropertySymbol) :=
  match p.toMember.accessors with
  | [] => pure []
  | accessor :: _ => do
    let sources ← ctx.methodSources accessor
    let properties := sources.filterMap (sourceProperty? p.decl.name)
    pure (properties.filter fun q => q.address ≠ p.address)

/-- Only methods and properties inherit documentation. -/
def candidates (ctx : Context) (m : MemberSymbol) : Answer (List MemberSymbol) :=
  match m.decl with
  | .method d => do
    let sources ← ctx.methodSources ⟨m.address, m.owner, d⟩
    pure (sources.map MethodSymbol.toMember)
  | .property p => do
    let sources ← ctx.propertySources ⟨m.address, m.owner, p⟩
    pure (sources.map PropertySymbol.toMember)
  | _ => pure []

/-! ## Search -/

/-- The documentation keys of all members and accessors. -/
def memberKeys (ctx : Context) : List String :=
  let members := ctx.catalog.types.flatMap TypeSymbol.members
  let all := members ++ members.flatMap fun m => m.accessors.map MethodSymbol.toMember
  all.filterMap fun m => m.documentationKey.toOption

/-- The keys that are left once one has been entered. -/
def entering (fresh : List String) (key : String) : List String := fresh.filter (· ≠ key)

theorem length_entering_lt {fresh : List String} {key : String} (h : key ∈ fresh) :
    (entering fresh key).length < fresh.length :=
  List.length_filter_lt_length_iff_exists.2 ⟨key, h, by simp⟩

/-- How a search ended. -/
inductive Ending where
  | found (node : Xml.Node) (key : String)
  /-- Without an entry; `cyclic` if a candidate was met on the way that led to it. -/
  | exhausted (cyclic : Bool)

/-- Searches the pending candidates, each with the keys on the way to it. `fresh` holds the keys that
have not been entered. -/
def search (ctx : Context) (marker : String) (fresh : List String) (cyclic : Bool) :
    List (MemberSymbol × List String) → Answer Ending
  | [] => pure (.exhausted cyclic)
  | (candidate, way) :: pending => do
    let key ← Answer.ofExcept candidate.documentationKey
    if way.contains key then search ctx marker fresh true pending
    else if _h : key ∈ fresh then
      let entry ← ctx.foreignEntry (.member candidate)
      match entry with
      | some node =>
        if Entry.isDeferred entry marker then
          let next ← ctx.candidates candidate
          search ctx marker (entering fresh key) cyclic (next.map (·, way ++ [key]) ++ pending)
        else pure (.found node key)
      | none =>
        let next ← ctx.candidates candidate
        search ctx marker (entering fresh key) cyclic (next.map (·, way ++ [key]) ++ pending)
    else search ctx marker fresh cyclic pending
termination_by pending => (fresh.length, pending.length)
decreasing_by
  · exact Prod.Lex.right _ (Nat.lt_succ_self _)
  · exact Prod.Lex.left _ _ (length_entering_lt _h)
  · exact Prod.Lex.left _ _ (length_entering_lt _h)
  · exact Prod.Lex.right _ (Nat.lt_succ_self _)

/-! ## Resolution -/

/-- The entry that a deferring method or property inherits. -/
def inherited (ctx : Context) (m : MemberSymbol) (key : String) : Answer (Option Xml.Node) := do
  let marker := ctx.settings.documentation.deferTag
  let next ← ctx.candidates m
  match ← ctx.search marker (entering ctx.memberKeys key) false (next.map (·, [key])) with
  | .found node source => do
    Answer.log .debug "inheritdoc_resolved" [("key", .text key), ("source", .text source)]
    pure (some node)
  | .exhausted cyclic => do
    Answer.log .warning (if cyclic then "inheritdoc_cycle" else "inheritdoc_unresolved") [("key", .text key)]
    pure none

/-- The entry of a type or member, or the one it defers to. -/
def resolveDirect (ctx : Context) (s : Symbol) : Answer (Option Xml.Node) := do
  let entry ← ctx.entry s
  if !Entry.isDeferred entry ctx.settings.documentation.deferTag then pure entry
  else
    let key ← Answer.ofExcept s.documentationKey
    let keep : Answer (Option Xml.Node) := do
      Answer.log .warning "inheritdoc_unsupported_kind"
        [("key", .text key), ("kind", s.kindLabel?.elim .null .text)]
      pure entry
    match s with
    | .member m =>
      match m.decl with
      | .method _ | .property _ => ctx.inherited m key
      | _ => keep
    | _ => keep

/-- The entry that documents a symbol in effect. -/
def resolve (ctx : Context) (s : Symbol) : Answer (Option Xml.Node) :=
  match s with
  | .parameter p =>
    match p.member with
    | none => pure none
    | some m => do
      let entry ← ctx.resolveDirect (.member m)
      pure (Entry.parameter? entry p.decl.name)
  | s => ctx.resolveDirect s

end Context

end ApiDoc
