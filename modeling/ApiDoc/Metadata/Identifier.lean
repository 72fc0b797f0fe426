import ApiDoc.Metadata.Symbol
import ApiDoc.Text.Segment

/-!
# Symbol identifiers

The identifier of a symbol is the key of its entry in a documentation source: a letter for its
kind, the key of its type, its name and the keys of its parameter types.

```text
type      T:Space.Outer.Name
method    M:Space.Type.Name``1(Space.List{System.Int32},``0@)
```

An identifier drops array ranks and pointers, and outside parameter lists also generic arguments.
Events have no letter of their own; sources tag them `E:`, which `documentationKey` adds.
`signature` leaves the owner out and is what overriding and implementing members are matched by.
-/

namespace ApiDoc

/-! ## Types -/

namespace TypeRef

mutual

/-- The key of a type. In a parameter list it spells out generic arguments and marks what is passed
by reference. -/
def key (inParameters : Bool) : TypeRef → Except Error String
  | { shape, name, space, declaring, arguments, element, rank, position, methodLevel } =>
    match shape with
    | .byRef => do
      let inner ← elementKey inParameters shape element
      .ok (if inParameters then inner ++ "@" else inner)
    | .array | .pointer => elementKey inParameters shape element
    | .parameter => .ok ((if methodLevel then "``" else "`") ++ toString position)
    | .named =>
      let self : TypeRef := ⟨shape, name, space, declaring, arguments, element, rank, position, methodLevel⟩
      if self.isGeneric && inParameters then do
        let inner ← keys true arguments
        .ok (Text.stripArity self.fullName ++ "\x7b" ++ String.intercalate "," inner ++ "\x7d")
      else .ok self.fullName
    | .other label => .error (.unsupportedShape (.ofText label))

def elementKey (inParameters : Bool) (shape : TypeShape) : Option TypeRef → Except Error String
  | some r => key inParameters r
  | none => .error (.unsupportedShape (.ofText (shape.label ++ " without element type")))

def keys (inParameters : Bool) : List TypeRef → Except Error (List String)
  | [] => .ok []
  | r :: rest => do
    let first ← key inParameters r
    let others ← keys inParameters rest
    .ok (first :: others)

end

end TypeRef

/-! ## Signatures -/

/-- What identifiers call a constructor. -/
def constructorName : String := "#ctor"

/-- The keys of parameter types in parentheses, after arguments have been put for the type
parameters of the owner. Without parameters there are no parentheses. -/
def parameterList (arguments : List TypeRef) (parameters : List Parameter) : Except Error String := do
  let keys ← parameters.mapM fun p => do
    let type ← p.type.substitute arguments
    type.key true
  .ok (if keys.isEmpty then "" else "(" ++ String.intercalate "," keys ++ ")")

def Method.arityMarker (m : Method) : String :=
  if m.typeParameters.isEmpty then "" else "``" ++ toString m.typeParameters.length

/-- The signature of a method of a type constructed with the given arguments. -/
def Method.signature (m : Method) (arguments : List TypeRef) : Except Error String := do
  let list ← parameterList arguments m.parameters
  .ok (Text.simpleName m.name ++ m.arityMarker ++ list)

def Member.signature (m : Member) (arguments : List TypeRef) : Except Error String :=
  match m with
  | .method m => m.signature arguments
  | .constructor c => do
    let list ← parameterList arguments c.parameters
    .ok (constructorName ++ list)
  | .unclassifiedCallable c => do
    let list ← parameterList arguments c.parameters
    .ok (Text.simpleName c.name ++ list)
  | _ => .error .notApplicable

/-! ## Symbols -/

def TypeSymbol.identifier (t : TypeSymbol) : Except Error String := do
  let key ← t.decl.ref.key false
  .ok ("T:" ++ key)

namespace MemberSymbol

def ownerKey (m : MemberSymbol) : Except Error String :=
  match m.owner with
  | some owner => owner.decl.ref.key false
  | none => .error (.detachedMember m.decl.name)

/-- A letter, the owner and the name. -/
def plainIdentifier (m : MemberSymbol) (letter : String) : Except Error String := do
  let owner ← m.ownerKey
  .ok (letter ++ owner ++ "." ++ m.decl.name)

def callableIdentifier (m : MemberSymbol) (name : String) (parameters : List Parameter) :
    Except Error String := do
  let owner ← m.ownerKey
  let list ← parameterList [] parameters
  .ok ("M:" ++ owner ++ "." ++ name ++ list)

def identifier (m : MemberSymbol) : Except Error String :=
  match m.decl with
  | .method d => m.callableIdentifier (d.name ++ d.arityMarker) d.parameters
  | .constructor c => m.callableIdentifier constructorName c.parameters
  | .field _ => m.plainIdentifier "F:"
  | .property _ => m.plainIdentifier "P:"
  | .event _ => m.plainIdentifier ""
  | .unclassified _ => .error (.unsupportedKind (.ofText "MemberSymbol"))
  | .unclassifiedCallable _ => .error (.unsupportedKind (.ofText "CallableSymbol"))

/-- The identifier, under the letter that sources give events. -/
def documentationKey (m : MemberSymbol) : Except Error String :=
  match m.decl with
  | .event _ => do
    let key ← m.identifier
    .ok ("E:" ++ key)
  | _ => m.identifier

end MemberSymbol

namespace Symbol

/-- A parameter has no identifier of its own. -/
def identifier : Symbol → Except Error String
  | .type t => t.identifier
  | .member m => m.identifier
  | .parameter _ => .error (.unsupportedKind (.ofCategory "PARAMETER" "Parameter"))

/-- The key by which documentation sources list a symbol. -/
def documentationKey : Symbol → Except Error String
  | .member m => m.documentationKey
  | s => s.identifier

def signature (s : Symbol) (arguments : List TypeRef) : Except Error String :=
  match s with
  | .member m => m.decl.signature arguments
  | _ => .error .notApplicable

end Symbol

def MethodSymbol.signature (m : MethodSymbol) (arguments : List TypeRef) : Except Error String :=
  m.decl.signature arguments

end ApiDoc
