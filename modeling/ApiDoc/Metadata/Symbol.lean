import ApiDoc.Metadata.TypeRef

/-!
# Symbols

What can be documented: types, their members, the accessors of properties and events, and
parameters. A declaration says what a symbol is; a placed declaration also says where it stands, by
an address that tells any two symbols apart, and on which type.
-/

namespace ApiDoc

/-! ## Declarations -/

structure Parameter where
  name : String
  type : TypeRef
  isOut : Bool := false
  isIn : Bool := false
  isParams : Bool := false
  hasDefault : Bool := false
  default : Data := .null
deriving Repr

def Parameter.isByRef (p : Parameter) : Bool := p.type.shape = .byRef

/-- What every member has. -/
structure Declared where
  name : String
  modifiers : List String := ["public"]
  attributes : List String := []
deriving Repr

namespace Declared

def has (d : Declared) (modifier : String) : Bool := d.modifiers.contains modifier
def isStatic (d : Declared) : Bool := d.has "static"
def isPublic (d : Declared) : Bool := d.has "public"
def isProtected (d : Declared) : Bool := d.has "protected"
/-- Seen from outside the type. -/
def isExposed (d : Declared) : Bool := d.isPublic || d.isProtected

end Declared

/-- What can be called: a method, a constructor, or something of neither kind. -/
structure Callable extends Declared where
  parameters : List Parameter := []
  /-- The name is one that compilers give. -/
  specialName : Bool := false
deriving Repr

structure Method extends Callable where
  returnType : TypeRef := .void
  typeParameters : List TypeRef := []
deriving Repr

def Method.isOverride (m : Method) : Bool := m.has "override"

structure Field extends Declared where
  type : TypeRef
  isLiteral : Bool := false
  value : Data := .null
deriving Repr

def Field.isReadonly (f : Field) : Bool := f.has "readonly"
def Field.isConstant (f : Field) : Bool := f.isLiteral && !f.isReadonly

structure Property extends Declared where
  type : TypeRef
  getter : Option Method := none
  setter : Option Method := none
  indexParameters : List Parameter := []
deriving Repr

def Property.accessors (p : Property) : List Method := p.getter.toList ++ p.setter.toList
def Property.isIndexer (p : Property) : Bool := !p.indexParameters.isEmpty

structure Event extends Declared where
  handler : TypeRef
  adder : Option Method := none
  remover : Option Method := none
deriving Repr

def Event.accessors (e : Event) : List Method := e.adder.toList ++ e.remover.toList

/-- The closed set of kinds that members are of. -/
inductive MemberKind where
  | method | constructor | field | property | event
deriving DecidableEq, Repr

def MemberKind.label : MemberKind → String
  | .method => "Method"
  | .constructor => "Constructor"
  | .field => "Field"
  | .property => "Property"
  | .event => "Event"

inductive Member where
  | method (m : Method)
  | constructor (c : Callable)
  | field (f : Field)
  | property (p : Property)
  | event (e : Event)
  /-- A member outside the closed set of kinds. -/
  | unclassified (d : Declared)
  /-- Something callable that is neither method nor constructor. -/
  | unclassifiedCallable (c : Callable)
deriving Repr

namespace Member

def declared : Member → Declared
  | .method m => m.toDeclared
  | .constructor c => c.toDeclared
  | .field f => f.toDeclared
  | .property p => p.toDeclared
  | .event e => e.toDeclared
  | .unclassified d => d
  | .unclassifiedCallable c => c.toDeclared

def name (m : Member) : String := m.declared.name

def kind? : Member → Option MemberKind
  | .method _ => some .method
  | .constructor _ => some .constructor
  | .field _ => some .field
  | .property _ => some .property
  | .event _ => some .event
  | .unclassified _ | .unclassifiedCallable _ => none

/-- What is called, if the member is callable. -/
def callable? : Member → Option Callable
  | .method m => some m.toCallable
  | .constructor c | .unclassifiedCallable c => some c
  | _ => none

/-- The accessors of a property or an event. -/
def accessors : Member → List Method
  | .property p => p.accessors
  | .event e => e.accessors
  | _ => []

/-- The parameters of a callable, or the index parameters of a property. -/
def parameters : Member → List Parameter
  | .property p => p.indexParameters
  | m => match m.callable? with
    | some c => c.parameters
    | none => []

end Member

/-- The declared categories of types, in the order in which contents list them. -/
inductive TypeCategory where
  | classType | structType | interfaceType | enumType | delegateType
deriving DecidableEq, Repr

namespace TypeCategory

def label : TypeCategory → String
  | .classType => "Class"
  | .structType => "Struct"
  | .interfaceType => "Interface"
  | .enumType => "Enum"
  | .delegateType => "Delegate"

def keyword : TypeCategory → String
  | .classType => "class"
  | .structType => "struct"
  | .interfaceType => "interface"
  | .enumType => "enum"
  | .delegateType => "delegate"

def all : List TypeCategory := [.classType, .structType, .interfaceType, .enumType, .delegateType]

end TypeCategory

structure TypeDecl where
  ref : TypeRef
  category : TypeCategory := .classType
  base : Option TypeRef := none
  interfaces : List TypeRef := []
  modifiers : List String := ["public"]
  attributes : List String := []
  members : List Member := []
  /-- The method that calling a delegate of this type calls. -/
  invoke : Option Method := none
deriving Repr

namespace TypeDecl

def has (t : TypeDecl) (modifier : String) : Bool := t.modifiers.contains modifier
def isNested (t : TypeDecl) : Bool := t.ref.declaring.isSome
def isValueType (t : TypeDecl) : Bool := t.category = .structType || t.category = .enumType
def isStatic (t : TypeDecl) : Bool := t.has "static"

/-- The base if it says anything: neither that of a value type nor the root of all types. -/
def shownBase? (t : TypeDecl) : Option TypeRef :=
  t.base.filter fun base => !t.isValueType && !base.isObject

/-- What a declaration lists after its name: the base worth a mention, then the interfaces. -/
def inherits (t : TypeDecl) : List TypeRef := t.shownBase?.toList ++ t.interfaces

end TypeDecl

/-! ## Places -/

inductive Step where
  | member (index : Nat)
  | getter | setter | adder | remover
  | invoke
  | parameter (index : Nat)
deriving DecidableEq, Repr

inductive Root where
  /-- A type by the numbers of its unit and of itself in the unit. -/
  | declared (unit type : Nat)
  /-- A symbol outside all units. -/
  | detached (index : Nat)
deriving DecidableEq, Repr

/-- Where a symbol stands. Two symbols are the same if their addresses are. -/
structure Address where
  root : Root
  path : List Step := []
deriving DecidableEq, Repr

def Address.under (a : Address) (s : Step) : Address := { a with path := a.path ++ [s] }

/-- A type declaration in its place. -/
structure TypeSymbol where
  address : Address
  /-- The name of the unit, if the type is in one. -/
  unit : Option String
  decl : TypeDecl
deriving Repr

/-- A declaration on its type, or on none. -/
structure Placed (α : Type) where
  address : Address
  owner : Option TypeSymbol
  decl : α
deriving Repr

namespace Placed

def map {α β : Type} (f : α → β) (p : Placed α) : Placed β := ⟨p.address, p.owner, f p.decl⟩

/-- The name of the unit that the declaring type is in. -/
def unit {α : Type} (p : Placed α) : Option String := p.owner.bind TypeSymbol.unit

end Placed

abbrev MemberSymbol := Placed Member
abbrev MethodSymbol := Placed Method
abbrev PropertySymbol := Placed Property

def MethodSymbol.toMember (m : MethodSymbol) : MemberSymbol := m.map .method

def PropertySymbol.toMember (p : PropertySymbol) : MemberSymbol := p.map .property

structure ParameterSymbol where
  address : Address
  /-- The callable or indexer that takes the parameter. -/
  member : Option MemberSymbol
  decl : Parameter
deriving Repr

inductive Symbol where
  | type (t : TypeSymbol)
  | member (m : MemberSymbol)
  | parameter (p : ParameterSymbol)
deriving Repr

namespace Symbol

def address : Symbol → Address
  | .type t => t.address
  | .member m => m.address
  | .parameter p => p.address

/-- The name of the kind of a symbol, if it is of one. -/
def kindLabel? : Symbol → Option String
  | .type _ => some "Type"
  | .member m => m.decl.kind?.map MemberKind.label
  | .parameter _ => some "Parameter"

/-- The name of the unit a symbol belongs to. -/
def unit : Symbol → Option String
  | .type t => t.unit
  | .member m => m.unit
  | .parameter p => p.member.bind Placed.unit

end Symbol

/-! ## Members and accessors in place -/

namespace MemberSymbol

/-- An accessor stands under its property or event and belongs to the same type. -/
def accessor (m : MemberSymbol) (step : Step) (decl : Method) : MethodSymbol :=
  ⟨m.address.under step, m.owner, decl⟩

def accessors (m : MemberSymbol) : List MethodSymbol :=
  let at? (step : Step) (decl : Option Method) := decl.toList.map (accessor m step)
  match m.decl with
  | .property p => at? .getter p.getter ++ at? .setter p.setter
  | .event e => at? .adder e.adder ++ at? .remover e.remover
  | _ => []

def property? (m : MemberSymbol) : Option PropertySymbol :=
  match m.decl with
  | .property p => some ⟨m.address, m.owner, p⟩
  | _ => none

def method? (m : MemberSymbol) : Option MethodSymbol :=
  match m.decl with
  | .method d => some ⟨m.address, m.owner, d⟩
  | _ => none

def parameters (m : MemberSymbol) : List ParameterSymbol :=
  m.decl.parameters.zipIdx.map fun (p, i) => ⟨m.address.under (.parameter i), some m, p⟩

end MemberSymbol

namespace TypeSymbol

def members (t : TypeSymbol) : List MemberSymbol :=
  t.decl.members.zipIdx.map fun (m, i) => ⟨t.address.under (.member i), some t, m⟩

def membersOf (t : TypeSymbol) (kind : MemberKind) : List MemberSymbol :=
  t.members.filter fun m => m.decl.kind? = some kind

def properties (t : TypeSymbol) : List PropertySymbol := t.members.filterMap MemberSymbol.property?

/-- Methods and accessors, in declaration order. -/
def callables (t : TypeSymbol) : List MethodSymbol :=
  t.members.flatMap fun m => m.method?.toList ++ m.accessors

def invoke? (t : TypeSymbol) : Option MethodSymbol :=
  t.decl.invoke.map fun m => ⟨t.address.under .invoke, some t, m⟩

/-- The type and then its members. -/
def symbols (t : TypeSymbol) : List Symbol := .type t :: t.members.map .member

end TypeSymbol

end ApiDoc
