import ApiDoc.Metadata.Catalog
import ApiDoc.Metadata.DisplayName
import ApiDoc.Settings.Basic

/-!
# What pages show

Types and members that can be seen from outside, apart from methods whose names are ignored and from
methods that compilers name. A property goes by its getter, and one that can only be written is not
shown; an event goes by its adder.
-/

namespace ApiDoc

def TypeDecl.isVisible (t : TypeDecl) : Bool := t.has "public" || (t.isNested && t.has "protected")

/-- Whether a callable can be seen and is not one of the ignored methods. -/
def Callable.isVisible (settings : RenderSettings) (c : Callable) : Bool :=
  c.isExposed && !settings.ignoredMethods.contains c.name

namespace Member

def isVisible (settings : RenderSettings) : Member → Bool
  | .method m => m.toCallable.isVisible settings && !m.specialName
  | .constructor c => c.isVisible settings && !c.specialName
  | .property p =>
    match p.getter with
    | some getter => getter.toCallable.isVisible settings
    | none => p.setter.isNone && p.isExposed
  | .event e =>
    match e.adder with
    | some adder => adder.toCallable.isVisible settings
    | none => e.isExposed
  | m => m.declared.isExposed

/-- Whether the member belongs to its type as such. A property or event does if an accessor does. -/
def isStatic (m : Member) : Bool :=
  if m.accessors.isEmpty then m.declared.isStatic else m.accessors.any (·.isStatic)

def isConstant : Member → Bool
  | .field f => f.isConstant
  | _ => false

end Member

def sortByName (members : List MemberSymbol) : List MemberSymbol :=
  members.mergeSort fun a b => a.displayName ≤ b.displayName

/-- The visible members of a kind by their names. -/
def TypeSymbol.visible (t : TypeSymbol) (settings : RenderSettings) (kind : MemberKind) : List MemberSymbol :=
  sortByName ((t.membersOf kind).filter fun m => m.decl.isVisible settings)

def UnitSymbol.visibleTypes (u : UnitSymbol) : List TypeSymbol := u.types.filter fun t => t.decl.isVisible

end ApiDoc
