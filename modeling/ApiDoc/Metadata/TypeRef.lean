import ApiDoc.Error
import ApiDoc.Text.Range

/-!
# Type references

A reference to a type as it stands in a signature. A generic type keeps its arity marker in its
name and lists its arguments if they are given; a nested type points at the type that declares it.
`substitute` puts arguments for the type parameters of a definition.
-/

namespace ApiDoc

inductive TypeShape where
  | named
  | array
  | byRef
  | pointer
  | parameter
  /-- A shape that has no meaning here, under the name it came with. -/
  | other (label : String)
deriving DecidableEq, Repr, Inhabited

def TypeShape.label : TypeShape → String
  | .named => "named"
  | .array => "array"
  | .byRef => "by_ref"
  | .pointer => "pointer"
  | .parameter => "generic_parameter"
  | .other label => label

structure TypeRef where
  shape : TypeShape
  name : String := ""
  space : String := ""
  declaring : Option TypeRef := none
  arguments : List TypeRef := []
  /-- What an array, by-reference or pointer type is made of. -/
  element : Option TypeRef := none
  rank : Int := 1
  /-- The place of a type parameter among those of its type or method. -/
  position : Int := 0
  methodLevel : Bool := false
deriving Repr, Inhabited

namespace TypeRef

/-! ## Building references -/

/-- A named type. A nested type lies in the namespace of the type around it. -/
def named (space name : String) (arguments : List TypeRef) (declaring : Option TypeRef) : TypeRef :=
  { shape := .named, name, arguments, declaring
    space := match declaring with
      | some outer => outer.space
      | none => space }

def arrayOf (element : TypeRef) (rank : Int) : TypeRef := { shape := .array, element := some element, rank }

def refTo (element : TypeRef) : TypeRef := { shape := .byRef, element := some element }

def pointerTo (element : TypeRef) : TypeRef := { shape := .pointer, element := some element }

/-- The same named type with other arguments. -/
def construct (r : TypeRef) (arguments : List TypeRef) : TypeRef :=
  { shape := .named, name := r.name, space := r.space, declaring := r.declaring, arguments }

def system (name : String) : TypeRef := { shape := .named, name, space := "System" }

def void : TypeRef := system "Void"

/-! ## Classification -/

def isGeneric (r : TypeRef) : Bool := r.shape = .named && !r.arguments.isEmpty

def isParameter (r : TypeRef) : Bool := r.shape = .parameter

def hasElement (r : TypeRef) : Bool := r.shape = .array || r.shape = .byRef || r.shape = .pointer

/-! ## Names -/

mutual

/-- The dotted name without arguments. What is not named goes by its element. -/
def fullName : TypeRef → String
  | { shape, name, space, declaring, element, .. } =>
    match shape with
    | .named =>
      let own := Text.replaceChar '+' '.' name
      match fullName? declaring with
      | some outer => outer ++ "." ++ own
      | none => if space.isEmpty then own else space ++ "." ++ own
    | _ => (fullName? element).getD name

def fullName? : Option TypeRef → Option String
  | none => none
  | some r => some (fullName r)

end

/-! ## Substitution -/

/-- The argument at a position; a negative position counts from the end. -/
def argumentAt (arguments : List TypeRef) (position : Int) : Except Error TypeRef :=
  let index := if position < 0 then position + arguments.length else position
  if index < 0 then .error .positionOutOfRange
  else match arguments[index.toNat]? with
    | some argument => .ok argument
    | none => .error .positionOutOfRange

mutual

/-- Puts the arguments for the type parameters they reach. Method parameters stay, and so does the
declaring type. -/
def substitute (arguments : List TypeRef) : TypeRef → Except Error TypeRef
  | { shape, name, space, declaring, arguments := own, element, rank, position, methodLevel } =>
    let self : TypeRef := ⟨shape, name, space, declaring, own, element, rank, position, methodLevel⟩
    if arguments.isEmpty then .ok self
    else match shape with
    | .parameter =>
      if !methodLevel && position < arguments.length then argumentAt arguments position
      else .ok self
    | .named => do
      let own' ← substituteAll arguments own
      .ok { self with arguments := own' }
    | _ => do
      let element' ← substitute? arguments element
      .ok { self with element := element' }

def substituteAll (arguments : List TypeRef) : List TypeRef → Except Error (List TypeRef)
  | [] => .ok []
  | r :: rest => do
    let r' ← substitute arguments r
    let rest' ← substituteAll arguments rest
    .ok (r' :: rest')

def substitute? (arguments : List TypeRef) : Option TypeRef → Except Error (Option TypeRef)
  | none => .ok none
  | some r => do
    let r' ← substitute arguments r
    .ok (some r')

end

/-! ## Equality -/

mutual

/-- Equality in every field. -/
def same : TypeRef → TypeRef → Bool
  | ⟨shape, name, space, declaring, arguments, element, rank, position, methodLevel⟩,
    ⟨shape', name', space', declaring', arguments', element', rank', position', methodLevel'⟩ =>
    shape == shape' && name == name' && space == space' && rank == rank' && position == position'
      && methodLevel == methodLevel' && same? declaring declaring' && sameAll arguments arguments'
      && same? element element'

def sameAll : List TypeRef → List TypeRef → Bool
  | [], [] => true
  | r :: rest, r' :: rest' => same r r' && sameAll rest rest'
  | _, _ => false

def same? : Option TypeRef → Option TypeRef → Bool
  | none, none => true
  | some r, some r' => same r r'
  | _, _ => false

end

/-- Whether the type is the root of all types, which is not worth a mention as a base. -/
def isObject (r : TypeRef) : Bool := r.fullName == "System.Object"

end TypeRef

end ApiDoc
