import ApiDoc.Metadata.Symbol
import ApiDoc.Text.Segment

/-!
# Names for readers

A type is named as a declaration would write it: `int` for `System.Int32`, `List<int>`, `int[,]`,
`Outer.Inner`. A member goes by its short name; `MemberSymbol.qualifiedName` puts its type before it.
-/

namespace ApiDoc

/-- The types that have a keyword of their own. -/
def typeKeywords : List (String × String) :=
  [("System.Boolean", "bool"), ("System.Byte", "byte"), ("System.SByte", "sbyte"),
   ("System.Int16", "short"), ("System.UInt16", "ushort"), ("System.Int32", "int"),
   ("System.UInt32", "uint"), ("System.Int64", "long"), ("System.UInt64", "ulong"),
   ("System.Single", "float"), ("System.Double", "double"), ("System.Decimal", "decimal"),
   ("System.Char", "char"), ("System.String", "string"), ("System.Object", "object"),
   ("System.Void", "void")]

namespace TypeRef

/-- The brackets of an array type. -/
def rankBrackets (rank : Int) : String :=
  String.ofList ('[' :: List.replicate (rank - 1).toNat ',' ++ [']'])

mutual

def displayName : TypeRef → String
  | { shape, name, space, declaring, arguments, element, rank, position, methodLevel } =>
    match shape with
    | .byRef => displayName? element
    | .pointer => displayName? element ++ "*"
    | .array => displayName? element ++ rankBrackets rank
    | .parameter => name
    | _ =>
      let self : TypeRef := ⟨shape, name, space, declaring, arguments, element, rank, position, methodLevel⟩
      match if arguments.isEmpty then typeKeywords.lookup self.fullName else none with
      | some word => word
      | none =>
        let outer := displayOuter declaring
        let own := Text.stripArity (Text.replaceChar '+' '.' name)
        let list := if arguments.isEmpty then ""
          else "<" ++ String.intercalate ", " (displayNames arguments) ++ ">"
        outer ++ own ++ list

/-- The name of an element type, empty if there is none. -/
def displayName? : Option TypeRef → String
  | none => ""
  | some r => displayName r

/-- What stands before the name of a nested type. -/
def displayOuter : Option TypeRef → String
  | none => ""
  | some r => displayName r ++ "."

def displayNames : List TypeRef → List String
  | [] => []
  | r :: rest => displayName r :: displayNames rest

end

end TypeRef

def Method.displayName (m : Method) : String :=
  if m.typeParameters.isEmpty then m.name
  else Text.stripArity m.name ++ "<"
    ++ String.intercalate ", " (m.typeParameters.map TypeRef.displayName) ++ ">"

namespace MemberSymbol

/-- The short name: with type parameters for a generic method, the type's name for a constructor. -/
def displayName (m : MemberSymbol) : String :=
  match m.decl with
  | .method d => d.displayName
  | .constructor c =>
    match m.owner with
    | some owner => Text.stripArity owner.decl.ref.name
    | none => c.name
  | .property p => if p.isIndexer then "Indexer" else p.name
  | d => d.name

/-- Whether the member is declared on a type. -/
def isDeclaredOn (m : MemberSymbol) (t : TypeSymbol) : Bool :=
  m.owner.any fun owner => owner.address = t.address

/-- The name after that of the declaring type, unless the reader is on the page of that type. -/
def qualifiedName (m : MemberSymbol) (current : Option TypeSymbol) : String :=
  match m.owner with
  | none => m.displayName
  | some owner =>
    if current.any m.isDeclaredOn then m.displayName
    else owner.decl.ref.displayName ++ "." ++ m.displayName

end MemberSymbol

def TypeSymbol.displayName (t : TypeSymbol) : String := t.decl.ref.displayName

def Symbol.displayName : Symbol → String
  | .type t => t.displayName
  | .member m => m.displayName
  | .parameter p => p.decl.name

end ApiDoc
