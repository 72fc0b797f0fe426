import ApiDoc.Metadata.DisplayName
import ApiDoc.Data.Display
import ApiDoc.Text.Blank

/-!
# Declarations on one line

The line that declares a symbol: `public virtual string Speak(int times = 1)`. Only what can be seen
from outside is listed; a property or an event takes its modifiers from its accessors.
-/

namespace ApiDoc

def spaced (words : List String) : String := String.intercalate " " words

/-- The first of `public` and `protected` that applies. -/
def visibility (modifiers : List String) : List String :=
  if modifiers.contains "public" then ["public"]
  else if modifiers.contains "protected" then ["protected"]
  else []

/-- A value as a declaration writes it. -/
def literal : Data → String
  | .scalar .null => "null"
  | .scalar (.bool true) => "true"
  | .scalar (.bool false) => "false"
  | .scalar (.text s) => "\"" ++ s ++ "\""
  | d => d.display

/-! ## Parameters -/

namespace Parameter

/-- How the argument is passed. -/
def passing (p : Parameter) : String :=
  let direction :=
    if !p.isByRef then ""
    else if p.isOut then "out "
    else if p.isIn then "in "
    else "ref "
  direction ++ if p.isParams then "params " else ""

/-- `ref int` -/
def compact (p : Parameter) : String := Text.trim (p.passing ++ p.type.displayName)

/-- `ref int count = 0` -/
def full (p : Parameter) : String :=
  let value := if p.hasDefault then " = " ++ literal p.default else ""
  Text.trim (p.passing ++ p.type.displayName ++ " " ++ p.name ++ value)

end Parameter

def compactList (parameters : List Parameter) : String :=
  String.intercalate ", " (parameters.map Parameter.compact)

def fullList (parameters : List Parameter) : String :=
  String.intercalate ", " (parameters.map Parameter.full)

namespace MemberSymbol

/-- `Add(int, int)` -/
def compactSignature (m : MemberSymbol) : String :=
  m.displayName ++ "(" ++ compactList m.decl.parameters ++ ")"

/-- `Add(int x, int y)` -/
def fullSignature (m : MemberSymbol) : String :=
  m.displayName ++ "(" ++ fullList m.decl.parameters ++ ")"

end MemberSymbol

/-! ## Types -/

namespace TypeDecl

/-- Of the modifiers of a class, the first that applies is shown. -/
def classModifier (t : TypeDecl) : List String :=
  if t.category ≠ .classType then []
  else (["static", "abstract", "sealed"].find? t.has).toList

def shownModifiers (t : TypeDecl) : List String :=
  visibility t.modifiers ++ t.classModifier ++ [t.category.keyword]

def delegateDeclaration (t : TypeDecl) : String :=
  match t.invoke with
  | none => Text.flat (spaced t.shownModifiers ++ " void " ++ t.ref.displayName ++ "()")
  | some m => Text.flat (spaced t.shownModifiers ++ " " ++ m.returnType.displayName ++ " "
      ++ t.ref.displayName ++ "(" ++ fullList m.parameters ++ ")")

/-- `public abstract class Animal : IPet` -/
def declaration (t : TypeDecl) (inherits : List TypeRef) : String :=
  if t.category = .delegateType then t.delegateDeclaration
  else
    let list := if inherits.isEmpty then ""
      else " : " ++ String.intercalate ", " (inherits.map TypeRef.displayName)
    Text.flat (spaced t.shownModifiers ++ " " ++ t.ref.displayName ++ list)

end TypeDecl

/-! ## Members -/

def Field.declaration (f : Field) : String :=
  let words := visibility f.modifiers
    ++ (if f.isConstant then ["const"] else if f.isStatic then ["static"] else [])
    ++ (if f.isReadonly then ["readonly"] else [])
  let value := if f.isLiteral then " = " ++ literal f.value else ""
  Text.flat (spaced words ++ " " ++ f.type.displayName ++ " " ++ f.name ++ value)

/-- The modifiers that accessors give their property or event; without accessors it has its own. -/
def accessorModifiers (accessors : List Method) (own : List String) : List String :=
  if accessors.isEmpty then
    visibility own ++ if own.contains "static" then ["static"] else []
  else
    (if accessors.any (·.isPublic) then ["public"]
      else if accessors.any (·.isProtected) then ["protected"]
      else [])
    ++ if accessors.any (·.isStatic) then ["static"] else []

/-- An accessor as it stands between the braces, if it can be seen from outside. A protected one is
marked only where its property or event is public. -/
def accessorText (ownerPublic : Bool) (keyword : String) (accessor : Option Method) : List String :=
  match accessor with
  | none => []
  | some a =>
    if !a.isExposed then []
    else if !a.isPublic && ownerPublic then ["protected " ++ keyword ++ ";"]
    else [keyword ++ ";"]

def Property.shownModifiers (p : Property) : List String := accessorModifiers p.accessors p.modifiers

def braced (s : String) : String := "\x7b " ++ s ++ " \x7d"

/-- `public int Count { get; protected set; }` -/
def Property.declaration (p : Property) : String :=
  let isPublic := p.shownModifiers.contains "public"
  let accessors := spaced (accessorText isPublic "get" p.getter ++ accessorText isPublic "set" p.setter)
  let head := if p.isIndexer then "this[" ++ fullList p.indexParameters ++ "]" else p.name
  Text.flat (spaced p.shownModifiers ++ " " ++ p.type.displayName ++ " " ++ head ++ " " ++ braced accessors)

def Event.declaration (e : Event) : String :=
  let modifiers := accessorModifiers e.accessors e.modifiers
  let isPublic := modifiers.contains "public"
  let accessors := spaced (accessorText isPublic "add" e.adder ++ accessorText isPublic "remove" e.remover)
  Text.flat (spaced modifiers ++ " " ++ e.handler.displayName ++ " " ++ e.name ++ " " ++ braced accessors)

/-- The modifiers of a callable in the order in which they are written. -/
def Declared.writtenModifiers (d : Declared) : List String :=
  ["public", "protected", "static", "abstract", "virtual", "override"].filter d.has

def MemberSymbol.declaration (m : MemberSymbol) : String :=
  match m.decl with
  | .method d =>
    Text.flat (spaced d.writtenModifiers ++ " " ++ d.returnType.displayName ++ " " ++ m.fullSignature)
  | .constructor c => Text.flat (spaced c.writtenModifiers ++ "  " ++ m.fullSignature)
  | .field f => f.declaration
  | .property p => p.declaration
  | .event e => e.declaration
  | .unclassified _ | .unclassifiedCallable _ => ""

/-- The declaration of a symbol; that of a type lists nothing it inherits. -/
def Symbol.declaration : Symbol → String
  | .type t => t.decl.declaration []
  | .member m => m.declaration
  | .parameter p => p.decl.full

end ApiDoc
