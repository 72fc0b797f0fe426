import ApiDoc.Metadata.DisplayName
import ApiDoc.Text.Path

/-!
# Where pages lie

The logical path of a page, which is what links point at: `Zoo/Animals/Dog/Speak`. Overloads share
a path, since the page of a member holds all of them.
-/

namespace ApiDoc

/-- The parts that are not empty as one path. -/
def joinPath (parts : List String) : String :=
  Text.sanitizePath (String.intercalate "/" (parts.filter fun part => !part.isEmpty))

def unitPath (unit : String) : String := joinPath [unit]

/-- Unit, namespace and name; a nested type keeps the name of the type around it. -/
def TypeSymbol.path (t : TypeSymbol) : String :=
  joinPath [t.unit.getD "", t.decl.ref.space, Text.replaceChar '.' '+' t.displayName]

/-- The name without type parameters. -/
def beforeAngle (s : String) : String := String.ofList (s.toList.takeWhile (· ≠ '<'))

def MemberSymbol.path (m : MemberSymbol) : String :=
  match m.owner with
  | none => joinPath [m.displayName]
  | some owner => joinPath [owner.path, beforeAngle m.displayName]

def Symbol.path : Symbol → String
  | .type t => t.path
  | .member m => m.path
  | .parameter p =>
    match p.member with
    | some m => m.path
    | none => ""

end ApiDoc
