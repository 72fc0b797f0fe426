import ApiDoc.Text.Heading

/-!
# Slash-separated paths

A path is a root (none, `/` or `//`) and segments, none of which is empty or a single dot. Output
paths are logical: angle brackets of generic names become square ones, spaces go, and characters
that no file name may hold become underscores.
-/

namespace ApiDoc.Text

structure Path where
  /-- The leading slashes: none, one, or two. -/
  root : List Char
  segments : List (List Char)
deriving DecidableEq, Repr

namespace Path

/-- Two leading slashes are kept as they are; one or more than two count as one. -/
def rootOf : List Char → List Char
  | '/' :: '/' :: '/' :: _ => ['/']
  | '/' :: '/' :: _ => ['/', '/']
  | '/' :: _ => ['/']
  | _ => []

/-- Empty segments and single dots name nothing. -/
def isSegment (segment : List Char) : Bool := !segment.isEmpty && segment != ['.']

def parse (cs : List Char) : Path :=
  { root := rootOf cs
    segments := (splitAtChar '/' cs).filter isSegment }

def isAbsolute (p : Path) : Bool := !p.root.isEmpty

def render (p : Path) : List Char := p.root ++ List.intercalate ['/'] p.segments

/-- The written form of a path; the empty relative path is written as a dot. -/
def toText (p : Path) : String :=
  if p.root.isEmpty && p.segments.isEmpty then "." else String.ofList p.render

end Path

/-! ## Output paths -/

/-- Square brackets for angle brackets, with or without a backslash before the opening one, and no
spaces. -/
def squareBrackets : List Char → List Char
  | [] => []
  | '\\' :: '<' :: cs => '[' :: squareBrackets cs
  | c :: cs =>
    if c = '<' then '[' :: squareBrackets cs
    else if c = '>' then ']' :: squareBrackets cs
    else if c = ' ' then squareBrackets cs
    else c :: squareBrackets cs

/-- Characters that no file name may hold. -/
def isForbidden (c : Char) : Bool :=
  c.toNat < 0x20 || ['"', '*', ':', '?', '\\', '|'].contains c

def cleanSegment (segment : List Char) : List Char :=
  segment.map fun c => if isForbidden c then '_' else c

/-- The output path of a text. -/
def sanitizeChars (cs : List Char) : List Char :=
  let path := Path.parse (squareBrackets cs)
  { path with segments := path.segments.map cleanSegment }.render

def sanitizePath (s : String) : String := String.ofList (sanitizeChars s.toList)

end ApiDoc.Text
