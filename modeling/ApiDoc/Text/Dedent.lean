import ApiDoc.Text.Blank
import ApiDoc.Text.Heading

/-!
# Code blocks

Code in documentation is indented as its source is. `dedent` takes off the blanks and tabs that all
lines have in common; lines that hold nothing else become empty and do not count.
-/

namespace ApiDoc.Text

def isIndent (c : Char) : Bool := c = ' ' || c = '\t'

def indentOf (line : List Char) : List Char := line.takeWhile isIndent

/-- The longest beginning that two texts share. -/
def commonStart : List Char → List Char → List Char
  | a :: as, b :: bs => if a = b then a :: commonStart as bs else []
  | _, _ => []

/-- The indentation that all lines share, empty lines left out. -/
def margin (lines : List (List Char)) : List Char :=
  match (lines.filter fun line => !line.isEmpty).map indentOf with
  | [] => []
  | first :: rest => rest.foldl commonStart first

def dedentLines (lines : List (List Char)) : List (List Char) :=
  let lines := lines.map fun line => if line.all isIndent then [] else line
  let width := (margin lines).length
  lines.map (·.drop width)

def dedent (cs : List Char) : List Char :=
  List.intercalate ['\n'] (dedentLines (splitAtChar '\n' cs))

/-- Dedents, and drops the line feeds in front and the blanks at the end. -/
def codeText (s : String) : String :=
  let cs := trimEndChars (· = '\n') ((dedent s.toList).dropWhile (· = '\n'))
  String.ofList (trimEndChars isBlank cs)

end ApiDoc.Text
