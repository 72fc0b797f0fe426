import ApiDoc.Text.Letter

/-!
# Headings from identifiers

`StaticMethods` is headed `Static Methods`: an identifier is cut into words where a lowercase
letter is followed by an uppercase one or at an underscore, and the words are capitalized.
-/

namespace ApiDoc.Text

/-- Lowercases, with an underscore at each step from a lowercase letter to an uppercase one. -/
def snakeFrom (previous : Option Char) : List Char → List Char
  | [] => []
  | c :: cs =>
    let gap := if previous.any isLower && isUpper c then ['_'] else []
    gap ++ lower c ++ snakeFrom (some c) cs

def snakeCase (s : String) : String := String.ofList (snakeFrom none s.toList)

/-- The words that stay lowercase in a heading. -/
def headingParticles : List (List Char) := ["as".toList, "for".toList]

def capitalize (word : List Char) : List Char :=
  if headingParticles.contains word then word
  else word.take 1 |>.flatMap upper |>.append (word.drop 1)

/-- The pieces between the occurrences of a character; one more than there are occurrences. -/
def splitAtChar (sep : Char) : List Char → List (List Char)
  | [] => [[]]
  | c :: cs =>
    if c = sep then [] :: splitAtChar sep cs
    else match splitAtChar sep cs with
      | piece :: rest => (c :: piece) :: rest
      | [] => [[c]]

def heading (s : String) : String :=
  let pieces := splitAtChar '_' (snakeCase s).toList
  String.ofList (List.intercalate [' '] (pieces.map capitalize))

end ApiDoc.Text
