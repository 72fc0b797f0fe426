import ApiDoc.Text.LetterTable

/-!
# Letter case

Case of single characters by the Unicode properties Lowercase and Uppercase, and their case
mappings. A mapping can have more than one character.
-/

namespace ApiDoc.Text

def isLower (c : Char) : Bool :=
  if c.toNat < 128 then 'a' ≤ c && c ≤ 'z' else inRanges lowercaseRanges c

def isUpper (c : Char) : Bool :=
  if c.toNat < 128 then 'A' ≤ c && c ≤ 'Z' else inRanges uppercaseRanges c

/-- Where the run takes a code point, if it contains it. -/
def CaseRun.image? (run : CaseRun) (code : Nat) : Option Char :=
  if run.first ≤ code && code ≤ run.last && (code - run.first) % run.stride == 0 then
    some (Char.ofNat ((code : Int) + run.distance).toNat)
  else none

/-- The mapping of a character: its special one, else that of the run it lies on, else itself. -/
def mapCase (specials : List (Nat × List Nat)) (runs : List CaseRun) (c : Char) : List Char :=
  match specials.lookup c.toNat with
  | some codes => codes.map Char.ofNat
  | none => [(runs.findSome? (·.image? c.toNat)).getD c]

def lower (c : Char) : List Char := mapCase lowerSpecials lowerRuns c

def upper (c : Char) : List Char := mapCase upperSpecials upperRuns c

/-- Every character by its lowercase mapping. -/
def lowerText (s : String) : String := String.ofList (s.toList.flatMap lower)

end ApiDoc.Text
