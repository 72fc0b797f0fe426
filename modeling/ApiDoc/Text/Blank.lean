import ApiDoc.Text.Range

/-!
# Blanks

Documentation text is laid out freely in its source, so runs of blanks mean one space. `collapse`
replaces each run, `trim` drops the blanks at both ends.
-/

namespace ApiDoc.Text

/-- The characters with the Unicode property White_Space, and the four information separators. -/
def blankRanges : List (Nat × Nat) :=
  [(0x09, 0x0d), (0x1c, 0x20), (0x85, 0x85), (0xa0, 0xa0), (0x1680, 0x1680), (0x2000, 0x200a),
   (0x2028, 0x2029), (0x202f, 0x202f), (0x205f, 0x205f), (0x3000, 0x3000)]

def isBlank (c : Char) : Bool := inRanges blankRanges c

/-! ## Collapsing -/

/-- Writes one space for each run of blanks. `within` holds while the run before `cs` has already
been written. -/
def collapseFrom (within : Bool) : List Char → List Char
  | [] => []
  | c :: cs =>
    if isBlank c then
      if within then collapseFrom true cs else ' ' :: collapseFrom true cs
    else c :: collapseFrom false cs

/-- The text with every run of blanks replaced by one space. -/
def collapse (s : String) : String := String.ofList (collapseFrom false s.toList)

/-- The maximal runs of characters that are not blanks, in order. -/
def wordsFrom (word : List Char) : List Char → List (List Char)
  | [] => if word.isEmpty then [] else [word]
  | c :: cs =>
    if isBlank c then
      if word.isEmpty then wordsFrom [] cs else word :: wordsFrom [] cs
    else wordsFrom (word ++ [c]) cs

def words (s : String) : List String := (wordsFrom [] s.toList).map String.ofList

/-! ## Trimming -/

def trimEndChars (drop : Char → Bool) (cs : List Char) : List Char :=
  (cs.reverse.dropWhile drop).reverse

/-- Drops the blanks before the first other character. -/
def trimStart (s : String) : String := String.ofList (s.toList.dropWhile isBlank)

/-- Drops the blanks after the last other character. -/
def trimEnd (s : String) : String := String.ofList (trimEndChars isBlank s.toList)

def trim (s : String) : String := trimStart (trimEnd s)

/-- One line of text: blanks collapsed and none at either end. -/
def flat (s : String) : String := trim (collapse s)

end ApiDoc.Text
