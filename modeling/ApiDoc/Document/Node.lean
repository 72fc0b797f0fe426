import ApiDoc.Text.Blank

/-!
# Document nodes

What documents are made of, whatever they are written out as: inline nodes, which stand in a line,
and blocks. A fragment is a list of both, since markup may put a paragraph between words. A link
carries the number of its target in the link table of its document.
-/

namespace ApiDoc.Document

inductive Node where
  | text (s : String)
  | code (s : String)
  | link (s target : String) (index : Nat)
  | bold (s : String)
  | badge (s : String)
  | lineBreak
  | heading (level : Nat) (content : List Node)
  | paragraph (content : List Node)
  | codeBlock (s language : String)
  | table (headers : List String) (rows : List (List (List Node)))
  | bullets (items : List (List Node))
  | quote (content : List Node)
  | divider
deriving Repr, Inhabited

abbrev Fragment := List Node

namespace Node

def isInline : Node → Bool
  | .text _ | .code _ | .link .. | .bold _ | .badge _ | .lineBreak => true
  | _ => false

def isText : Node → Bool
  | .text _ => true
  | _ => false

def isLineBreak : Node → Bool
  | .lineBreak => true
  | _ => false

end Node

/-! ## Text -/

mutual

/-- The text a node shows, with blanks where a line ends. The header of a table shows none. -/
def Node.shown : Node → String
  | .text s | .code s | .link s _ _ | .bold s | .badge s => s
  | .lineBreak => " "
  | .heading _ content | .paragraph content | .quote content => " " ++ shownAll content ++ " "
  | .codeBlock s _ => " " ++ s ++ " "
  | .bullets items => shownEach items
  | .table _ rows => shownRows rows
  | .divider => ""

def shownAll : List Node → String
  | [] => ""
  | n :: rest => n.shown ++ shownAll rest

/-- Each part after a blank. -/
def shownEach : List (List Node) → String
  | [] => ""
  | part :: rest => " " ++ shownAll part ++ shownEach rest

def shownRows : List (List (List Node)) → String
  | [] => ""
  | row :: rest => shownEach row ++ shownRows rest

end

/-- The text of a fragment on one line. -/
def plainText (f : Fragment) : String := Text.flat (shownAll f)

/-! ## Merging texts -/

/-- The fragment with each run of texts as one text. `run` is the text of the run before `f`. -/
def mergeFrom (run : Option String) : Fragment → Fragment
  | [] => run.toList.map .text
  | .text s :: rest =>
    if s.isEmpty then mergeFrom run rest
    else match run with
      | none => mergeFrom (some s) rest
      | some t => mergeFrom (some (Text.collapse (t ++ s))) rest
  | n :: rest => run.toList.map .text ++ n :: mergeFrom none rest

def trimFirst : Fragment → Fragment
  | .text s :: rest => .text (Text.trimStart s) :: rest
  | f => f

def trimLast : Fragment → Fragment
  | [] => []
  | [.text s] => [.text (Text.trimEnd s)]
  | n :: rest => n :: trimLast rest

def isEmptyText : Node → Bool
  | .text s => s.isEmpty
  | _ => false

/-- Merges adjacent texts, trims those at the edges, and drops empty ones. -/
def normalize (f : Fragment) : Fragment :=
  (trimLast (trimFirst (mergeFrom none f))).filter fun n => !isEmptyText n

/-! ## One line -/

/-- The fragment without line breaks that follow another, or the start if `atStart`. -/
def singleBreaks (atStart : Bool) : Fragment → Fragment
  | [] => []
  | n :: rest =>
    if n.isLineBreak then
      if atStart then singleBreaks true rest else n :: singleBreaks true rest
    else n :: singleBreaks false rest

def dropLastBreaks (f : Fragment) : Fragment := (f.reverse.dropWhile Node.isLineBreak).reverse

/-- No line break leads, trails or repeats, and texts are merged. -/
def tidy (f : Fragment) : Fragment := normalize (dropLastBreaks (singleBreaks true f))

mutual

/-- A node as inline nodes; what stood in lines of its own still does. -/
def Node.inlined : Node → Fragment
  | .codeBlock s _ => [.code (Text.flat s)]
  | .heading _ content | .paragraph content | .quote content =>
    .lineBreak :: tidy (inlinedAll content) ++ [.lineBreak]
  | .bullets items => inlinedItems items ++ [.lineBreak]
  | .table _ rows => rows.flatMap (fun row => .lineBreak :: List.intercalate [.text " "] row) ++ [.lineBreak]
  | .divider => [.lineBreak]
  | .text s => [.text s]
  | .code s => [.code s]
  | .link s target index => [.link s target index]
  | .bold s => [.bold s]
  | .badge s => [.badge s]
  | .lineBreak => [.lineBreak]

def inlinedAll : List Node → Fragment
  | [] => []
  | n :: rest => n.inlined ++ inlinedAll rest

def inlinedItems : List (List Node) → Fragment
  | [] => []
  | item :: rest => .lineBreak :: tidy (inlinedAll item) ++ inlinedItems rest

end

/-- The fragment as inline nodes, as it stands in a table cell. -/
def inlineRun (f : Fragment) : Fragment := tidy (inlinedAll f)

/-! ## Blocks -/

/-- The paragraph that a run of inline nodes makes. -/
def paragraphOf (run : Fragment) : Fragment := if run.isEmpty then [] else [.paragraph run]

/-- `run` holds the inline nodes just before the fragment. -/
def blocksFrom (run : Fragment) : Fragment → Fragment
  | [] => paragraphOf run
  | n :: rest =>
    if n.isInline then blocksFrom (run ++ [n]) rest
    else paragraphOf run ++ n :: blocksFrom [] rest

/-- The blocks of a fragment; each run of inline nodes is a paragraph. -/
def blocksOf (f : Fragment) : Fragment := blocksFrom [] f

end ApiDoc.Document
