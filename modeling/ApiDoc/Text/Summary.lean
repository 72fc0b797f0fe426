/-!
# Text that fits a budget

A summary slot holds one line of at most so many characters. Text that does not fit is cut and
marked with an ellipsis.
-/

namespace ApiDoc.Text

def ellipsis : List Char := ['.', '.', '.']

/-- Carriage returns and line feeds become spaces, one each. -/
def onOneLine (cs : List Char) : List Char :=
  cs.map fun c => if c = '\r' ∨ c = '\n' then ' ' else c

/-- Keeps what fits; else as much as leaves room for the ellipsis, and the ellipsis. -/
def cut (budget : Int) (cs : List Char) : List Char :=
  if cs.length > budget then cs.take (budget - ellipsis.length).toNat ++ ellipsis else cs

/-- The text on one line, cut to the budget. -/
def summarize (budget : Int) (s : String) : String :=
  String.ofList (cut budget (onOneLine s.toList))

end ApiDoc.Text
