import ApiDoc.Text.Digit

/-!
# Parts of a metadata name

The name of a generic type ends in an arity marker, a back-quote and the number of its parameters.
An explicit implementation of an interface member carries the interface before a dot.
-/

namespace ApiDoc.Text

/-- A line feed at the very end, taken off. -/
def splitFinalFeed (cs : List Char) : List Char × List Char :=
  if cs.getLast? = some '\n' then (cs.dropLast, ['\n']) else (cs, [])

/-- Drops an arity marker, which stands at the end or before a final line feed. -/
def stripArityChars (cs : List Char) : List Char :=
  let (body, feed) := splitFinalFeed cs
  let reversed := body.reverse
  match reversed.takeWhile isDigit, reversed.dropWhile isDigit with
  | _ :: _, '`' :: name => name.reverse ++ feed
  | _, _ => cs

def stripArity (s : String) : String := String.ofList (stripArityChars s.toList)

/-- What follows the last dot. Dots at the front belong to the name. -/
def simpleNameChars (cs : List Char) : List Char :=
  if (cs.dropWhile (· = '.')).contains '.' then (cs.reverse.takeWhile (· ≠ '.')).reverse else cs

def simpleName (s : String) : String := String.ofList (simpleNameChars s.toList)

end ApiDoc.Text
