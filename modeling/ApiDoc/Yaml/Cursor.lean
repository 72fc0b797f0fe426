/-!
# Places in a text

A cursor is the rest of a text together with its line and column. Lines and columns matter in YAML:
indentation is structure.
-/

namespace ApiDoc.Yaml

structure Cursor where
  rest : List Char
  /-- The number of characters before the cursor. -/
  index : Nat := 0
  line : Nat := 0
  column : Nat := 0

/-- Characters that end a line. -/
def isBreak (c : Char) : Bool := c = '\n' || c = '\r' || c = '\x85' || c = '\u2028' || c = '\u2029'

/-- Stands for the end of the text, where a character is asked for. -/
def atEnd : Char := '\x00'

/-- A blank, a line break, or the end. -/
def isGap (c : Char) : Bool := c = atEnd || c = ' ' || c = '\t' || isBreak c

/-- A line break or the end. -/
def isLineEnd (c : Char) : Bool := c = atEnd || isBreak c

namespace Cursor

/-- The character so many places on. -/
def peek (c : Cursor) (n : Nat) : Char := (c.rest[n]?).getD atEnd

def head (c : Cursor) : Char := c.rest.headD atEnd

/-- Moves over one character; a byte order mark takes no column. -/
def step (c : Cursor) : Cursor :=
  match c.rest with
  | [] => c
  | ch :: rest =>
    if isBreak ch && !(ch = '\r' && rest.head? = some '\n') then
      { rest, index := c.index + 1, line := c.line + 1, column := 0 }
    else
      { c with rest, index := c.index + 1, column := if ch = '\ufeff' then c.column else c.column + 1 }

def skip (c : Cursor) (n : Nat) : Cursor := n.repeat step c

/-- Moves over the characters of a kind, and returns them. -/
def span (c : Cursor) (p : Char → Bool) : List Char × Cursor :=
  let taken := c.rest.takeWhile p
  (taken, c.skip taken.length)

def skipWhile (c : Cursor) (p : Char → Bool) : Cursor := (c.span p).2

/-- Moves over a line break, which reads as a line feed unless it is a separator of its own. -/
def lineBreak? (c : Cursor) : Option (Char × Cursor) :=
  match c.rest with
  | '\r' :: '\n' :: _ => some ('\n', c.skip 2)
  | ch :: _ =>
    if ch = '\n' || ch = '\r' || ch = '\x85' then some ('\n', c.step)
    else if isBreak ch then some (ch, c.step)
    else none
  | [] => none

/-- A document marker: three equal characters and a gap. -/
def isMarker (c : Cursor) (ch : Char) : Bool :=
  c.peek 0 = ch && c.peek 1 = ch && c.peek 2 = ch && isGap (c.peek 3)

end Cursor

end ApiDoc.Yaml
