import ApiDoc.Yaml.Scan

/-!
# Tokens

The tokens of a YAML text. Block collections are opened and closed by indentation. That something was
a key is known only once the colon after it is met: until then it is remembered as a possible key,
and the tokens that open the key are put before it afterwards.
-/

namespace ApiDoc.Yaml

inductive Token where
  | directive (d : Directive)
  | documentStart | documentEnd
  | blockSequence | blockMapping | blockEnd
  | flowSequence | flowSequenceEnd
  | flowMapping | flowMappingEnd
  | entry | flowEntry
  | key | value
  | alias_ (name : String)
  | anchor (name : String)
  | tag (t : Tag)
  | scalar (s : String) (isPlain : Bool)
  | streamEnd
deriving DecidableEq, Repr

/-- Something that is a key if a colon follows it on its line. -/
structure PossibleKey where
  /-- The number of tokens before it. -/
  position : Nat
  /-- Nothing but a key can stand there. -/
  required : Bool
  index : Nat
  line : Nat
  column : Nat

structure Scanner where
  cursor : Cursor
  /-- The tokens so far, the latest first. -/
  tokens : List Token := []
  /-- The column of the innermost block collection; -1 outside of all. -/
  indent : Int := -1
  outer : List Int := []
  flowLevel : Int := 0
  /-- Whether a key may start here. -/
  allowKey : Bool := true
  /-- The possible key of each flow level. -/
  keys : List (Int × PossibleKey) := []

/-- The furthest that a colon may be from the start of its key. -/
def keyLimit : Nat := 1024

namespace Scanner

def emit (s : Scanner) (t : Token) : Scanner := { s with tokens := t :: s.tokens }

/-- Puts a token before the tokens from a position on. -/
def insertAt (s : Scanner) (position : Nat) (t : Token) : Scanner :=
  let after := s.tokens.length - position
  { s with tokens := s.tokens.take after ++ t :: s.tokens.drop after }

def moveTo (s : Scanner) (c : Cursor) : Scanner := { s with cursor := c }

def inFlow (s : Scanner) : Bool := s.flowLevel ≠ 0

/-! ## Possible keys -/

/-- Forgets possible keys that are no longer on their line, unless one is required. -/
def dropStale? (s : Scanner) : Option Scanner :=
  let isStale (k : PossibleKey) : Bool :=
    k.line ≠ s.cursor.line || s.cursor.index - k.index > keyLimit
  if s.keys.any fun (_, k) => isStale k && k.required then none
  else some { s with keys := s.keys.filter fun (_, k) => !isStale k }

/-- Forgets the possible key of the present flow level, unless it is required. -/
def dropKey? (s : Scanner) : Option Scanner :=
  if s.keys.any fun (level, k) => level = s.flowLevel && k.required then none
  else some { s with keys := s.keys.filter fun (level, _) => level ≠ s.flowLevel }

/-- Remembers that a key may start at the cursor. -/
def saveKey? (s : Scanner) : Option Scanner :=
  if s.allowKey then do
    let k : PossibleKey :=
      { position := s.tokens.length, required := !s.inFlow && s.indent = s.cursor.column
        index := s.cursor.index, line := s.cursor.line, column := s.cursor.column }
    let s ← s.dropKey?
    some { s with keys := (s.flowLevel, k) :: s.keys }
  else some s

/-! ## Indentation -/

/-- Closes the block collections that are indented deeper than a column. -/
def unwind (s : Scanner) (column : Int) : Scanner :=
  if s.inFlow then s else go s s.outer
where
  go (s : Scanner) : List Int → Scanner
    | [] => s
    | i :: outer =>
      if s.indent > column then go ({ s with indent := i, outer }.emit .blockEnd) outer else s

/-- Opens a block collection at a column, unless one is open there. -/
def openBlock (s : Scanner) (column : Nat) (t : Token) (position : Nat) : Scanner :=
  if s.indent < column then
    { s with indent := column, outer := s.indent :: s.outer }.insertAt position t
  else s

/-! ## Fetching tokens -/

/-- Skips blanks, comments and line breaks; after a line break a key may start. -/
def skipGap : Nat → Scanner → Scanner
  | 0, s => s
  | fuel + 1, s =>
    let c := s.cursor.skipWhile (· = ' ')
    let c := if c.head = '#' then c.skipWhile fun ch => !isBreak ch else c
    match c.lineBreak? with
    | some (_, c) => skipGap fuel { s with cursor := c, allowKey := s.allowKey || !s.inFlow }
    | none => s.moveTo c

def fetchMarker? (s : Scanner) (t : Token) : Option Scanner := do
  let s ← (s.unwind (-1)).dropKey?
  some (({ s with allowKey := false }.moveTo (s.cursor.skip 3)).emit t)

def fetchDirective? (s : Scanner) : Option Scanner := do
  let s ← (s.unwind (-1)).dropKey?
  let (d, c) ← directive? s.cursor
  some (({ s with allowKey := false }.moveTo c).emit (.directive d))

def openFlow? (s : Scanner) (t : Token) : Option Scanner := do
  let s ← s.saveKey?
  some (({ s with flowLevel := s.flowLevel + 1, allowKey := true }.moveTo s.cursor.step).emit t)

def closeFlow? (s : Scanner) (t : Token) : Option Scanner := do
  let s ← s.dropKey?
  some (({ s with flowLevel := s.flowLevel - 1, allowKey := false }.moveTo s.cursor.step).emit t)

def fetchFlowEntry? (s : Scanner) : Option Scanner := do
  let s ← s.dropKey?
  some (({ s with allowKey := true }.moveTo s.cursor.step).emit .flowEntry)

def fetchEntry? (s : Scanner) : Option Scanner := do
  let s ← if s.inFlow then some s
    else if s.allowKey then some (s.openBlock s.cursor.column .blockSequence s.tokens.length)
    else none
  let s ← s.dropKey?
  some (({ s with allowKey := true }.moveTo s.cursor.step).emit .entry)

def fetchKey? (s : Scanner) : Option Scanner := do
  let s ← if s.inFlow then some s
    else if s.allowKey then some (s.openBlock s.cursor.column .blockMapping s.tokens.length)
    else none
  let s ← s.dropKey?
  some (({ s with allowKey := !s.inFlow }.moveTo s.cursor.step).emit .key)

def fetchValue? (s : Scanner) : Option Scanner := do
  let s ← match s.keys.lookup s.flowLevel with
    | some k =>
      let s := { s with keys := s.keys.filter fun (level, _) => level ≠ s.flowLevel }
      let s := s.insertAt k.position .key
      let s := if s.inFlow then s else s.openBlock k.column .blockMapping k.position
      some { s with allowKey := false }
    | none => do
      let s ← if s.inFlow then some s
        else if s.allowKey then some (s.openBlock s.cursor.column .blockMapping s.tokens.length)
        else none
      let s ← s.dropKey?
      some { s with allowKey := !s.inFlow }
  some ((s.moveTo s.cursor.step).emit .value)

/-- Fetches a token that may start a key. -/
def fetchNode? (s : Scanner) (read : Cursor → Option (Token × Cursor)) : Option Scanner := do
  let s ← s.saveKey?
  let (t, c) ← read s.cursor
  some (({ s with allowKey := false }.moveTo c).emit t)

def fetchBlockScalar? (s : Scanner) : Option Scanner := do
  let s ← s.dropKey?
  let (cs, c) ← blockScalar? s.indent s.cursor
  some (({ s with allowKey := true }.moveTo c).emit (.scalar (String.ofList cs) false))

def fetchPlain? (s : Scanner) : Option Scanner := do
  let s ← s.saveKey?
  let (cs, ended, c) := plainScalar s.inFlow (s.indent + 1) (s.cursor.rest.length + 1) false [] s.cursor
  some (({ s with allowKey := ended }.moveTo c).emit (.scalar (String.ofList cs) true))

/-- Characters that start no plain scalar, or only before something that is no gap. -/
def isIndicator (ch : Char) : Bool :=
  ['-', '?', ':', ',', '[', ']', '\x7b', '\x7d', '#', '&', '*', '!', '|', '>', '\'', '"', '%', '@', '\x60'].contains ch

def startsPlain (s : Scanner) : Bool :=
  let ch := s.cursor.head
  !(isGap ch || isIndicator ch)
    || (!isGap (s.cursor.peek 1) && (ch = '-' || (!s.inFlow && (ch = '?' || ch = ':'))))

/-- Fetches the next token after any gap. The Boolean says whether the text has ended. -/
def fetch? (s : Scanner) : Option (Scanner × Bool) := do
  let s := skipGap (s.cursor.rest.length + 1) s
  let s ← s.dropStale?
  let s := s.unwind s.cursor.column
  let c := s.cursor
  let beforeGap := isGap (c.peek 1)
  let go (r : Option Scanner) : Option (Scanner × Bool) := r.map (·, false)
  if c.rest.isEmpty then do
    let s ← (s.unwind (-1)).dropKey?
    some (s.emit .streamEnd, true)
  else match c.head with
  | '%' => if c.column = 0 then go s.fetchDirective? else none
  | '[' => go (s.openFlow? .flowSequence)
  | ']' => go (s.closeFlow? .flowSequenceEnd)
  | '\x7b' => go (s.openFlow? .flowMapping)
  | '\x7d' => go (s.closeFlow? .flowMappingEnd)
  | ',' => go s.fetchFlowEntry?
  | '*' => go (s.fetchNode? fun c => (anchorName? c).map fun (name, c) => (.alias_ name, c))
  | '&' => go (s.fetchNode? fun c => (anchorName? c).map fun (name, c) => (.anchor name, c))
  | '!' => go (s.fetchNode? fun c => (tag? c).map fun (t, c) => (.tag t, c))
  | '\'' | '"' =>
    go (s.fetchNode? fun c => (quotedScalar? c).map fun (cs, c) => (.scalar (String.ofList cs) false, c))
  | ch =>
    if c.column = 0 && c.isMarker '-' then go (s.fetchMarker? .documentStart)
    else if c.column = 0 && c.isMarker '.' then go (s.fetchMarker? .documentEnd)
    else if ch = '-' && beforeGap then go s.fetchEntry?
    else if ch = '?' && (s.inFlow || beforeGap) then go s.fetchKey?
    else if ch = ':' && (s.inFlow || beforeGap) then go s.fetchValue?
    else if (ch = '|' || ch = '>') && !s.inFlow then go s.fetchBlockScalar?
    else if s.startsPlain then go s.fetchPlain?
    else none

def fetchAll? : Nat → Scanner → Option (List Token)
  | 0, _ => none
  | fuel + 1, s =>
    match s.fetch? with
    | none => none
    | some (s, true) => some s.tokens.reverse
    | some (s, false) => fetchAll? fuel s

end Scanner

/-- The tokens of a text. -/
def tokens? (cs : List Char) : Option (List Token) :=
  let cursor : Cursor := { rest := cs }
  let start := if cursor.head = '\ufeff' then cursor.step else cursor
  Scanner.fetchAll? (cs.length + 2) { cursor := start }

end ApiDoc.Yaml
