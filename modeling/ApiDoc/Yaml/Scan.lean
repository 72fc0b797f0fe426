import ApiDoc.Yaml.Cursor

/-!
# Scalars and properties

Reads the parts of a YAML text that are made of characters: quoted, plain and block scalars, anchors,
tags and directives. Every function takes a cursor at the start of a part and returns the part with
the cursor after it, or nothing if the part is malformed.
-/

namespace ApiDoc.Yaml

/-- Line breaks that fold into one space if there is no empty line among them. -/
def fold (first : Char) (more : List Char) : List Char :=
  if first ≠ '\n' then first :: more else if more.isEmpty then [' '] else more

/-! ## Quoted scalars -/

/-- Empty lines inside a quoted scalar, with the blanks around them. A document marker may not stand
at the start of a line. -/
def quotedBreaks : Nat → Cursor → Option (List Char × Cursor)
  | 0, c => some ([], c)
  | fuel + 1, c =>
    if c.isMarker '-' || c.isMarker '.' then none
    else
      let c := c.skipWhile fun ch => ch = ' ' || ch = '\t'
      match c.lineBreak? with
      | some (ch, c) => (quotedBreaks fuel c).map fun (more, c) => (ch :: more, c)
      | none => some ([], c)

/-- The character that a letter stands for after a backslash. -/
def escaped? (ch : Char) : Option Char :=
  match ch with
  | '0' => some '\x00'
  | 'a' => some '\x07'
  | 'b' => some '\x08'
  | 't' | '\t' => some '\t'
  | 'n' => some '\n'
  | 'v' => some '\x0b'
  | 'f' => some '\x0c'
  | 'r' => some '\r'
  | 'e' => some '\x1b'
  | ' ' => some ' '
  | '"' => some '"'
  | '\\' => some '\\'
  | '/' => some '/'
  | 'N' => some '\x85'
  | '_' => some '\xa0'
  | 'L' => some '\u2028'
  | 'P' => some '\u2029'
  | _ => none

def hexDigit? (ch : Char) : Option Nat :=
  if '0' ≤ ch && ch ≤ '9' then some (ch.toNat - '0'.toNat)
  else if 'a' ≤ ch && ch ≤ 'f' then some (ch.toNat - 'a'.toNat + 10)
  else if 'A' ≤ ch && ch ≤ 'F' then some (ch.toNat - 'A'.toNat + 10)
  else none

def hexNumber? (cs : List Char) : Option Nat :=
  cs.foldl (fun acc ch => acc.bind fun n => (hexDigit? ch).map fun d => n * 16 + d) (some 0)

/-- The number of hexadecimal digits after a letter. -/
def codeLength? (ch : Char) : Option Nat :=
  match ch with
  | 'x' => some 2
  | 'u' => some 4
  | 'U' => some 8
  | _ => none

/-- What a backslash in double quotes stands for; the cursor is after the backslash. -/
def escape? (c : Cursor) : Option (List Char × Cursor) :=
  match escaped? c.head with
  | some ch => if c.rest.isEmpty then none else some ([ch], c.step)
  | none =>
    match codeLength? c.head with
    | some n =>
      let digits := (c.rest.drop 1).take n
      if digits.length < n then none
      else do
        let code ← hexNumber? digits
        if code < 0x110000 then some ([Char.ofNat code], c.skip (n + 1)) else none
    | none =>
      match c.lineBreak? with
      | some (_, c) => quotedBreaks (c.rest.length + 1) c
      | none => none

/-- The rest of a quoted scalar up to and including its closing quote. -/
def quotedRest (double : Bool) : Nat → Cursor → Option (List Char × Cursor)
  | 0, _ => none
  | fuel + 1, c =>
    let add (part : List Char) (r : Option (List Char × Cursor)) := r.map fun (more, c) => (part ++ more, c)
    match c.rest with
    | [] => none
    | ch :: next =>
      if ch = '\'' && !double then
        if next.head? = some '\'' then add ['\''] (quotedRest double fuel (c.skip 2)) else some ([], c.step)
      else if ch = '"' && double then some ([], c.step)
      else if ch = '\\' && double then
        match escape? c.step with
        | some (part, c) => add part (quotedRest double fuel c)
        | none => none
      else if ch = ' ' || ch = '\t' || isBreak ch then
        let (blanks, c) := c.span fun ch => ch = ' ' || ch = '\t'
        match c.lineBreak? with
        | some (first, c) =>
          match quotedBreaks (c.rest.length + 1) c with
          | some (more, c) => add (fold first more) (quotedRest double fuel c)
          | none => none
        | none => if c.rest.isEmpty then none else add blanks (quotedRest double fuel c)
      else add [ch] (quotedRest double fuel c.step)

/-- A quoted scalar; the cursor is at its opening quote. -/
def quotedScalar? (c : Cursor) : Option (List Char × Cursor) :=
  quotedRest (c.head = '"') (c.rest.length + 1) c.step

/-! ## Plain scalars -/

/-- Empty lines after a line break in a plain scalar. Nothing if a document marker follows. -/
def plainBreaks : Nat → Cursor → Option (List Char) × Cursor
  | 0, c => (some [], c)
  | fuel + 1, c =>
    if c.head = ' ' then plainBreaks fuel c.step
    else match c.lineBreak? with
    | some (ch, next) =>
      if next.isMarker '-' || next.isMarker '.' then (none, next)
      else
        let (more, c) := plainBreaks fuel next
        (more.map (ch :: ·), c)
    | none => (some [], c)

/-- What separates two pieces of a plain scalar, and whether a line ended there. Nothing is returned
where the scalar cannot go on. -/
def plainGap (c : Cursor) : List Char × Bool × Cursor :=
  let (blanks, c) := c.span (· = ' ')
  match c.lineBreak? with
  | some (first, c) =>
    if c.isMarker '-' || c.isMarker '.' then ([], true, c)
    else
      match plainBreaks (c.rest.length + 1) c with
      | (some more, c) => (fold first more, true, c)
      | (none, c) => ([], true, c)
  | none => (blanks, false, c)

/-- The characters of a plain scalar up to a gap or an indicator. -/
def plainPiece (inFlow : Bool) : List Char → List Char
  | [] => []
  | ch :: rest =>
    let next := rest.headD atEnd
    let isValueMark := ch = ':' && (isGap next || (inFlow && [',', '[', ']', '{', '}'].contains next))
    if isGap ch || isValueMark || (inFlow && [',', '?', '[', ']', '{', '}'].contains ch) then []
    else ch :: plainPiece inFlow rest

/-- A plain scalar, which goes on in lines indented to `indent` at least, and whether a line ended
after its last piece. -/
def plainScalar (inFlow : Bool) (indent : Int) : Nat → Bool → List Char → Cursor → List Char × Bool × Cursor
  | 0, ended, _, c => ([], ended, c)
  | fuel + 1, ended, gap, c =>
    if c.head = '#' then ([], ended, c)
    else
      let piece := plainPiece inFlow c.rest
      if piece.isEmpty then ([], ended, c)
      else
        let (next, ended, c) := plainGap (c.skip piece.length)
        if next.isEmpty || c.head = '#' || (!inFlow && (c.column : Int) < indent) then (gap ++ piece, ended, c)
        else
          let (more, ended, c) := plainScalar inFlow indent fuel ended next c
          (gap ++ piece ++ more, ended, c)

/-! ## Block scalars -/

/-- What becomes of the line breaks at the end. -/
inductive Chomping where
  | strip | clip | keep
deriving DecidableEq

def chomping? (ch : Char) : Option Chomping :=
  if ch = '+' then some .keep else if ch = '-' then some .strip else none

/-- The signs after the opening of a block scalar, in either order. An indentation of zero is none. -/
def blockHeader? (c : Cursor) : Option (Chomping × Option Nat × Cursor) :=
  let digit? (c : Cursor) : Option (Option Nat × Cursor) :=
    if c.head.isDigit then
      if c.head = '0' then none else some (some (c.head.toNat - '0'.toNat), c.step)
    else some (none, c)
  match chomping? c.head with
  | some chomping => do
    let (increment, c) ← digit? c.step
    some (chomping, increment, c)
  | none => do
    let (increment, c) ← digit? c
    match if increment.isSome then chomping? c.head else none with
    | some chomping => some (chomping, increment, c.step)
    | none => some (.clip, increment, c)

/-- Skips blanks and a comment up to the end of the line. -/
def ignoredLine? (c : Cursor) : Option Cursor :=
  let c := c.skipWhile (· = ' ')
  let c := if c.head = '#' then c.skipWhile fun ch => !isBreak ch else c
  if c.rest.isEmpty then some c
  else c.lineBreak?.map Prod.snd

/-- The empty lines at the start of a block scalar, and the deepest indentation met. -/
def blockIndentation : Nat → Nat → Cursor → List Char × Nat × Cursor
  | 0, deepest, c => ([], deepest, c)
  | fuel + 1, deepest, c =>
    if c.head = ' ' then
      let c := c.step
      blockIndentation fuel (max deepest c.column) c
    else match c.lineBreak? with
    | some (ch, c) =>
      let (more, deepest, c) := blockIndentation fuel deepest c
      (ch :: more, deepest, c)
    | none => ([], deepest, c)

def skipIndent (indent : Nat) : Nat → Cursor → Cursor
  | 0, c => c
  | fuel + 1, c => if c.column < indent && c.head = ' ' then skipIndent indent fuel c.step else c

/-- Empty lines, and the indentation of the line after them. -/
def blockBreaks (indent : Nat) : Nat → Cursor → List Char × Cursor
  | 0, c => ([], c)
  | fuel + 1, c =>
    let c := skipIndent indent indent c
    match c.lineBreak? with
    | some (ch, c) =>
      let (more, c) := blockBreaks indent fuel c
      (ch :: more, c)
    | none => ([], c)

/-- The lines of a block scalar. `breaks` are the empty lines before the line at the cursor. -/
def blockLines (folded : Bool) (chomping : Chomping) (indent : Nat) : Nat → List Char → Cursor → List Char × Cursor
  | 0, _, c => ([], c)
  | fuel + 1, breaks, c =>
    let isFlush := c.head ≠ ' ' && c.head ≠ '\t'
    let (line, c) := c.span fun ch => !isBreak ch
    let (ending, c) := match c.lineBreak? with
      | some (ch, c) => ([ch], c)
      | none => ([], c)
    let (more, c) := blockBreaks indent (c.rest.length + 1) c
    if c.column = indent && !c.rest.isEmpty then
      let joint :=
        if folded && ending = ['\n'] && isFlush && c.head ≠ ' ' && c.head ≠ '\t' then
          if more.isEmpty then [' '] else []
        else ending
      let (rest, c) := blockLines folded chomping indent fuel more c
      (breaks ++ line ++ joint ++ rest, c)
    else
      let last := match chomping with
        | .strip => []
        | .clip => ending
        | .keep => ending ++ more
      (breaks ++ line ++ last, c)

/-- A block scalar in a collection indented to `indent`; the cursor is at its opening. -/
def blockScalar? (indent : Int) (c : Cursor) : Option (List Char × Cursor) := do
  let folded := c.head = '>'
  let (chomping, increment, c) ← blockHeader? c.step
  if !(c.rest.isEmpty || c.head = ' ' || isBreak c.head) then none
  else
    let c ← ignoredLine? c
    let least := (max 1 (indent + 1)).toNat
    let (breaks, width, c) := match increment with
      | some n =>
        let width := least + n - 1
        let (breaks, c) := blockBreaks width (c.rest.length + 1) c
        (breaks, width, c)
      | none =>
        let (breaks, deepest, c) := blockIndentation (c.rest.length + 1) 0 c
        (breaks, max least deepest, c)
    if c.column = width && !c.rest.isEmpty then
      some (blockLines folded chomping width (c.rest.length + 1) breaks c)
    else
      some (if chomping = .keep then breaks else [], c)

/-! ## Properties and directives -/

def isWordChar (ch : Char) : Bool := ch.isAlphanum || ch = '-' || ch = '_'

/-- The name of an anchor or alias; the cursor is at its sign. -/
def anchorName? (c : Cursor) : Option (String × Cursor) :=
  let (name, c) := c.step.span isWordChar
  if name.isEmpty || !(isGap c.head || ['?', ':', ',', ']', '\x7d', '%', '@', '\x60'].contains c.head) then none
  else some (String.ofList name, c)

def isUriChar (ch : Char) : Bool :=
  ch.isAlphanum || "-;/?:@&=+$,_.!~*'()[]%".toList.contains ch

/-- The characters that escaped bytes stand for. -/
def uriText? (cs : List Char) : Option (List Char) :=
  go (cs.length + 1) [] cs
where
  /-- `bytes` are the escaped bytes just before, in reverse. -/
  go : Nat → List UInt8 → List Char → Option (List Char)
    | 0, _, _ => none
    | fuel + 1, bytes, cs =>
      match cs with
      | '%' :: a :: b :: rest => do
        let high ← hexDigit? a
        let low ← hexDigit? b
        go fuel (UInt8.ofNat (high * 16 + low) :: bytes) rest
      | '%' :: _ => none
      | cs => do
        let before ← String.fromUTF8? ⟨bytes.reverse.toArray⟩
        match cs with
        | [] => some before.toList
        | ch :: rest => do
          let more ← go fuel [] rest
          some (before.toList ++ ch :: more)

def uri? (c : Cursor) : Option (List Char × Cursor) := do
  let (cs, c) := c.span isUriChar
  if cs.isEmpty then none
  else
    let text ← uriText? cs
    some (text, c)

/-- The handle of a tag: a word between exclamation marks, or one mark alone. -/
def tagHandle? (c : Cursor) : Option (String × Cursor) :=
  let (word, c) := c.step.span isWordChar
  if c.head = '!' then some (String.ofList ('!' :: word ++ ['!']), c.step)
  else if word.isEmpty && c.head = ' ' then some ("!", c)
  else none

/-- A tag as a handle, unless it is given in full, and a suffix; the cursor is at its sign. -/
structure Tag where
  handle : Option String
  suffix : String
deriving DecidableEq, Repr

def tag? (c : Cursor) : Option (Tag × Cursor) :=
  let next := c.peek 1
  let endsWell (t : Tag) (c : Cursor) : Option (Tag × Cursor) :=
    if c.rest.isEmpty || c.head = ' ' || isBreak c.head then some (t, c) else none
  if next = '<' then do
    let (suffix, c) ← uri? (c.skip 2)
    if c.head = '>' then endsWell ⟨none, String.ofList suffix⟩ c.step else none
  else if isGap next then endsWell ⟨none, "!"⟩ c.step
  else
    let word := (c.rest.drop 1).takeWhile fun ch => ch ≠ ' ' && !isBreak ch
    if word.contains '!' then do
      let (handle, c) ← tagHandle? c
      let (suffix, c) ← uri? c
      endsWell ⟨some handle, String.ofList suffix⟩ c
    else do
      let (suffix, c) ← uri? c.step
      endsWell ⟨some "!", String.ofList suffix⟩ c

inductive Directive where
  | version (major : Nat)
  | handle (name : String) (expansion : String)
  | other
deriving DecidableEq, Repr

/-- A number of a version, with the digits that follow. -/
def versionNumber? (c : Cursor) : Option (Nat × Cursor) :=
  let (digits, c) := c.span Char.isDigit
  if digits.isEmpty then none
  else some (digits.foldl (fun n ch => n * 10 + (ch.toNat - '0'.toNat)) 0, c)

/-- A directive; the cursor is at its sign. -/
def directive? (c : Cursor) : Option (Directive × Cursor) := do
  let (name, c) := c.step.span isWordChar
  let ends (c : Cursor) : Bool := c.rest.isEmpty || c.head = ' ' || isBreak c.head
  if name.isEmpty || !ends c then none
  else if name = "YAML".toList then do
    let (major, c) ← versionNumber? (c.skipWhile (· = ' '))
    if c.head ≠ '.' then none
    else do
      let (_, c) ← versionNumber? c.step
      if !ends c then none
      else do
        let c ← ignoredLine? c
        some (.version major, c)
  else if name = "TAG".toList then do
    let (handle, c) ← tagHandle? (c.skipWhile (· = ' '))
    if c.head ≠ ' ' then none
    else do
      let (expansion, c) ← uri? (c.skipWhile (· = ' '))
      if !ends c then none
      else do
        let c ← ignoredLine? c
        some (.handle handle (String.ofList expansion), c)
  else do
    let c ← ignoredLine? (c.skipWhile fun ch => !isBreak ch)
    some (.other, c)

end ApiDoc.Yaml
