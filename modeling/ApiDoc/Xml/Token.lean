import ApiDoc.Xml.Name
import ApiDoc.Xml.Problem

/-!
# Tokens of element content

A scan takes one token off the front of the text. It fails at the first character that cannot
continue the token, or finds the text to end inside it.
-/

namespace ApiDoc.Xml

inductive Scan (α : Type) where
  | done (value : α) (rest : List Char)
  /-- The rest begins with a character that fits nowhere. -/
  | invalid (rest : List Char)
  /-- The text ends inside the token. -/
  | unfinished

namespace Scan

def bind {α β : Type} (s : Scan α) (f : α → List Char → Scan β) : Scan β :=
  match s with
  | .done value rest => f value rest
  | .invalid rest => .invalid rest
  | .unfinished => .unfinished

def map {α β : Type} (f : α → β) (s : Scan α) : Scan β := s.bind fun value rest => .done (f value) rest

/-- Demands a next character that passes the test. -/
def expect (test : Char → Bool) : List Char → Scan Char
  | [] => .unfinished
  | c :: rest => if test c then .done c rest else .invalid (c :: rest)

/-- Demands a fixed text. -/
def word : List Char → List Char → Scan Unit
  | [], cs => .done () cs
  | w :: ws, cs => (expect (· = w) cs).bind fun _ rest => word ws rest

end Scan

open Scan

/-! ## Names and references -/

def scanName (cs : List Char) : Scan (List Char) :=
  (expect isNameStart cs).bind fun c rest =>
    .done (c :: rest.takeWhile isNameChar) (rest.dropWhile isNameChar)

/-- A name with at most one colon, between a prefix and a local name. -/
def scanQualifiedName (cs : List Char) : Scan (List Char) :=
  (scanName cs).bind fun name rest =>
    match rest with
    | ':' :: rest => (scanName rest).map fun label => name ++ ':' :: label
    | _ => .done name rest

inductive Reference where
  /-- The number of a character, however large. -/
  | character (code : Nat)
  | entity (name : List Char)
deriving Repr

def hexDigit? (c : Char) : Option Nat :=
  if c.isDigit then some (c.toNat - '0'.toNat)
  else if 'a' ≤ c && c ≤ 'f' then some (c.toNat - 'a'.toNat + 10)
  else if 'A' ≤ c && c ≤ 'F' then some (c.toNat - 'A'.toNat + 10)
  else none

/-- Digits of a base, at least one, and a semicolon. -/
def scanCode (base : Nat) (isDigit : Char → Bool) (cs : List Char) : Scan Reference :=
  (expect isDigit cs).bind fun c rest =>
    let digits := c :: rest.takeWhile isDigit
    let code := digits.foldl (fun n d => n * base + (hexDigit? d).getD 0) 0
    (expect (· = ';') (rest.dropWhile isDigit)).map fun _ => .character code

/-- A reference after its ampersand. -/
def scanReference : List Char → Scan Reference
  | [] => .unfinished
  | '#' :: 'x' :: rest => scanCode 16 (fun c => (hexDigit? c).isSome) rest
  | '#' :: rest => scanCode 10 Char.isDigit rest
  | cs => (scanName cs).bind fun name rest => (expect (· = ';') rest).map fun _ => .entity name

/-- The character a reference stands for, if documents may hold it. -/
def referredChar? (code : Nat) : Option Char :=
  if 0x110000 ≤ code || (0xd800 ≤ code && code < 0xe000) then none
  else
    let c := Char.ofNat code
    if isExcluded c then none else some c

def predefined? (name : List Char) : Option Char :=
  match String.ofList name with
  | "lt" => some '<'
  | "gt" => some '>'
  | "amp" => some '&'
  | "apos" => some '\''
  | "quot" => some '"'
  | _ => none

/-! ## Tags -/

/-- An attribute as it is written. Where its name and its value begin is kept for problems. -/
structure RawAttribute where
  name : List Char
  nameAt : List Char
  value : List Char
  valueAt : List Char

/-- The raw value up to its closing quote. -/
def scanValue (quote : Char) : List Char → Scan (List Char)
  | [] => .unfinished
  | c :: rest =>
    if c = quote then .done [] rest
    else if c = '<' || isExcluded c then .invalid (c :: rest)
    else if c = '&' then
      (scanReference rest).bind fun _ _ => (scanValue quote rest).map (c :: ·)
    else (scanValue quote rest).map (c :: ·)

def scanAttribute (cs : List Char) : Scan RawAttribute :=
  (scanQualifiedName cs).bind fun name rest =>
  (expect (· = '=') (rest.dropWhile isSpace)).bind fun _ rest =>
  (expect (fun c => c = '"' || c = '\'') (rest.dropWhile isSpace)).bind fun quote valueAt =>
  (scanValue quote valueAt).map fun value => ⟨name, cs, value, valueAt⟩

/-- The end of a tag: `>`, or `/>` for an element without content. -/
def scanTagEnd (cs : List Char) : Scan Bool :=
  (expect (fun c => c = '>' || c = '/') cs).bind fun c rest =>
    if c = '>' then .done false rest else (expect (· = '>') rest).map fun _ => true

/-- What follows the name of a start tag: attributes, each after a space, then the end. `fuel`
bounds their number. -/
def scanAttributes : Nat → List Char → Scan (List RawAttribute × Bool)
  | 0, _ => .unfinished
  | fuel + 1, cs =>
    match cs with
    | [] => .unfinished
    | c :: _ =>
      if isSpace c then
        match cs.dropWhile isSpace with
        | [] => .unfinished
        | d :: rest =>
          if isNameStart d then
            (scanAttribute (d :: rest)).bind fun first rest =>
              (scanAttributes fuel rest).map fun (more, isEmpty) => (first :: more, isEmpty)
          else (scanTagEnd (d :: rest)).map fun isEmpty => ([], isEmpty)
      else (scanTagEnd cs).map fun isEmpty => ([], isEmpty)

structure StartTag where
  name : List Char
  attributes : List RawAttribute
  isEmpty : Bool

/-- A start tag after its angle bracket. -/
def scanStartTag (cs : List Char) : Scan StartTag :=
  (scanQualifiedName cs).bind fun name rest =>
    (scanAttributes (rest.length + 1) rest).map fun (attributes, isEmpty) => ⟨name, attributes, isEmpty⟩

/-- The raw name in an end tag, after `</`. Colons need no care, for the name has to match. -/
def scanEndTag (cs : List Char) : Scan (List Char) :=
  (expect isNameStart cs).bind fun c rest =>
    let inName (d : Char) := isNameChar d || d = ':'
    let name := c :: rest.takeWhile inName
    (expect (· = '>') ((rest.dropWhile inName).dropWhile isSpace)).map fun _ => name

/-! ## Comments, instructions and character data -/

/-- A comment after `<!-`. Two hyphens only end it. -/
def scanCommentText : List Char → Scan Unit
  | [] => .unfinished
  | '-' :: '-' :: rest => (expect (· = '>') rest).map fun _ => ()
  | ['-'] => .unfinished
  | c :: rest => if isExcluded c then .invalid (c :: rest) else scanCommentText rest

def scanComment (cs : List Char) : Scan Unit :=
  (expect (· = '-') cs).bind fun _ rest => scanCommentText rest

/-- The text of an instruction up to `?>`. -/
def scanInstructionText : List Char → Scan (List Char)
  | [] => .unfinished
  | '?' :: '>' :: rest => .done [] rest
  | ['?'] => .unfinished
  | c :: rest => if isExcluded c then .invalid (c :: rest) else (scanInstructionText rest).map (c :: ·)

inductive Instruction where
  | processing
  /-- The XML declaration, by what stands after its target. -/
  | declaration (text : List Char)
deriving Repr

/-- An instruction after `<?`. The target `xml` is the declaration's; no other spelling of it may
be used. -/
def scanInstruction (cs : List Char) : Scan Instruction :=
  (scanName cs).bind fun target rest =>
    let isDeclaration := target = ['x', 'm', 'l']
    let isReserved := !isDeclaration && (target.map Char.toLower) = ['x', 'm', 'l']
    let result (text : List Char) : Instruction := if isDeclaration then .declaration text else .processing
    match rest with
    | [] => .unfinished
    | '?' :: more =>
      if isReserved then .invalid rest
      else (expect (· = '>') more).map fun _ => result []
    | c :: more =>
      if isSpace c then
        if isReserved then .invalid rest
        else (scanInstructionText more).map fun text => result (c :: text)
      else .invalid rest

/-- Character data of a CDATA section up to `]]>`; `none` if it is not closed. -/
def scanCdata : List Char → Scan (Option (List Char))
  | [] => .done none []
  | ']' :: ']' :: '>' :: rest => .done (some []) rest
  | [']', ']'] => .done none [']', ']']
  | [']'] => .done none [']']
  | ['\r'] => .done none ['\r']
  | c :: rest =>
    if isExcluded c then .invalid (c :: rest) else (scanCdata rest).map fun text => text.map (c :: ·)

/-- A run of character data, up to a tag, a reference or the end. It may not hold `]]>`. -/
def scanText : List Char → Scan (List Char)
  | [] => .done [] []
  | ']' :: ']' :: '>' :: rest => .invalid ('>' :: rest)
  | c :: rest =>
    if c = '<' || c = '&' then .done [] (c :: rest)
    else if isExcluded c then .done [] (c :: rest)
    else (scanText rest).map (c :: ·)

/-- Carriage returns, alone or before a line feed, are line feeds. -/
def normalizeNewlines : List Char → List Char
  | [] => []
  | '\r' :: '\n' :: cs => '\n' :: normalizeNewlines cs
  | '\r' :: cs => '\n' :: normalizeNewlines cs
  | c :: cs => c :: normalizeNewlines cs

inductive Token where
  | startTag (tag : StartTag)
  | endTag (name : List Char)
  | text (chars : List Char)
  /-- A CDATA section, `none` if it is not closed. -/
  | cdata (chars : Option (List Char))
  | reference (r : Reference)
  | comment
  | instruction (i : Instruction)

/-- The next token of content that is not empty. -/
def scanContent : List Char → Scan Token
  | [] => .unfinished
  | '<' :: '!' :: '-' :: rest => (scanComment rest).map fun _ => .comment
  | '<' :: '!' :: '[' :: rest =>
    if rest.length < 6 then .unfinished
    else (word "CDATA[".toList rest).bind fun _ rest => (scanCdata rest).map .cdata
  | '<' :: '!' :: rest => (expect (fun _ => false) rest).map fun _ => .comment
  | '<' :: '?' :: rest => (scanInstruction rest).map .instruction
  | '<' :: '/' :: rest => (scanEndTag rest).map .endTag
  | '<' :: rest => (scanStartTag rest).map .startTag
  | '&' :: rest => (scanReference rest).map .reference
  | c :: rest => if isExcluded c then .invalid (c :: rest) else (scanText (c :: rest)).map .text

end ApiDoc.Xml
