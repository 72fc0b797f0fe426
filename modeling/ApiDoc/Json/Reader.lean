import ApiDoc.Data.Basic

/-!
# Reading JSON

`Json.read?` reads one JSON document. A number with a fraction or an exponent is a float, every
other number an integer of any size; `NaN` and the infinities are accepted by name.
-/

namespace ApiDoc.Json

open ApiDoc

def isSpace (c : Char) : Bool := c = ' ' || c = '\t' || c = '\n' || c = '\r'

def skipSpace (cs : List Char) : List Char := cs.dropWhile isSpace

/-- Takes a fixed word off the front. -/
def word? (word cs : List Char) : Option (List Char) :=
  if word.isPrefixOf cs then some (cs.drop word.length) else none

def hexValue? (c : Char) : Option Nat :=
  if '0' ≤ c && c ≤ '9' then some (c.toNat - '0'.toNat)
  else if 'a' ≤ c && c ≤ 'f' then some (c.toNat - 'a'.toNat + 10)
  else if 'A' ≤ c && c ≤ 'F' then some (c.toNat - 'A'.toNat + 10)
  else none

def hex4? : List Char → Option (Nat × List Char)
  | a :: b :: c :: d :: rest => do
    let a ← hexValue? a
    let b ← hexValue? b
    let c ← hexValue? c
    let d ← hexValue? d
    some (((a * 16 + b) * 16 + c) * 16 + d, rest)
  | _ => none

/-- The character of a code unit, or of a high surrogate followed by an escaped low one. A
surrogate that stands alone reads as the replacement character. -/
def unit? (cs : List Char) : Option (Char × List Char) := do
  let (high, rest) ← hex4? cs
  if 0xd800 ≤ high && high < 0xdc00 then
    match rest with
    | '\\' :: 'u' :: more =>
      match hex4? more with
      | some (low, rest') =>
        if 0xdc00 ≤ low && low < 0xe000 then
          some (Char.ofNat (0x10000 + (high - 0xd800) * 0x400 + (low - 0xdc00)), rest')
        else some (Char.ofNat 0xfffd, rest)
      | none => some (Char.ofNat 0xfffd, rest)
    | _ => some (Char.ofNat 0xfffd, rest)
  else if 0xdc00 ≤ high && high < 0xe000 then some (Char.ofNat 0xfffd, rest)
  else some (Char.ofNat high, rest)

def escape? (c : Char) : Option Char :=
  match c with
  | '"' => some '"'
  | '\\' => some '\\'
  | '/' => some '/'
  | 'b' => some '\x08'
  | 'f' => some '\x0c'
  | 'n' => some '\n'
  | 'r' => some '\r'
  | 't' => some '\t'
  | _ => none

/-- The rest of a string after its opening quote, collected in reverse. -/
def stringRest? : Nat → List Char → List Char → Option (String × List Char)
  | 0, _, _ => none
  | fuel + 1, done, cs =>
    match cs with
    | [] => none
    | '"' :: rest => some (String.ofList done.reverse, rest)
    | '\\' :: 'u' :: rest => do
      let (c, rest) ← unit? rest
      stringRest? fuel (c :: done) rest
    | '\\' :: c :: rest => do
      let e ← escape? c
      stringRest? fuel (e :: done) rest
    | c :: rest => if c.toNat < 0x20 then none else stringRest? fuel (c :: done) rest

def string? (cs : List Char) : Option (String × List Char) := stringRest? (cs.length + 1) [] cs

def digitsValue (ds : List Char) : Nat := ds.foldl (fun n d => n * 10 + (d.toNat - '0'.toNat)) 0

def takeDigits (cs : List Char) : List Char × List Char := (cs.takeWhile Char.isDigit, cs.dropWhile Char.isDigit)

/-- The digits after a decimal point, if there are any. -/
def fraction (cs : List Char) : List Char × List Char :=
  match cs with
  | '.' :: rest =>
    match takeDigits rest with
    | ([], _) => ([], cs)
    | found => found
  | _ => ([], cs)

/-- The exponent after a number, if there is one. -/
def exponent? (cs : List Char) : Option Int × List Char :=
  match cs with
  | e :: rest =>
    if e = 'e' || e = 'E' then
      let (sign, rest) := match rest with
        | '-' :: r => (true, r)
        | '+' :: r => (false, r)
        | r => (false, r)
      match takeDigits rest with
      | ([], _) => (none, cs)
      | (ds, rest) => (some (if sign then -(digitsValue ds : Int) else digitsValue ds), rest)
    else (none, cs)
  | [] => (none, cs)

def number? (cs : List Char) : Option (Scalar × List Char) :=
  let (negative, cs) := match cs with
    | '-' :: rest => (true, rest)
    | _ => (false, cs)
  let whole := match cs with
    | '0' :: rest => (['0'], rest)
    | _ => takeDigits cs
  match whole with
  | ([], _) => none
  | (ds, rest) =>
    let (fs, rest) := fraction rest
    let (e, rest) := exponent? rest
    if fs.isEmpty && e.isNone then
      let n := digitsValue ds
      some (.int (if negative then -(n : Int) else n), rest)
    else
      some (.float (Number.Binary64.ofDecimal negative (digitsValue (ds ++ fs))
        (e.getD 0 - fs.length)), rest)

mutual

/-- Reads a value; `fuel` bounds the number of nested and successive items. -/
def value? : Nat → List Char → Option (Data × List Char)
  | 0, _ => none
  | fuel + 1, cs =>
    match skipSpace cs with
    | '"' :: rest => do
      let (s, rest) ← string? rest
      some (.text s, rest)
    | '[' :: rest =>
      match skipSpace rest with
      | ']' :: rest => some (.list [], rest)
      | _ => do
        let (items, rest) ← items? fuel rest
        some (.list items, rest)
    | '\x7b' :: rest =>
      match skipSpace rest with
      | '\x7d' :: rest => some (.map [], rest)
      | _ => do
        let (entries, rest) ← entries? fuel rest
        some (Data.ofEntries entries, rest)
    | cs =>
      (word? "null".toList cs).map (fun r => (Data.null, r))
      <|> (word? "true".toList cs).map (fun r => (Data.bool true, r))
      <|> (word? "false".toList cs).map (fun r => (Data.bool false, r))
      <|> (word? "NaN".toList cs).map (fun r => (.scalar (.float .nan), r))
      <|> (word? "Infinity".toList cs).map (fun r => (.scalar (.float (.infinite false)), r))
      <|> (word? "-Infinity".toList cs).map (fun r => (.scalar (.float (.infinite true)), r))
      <|> (number? cs).map (fun (n, r) => (.scalar n, r))

/-- Reads the items of a list up to its closing bracket. -/
def items? : Nat → List Char → Option (List Data × List Char)
  | 0, _ => none
  | fuel + 1, cs => do
    let (item, rest) ← value? fuel cs
    match skipSpace rest with
    | ',' :: rest => do
      let (items, rest) ← items? fuel rest
      some (item :: items, rest)
    | ']' :: rest => some ([item], rest)
    | _ => none

/-- Reads the entries of a map up to its closing brace. -/
def entries? : Nat → List Char → Option (Data.Entries × List Char)
  | 0, _ => none
  | fuel + 1, cs =>
    match skipSpace cs with
    | '"' :: rest => do
      let (key, rest) ← string? rest
      match skipSpace rest with
      | ':' :: rest => do
        let (value, rest) ← value? fuel rest
        match skipSpace rest with
        | ',' :: rest => do
          let (entries, rest) ← entries? fuel rest
          some ((.text key, value) :: entries, rest)
        | '\x7d' :: rest => some ([(.text key, value)], rest)
        | _ => none
      | _ => none
    | _ => none

end

/-- The value of a JSON document, if the text is one. -/
def read? (s : String) : Option Data :=
  let cs := s.toList
  match value? (cs.length + 1) cs with
  | some (value, rest) => if (skipSpace rest).isEmpty then some value else none
  | none => none

end ApiDoc.Json
