import ApiDoc.Data.Basic

/-!
# What plain scalars mean

A plain scalar is a null, a truth value, a number, a date or a text by its form alone. `formOf` names
the form, and the readers give the value of a scalar of each form.
-/

namespace ApiDoc.Yaml

/-! ## Forms -/

inductive Form where
  | null | bool | int | float | timestamp
  /-- The mark by which a mapping takes over entries of others. -/
  | merge
  /-- The mark of a default value, which has no value of its own. -/
  | value
  | text
deriving DecidableEq, Repr

def nullWords : List String := ["", "~", "null", "Null", "NULL"]

def trueWords : List String := ["yes", "Yes", "YES", "true", "True", "TRUE", "on", "On", "ON"]
def falseWords : List String := ["no", "No", "NO", "false", "False", "FALSE", "off", "Off", "OFF"]

/-- Takes a sign off. -/
def unsigned (cs : List Char) : List Char :=
  match cs with
  | '+' :: rest | '-' :: rest => rest
  | cs => cs

def isDigitOr (c : Char) : Bool := c.isDigit || c = '_'

/-- Groups of at most two digits below sixty after colons. -/
def isSexagesimalTail (groups : List (List Char)) : Bool :=
  !groups.isEmpty && groups.all fun g =>
    match g with
    | [d] => d.isDigit
    | [t, d] => '0' ≤ t && t ≤ '5' && d.isDigit
    | _ => false

/-- The parts between the occurrences of a character. -/
def splitAt (sep : Char) (cs : List Char) : List (List Char) :=
  match cs with
  | [] => [[]]
  | c :: rest =>
    match splitAt sep rest with
    | part :: parts => if c = sep then [] :: part :: parts else (c :: part) :: parts
    | [] => [[c]]

/-- A digit other than zero, and then digits and underscores. -/
def isDecimalStart (cs : List Char) : Bool :=
  match cs with
  | c :: rest => '1' ≤ c && c ≤ '9' && rest.all isDigitOr
  | [] => false

def isBinaryDigit (c : Char) : Bool := c = '0' || c = '1' || c = '_'
def isOctalDigit (c : Char) : Bool := ('0' ≤ c && c ≤ '7') || c = '_'
def isHexDigit (c : Char) : Bool := c.isDigit || ('a' ≤ c && c ≤ 'f') || ('A' ≤ c && c ≤ 'F') || c = '_'

def isInteger (cs : List Char) : Bool :=
  match unsigned cs with
  | '0' :: 'b' :: rest => !rest.isEmpty && rest.all isBinaryDigit
  | '0' :: 'x' :: rest => !rest.isEmpty && rest.all isHexDigit
  | ['0'] => true
  | '0' :: rest => rest.all isOctalDigit
  | digits =>
    match splitAt ':' digits with
    | [whole] => isDecimalStart whole
    | whole :: groups => isDecimalStart whole && isSexagesimalTail groups
    | [] => false

/-- Nothing, or an exponent with its sign. -/
def isExponent (cs : List Char) : Bool :=
  match cs with
  | [] => true
  | e :: sign :: digits =>
    (e = 'e' || e = 'E') && (sign = '-' || sign = '+') && !digits.isEmpty && digits.all Char.isDigit
  | _ => false

/-- A digit, and then digits and underscores. -/
def isDigits (cs : List Char) : Bool :=
  match cs with
  | c :: rest => c.isDigit && rest.all isDigitOr
  | [] => false

def isFloat (cs : List Char) : Bool :=
  let body := unsigned cs
  let whole := body.takeWhile (· ≠ '.')
  match body.dropWhile (· ≠ '.') with
  | [] => false
  | _ :: decimals =>
    let digits := decimals.takeWhile isDigitOr
    let rest := decimals.dropWhile isDigitOr
    if whole.isEmpty then
      [".inf", ".Inf", ".INF"].contains (String.ofList body)
        || [".nan", ".NaN", ".NAN"].contains (String.ofList cs)
        || (body.length = cs.length && isDigits digits && isExponent rest)
    else
      match splitAt ':' whole with
      | [whole] => isDigits whole && isExponent rest
      | first :: groups => isDigits first && isSexagesimalTail groups && rest.isEmpty
      | [] => false

/-! ## Dates -/

/-- At least `least` and at most `most` digits, as a number. -/
def digits? (least most : Nat) (cs : List Char) : Option (Nat × List Char) :=
  let ds := (cs.takeWhile Char.isDigit).take most
  if ds.length < least then none
  else some (ds.foldl (fun n c => n * 10 + (c.toNat - '0'.toNat)) 0, cs.drop ds.length)

def char? (c : Char) (cs : List Char) : Option (List Char) :=
  match cs with
  | d :: rest => if c = d then some rest else none
  | [] => none

/-- The parts of a date or of a moment, which need not exist on the calendar. -/
structure Stamp where
  year : Nat
  month : Nat
  day : Nat
  /-- Hour, minute and second. -/
  time : Option (Nat × Nat × Nat) := none
  /-- The digits of a fraction of a second. -/
  fraction : List Char := []
  /-- The offset from universal time: its sign, hours and minutes. -/
  zone : Option (Bool × Nat × Nat) := none

def isBlank (c : Char) : Bool := c = ' ' || c = '\t'

/-- The zone at the end of a moment, after blanks. -/
def zone? (cs : List Char) : Option (Option (Bool × Nat × Nat)) :=
  if cs.isEmpty then some none
  else match cs.dropWhile isBlank with
  | ['Z'] => some (some (false, 0, 0))
  | sign :: rest =>
    if sign = '+' || sign = '-' then do
      let (hours, rest) ← digits? 1 2 rest
      match rest with
      | [] => some (some (sign = '-', hours, 0))
      | ':' :: rest => do
        let (minutes, rest) ← digits? 2 2 rest
        if rest.isEmpty then some (some (sign = '-', hours, minutes)) else none
      | _ => none
    else none
  | [] => none

def stamp? (cs : List Char) : Option Stamp := do
  let (year, rest) ← digits? 4 4 cs
  let rest ← char? '-' rest
  let (month, afterMonth) ← digits? 1 2 rest
  let monthDigits := rest.length - afterMonth.length
  let rest ← char? '-' afterMonth
  let (day, afterDay) ← digits? 1 2 rest
  let dayDigits := rest.length - afterDay.length
  match afterDay with
  | [] => if monthDigits = 2 && dayDigits = 2 then some { year, month, day } else none
  | c :: rest => do
    let rest ← if c = 'T' || c = 't' then some rest
      else if isBlank c then some (rest.dropWhile isBlank)
      else none
    let (hour, rest) ← digits? 1 2 rest
    let rest ← char? ':' rest
    let (minute, rest) ← digits? 2 2 rest
    let rest ← char? ':' rest
    let (second, rest) ← digits? 2 2 rest
    let (fraction, rest) := match rest with
      | '.' :: rest => (rest.takeWhile Char.isDigit, rest.dropWhile Char.isDigit)
      | rest => ([], rest)
    let zone ← zone? rest
    some { year, month, day, time := some (hour, minute, second), fraction, zone }

/-- The form of a plain scalar. -/
def formOf (s : String) : Form :=
  let cs := s.toList
  if trueWords.contains s || falseWords.contains s then .bool
  else if isFloat cs then .float
  else if isInteger cs then .int
  else if s = "<<" then .merge
  else if nullWords.contains s then .null
  else if (stamp? cs).isSome then .timestamp
  else if s = "=" then .value
  else .text

/-! ## Values -/

def decimal (cs : List Char) : Nat := cs.foldl (fun n c => n * 10 + (c.toNat - '0'.toNat)) 0

def digitValue (c : Char) : Nat :=
  if c.isDigit then c.toNat - '0'.toNat else c.toLower.toNat - 'a'.toNat + 10

/-- A number with a base; no digits at all are no number. -/
def inBase? (base : Nat) (cs : List Char) : Option Nat :=
  if cs.isEmpty || !cs.all isHexDigit || cs.any fun c => digitValue c ≥ base then none
  else some (cs.foldl (fun n c => n * base + digitValue c) 0)

def readInteger? (s : String) : Option Int := do
  let cs := s.toList.filter (· ≠ '_')
  let negative := cs.head? = some '-'
  let n ← match unsigned cs with
    | ['0'] => some 0
    | '0' :: 'b' :: rest => inBase? 2 rest
    | '0' :: 'x' :: rest => inBase? 16 rest
    | '0' :: rest => inBase? 8 rest
    | digits => do
      let parts ← (splitAt ':' digits).mapM (inBase? 10)
      some (parts.foldl (fun n part => n * 60 + part) 0)
  some (if negative then -(n : Int) else n)

/-- Digits, a point and an exponent as a number of units of a power of ten. -/
def decimalParts? (cs : List Char) : Option (Nat × Int) := do
  let mantissa := cs.takeWhile fun c => c ≠ 'e'
  let whole := mantissa.takeWhile (· ≠ '.')
  let decimals := (mantissa.dropWhile (· ≠ '.')).drop 1
  if !(whole ++ decimals).all Char.isDigit || (whole ++ decimals).isEmpty then none
  else
    let exponent : Int ← match cs.dropWhile fun c => c ≠ 'e' with
      | [] => some 0
      | _ :: rest =>
        let digits := unsigned rest
        if digits.isEmpty || !digits.all Char.isDigit then none
        else some (if rest.head? = some '-' then -(decimal digits : Int) else decimal digits)
    some (decimal (whole ++ decimals), exponent - decimals.length)

/-- The exact sum of sexagesimal parts, in units of the last part's power of ten. -/
def sexagesimal? (parts : List (List Char)) : Option (Nat × Int) := do
  let values ← parts.mapM decimalParts?
  let least := values.foldl (fun e (_, e') => min e e') 0
  let scaled := values.map fun (n, e) => n * Nat.pow 10 (e - least).toNat
  some (scaled.foldl (fun n v => n * 60 + v) 0, least)

def readFloat? (s : String) : Option Number.Binary64 := do
  let cs := (s.toList.filter (· ≠ '_')).map Char.toLower
  let negative := cs.head? = some '-'
  match String.ofList (unsigned cs) with
  | ".inf" => some (.infinite negative)
  | ".nan" => some .nan
  | _ => do
    let (digits, exponent) ← match splitAt ':' (unsigned cs) with
      | [number] => decimalParts? number
      | parts => sexagesimal? parts
    some (.ofDecimal negative digits exponent)

def isLeapYear (y : Nat) : Bool := y % 4 = 0 && (y % 100 ≠ 0 || y % 400 = 0)

def daysInMonth (y m : Nat) : Nat :=
  if m = 2 then (if isLeapYear y then 29 else 28)
  else if [4, 6, 9, 11].contains m then 30 else 31

/-- A date or a moment, if there is such a one. -/
def readStamp? (s : String) : Option Scalar := do
  let t ← stamp? s.toList
  if t.year = 0 || t.month = 0 || t.month > 12 || t.day = 0 || t.day > daysInMonth t.year t.month then none
  else
    let date : Date := ⟨t.year, t.month, t.day⟩
    match t.time with
    | none => some (.date date)
    | some (hour, minute, second) => do
      let microsecond := decimal ((t.fraction ++ List.replicate 6 '0').take 6)
      let zone : ZoneOffset := t.zone.map fun (west, hours, minutes) =>
        let offset : Int := hours * 3600 + minutes * 60
        if west then -offset else offset
      if hour ≥ 24 || minute ≥ 60 || second ≥ 60 || zone.any fun z => z.natAbs ≥ 86400 then none
      else some (.moment { date, hour, minute, second, microsecond, zone })

/-! ## Bytes -/

def base64Value? (c : Char) : Option Nat :=
  if 'A' ≤ c && c ≤ 'Z' then some (c.toNat - 'A'.toNat)
  else if 'a' ≤ c && c ≤ 'z' then some (c.toNat - 'a'.toNat + 26)
  else if c.isDigit then some (c.toNat - '0'.toNat + 52)
  else if c = '+' then some 62
  else if c = '/' then some 63
  else none

/-- The bytes of groups of four sextets; a last group of two or three must be padded. -/
def sextets? (padding : Nat) : List Nat → Option (List UInt8)
  | [] => some []
  | a :: b :: c :: d :: rest => do
    let n := ((a * 64 + b) * 64 + c) * 64 + d
    let more ← sextets? padding rest
    some (UInt8.ofNat (n / 65536) :: UInt8.ofNat (n / 256 % 256) :: UInt8.ofNat (n % 256) :: more)
  | [a, b, c] =>
    let n := (a * 64 + b) * 64 + c
    if padding ≥ 1 then some [UInt8.ofNat (n / 1024), UInt8.ofNat (n / 4 % 256)] else none
  | [a, b] => if padding ≥ 2 then some [UInt8.ofNat ((a * 64 + b) / 16)] else none
  | [_] => none

/-- Bytes in Base64; what is no sign of it is skipped. -/
def readBase64? (s : String) : Option (List UInt8) :=
  let cs := s.toList
  if cs.any fun c => c.toNat ≥ 128 then none
  else sextets? (cs.filter (· = '=')).length (cs.filterMap base64Value?)

end ApiDoc.Yaml
