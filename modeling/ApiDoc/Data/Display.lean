import ApiDoc.Data.Basic
import ApiDoc.Number.Shortest
import ApiDoc.Text.Quoted

/-!
# The text of plain data

`Data.display` is how a value is shown in messages: text as it is, everything else as
`Data.literal` writes it. Inside lists and maps text is quoted.
-/

namespace ApiDoc

/-- Floats are written positionally from `0.0001` up to sixteen digits before the point, an
integer with one decimal place, and else with an exponent of at least two digits. -/
def floatLayout : Number.Binary64.Layout where
  least := -4
  most := 16
  integerSuffix := ['.', '0']
  exponentDigits := 2
  notNumber := "nan"
  infinity := "inf"

def twoDigits (n : Nat) : String := String.ofList (Number.Binary64.padLeft 2 (Nat.toDigits 10 n))

def paddedDigits (width n : Nat) : String :=
  String.ofList (Number.Binary64.padLeft width (Nat.toDigits 10 n))

/-- `2024-03-01` -/
def Date.display (d : Date) : String :=
  paddedDigits 4 d.year ++ "-" ++ twoDigits d.month ++ "-" ++ twoDigits d.day

/-- `+05:30`, with seconds only if there are any. -/
def offsetText (seconds : Int) : String :=
  let n := seconds.natAbs
  let rest := if n % 60 = 0 then "" else ":" ++ twoDigits (n % 60)
  (if seconds < 0 then "-" else "+") ++ twoDigits (n / 3600) ++ ":" ++ twoDigits (n / 60 % 60) ++ rest

/-- `2024-03-01 10:20:30`, with microseconds only if there are any. -/
def Moment.display (m : Moment) : String :=
  let fraction := if m.microsecond = 0 then "" else "." ++ paddedDigits 6 m.microsecond
  let zone := match m.zone with
    | none => ""
    | some seconds => offsetText seconds
  m.date.display ++ " " ++ twoDigits m.hour ++ ":" ++ twoDigits m.minute ++ ":" ++ twoDigits m.second
    ++ fraction ++ zone

/-- The arguments of a date constructor. -/
def Date.arguments (d : Date) : List String := [toString d.year, toString d.month, toString d.day]

/-- A zone as a constructor call: an offset in whole days and seconds. -/
def zoneLiteral (seconds : Int) : String :=
  if seconds = 0 then "datetime.timezone.utc"
  else if seconds < 0 then
    "datetime.timezone(datetime.timedelta(days=-1, seconds=" ++ toString (seconds + 86400) ++ "))"
  else "datetime.timezone(datetime.timedelta(seconds=" ++ toString seconds ++ "))"

def Moment.arguments (m : Moment) : List String :=
  let micro := if m.microsecond = 0 then [] else [toString m.microsecond]
  let second := if m.microsecond = 0 && m.second = 0 then [] else [toString m.second]
  let zone := match m.zone with
    | none => []
    | some seconds => ["tzinfo=" ++ zoneLiteral seconds]
  m.date.arguments ++ [toString m.hour, toString m.minute] ++ second ++ micro ++ zone

def byteChars (quote : Char) (b : UInt8) : List Char :=
  let c := Char.ofNat b.toNat
  if c = quote || c = '\\' then ['\\', c]
  else if c = '\n' then ['\\', 'n']
  else if c = '\r' then ['\\', 'r']
  else if c = '\t' then ['\\', 't']
  else if 32 ≤ b && b < 127 then [c]
  else '\\' :: 'x' :: Text.hexDigits 2 b.toNat

def bytesLiteral (bs : List UInt8) : String :=
  let quote := Text.quoteFor (bs.map fun b => Char.ofNat b.toNat)
  String.ofList ('b' :: quote :: bs.flatMap (byteChars quote) ++ [quote])

/-- A scalar as it is written inside other data. -/
def Scalar.literal : Scalar → String
  | .null => "None"
  | .bool true => "True"
  | .bool false => "False"
  | .int n => toString n
  | .float x => floatLayout.text x
  | .text s => Text.quoted s
  | .bytes bs => bytesLiteral bs
  | .date d => "datetime.date(" ++ String.intercalate ", " d.arguments ++ ")"
  | .moment m => "datetime.datetime(" ++ String.intercalate ", " m.arguments ++ ")"

/-- A scalar as it is shown by itself. -/
def Scalar.display : Scalar → String
  | .text s => s
  | .date d => d.display
  | .moment m => m.display
  | s => s.literal

namespace Data

mutual

/-- The written form of a value, in which text is quoted. -/
def literal : Data → String
  | .scalar s => s.literal
  | .list items => "[" ++ String.intercalate ", " (literals items) ++ "]"
  | .tuple [item] => "(" ++ literal item ++ ",)"
  | .tuple items => "(" ++ String.intercalate ", " (literals items) ++ ")"
  | .set [] => "set()"
  | .set items => "\x7b" ++ String.intercalate ", " (items.map Scalar.literal) ++ "\x7d"
  | .map entries => "\x7b" ++ String.intercalate ", " (entryLiterals entries) ++ "\x7d"

def literals : List Data → List String
  | [] => []
  | item :: rest => literal item :: literals rest

def entryLiterals : List (Scalar × Data) → List String
  | [] => []
  | (key, value) :: rest => (key.literal ++ ": " ++ literal value) :: entryLiterals rest

end

def display : Data → String
  | .scalar s => s.display
  | d => d.literal

end Data

end ApiDoc
