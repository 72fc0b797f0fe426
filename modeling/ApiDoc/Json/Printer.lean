import ApiDoc.Data.Display

/-!
# Writing JSON

One line of ASCII: a blank after each comma and colon, and every other character as one or two
escaped code units.
-/

namespace ApiDoc.Json

open ApiDoc

def escapeUnit (n : Nat) : List Char := '\\' :: 'u' :: Text.hexDigits 4 n

def escapeChar (c : Char) : List Char :=
  match c with
  | '"' => ['\\', '"']
  | '\\' => ['\\', '\\']
  | '\n' => ['\\', 'n']
  | '\r' => ['\\', 'r']
  | '\t' => ['\\', 't']
  | '\x08' => ['\\', 'b']
  | '\x0c' => ['\\', 'f']
  | c =>
    let n := c.toNat
    if 0x20 ≤ n && n < 0x7f then [c]
    else if n < 0x10000 then escapeUnit n
    else escapeUnit (0xd800 + (n - 0x10000) / 0x400) ++ escapeUnit (0xdc00 + (n - 0x10000) % 0x400)

def writeString (s : String) : String := String.ofList ('"' :: s.toList.flatMap escapeChar ++ ['"'])

def jsonFloat : Number.Binary64.Layout := { floatLayout with notNumber := "NaN", infinity := "Infinity" }

/-- A scalar that has no JSON form of its own is written as the text it is shown by. -/
def writeScalar : Scalar → String
  | .null => "null"
  | .bool b => if b then "true" else "false"
  | .int n => toString n
  | .float x => jsonFloat.text x
  | .text s => writeString s
  | s => writeString s.display

/-- Keys are text; other scalars are spelled out. -/
def writeKey : Scalar → String
  | .text s => writeString s
  | s => writeString (writeScalar s)

mutual

def write : Data → String
  | .scalar s => writeScalar s
  | .list items | .tuple items => "[" ++ String.intercalate ", " (writeItems items) ++ "]"
  | .set items => "[" ++ String.intercalate ", " (items.map writeScalar) ++ "]"
  | .map entries => "\x7b" ++ String.intercalate ", " (writeEntries entries) ++ "\x7d"

def writeItems : List Data → List String
  | [] => []
  | item :: rest => write item :: writeItems rest

def writeEntries : List (Scalar × Data) → List String
  | [] => []
  | (key, value) :: rest => (writeKey key ++ ": " ++ write value) :: writeEntries rest

end

end ApiDoc.Json
