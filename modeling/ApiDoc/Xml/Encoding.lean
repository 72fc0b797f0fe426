import ApiDoc.Xml.CodePage
import ApiDoc.Xml.Reader

/-!
# Documents as bytes

The first bytes of a document tell whether it is in UTF-8 or in UTF-16, with or without a byte order
mark; the encoding that its XML declaration names then holds for what follows. Bytes that are no
character are read as a character that no document may hold.
-/

namespace ApiDoc.Xml

/-- How the bytes of a document end. -/
inductive Tail where
  /-- With a whole character. -/
  | whole
  /-- Within a character. -/
  | partialCharacter
  /-- Within a code unit. -/
  | partialUnit
deriving DecidableEq, Repr

/-- A character and then more. -/
def Tail.after (c : Char) (r : List Char × Tail) : List Char × Tail := (c :: r.1, r.2)

/-! ## UTF-8 -/

/-- The number of bytes that a leading byte announces. -/
def sequenceLength (b : Nat) : Nat :=
  if b < 0x80 then 1 else if b < 0xc0 then 0 else if b < 0xe0 then 2 else if b < 0xf0 then 3
  else if b < 0xf5 then 4 else 0

def isContinuation (b : Nat) : Bool := 0x80 ≤ b && b < 0xc0

/-- The code point of a sequence, unless it is malformed: longer than it need be, a surrogate, or
beyond the last code point. -/
def codePoint? (bytes : List Nat) : Option Nat :=
  match bytes with
  | [a] => some a
  | [a, b] =>
    let n := (a - 0xc0) * 0x40 + (b - 0x80)
    if isContinuation b && 0x80 ≤ n then some n else none
  | [a, b, c] =>
    let n := ((a - 0xe0) * 0x40 + (b - 0x80)) * 0x40 + (c - 0x80)
    if isContinuation b && isContinuation c && 0x800 ≤ n && (n < 0xd800 || 0xe000 ≤ n) then some n else none
  | [a, b, c, d] =>
    let n := (((a - 0xf0) * 0x40 + (b - 0x80)) * 0x40 + (c - 0x80)) * 0x40 + (d - 0x80)
    if isContinuation b && isContinuation c && isContinuation d && 0x10000 ≤ n && n < 0x110000 then some n
    else none
  | _ => none

def utf8From : Nat → List Nat → List Char × Tail
  | 0, _ => ([], .whole)
  | _, [] => ([], .whole)
  | fuel + 1, b :: rest =>
    let size := sequenceLength b
    if size = 0 then Tail.after strayByte (utf8From fuel rest)
    else if rest.length + 1 < size then ([], .partialCharacter)
    else match codePoint? (b :: rest.take (size - 1)) with
      | some n => Tail.after (Char.ofNat n) (utf8From fuel (rest.drop (size - 1)))
      | none => Tail.after malformed (utf8From fuel rest)

/-! ## UTF-16 -/

def utf16From (bigEndian : Bool) : Nat → List Nat → List Char × Tail
  | 0, _ => ([], .whole)
  | _, [] => ([], .whole)
  | _, [_] => ([], .partialUnit)
  | fuel + 1, a :: b :: rest =>
    let unit (x y : Nat) := if bigEndian then x * 256 + y else y * 256 + x
    let n := unit a b
    if 0xd800 ≤ n && n < 0xdc00 then
      match rest with
      | c :: d :: more =>
        let low := unit c d
        if 0xdc00 ≤ low && low < 0xe000 then
          Tail.after (Char.ofNat (0x10000 + (n - 0xd800) * 0x400 + (low - 0xdc00)))
            (utf16From bigEndian fuel more)
        else Tail.after malformed (utf16From bigEndian fuel rest)
      | [_] => ([], .partialUnit)
      | [] => ([], .partialCharacter)
    else if 0xdc00 ≤ n && n < 0xe000 then Tail.after strayByte (utf16From bigEndian fuel rest)
    else Tail.after (Char.ofNat n) (utf16From bigEndian fuel rest)

/-! ## Encodings -/

inductive Encoding where
  | utf8
  | utf16 (bigEndian : Bool)
  | singleByte (page : CodePage)

namespace Encoding

def decode (encoding : Encoding) (bytes : List Nat) : List Char × Tail :=
  match encoding with
  | .utf8 => utf8From (bytes.length + 1) bytes
  | .utf16 bigEndian => utf16From bigEndian (bytes.length + 1) bytes
  | .singleByte page => (bytes.map fun b => (page.char? b).getD strayByte, .whole)

/-- The number of bytes that ASCII characters take, after a byte order mark or without one. -/
def width (encoding : Encoding) (cs : List Char) : Nat :=
  match encoding with
  | .utf16 _ => 2 * cs.length
  | _ => cs.foldl (fun n c => n + if c.toNat = 0xfeff then 3 else 1) 0

/-- The encoding that the first bytes show. -/
def detect (bytes : List Nat) : Encoding :=
  match bytes with
  | 0xfe :: 0xff :: _ => .utf16 true
  | 0xff :: 0xfe :: _ => .utf16 false
  | 0 :: _ :: _ => .utf16 true
  | _ :: 0 :: _ => .utf16 false
  | _ => .utf8

/-- The form by which names of encodings are looked up. -/
def normalName (name : List Char) : String :=
  let words := name.splitBy fun a b => (a.isAlphanum || a = '.') == (b.isAlphanum || b = '.')
  let words := words.filter fun word => word.any fun c => c.isAlphanum || c = '.'
  String.ofList (List.intercalate ['_'] (words.map fun word => word.map Char.toLower))

/-- Why a declared encoding is of no use. -/
inductive Refusal where
  /-- Nobody knows it. -/
  | unknown
  /-- Its characters are not single bytes. -/
  | multiByte
  /-- It contradicts what the first bytes show. -/
  | contradicted
  /-- It differs from ASCII where markup needs it. -/
  | foreign
deriving DecidableEq, Repr

/-- The encoding after a declaration that names one. -/
def declared (found : Encoding) (name : List Char) : Except Refusal Encoding :=
  let isWide := match found with
    | .utf16 _ => true
    | _ => false
  let narrow (encoding : Encoding) : Except Refusal Encoding :=
    if isWide then .error .contradicted else .ok encoding
  match String.ofList (name.map Char.toLower) with
  | "utf-8" => narrow .utf8
  | "us-ascii" => narrow (.singleByte .ascii)
  | "iso-8859-1" => narrow (.singleByte ⟨"", []⟩)
  | "utf-16" => if isWide then .ok found else .error .contradicted
  | "utf-16be" =>
    match found with
    | .utf16 true => .ok found
    | _ => .error .contradicted
  | "utf-16le" =>
    match found with
    | .utf16 false => .ok found
    | _ => .error .contradicted
  | _ =>
    let normal := normalName name
    let isListed (names : String) := (CodePage.mk names []).isNamed normal
    if isListed multiByteNames then .error .multiByte
    else if isListed foreignNames then .error .foreign
    else match CodePage.all.find? (·.isNamed normal) with
      | some page => .ok (.singleByte page)
      | none => .error .unknown

end Encoding

/-! ## Reading -/

/-- Why bytes could not be read as a document. -/
inductive ReadFailure where
  | illFormed (e : SyntaxError)
  | encodingUnknown
  | encodingUnsupported
deriving Repr

/-- Bytes that cannot be told to be of any encoding yet. -/
def isTooShort (bytes : List Nat) : Bool :=
  bytes = [0] || bytes = [0xef] || bytes = [0xfe] || bytes = [0xff] || bytes = [0xef, 0xbb]

/-- What a document that ends within a character or unit is faulted for: of its whole characters
alone a fault at their end says that more was expected there. -/
def faultTail (tail : Tail) (r : Except Problem Node) : Except Problem Node :=
  let fault : Option Cause := match tail with
    | .whole => none
    | .partialCharacter => some .partialCharacter
    | .partialUnit => some .unclosedToken
  match fault with
  | none => r
  | some cause =>
    match r with
    | .ok _ => .error ⟨cause, []⟩
    | .error p =>
      if p.cause = .noElement || p.cause = .unclosedToken || p.cause = .unclosedCdata then
        .error { p with cause }
      else r

def readNumbers (bytes : List Nat) : Except ReadFailure Node :=
  let found := Encoding.detect bytes
  let (cs, tail) := found.decode bytes
  let fail {α : Type} (p : Problem) : Except ReadFailure α := .error (.illFormed (p.locate cs))
  if isTooShort bytes then fail ⟨.unclosedToken, cs⟩
  else match openingDeclaration (skipMark cs) with
  | .error p => fail p
  | .ok (declaration, rest) =>
    match declaration.bind XmlDeclaration.encoding with
    | none => (faultTail tail (readBody declaration rest)).mapError fun p => .illFormed (p.locate cs)
    | some (name, place) =>
      match found.declared name with
      | .error .unknown => .error .encodingUnknown
      | .error .multiByte => .error .encodingUnsupported
      | .error .contradicted => fail ⟨.incorrectEncoding, place⟩
      | .error .foreign => fail ⟨.unknownEncoding, place⟩
      | .ok encoding =>
        -- places are counted in the declared encoding from the first byte on
        let size := found.width (cs.take (cs.length - rest.length))
        let (head, _) := encoding.decode (bytes.take size)
        let (rest, tail) := encoding.decode (bytes.drop size)
        (faultTail tail (readBody declaration rest)).mapError fun p => .illFormed (p.locate (head ++ rest))

/-- The root element of a document given as bytes. -/
def readBytes (bytes : List UInt8) : Except ReadFailure Node := readNumbers (bytes.map UInt8.toNat)

end ApiDoc.Xml
