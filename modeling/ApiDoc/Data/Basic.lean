import ApiDoc.Number.Binary64

/-!
# Plain data

The values that configuration files, environment variables, default values and log records hold:
scalars, lists, and maps whose entries keep the order in which their keys came.
-/

namespace ApiDoc

/-- An offset from universal time in seconds, or none for a local time. -/
abbrev ZoneOffset := Option Int

structure Date where
  year : Nat
  month : Nat
  day : Nat
deriving DecidableEq, Repr

/-- A date with a time of day. -/
structure Moment where
  date : Date
  hour : Nat
  minute : Nat
  second : Nat
  microsecond : Nat
  zone : ZoneOffset
deriving DecidableEq, Repr

inductive Scalar where
  | null
  | bool (b : Bool)
  | int (n : Int)
  | float (x : Number.Binary64)
  | text (s : String)
  | bytes (bs : List UInt8)
  | date (d : Date)
  | moment (m : Moment)
deriving DecidableEq, Repr

/-- The form of a scalar by which map keys are compared: numbers that are equal are one key, and a
truth value counts as 0 or 1. -/
def Scalar.keyForm : Scalar → Scalar
  | .bool b => .int (if b then 1 else 0)
  | .float x =>
    match x.toInt? with
    | some n => .int n
    | none => .float x
  | s => s

inductive Data where
  | scalar (s : Scalar)
  | list (items : List Data)
  | tuple (items : List Data)
  | set (items : List Scalar)
  | map (entries : List (Scalar × Data))
deriving Repr

namespace Data

abbrev null : Data := .scalar .null
abbrev bool (b : Bool) : Data := .scalar (.bool b)
abbrev int (n : Int) : Data := .scalar (.int n)
abbrev text (s : String) : Data := .scalar (.text s)

instance : Inhabited Data := ⟨null⟩

/-- The entries of a map. -/
abbrev Entries := List (Scalar × Data)

namespace Entries

/-- The value at a key. -/
def get? (entries : Entries) (key : Scalar) : Option Data :=
  match entries with
  | [] => none
  | (k, v) :: rest => if k.keyForm = key.keyForm then some v else get? rest key

/-- Sets the value at a key: in place if the key is there, else at the end. -/
def put (entries : Entries) (key : Scalar) (value : Data) : Entries :=
  match entries with
  | [] => [(key, value)]
  | (k, v) :: rest =>
    if k.keyForm = key.keyForm then (k, value) :: rest else (k, v) :: put rest key value

end Entries

/-- A map with the given entries; of entries with one key the last counts, at the place of the
first. -/
def ofEntries (entries : Entries) : Data :=
  .map (entries.foldl (fun acc (k, v) => Entries.put acc k v) [])

/-- The value at a text key of a map. -/
def field? (d : Data) (key : String) : Option Data :=
  match d with
  | .map entries => Entries.get? entries (.text key)
  | _ => none

/-- What an absent value may stand for: null, false, zero, and everything empty. -/
def isVoid : Data → Bool
  | .scalar .null => true
  | .scalar (.bool b) => !b
  | .scalar (.int n) => n = 0
  | .scalar (.float (.finite _ s _)) => s = 0
  | .scalar (.text s) => s.isEmpty
  | .scalar (.bytes bs) => bs.isEmpty
  | .list items | .tuple items => items.isEmpty
  | .set items => items.isEmpty
  | .map entries => entries.isEmpty
  | _ => false

end Data

end ApiDoc
