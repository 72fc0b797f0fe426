import ApiDoc.Data.Display

/-!
# Problems with settings

What is wrong with a value that was given for a setting, and where. Problems are collected: a check
of several parts reports those of all of them, in order.
-/

namespace ApiDoc.Settings

inductive Fault where
  /-- A section is no mapping. -/
  | noSection (name : String)
  | noInteger
  | noIntegerText
  | fractional
  | unbounded
  | noText
  | noList
  | noBoolean
  | noBooleanText
  /-- Not one of the given words. -/
  | noneOf (words : List String)
  /-- A value of the right type is refused. -/
  | refused (reason : String)
  /-- A path starts in the home of somebody whose home is not known. -/
  | noHome
  /-- No section has this name. -/
  | unknownSection
deriving DecidableEq, Repr

namespace Fault

/-- Words in single quotes, with commas between and `or` before the last. -/
def alternatives (words : List String) : String :=
  let quoted := words.map fun w => "'" ++ w ++ "'"
  match quoted.getLast? with
  | none => ""
  | some last =>
    if quoted.length = 1 then last else String.intercalate ", " quoted.dropLast ++ " or " ++ last

/-- The name of the kind of fault. -/
def kind : Fault → String
  | .noSection _ => "model_type"
  | .noInteger => "int_type"
  | .noIntegerText => "int_parsing"
  | .fractional => "int_from_float"
  | .unbounded => "finite_number"
  | .noText => "string_type"
  | .noList => "list_type"
  | .noBoolean => "bool_type"
  | .noBooleanText => "bool_parsing"
  | .noneOf _ => "literal_error"
  | .refused _ => "value_error"
  | .noHome => "runtime_error"
  | .unknownSection => "extra_forbidden"

def message : Fault → String
  | .noSection name => "Input should be a valid dictionary or instance of " ++ name
  | .noInteger => "Input should be a valid integer"
  | .noIntegerText => "Input should be a valid integer, unable to parse string as an integer"
  | .fractional => "Input should be a valid integer, got a number with a fractional part"
  | .unbounded => "Input should be a finite number"
  | .noText => "Input should be a valid string"
  | .noList => "Input should be a valid list"
  | .noBoolean => "Input should be a valid boolean"
  | .noBooleanText => "Input should be a valid boolean, unable to interpret input"
  | .noneOf words => "Input should be " ++ alternatives words
  | .refused reason => "Value error, " ++ reason
  | .noHome => "Could not determine home directory."
  | .unknownSection => "Extra inputs are not permitted"

end Fault

/-- A step into a value: a key or a number. -/
inductive Step where
  | key (name : String)
  | item (index : Nat)
deriving DecidableEq, Repr

def Step.display : Step → String
  | .key name => name
  | .item index => toString index

structure Problem where
  place : List Step
  fault : Fault
  input : Data
deriving Repr

namespace Problem

/-- The place with dots between the steps. -/
def location (p : Problem) : String := String.intercalate "." (p.place.map Step.display)

def under (step : Step) (p : Problem) : Problem := { p with place := step :: p.place }

end Problem

/-- The problems of a value that is refused: there is at least one. -/
structure Problems where
  first : Problem
  rest : List Problem := []
deriving Repr

namespace Problems

def toList (ps : Problems) : List Problem := ps.first :: ps.rest

def append (ps qs : Problems) : Problems := { ps with rest := ps.rest ++ qs.toList }

def map (f : Problem → Problem) (ps : Problems) : Problems := ⟨f ps.first, ps.rest.map f⟩

end Problems

/-- A checked value, or what is wrong with it. -/
abbrev Checked (α : Type) := Except Problems α

namespace Checked

def fail {α : Type} (fault : Fault) (input : Data) : Checked α := .error ⟨{ place := [], fault, input }, []⟩

/-- Both values, or the problems of both. -/
def both {α β : Type} (a : Checked α) (b : Checked β) : Checked (α × β) :=
  match a, b with
  | .ok a, .ok b => .ok (a, b)
  | .ok _, .error q => .error q
  | .error p, .ok _ => .error p
  | .error p, .error q => .error (p.append q)

/-- The same with problems one step further in. -/
def under {α : Type} (step : Step) (a : Checked α) : Checked α := a.mapError (·.map (Problem.under step))

/-- The values of all items, numbered from `index`, or the problems of all. -/
def items {α : Type} (check : Data → Checked α) (index : Nat) : List Data → Checked (List α)
  | [] => .ok []
  | d :: rest =>
    (both (under (.item index) (check d)) (items check (index + 1) rest)).map fun (a, more) => a :: more

/-- The value at a key, or one that stands for a missing value. -/
def field {α : Type} (entries : Data.Entries) (key : String) (missing : α) (check : Data → Checked α) :
    Checked α :=
  match Data.Entries.get? entries (.text key) with
  | some d => under (.key key) (check d)
  | none => .ok missing

end Checked

end ApiDoc.Settings
