import ApiDoc.Data.Display

/-!
# What can go wrong

Missing documentation is no error. An error is metadata outside the supported set, a source that
cannot be parsed, or configuration that cannot be used. Each has a code in the range of its family.
-/

namespace ApiDoc

/-- A value named in a message: in plain form and in quoted form. -/
structure Exhibit where
  plain : String
  quoted : String
deriving DecidableEq, Repr

namespace Exhibit

def ofData (d : Data) : Exhibit := ⟨d.display, d.literal⟩

def ofText (s : String) : Exhibit := ofData (.text s)

/-- A symbol category, which is shown with both its constant and its label. -/
def ofCategory (constant label : String) : Exhibit :=
  ⟨"SymbolKind." ++ constant, "<SymbolKind." ++ constant ++ ": " ++ Text.quoted label ++ ">"⟩

end Exhibit

inductive Error where
  /-- A configuration file cannot be read as a mapping. -/
  | configUnreadable (path reason : String)
  /-- A configuration value is refused. -/
  | configInvalid (field value reason : String)
  /-- A documentation source could not be fetched. -/
  | sourceUnavailable (unit reason : String)
  /-- A documentation source is no well-formed XML. -/
  | sourceMalformed (unit reason : String)
  /-- A symbol outside the closed set was used where only those have a meaning. -/
  | unsupportedKind (kind : Exhibit)
  /-- A type reference has an unknown shape, or lacks the element its shape needs. -/
  | unsupportedShape (shape : Exhibit)
  | detachedMember (name : String)
  /-- Members to be documented together belong to different types. -/
  | mixedMembers (name : String) (owners : List String)
  | unexpected (reason : String) (details : Data.Entries)
  /-- Fetching a source failed for a reason of its own. -/
  | sourceFailed
  /-- A fetched source is neither text nor bytes nor an element. -/
  | sourceUnusable
  /-- A source declares an encoding nobody knows. -/
  | encodingUnknown
  /-- A source declares an encoding whose characters are not single bytes. -/
  | encodingUnsupported
  /-- A type parameter has a position before the first argument. -/
  | positionOutOfRange
  /-- The operation is not defined for this kind of symbol. -/
  | notApplicable
deriving Repr

namespace Error

/-- The families of errors that have a code. -/
inductive Family where
  | config | documentation | contract | internal
deriving DecidableEq, Repr

structure Code where
  number : Nat
  name : String
  family : Family
deriving DecidableEq, Repr

/-- The code of an error; failures of a source's own have none. -/
def code? : Error → Option Code
  | .configUnreadable .. => some ⟨2001, "CONFIG_PARSE_ERROR", .config⟩
  | .configInvalid .. => some ⟨2002, "CONFIG_INVALID_VALUE", .config⟩
  | .sourceUnavailable .. => some ⟨3001, "DOCUMENTATION_UNAVAILABLE", .documentation⟩
  | .sourceMalformed .. => some ⟨3002, "DOCUMENTATION_MALFORMED", .documentation⟩
  | .unsupportedKind .. | .unsupportedShape .. | .detachedMember .. | .mixedMembers .. =>
    some ⟨9101, "CONTRACT_VIOLATION", .contract⟩
  | .unexpected .. => some ⟨9001, "INTERNAL_ERROR", .internal⟩
  | _ => none

def message : Error → String
  | .configUnreadable path reason => "Failed to parse config at " ++ path ++ ": " ++ reason
  | .configInvalid field _ reason => "Invalid value for '" ++ field ++ "': " ++ reason
  | .sourceUnavailable unit reason =>
    "Documentation source for '" ++ unit ++ "' could not be read: " ++ reason
  | .sourceMalformed unit reason =>
    "Documentation source for '" ++ unit ++ "' is malformed: " ++ reason
  | .unsupportedKind kind => "Unsupported symbol kind: " ++ kind.quoted
  | .unsupportedShape shape => "Unsupported type shape: " ++ shape.quoted
  | .detachedMember name => "Member '" ++ name ++ "' is not attached to a declaring type"
  | .mixedMembers name owners =>
    "Members grouped as '" ++ name ++ "' are declared on different types: "
      ++ String.intercalate ", " owners
  | .unexpected reason _ => "Internal error: " ++ reason
  | .sourceFailed => "the source failed"
  | .sourceUnusable => "the source is neither text nor bytes nor an element"
  | .encodingUnknown => "unknown encoding"
  | .encodingUnsupported => "multi-byte encodings are not supported"
  | .positionOutOfRange => "position out of range"
  | .notApplicable => "not applicable to this symbol"

/-- The parts of the message by name. -/
def details : Error → Data.Entries
  | .configUnreadable path reason => [(.text "path", .text path), (.text "reason", .text reason)]
  | .configInvalid field value reason =>
    [(.text "field", .text field), (.text "value", .text value), (.text "reason", .text reason)]
  | .sourceUnavailable unit reason | .sourceMalformed unit reason =>
    [(.text "unit", .text unit), (.text "reason", .text reason)]
  | .unsupportedKind kind => [(.text "kind", .text kind.plain)]
  | .unsupportedShape shape => [(.text "shape", .text shape.plain)]
  | .detachedMember name => [(.text "member", .text name)]
  | .mixedMembers name owners =>
    [(.text "member", .text name), (.text "owners", .list (owners.map Data.text))]
  | .unexpected _ details => details
  | _ => []

/-- The code in brackets, its name and the message. -/
def display (e : Error) : String :=
  match e.code? with
  | some code => "[" ++ toString code.number ++ "] " ++ code.name ++ ": " ++ e.message
  | none => e.message

/-- The error as a record. No error is worth a retry. -/
def toData (e : Error) : Data :=
  match e.code? with
  | some code => .map [(.text "code", .int code.number), (.text "error", .text code.name),
      (.text "message", .text e.message), (.text "retryable", .bool false),
      (.text "details", .map e.details)]
  | none => .map [(.text "message", .text e.message)]

end Error

end ApiDoc
