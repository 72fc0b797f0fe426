import ApiDoc.Json.Printer
import ApiDoc.Log.Record
import ApiDoc.Text.Blank

/-!
# Lines of a log

A record as outputs write it: one JSON object, or a line for people with the time, the level and the
event before the particulars, which are sorted by name.
-/

namespace ApiDoc.Log

/-- Where a record comes from: the logger by name, the time, and the run it belongs to. -/
structure Origin where
  logger : Option String := none
  time : String
  run : Option String := none

/-- Sets an entry by name. -/
def putNamed (entries : Data.Entries) (name : String) (value : Data) : Data.Entries :=
  Data.Entries.put entries (.text name) value

/-- All that is known of a record. The event, the level and the time are those of the record even
if a particular has such a name. -/
def Record.entries (r : Record) (o : Origin) : Data.Entries :=
  let named : Data.Entries := o.logger.elim [] fun name => [(.text "logger_name", .text name)]
  let particulars := r.fields.foldl (fun found (name, value) => putNamed found name value) named
  let stamped := putNamed (putNamed (putNamed particulars "event" (.text r.event)) "level" (.text r.level.tag))
    "timestamp" (.text o.time)
  o.run.elim stamped fun run => putNamed stamped "run_id" (.text run)

/-! ## For programs -/

def jsonLine (entries : Data.Entries) : String := Json.write (.map entries)

/-! ## For people -/

/-- Characters that a bare text may not hold. -/
def isDelimiter (c : Char) : Bool := [' ', '\t', '=', '\r', '\n', '"', '\''].contains c

/-- A value: text is bare unless that could be misread. -/
def valueText : Data → String
  | .scalar (.text s) => if s.toList.any isDelimiter then Text.quoted s else s
  | d => d.literal

/-- The columns before the particulars. -/
def leadingColumns : List (String × (String → String)) :=
  let bracketed (s : String) := "[" ++ s ++ "]"
  [("timestamp", id), ("level", bracketed), ("event", id), ("logger", bracketed), ("logger_name", bracketed)]

/-- The particulars that follow the line on lines of their own. -/
def attachments : List String := ["stack", "exception"]

/-- Particulars that no line for people shows. -/
def hidden : List String := ["exc_info"]

def isParticular (name : String) : Bool :=
  !(leadingColumns.map Prod.fst ++ attachments ++ hidden).contains name

/-- The particulars as `name=value`, sorted by name. -/
def particularColumns (entries : Data.Entries) : List String :=
  let particulars := entries.filterMap fun (key, value) =>
    match key with
    | .text name => if isParticular name then some (name, value) else none
    | _ => none
  (particulars.mergeSort fun a b => a.1 ≤ b.1).map fun (name, value) => name ++ "=" ++ valueText value

def isAbsent : Data → Bool
  | .scalar .null => true
  | _ => false

/-- What an entry adds below the line. -/
def attachment? (entries : Data.Entries) (name : String) : Option String :=
  ((Data.Entries.get? entries (.text name)).filter fun d => !isAbsent d).map Data.display

/-- The rule between a stack and an exception. -/
def rule : String := "\n\n" ++ String.ofList (List.replicate 79 '=') ++ "\n"

def attachmentText (entries : Data.Entries) : String :=
  match attachment? entries "stack", attachment? entries "exception" with
  | none, none => ""
  | some stack, none => "\n" ++ stack
  | none, some exception => "\n" ++ exception
  | some stack, some exception => "\n" ++ stack ++ rule ++ "\n" ++ exception

def dropEndSpaces (s : String) : String := String.ofList (Text.trimEndChars (· = ' ') s.toList)

def consoleLine (entries : Data.Entries) : String :=
  let leading := leadingColumns.filterMap fun (name, write) =>
    (Data.Entries.get? entries (.text name)).map fun value => write value.display
  let columns := (leading ++ particularColumns entries).filter fun column => !column.isEmpty
  dropEndSpaces (String.intercalate " " columns) ++ attachmentText entries

end ApiDoc.Log
