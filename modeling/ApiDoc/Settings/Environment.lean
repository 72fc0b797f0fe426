import ApiDoc.Data.Merge
import ApiDoc.Json.Reader
import ApiDoc.Text.Letter

/-!
# Settings from the environment

A variable `DOCMARK__RENDER` holds a whole section as JSON, and `DOCMARK__RENDER__CODE_LANGUAGE` one
of its settings as text, or as JSON if the setting is a list. The names are read in any case. A
setting of its own wins over the same setting in the JSON of its section.
-/

namespace ApiDoc.Settings

/-- A group of settings, with the names of those that are lists and of the others. -/
structure Section where
  name : String
  plain : List String
  lists : List String

namespace Section

/-- The sections in the order in which they are checked. -/
def all : List Section :=
  [⟨"logging", ["level"], ["outputs"]⟩,
   ⟨"documentation", ["fail_on_malformed_source", "defer_tag"], []⟩,
   ⟨"render", ["summary_max_length", "signature_max_length", "code_language"],
     ["ignored_method_names", "ignored_attributes"]⟩]

def names : List String := all.map Section.name

/-- The setting that a name means, in whatever case it is written. -/
def setting (s : Section) (name : String) : String :=
  let wanted := Text.lowerText name
  if (s.plain ++ s.lists).contains wanted then wanted else name

end Section

/-! ## Variables -/

/-- Variables by name. -/
abbrev Environment := List (String × String)

/-- What the names of all variables for settings begin with. -/
def variablePrefix : String := "docmark__"

/-- Sets a variable, in its place if there is one of its name. -/
def Environment.put (env : Environment) (name value : String) : Environment :=
  match env with
  | [] => [(name, value)]
  | (n, v) :: rest => if n = name then (n, value) :: rest else (n, v) :: Environment.put rest name value

/-- The variables by their names in lowercase; of two names that differ in case only the last
counts. -/
def Environment.lower (env : Environment) : Environment :=
  env.foldl (fun found (name, value) => Environment.put found (Text.lowerText name) value) []

/-- The parts of a name between double underscores. -/
def nameParts : List Char → List (List Char)
  | [] => [[]]
  | '_' :: '_' :: rest => [] :: nameParts rest
  | c :: rest =>
    match nameParts rest with
    | part :: parts => (c :: part) :: parts
    | [] => [[c]]

/-! ## Sections -/

/-- Sets the value at a path, with maps on the way. If something else is on the way nothing is set. -/
def assign (entries : Data.Entries) (path : List String) (value : Data) : Data.Entries :=
  match path with
  | [] => entries
  | [last] => Data.Entries.put entries (.text last) value
  | key :: rest =>
    match Data.Entries.get? entries (.text key) with
    | none => Data.Entries.put entries (.text key) (.map (assign [] rest value))
    | some (.map inner) => Data.Entries.put entries (.text key) (.map (assign inner rest value))
    | some _ => entries

/-- The value of the variable for the setting at a path. A list is given as JSON unless the variable
is empty. -/
def settingData? (s : Section) (path : List String) (value : String) : Option Data :=
  match path with
  | [name] => if s.lists.contains name && !value.isEmpty then Json.read? value else some (.text value)
  | _ => some (.text value)

/-- The settings of a section that have variables of their own. -/
def ownSettings? (s : Section) (entries : Data.Entries) : Environment → Option Data.Entries
  | [] => some entries
  | (name, value) :: rest =>
    let start := (variablePrefix ++ s.name ++ "__").toList
    if start.isPrefixOf name.toList then do
      let path := (nameParts (name.toList.drop start.length)).map String.ofList
      let data ← settingData? s path value
      ownSettings? s (assign entries path data) rest
    else ownSettings? s entries rest

/-- Writes the keys of a section as its settings are called. -/
def nameSettings (s : Section) (entries : Data.Entries) : Data.Entries :=
  entries.foldl (fun found (key, value) =>
    let key := match key with
      | .text name => Scalar.text (s.setting name)
      | key => key
    Data.Entries.put found key value) []

/-- What the variables say of a section: nothing, or its data. -/
def sectionData? (s : Section) (env : Environment) : Option (Option Data) := do
  match env.lookup (variablePrefix ++ s.name) with
  | none =>
    let own ← ownSettings? s [] env
    some (if own.isEmpty then none else some (.map (nameSettings s own)))
  | some value =>
    match ← Json.read? value with
    | .map entries =>
      let own ← ownSettings? s [] env
      some (some (.map (nameSettings s (Data.Entries.merge entries own))))
    | .scalar .null => some none
    | d => some (some d)

/-- The settings in an environment, or the name of the section that cannot be read. -/
def Environment.settings (env : Environment) : Except String Data.Entries :=
  let lowered := env.lower
  let read (s : Section) : Except String Data.Entries :=
    match sectionData? s lowered with
    | none => .error s.name
    | some none => .ok []
    | some (some d) => .ok [(.text s.name, d)]
  (Section.all.mapM read).map List.flatten

end ApiDoc.Settings
