import ApiDoc.Error
import ApiDoc.Settings.Check
import ApiDoc.Settings.Environment
import ApiDoc.Yaml.Load

/-!
# Loading settings

Settings come in layers: the built-in ones, a global file, the file of a repository, the environment,
and overrides. Each layer wins over those before it, setting by setting. The first problem of the
outcome is reported.
-/

namespace ApiDoc.Settings

structure File where
  path : String
  text : String

/-- Where the file of a repository lies. -/
def repositoryFile (root : String) : String := root ++ "/.docmark/config.yaml"

/-- What settings are loaded from. -/
structure Layers where
  home : String
  globalFile : Option File := none
  repository : Option File := none
  environment : Environment := []
  overrides : Data.Entries := []

/-- Why there are no settings. -/
inductive LoadFailure where
  /-- A file or a value is refused. -/
  | refused (e : Error)
  /-- A file holds a scalar that means nothing. -/
  | unreadable (refusal : Yaml.Refusal)
  /-- The variable of a section holds no JSON, or that of a list in it. -/
  | environment (sectionName : String)
  /-- A section has no text for a name. -/
  | unnamedSection
  /-- A destination is in the home of somebody whose home is not known. -/
  | noHome
deriving Repr

namespace LoadFailure

def message : LoadFailure → String
  | .refused e => e.message
  | .unreadable _ => "a value cannot be read"
  | .environment name =>
    "error parsing value for field \"" ++ name ++ "\" from source \"EnvSettingsSource\""
  | .unnamedSection => "the name of a section must be text"
  | .noHome => "Could not determine home directory."

end LoadFailure

/-! ## Files -/

/-- What a message says of a text that is no YAML. -/
def malformedReason : String := "<yaml>"

/-- The entries of a file. A missing file has none, and neither has one that holds nothing. -/
def fileEntries (file : Option File) : Except LoadFailure Data.Entries :=
  match file with
  | none => .ok []
  | some file =>
    match Yaml.load file.text with
    | .error .malformed => .error (.refused (.configUnreadable file.path malformedReason))
    | .error refusal => .error (.unreadable refusal)
    | .ok (.map entries) => .ok entries
    | .ok d =>
      if d.isVoid then .ok []
      else .error (.refused (.configUnreadable file.path "top-level value must be a mapping"))

/-! ## Outcome -/

def isNamed (key : Scalar) : Bool :=
  match key with
  | .text _ => true
  | _ => false

/-- The problems of sections that do not exist. -/
def unknownSections (entries : Data.Entries) : List Problem :=
  entries.filterMap fun (key, value) =>
    match key with
    | .text name =>
      if Section.names.contains name then none
      else some { place := [.key name], fault := .unknownSection, input := value }
    | _ => none

/-- Refuses sections that do not exist. -/
def knownOnly (entries : Data.Entries) : Checked Unit :=
  match unknownSections entries with
  | [] => .ok ()
  | first :: rest => .error { first, rest }

def Problem.toError (p : Problem) : Error := .configInvalid p.location p.input.display p.fault.message

/-- The failure that problems amount to. -/
def Problems.toFailure (ps : Problems) : LoadFailure :=
  if ps.toList.any fun p => p.fault = .noHome then .noHome else .refused ps.first.toError

/-- The settings that the merged entries of all layers give. -/
def ofEntries (home : String) (entries : Data.Entries) : Except LoadFailure Settings :=
  if entries.all fun e => isNamed e.1 then
    ((sections home entries).both (knownOnly entries)).map Prod.fst |>.mapError Problems.toFailure
  else .error .unnamedSection

/-- The settings that come of all layers. -/
def load (layers : Layers) : Except LoadFailure Settings := do
  let globals ← fileEntries layers.globalFile
  let repository ← fileEntries layers.repository
  let environment ← layers.environment.settings.mapError .environment
  let above := Data.Entries.merge environment layers.overrides
  ofEntries layers.home (Data.Entries.merge (Data.Entries.merge globals repository) above)

end ApiDoc.Settings
