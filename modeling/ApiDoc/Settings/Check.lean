import ApiDoc.Settings.Basic
import ApiDoc.Settings.Problem
import ApiDoc.Text.Blank
import ApiDoc.Text.Digit
import ApiDoc.Text.Path
import ApiDoc.Number.Binary64

/-!
# Checking settings

Reads settings out of plain data. Numbers may be given as text or as whole floats, truth values as
words; a missing value takes its default, and what is in a section besides its settings is ignored.
`toData` writes settings so that checking them gives the same settings again.
-/

namespace ApiDoc.Settings

open ApiDoc

/-! ## Scalars -/

/-- Text, also when given as bytes. -/
def textOf? : Data → Option String
  | .scalar (.text s) => some s
  | .scalar (.bytes bs) => String.fromUTF8? ⟨bs.toArray⟩
  | _ => none

def text (d : Data) : Checked String :=
  match textOf? d with
  | some s => .ok s
  | none => .fail .noText d

/-- Blanks that may surround a number. -/
def isMargin (c : Char) : Bool := Text.isBlank c && !(0x1c ≤ c.toNat && c.toNat ≤ 0x1f)

/-- Digits in groups with single underscores between. -/
def groupedDigits? (cs : List Char) : Option Nat :=
  let groups := Text.splitAtChar '_' cs
  if groups.all fun group => !group.isEmpty && group.all Char.isDigit then
    some (groups.flatten.foldl (fun n c => n * 10 + (c.toNat - '0'.toNat)) 0)
  else none

/-- A number without a decimal part, or with one of zeros. -/
def wholeNumber? (cs : List Char) : Option Nat :=
  let whole := cs.takeWhile (· ≠ '.')
  let decimals := cs.dropWhile (· ≠ '.')
  if (decimals.drop 1).all (· = '0') then groupedDigits? whole else none

/-- An integer with blanks around it and perhaps a sign. -/
def readInteger? (s : String) : Option Int :=
  let cs := Text.trimEndChars isMargin (s.toList.dropWhile isMargin)
  match cs with
  | '-' :: rest => (wholeNumber? rest).map fun n => -(n : Int)
  | '+' :: rest => (wholeNumber? rest).map fun n => (n : Int)
  | cs => (wholeNumber? cs).map fun n => (n : Int)

def integer (d : Data) : Checked Int :=
  match d with
  | .scalar (.int n) => .ok n
  | .scalar (.bool b) => .ok (if b then 1 else 0)
  | .scalar (.float x) =>
    match x with
    | .finite .. =>
      match x.toInt? with
      | some n => .ok n
      | none => .fail .fractional d
    | _ => .fail .unbounded d
  | d =>
    match textOf? d with
    | some s =>
      match readInteger? s with
      | some n => .ok n
      | none => .fail .noIntegerText d
    | none => .fail .noInteger d

def trueWords : List String := ["1", "on", "t", "true", "y", "yes"]
def falseWords : List String := ["0", "off", "f", "false", "n", "no"]

/-- A truth value, given as such, as 0 or 1, or as a word in any case. -/
def boolean (d : Data) : Checked Bool :=
  let ofNumber (n : Int) : Checked Bool :=
    if n = 0 then .ok false else if n = 1 then .ok true else .fail .noBooleanText d
  match d with
  | .scalar (.bool b) => .ok b
  | .scalar (.int n) => ofNumber n
  | .scalar (.float x) =>
    match x.toInt? with
    | some n => ofNumber n
    | none => .fail .noBoolean d
  | d =>
    match textOf? d with
    | some s =>
      let word := String.ofList (s.toList.map Char.toLower)
      if trueWords.contains word then .ok true
      else if falseWords.contains word then .ok false
      else .fail .noBooleanText d
    | none => .fail .noBoolean d

/-- One of several values, by its label. -/
def oneOf {α : Type} (label : α → String) (all : List α) (d : Data) : Checked α :=
  match d with
  | .scalar (.text s) =>
    match all.find? fun a => label a = s with
    | some a => .ok a
    | none => .fail (.noneOf (all.map label)) d
  | d => .fail (.noneOf (all.map label)) d

def list {α : Type} (check : Data → Checked α) (d : Data) : Checked (List α) :=
  match d with
  | .list items | .tuple items => Checked.items check 0 items
  | .set items => Checked.items check 0 (items.map Data.scalar)
  | d => .fail .noList d

/-- A section: its entries. -/
def section? (name : String) (d : Data) : Checked Data.Entries :=
  match d with
  | .map entries => .ok entries
  | d => .fail (.noSection name) d

/-! ## Destinations -/

/-- The path that is meant when a leading `~` stands for `home`; nothing for the home of somebody
else. -/
def expandHome? (home : String) (p : Text.Path) : Option Text.Path :=
  match p.segments with
  | ('~' :: name) :: rest =>
    if p.isAbsolute then some p
    else if name.isEmpty then
      let home := Text.Path.parse home.toList
      some { home with segments := home.segments ++ rest }
    else none
  | _ => some p

/-- `stderr`, `stdout`, or an absolute path in its normal form. -/
def destination (home : String) (d : Data) : Checked String := do
  let s ← text d
  if s = "stderr" || s = "stdout" then .ok s
  else
    match expandHome? home (Text.Path.parse s.toList) with
    | none => .fail .noHome d
    | some path =>
      if path.isAbsolute then .ok path.toText
      else .fail (.refused ("File destination must be absolute path: " ++ s)) d

/-! ## Sections -/

def level (d : Data) : Checked Log.Level := oneOf Log.Level.label Log.Level.all d

def optionalLevel (d : Data) : Checked (Option Log.Level) :=
  match d with
  | .scalar .null => .ok none
  | d => (level d).map some

def output (home : String) (d : Data) : Checked Log.Output := do
  let entries ← section? "LogOutputConfig" d
  let parts := (Checked.field entries "format" .console (oneOf Log.Format.label [.json, .console])).both
    ((Checked.field entries "destination" "stderr" (destination home)).both
      (Checked.field entries "level" none optionalLevel))
  parts.map fun (format, destination, level) => { format, destination, level }

def logSettings (home : String) (d : Data) : Checked LogSettings := do
  let entries ← section? "LoggingConfig" d
  let parts := (Checked.field entries "level" .info level).both
    (Checked.field entries "outputs" [{}] (list (output home)))
  parts.map fun (level, outputs) => { level, outputs }

/-- Settings with one output to `stderr` in a given format. -/
def plainLogSettings (format : Log.Format) (levelData : Data) : Checked LogSettings :=
  (Checked.under (.key "level") (level levelData)).map fun level => { level, outputs := [{ format }] }

def documentationSettings (d : Data) : Checked DocumentationSettings := do
  let entries ← section? "DocumentationConfig" d
  let parts := (Checked.field entries "fail_on_malformed_source" false boolean).both
    (Checked.field entries "defer_tag" "inheritdoc" text)
  parts.map fun (failOnMalformed, deferTag) => { failOnMalformed, deferTag }

/-- A budget has room for a character and an ellipsis. -/
abbrev Budget := { n : Nat // leastBudget ≤ n }

def budget (d : Data) : Checked Budget := do
  let n ← integer d
  if h : leastBudget ≤ n.toNat then .ok ⟨n.toNat, h⟩
  else .fail (.refused ("Truncation budget must be at least " ++ toString leastBudget ++ ", got " ++ toString n)) d

def renderSettings (d : Data) : Checked RenderSettings := do
  let entries ← section? "RenderConfig" d
  let usual := Settings.usual.render
  let parts := (Checked.field entries "summary_max_length" ⟨usual.summaryBudget, usual.summary_room⟩ budget).both
    ((Checked.field entries "signature_max_length" ⟨usual.signatureBudget, usual.signature_room⟩ budget).both
      ((Checked.field entries "code_language" usual.codeLanguage text).both
        ((Checked.field entries "ignored_method_names" usual.ignoredMethods (list text)).both
          (Checked.field entries "ignored_attributes" usual.ignoredAttributes (list text)))))
  parts.map fun (summary, signature, codeLanguage, ignoredMethods, ignoredAttributes) =>
    { summaryBudget := summary.val, signatureBudget := signature.val, codeLanguage, ignoredMethods
      ignoredAttributes, summary_room := summary.property, signature_room := signature.property }

def sections (home : String) (entries : Data.Entries) : Checked Settings :=
  let usual := Settings.usual
  let parts := (Checked.field entries "logging" usual.logging (logSettings home)).both
    ((Checked.field entries "documentation" usual.documentation documentationSettings).both
      (Checked.field entries "render" usual.render renderSettings))
  parts.map fun (logging, documentation, render) => { logging, documentation, render }

/-- Settings out of data; `home` is where a leading `~` of a destination leads. -/
def check (home : String) (d : Data) : Checked Settings := do
  let entries ← section? "DocmarkConfig" d
  sections home entries

/-! ## Writing -/

def outputData (o : Log.Output) : Data :=
  .map [(.text "format", .text o.format.label), (.text "destination", .text o.destination),
    (.text "level", o.level.elim .null fun l => .text l.label)]

/-- Settings as plain data. -/
def toData (s : Settings) : Data :=
  .map [(.text "logging", .map [(.text "level", .text s.logging.level.label),
      (.text "outputs", .list (s.logging.outputs.map outputData))]),
    (.text "documentation", .map [(.text "fail_on_malformed_source", .bool s.documentation.failOnMalformed),
      (.text "defer_tag", .text s.documentation.deferTag)]),
    (.text "render", .map [(.text "summary_max_length", .int s.render.summaryBudget),
      (.text "signature_max_length", .int s.render.signatureBudget),
      (.text "code_language", .text s.render.codeLanguage),
      (.text "ignored_method_names", .list (s.render.ignoredMethods.map Data.text)),
      (.text "ignored_attributes", .list (s.render.ignoredAttributes.map Data.text))])]

end ApiDoc.Settings
