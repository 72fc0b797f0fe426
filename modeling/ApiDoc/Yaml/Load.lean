import ApiDoc.Yaml.Node

/-!
# Data from YAML

The data that a YAML text stands for. A scalar is read by its tag. A mapping takes over the entries
of the mappings at its merge keys, before its own entries; of entries with one key the last counts.
-/

namespace ApiDoc.Yaml

/-- Why a text stands for no data. -/
inductive Refusal where
  /-- It is no YAML, or a node has a tag that is unknown or does not fit. -/
  | malformed
  | noNumber
  /-- Where a number should be there is not even a character. -/
  | emptyNumber
  | noTruthValue
  | noStamp
  /-- A date or time that no calendar has. -/
  | offCalendar
deriving DecidableEq, Repr

/-! ## Scalars -/

/-- A value that was read, or the reason why there is none. -/
def orRefuse {α : Type} (refusal : Refusal) (value : Option α) : Except Refusal α :=
  match value with
  | some a => .ok a
  | none => .error refusal

def truthValue (s : String) : Except Refusal Data :=
  let word := String.ofList (s.toList.map Char.toLower)
  if trueWords.contains word then .ok (.bool true)
  else if falseWords.contains word then .ok (.bool false)
  else .error .noTruthValue

/-- What is left of a number without its separators. -/
def significant (s : String) : List Char := s.toList.filter (· ≠ '_')

def integer (s : String) : Except Refusal Data :=
  if (unsigned (significant s)).isEmpty then .error .emptyNumber
  else (orRefuse .noNumber (readInteger? s)).map Data.int

def float (s : String) : Except Refusal Data :=
  if (significant s).isEmpty then .error .emptyNumber
  else (orRefuse .noNumber (readFloat? s)).map fun x => .scalar (.float x)

def stamp (s : String) : Except Refusal Data :=
  if (stamp? s.toList).isNone then .error .noStamp
  else (orRefuse .offCalendar (readStamp? s)).map Data.scalar

def scalarData (tag value : String) : Except Refusal Data :=
  if tag = Form.null.tag then .ok .null
  else if tag = Form.bool.tag then truthValue value
  else if tag = Form.int.tag then integer value
  else if tag = Form.float.tag then float value
  else if tag = Form.timestamp.tag then stamp value
  else if tag = Form.text.tag then .ok (.text value)
  else if tag = standardTag "binary" then
    (orRefuse .malformed (readBase64? value)).map fun bs => .scalar (.bytes bs)
  else .error .malformed

/-! ## Collections -/

/-- Only scalars serve as keys. -/
def asKey : Data → Except Refusal Scalar
  | .scalar s => .ok s
  | _ => .error .malformed

/-- The entries of a mapping by where they come from. -/
structure Gathered where
  merged : Data.Entries := []
  own : Data.Entries := []

def Gathered.all (g : Gathered) : Data.Entries := g.merged ++ g.own

/-- The keys of a map as a set. -/
def keySet (entries : Data.Entries) : Data :=
  match Data.ofEntries entries with
  | .map entries => .set (entries.map Prod.fst)
  | d => d

mutual

def Node.data : Node → Except Refusal Data
  | .scalar tag value => scalarData tag value
  | .sequence tag items =>
    if tag = standardTag "seq" then (itemData items).map Data.list
    else if tag = standardTag "omap" || tag = standardTag "pairs" then (pairData items).map Data.list
    else .error .malformed
  | .mapping tag entries =>
    if tag = standardTag "map" then (gather entries).map fun g => Data.ofEntries g.all
    else if tag = standardTag "set" then (gather entries).map fun g => keySet g.all
    else .error .malformed

def itemData : List Node → Except Refusal (List Data)
  | [] => .ok []
  | n :: rest => do
    let first ← n.data
    let others ← itemData rest
    .ok (first :: others)

/-- The items of an ordered mapping, each a mapping of one entry. -/
def pairData : List Node → Except Refusal (List Data)
  | [] => .ok []
  | .mapping _ [(key, value)] :: rest => do
    let k ← key.data
    let v ← value.data
    let others ← pairData rest
    .ok (.tuple [k, v] :: others)
  | _ => .error .malformed

/-- The entries of a mapping, and those that it takes over. The key `=` is itself. -/
def gather : List (Node × Node) → Except Refusal Gathered
  | [] => .ok {}
  | (key, value) :: rest =>
    match key with
    | .scalar tag label =>
      if tag = Form.merge.tag then do
        let taken ← takenOver value
        let g ← gather rest
        .ok { g with merged := taken ++ g.merged }
      else do
        let k ← if tag = Form.value.tag then .ok (.text label) else scalarData tag label
        let k ← asKey k
        let v ← value.data
        let g ← gather rest
        .ok { g with own := (k, v) :: g.own }
    | _ => .error .malformed

/-- The entries at a merge key: those of a mapping, or those of several, the last mapping first. -/
def takenOver : Node → Except Refusal Data.Entries
  | .mapping _ entries => do
    let g ← gather entries
    .ok g.all
  | .sequence _ items => do
    let parts ← gatherEach items
    .ok parts.reverse.flatten
  | .scalar .. => .error .malformed

def gatherEach : List Node → Except Refusal (List Data.Entries)
  | [] => .ok []
  | .mapping _ entries :: rest => do
    let g ← gather entries
    let others ← gatherEach rest
    .ok (g.all :: others)
  | _ => .error .malformed

end

/-! ## Texts -/

/-- Line breaks of two characters and lone carriage returns are line feeds. -/
def unifyBreaks : List Char → List Char
  | [] => []
  | '\r' :: '\n' :: rest => '\n' :: unifyBreaks rest
  | c :: rest => (if c = '\r' then '\n' else c) :: unifyBreaks rest

/-- The data of a text; null if it holds no document. -/
def load (s : String) : Except Refusal Data :=
  match document? (unifyBreaks s.toList) with
  | none => .error .malformed
  | some none => .ok .null
  | some (some n) => n.data

end ApiDoc.Yaml
