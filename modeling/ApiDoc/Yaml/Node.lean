import ApiDoc.Yaml.Token
import ApiDoc.Yaml.Scalar

/-!
# YAML documents

The node that a text holds: scalars, sequences and mappings, each with a tag. An alias is the node of
its anchor. A text holds one document at most.
-/

namespace ApiDoc.Yaml

inductive Node where
  | scalar (tag value : String)
  | sequence (tag : String) (items : List Node)
  | mapping (tag : String) (entries : List (Node × Node))
deriving Repr, Inhabited

/-- What the tags of the standard types begin with. -/
def standardTag (name : String) : String := "tag:yaml.org,2002:" ++ name

def Form.tag : Form → String
  | .null => standardTag "null"
  | .bool => standardTag "bool"
  | .int => standardTag "int"
  | .float => standardTag "float"
  | .timestamp => standardTag "timestamp"
  | .merge => standardTag "merge"
  | .value => standardTag "value"
  | .text => standardTag "str"

/-- Where the reading of tokens stands. -/
structure Progress where
  tokens : List Token
  /-- The anchors so far; one has no node while its node is being read. -/
  anchors : List (String × Option Node) := []

abbrev Parse (α : Type) := StateT Progress Option α

namespace Parse

def peek : Parse Token := do
  let p ← get
  pure (p.tokens.headD .streamEnd)

def next : Parse Unit := modify fun p => { p with tokens := p.tokens.drop 1 }

def refuse {α : Type} : Parse α := fun _ => none

/-- Moves over one certain token. -/
def expect (t : Token) : Parse Unit := do
  if (← peek) = t then next else refuse

def anchors : Parse (List (String × Option Node)) := do
  let p ← get
  pure p.anchors

/-- Announces an anchor; a name serves once. -/
def openAnchor (name : Option String) : Parse Unit :=
  match name with
  | none => pure ()
  | some name => do
    if ((← anchors).lookup name).isSome then refuse
    else modify fun p => { p with anchors := (name, none) :: p.anchors }

def closeAnchor (name : Option String) (n : Node) : Parse Node :=
  match name with
  | none => pure n
  | some name => do
    modify fun p => { p with anchors := (name, some n) :: p.anchors }
    pure n

def empty : Node := .scalar Form.null.tag ""

/-! ## Properties -/

/-- The handles of tags and what they stand for. -/
abbrev Handles := List (String × String)

def standardHandles : Handles := [("!", "!"), ("!!", standardTag "")]

/-- A tag in full. -/
def fullTag (handles : Handles) (t : Tag) : Parse String :=
  match t.handle with
  | none => pure t.suffix
  | some handle =>
    match handles.lookup handle with
    | some expansion => pure (expansion ++ t.suffix)
    | none => refuse

/-- The anchor and the tag before a node, in either order. -/
def properties (handles : Handles) : Parse (Option String × Option String) := do
  match ← peek with
  | .anchor name =>
    next
    match ← peek with
    | .tag t =>
      next
      let tag ← fullTag handles t
      pure (some name, some tag)
    | _ => pure (some name, none)
  | .tag t =>
    next
    match ← peek with
    | .anchor name =>
      next
      let tag ← fullTag handles t
      pure (some name, some tag)
    | _ =>
      let tag ← fullTag handles t
      pure (none, some tag)
  | _ => pure (none, none)

/-- The tag of a scalar: the one it bears, or that of its form. A quoted scalar is text. -/
def scalarTag (tag : Option String) (isPlain : Bool) (s : String) : String :=
  match tag with
  | none => if isPlain then (formOf s).tag else Form.text.tag
  | some tag => if tag = "!" then (formOf s).tag else tag

def collectionTag (tag : Option String) (usual : String) : String :=
  match tag with
  | none => standardTag usual
  | some tag => if tag = "!" then standardTag usual else tag

/-! ## Nodes -/

mutual

/-- A node. `inBlock` where block collections may stand, `indentless` where a sequence need not be
indented. -/
def node (handles : Handles) : Nat → Bool → Bool → Parse Node
  | 0, _, _ => refuse
  | fuel + 1, inBlock, indentless => do
    match ← peek with
    | .alias_ name =>
      next
      match (← anchors).lookup name with
      | some (some n) => pure n
      | _ => refuse
    | _ =>
      let (anchor, tag) ← properties handles
      openAnchor anchor
      let n ← match ← peek with
        | .scalar s isPlain => do
          next
          pure (.scalar (scalarTag tag isPlain s) s)
        | .flowSequence => do
          next
          let items ← flowItems handles fuel true
          pure (.sequence (collectionTag tag "seq") items)
        | .flowMapping => do
          next
          let entries ← flowEntries handles fuel true
          pure (.mapping (collectionTag tag "map") entries)
        | t =>
          if t = .entry && indentless then do
            let items ← looseItems handles fuel
            pure (.sequence (collectionTag tag "seq") items)
          else if t = .blockSequence && inBlock then do
            next
            let items ← blockItems handles fuel
            pure (.sequence (collectionTag tag "seq") items)
          else if t = .blockMapping && inBlock then do
            next
            let entries ← blockEntries handles fuel
            pure (.mapping (collectionTag tag "map") entries)
          else if anchor.isSome || tag.isSome then
            pure (.scalar (scalarTag tag true "") "")
          else refuse
      closeAnchor anchor n

/-- A node, or an empty one before one of the given tokens. -/
def nodeUnless (handles : Handles) : Nat → List Token → Bool → Bool → Parse Node
  | 0, _, _, _ => refuse
  | fuel + 1, stops, inBlock, indentless => do
    if stops.contains (← peek) then pure empty else node handles fuel inBlock indentless

/-- The items of a block sequence, with the end of the block. -/
def blockItems (handles : Handles) : Nat → Parse (List Node)
  | 0 => refuse
  | fuel + 1 => do
    match ← peek with
    | .entry =>
      next
      let n ← nodeUnless handles fuel [.entry, .blockEnd] true false
      let rest ← blockItems handles fuel
      pure (n :: rest)
    | _ =>
      expect .blockEnd
      pure []

/-- The items of a sequence that has no block of its own. -/
def looseItems (handles : Handles) : Nat → Parse (List Node)
  | 0 => refuse
  | fuel + 1 => do
    match ← peek with
    | .entry =>
      next
      let n ← nodeUnless handles fuel [.entry, .key, .value, .blockEnd] true false
      let rest ← looseItems handles fuel
      pure (n :: rest)
    | _ => pure []

def blockEntries (handles : Handles) : Nat → Parse (List (Node × Node))
  | 0 => refuse
  | fuel + 1 => do
    match ← peek with
    | .key =>
      next
      let k ← nodeUnless handles fuel [.key, .value, .blockEnd] true true
      let v ← match ← peek with
        | .value => do
          next
          nodeUnless handles fuel [.key, .value, .blockEnd] true true
        | _ => pure empty
      let rest ← blockEntries handles fuel
      pure ((k, v) :: rest)
    | _ =>
      expect .blockEnd
      pure []

/-- The items of a flow sequence, with its end. A key makes a mapping of one entry. -/
def flowItems (handles : Handles) : Nat → Bool → Parse (List Node)
  | 0, _ => refuse
  | fuel + 1, first => do
    if (← peek) = .flowSequenceEnd then
      next
      pure []
    else
      if !first then expect .flowEntry
      match ← peek with
      | .flowSequenceEnd =>
        next
        pure []
      | .key =>
        next
        let k ← nodeUnless handles fuel [.value, .flowEntry, .flowSequenceEnd] false false
        let v ← match ← peek with
          | .value => do
            next
            nodeUnless handles fuel [.flowEntry, .flowSequenceEnd] false false
          | _ => pure empty
        let rest ← flowItems handles fuel false
        pure (.mapping (standardTag "map") [(k, v)] :: rest)
      | _ =>
        let n ← node handles fuel false false
        let rest ← flowItems handles fuel false
        pure (n :: rest)

/-- The entries of a flow mapping, with its end. -/
def flowEntries (handles : Handles) : Nat → Bool → Parse (List (Node × Node))
  | 0, _ => refuse
  | fuel + 1, first => do
    if (← peek) = .flowMappingEnd then
      next
      pure []
    else
      if !first then expect .flowEntry
      match ← peek with
      | .flowMappingEnd =>
        next
        pure []
      | .key =>
        next
        let k ← nodeUnless handles fuel [.value, .flowEntry, .flowMappingEnd] false false
        let v ← match ← peek with
          | .value => do
            next
            nodeUnless handles fuel [.flowEntry, .flowMappingEnd] false false
          | _ => pure empty
        let rest ← flowEntries handles fuel false
        pure ((k, v) :: rest)
      | _ =>
        let k ← node handles fuel false false
        let rest ← flowEntries handles fuel false
        pure ((k, empty) :: rest)

end

/-! ## Documents -/

/-- Directives before a document: one version at most, of the first generation, and handles. -/
def directives : Nat → Bool → Handles → Parse Handles
  | 0, _, _ => refuse
  | fuel + 1, versioned, handles => do
    match ← peek with
    | .directive d =>
      next
      match d with
      | .version major => if versioned || major ≠ 1 then refuse else directives fuel true handles
      | .handle name expansion =>
        if (handles.lookup name).isSome then refuse
        else directives fuel versioned ((name, expansion) :: handles)
      | .other => directives fuel versioned handles
    | _ => pure (handles ++ standardHandles)

def skipDocumentEnds : Nat → Parse Unit
  | 0 => pure ()
  | fuel + 1 => do
    match ← peek with
    | .documentEnd =>
      next
      skipDocumentEnds fuel
    | _ => pure ()

/-- The node of a document that has been opened by a marker. -/
def content (handles : Handles) (fuel : Nat) : Parse Node := do
  match ← peek with
  | .directive _ | .documentStart | .documentEnd | .streamEnd => pure empty
  | _ => node handles fuel true false

/-- The only document of a text; nothing if there is none. -/
def document (fuel : Nat) : Parse (Option Node) := do
  match ← peek with
  | .streamEnd => pure none
  | t =>
    let n ← match t with
      | .directive _ | .documentStart => do
        let handles ← directives fuel false []
        expect .documentStart
        content handles fuel
      | _ => node standardHandles fuel true false
    skipDocumentEnds fuel
    expect .streamEnd
    pure (some n)

end Parse

/-- Characters that a text may hold. -/
def isPrintable (c : Char) : Bool :=
  let n := c.toNat
  n = 0x09 || n = 0x0a || n = 0x0d || (0x20 ≤ n && n ≤ 0x7e) || n = 0x85 || (0xa0 ≤ n && n ≤ 0xd7ff)
    || (0xe000 ≤ n && n ≤ 0xfffd) || 0x10000 ≤ n

/-- The document of a text, if there is one; an error if the text is malformed. -/
def document? (cs : List Char) : Option (Option Node) := do
  if !cs.all isPrintable then none
  else
    let tokens ← tokens? cs
    let (n, _) ← (Parse.document (4 * tokens.length + 8)).run { tokens }
    some n

end ApiDoc.Yaml
