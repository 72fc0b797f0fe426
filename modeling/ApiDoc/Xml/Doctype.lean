import ApiDoc.Xml.Token

/-!
# Document type declarations

The tokens of a prolog, and what an internal subset declares: general entities with their
replacement text, and the types and default values of attributes. Of two declarations of one name
the first counts. Declarations outside the document are never read.
-/

namespace ApiDoc.Xml

open Scan

/-! ## Prolog tokens -/

inductive Suffix where
  | none | optional | many | some
deriving DecidableEq, Repr

inductive PrologToken where
  | space
  | comment
  | instruction (i : Instruction)
  | declOpen (keyword : List Char)
  | declClose
  | sectionOpen
  | sectionClose
  /-- A name, perhaps with a prefix. -/
  | name (chars : List Char) (hasPrefix : Bool)
  | nameToken (chars : List Char)
  /-- A name with `?`, `*` or `+` after it. -/
  | suffixedName
  | literal (chars : List Char) (textAt : List Char)
  | poundName (chars : List Char)
  | openBracket | closeBracket
  | openParen
  | closeParen (suffix : Suffix)
  | comma | bar
  | percent
  | parameterReference
  /-- The angle bracket of the document element. -/
  | documentElement
deriving Repr

/-- A quoted literal after its opening quote. -/
def scanLiteralText (quote : Char) : List Char → Scan (List Char)
  | [] => .unfinished
  | c :: rest =>
    if c = quote then .done [] rest
    else if isExcluded c then .invalid (c :: rest)
    else (scanLiteralText quote rest).map (c :: ·)

/-- What may follow the closing quote of a literal. -/
def followsLiteral (c : Char) : Bool := isSpace c || c = '>' || c = '%' || c = '['

def scanLiteral (quote : Char) (cs : List Char) : Scan PrologToken :=
  (scanLiteralText quote cs).bind fun chars rest =>
    match rest with
    | [] => .done (.literal chars cs) []
    | c :: _ => if followsLiteral c then .done (.literal chars cs) rest else .invalid rest

def isDeclChar (c : Char) : Bool := c.isAlpha || c = '_'

/-- A declaration after `<!`. -/
def scanDeclaration (cs : List Char) : Scan PrologToken :=
  match cs with
  | [] => .unfinished
  | '-' :: rest => (scanComment rest).map fun _ => .comment
  | '[' :: rest => .done .sectionOpen rest
  | _ =>
    (expect isDeclChar cs).bind fun c rest =>
      let keyword := c :: rest.takeWhile isDeclChar
      match rest.dropWhile isDeclChar with
      | [] => .unfinished
      | ['%'] => .unfinished
      | '%' :: d :: more =>
        if isSpace d || d = '%' then .invalid ('%' :: d :: more)
        else .done (.declOpen keyword) ('%' :: d :: more)
      | d :: more =>
        if isSpace d then .done (.declOpen keyword) (d :: more) else .invalid (d :: more)

def followsName (c : Char) : Bool :=
  isSpace c || ['>', ')', ',', '|', '[', '%'].contains c

/-- The rest of a name or name token, of which `chars` has been read. `isToken` once it cannot be a
name, `hasPrefix` once a colon has been read. -/
def scanNameRest (chars : List Char) (isToken hasPrefix : Bool) : List Char → Scan PrologToken
  | [] => .done (if isToken then .nameToken chars else .name chars hasPrefix) []
  | c :: rest =>
    if isNameChar c then scanNameRest (chars ++ [c]) isToken hasPrefix rest
    else if c = ':' then
      if isToken then scanNameRest (chars ++ [c]) true hasPrefix rest
      else if hasPrefix then scanNameRest (chars ++ [c]) true true rest
      else match rest with
        | [] => .unfinished
        | d :: _ => scanNameRest (chars ++ [c]) (!isNameChar d) true rest
    else if followsName c then .done (if isToken then .nameToken chars else .name chars hasPrefix) (c :: rest)
    else if c = '+' || c = '*' || c = '?' then
      if isToken then .invalid (c :: rest) else .done .suffixedName rest
    else .invalid (c :: rest)

/-- Whether a `<` before a character opens an element. What is not ASCII is looked at more closely in
the element, other than bytes that start no character. -/
def opensElement (c : Char) : Bool := isNameStart c || (128 ≤ c.toNat && c ≠ strayByte)

def scanProlog : List Char → Scan PrologToken
  | [] => .unfinished
  | '"' :: rest => scanLiteral '"' rest
  | '\'' :: rest => scanLiteral '\'' rest
  | '<' :: '!' :: rest => scanDeclaration rest
  | '<' :: '?' :: rest => (scanInstruction rest).map .instruction
  | '<' :: rest => (expect opensElement rest).bind fun _ _ => .done .documentElement rest
  | '%' :: rest =>
    match rest with
    | [] => .unfinished
    | c :: _ =>
      if isSpace c || c = '%' then .done .percent rest
      else (scanName rest).bind fun _ rest => (expect (· = ';') rest).map fun _ => .parameterReference
  | ',' :: rest => .done .comma rest
  | '[' :: rest => .done .openBracket rest
  | ']' :: ']' :: '>' :: rest => .done .sectionClose rest
  | ']' :: ']' :: [] => .unfinished
  | ']' :: rest => .done .closeBracket rest
  | '(' :: rest => .done .openParen rest
  | ')' :: rest =>
    match rest with
    | [] => .done (.closeParen .none) []
    | '*' :: rest => .done (.closeParen .many) rest
    | '?' :: rest => .done (.closeParen .optional) rest
    | '+' :: rest => .done (.closeParen .some) rest
    | c :: _ =>
      if isSpace c || ['>', ',', '|', ')'].contains c then .done (.closeParen .none) rest else .invalid rest
  | '|' :: rest => .done .bar rest
  | '>' :: rest => .done .declClose rest
  | '#' :: rest =>
    (scanName rest).bind fun name rest =>
      match rest with
      | [] => .done (.poundName name) []
      | c :: _ =>
        if isSpace c || [')', '>', '%', '|'].contains c then .done (.poundName name) rest else .invalid rest
  | c :: rest =>
    if isSpace c then .done .space (rest.dropWhile isSpace)
    else if isNameStart c then scanNameRest [c] false false rest
    else if isNameChar c || c = ':' then scanNameRest [c] true false rest
    else .invalid (c :: rest)

/-! ## What is declared -/

inductive Entity where
  | replaced (text : List Char)
  | external
  /-- An entity in a notation, which is no XML. -/
  | unparsed
deriving Repr

structure AttributeType where
  element : List Char
  name : List Char
  isCdata : Bool
  default : Option (List Char)
deriving Repr

structure Doctype where
  entities : List (List Char × Entity) := []
  attributes : List AttributeType := []
  /-- Some declarations may stand where they are not read. -/
  isPartial : Bool := false
  standalone : Bool := false
  /-- Declarations still count; not so after a parameter entity that was not read. -/
  counting : Bool := true
deriving Repr

namespace Doctype

def entity? (d : Doctype) (name : List Char) : Option Entity := d.entities.lookup name

/-- Whether an entity has to be declared in what was read. -/
def isComplete (d : Doctype) : Bool := !d.isPartial || d.standalone

def addEntity (d : Doctype) (name : List Char) (e : Entity) : Doctype :=
  if !d.counting || (predefined? name).isSome || (d.entity? name).isSome then d
  else { d with entities := d.entities ++ [(name, e)] }

def attributeType? (d : Doctype) (element name : List Char) : Option AttributeType :=
  d.attributes.find? fun a => a.element = element && a.name = name

def addAttribute (d : Doctype) (a : AttributeType) : Doctype :=
  if !d.counting || (d.attributeType? a.element a.name).isSome then d
  else { d with attributes := d.attributes ++ [a] }

def isCdata (d : Doctype) (element name : List Char) : Bool :=
  match d.attributeType? element name with
  | some a => a.isCdata
  | none => true

end Doctype

/-! ## Attribute values -/

/-- Adds a blank to a value that is collected in reverse. Values that are not plain character data
keep no blank at the start or after another. -/
def pushBlank (isCdata : Bool) (value : List Char) : List Char :=
  if !isCdata && (value.head?.all (· = ' ')) then value else ' ' :: value

/-- The value of an attribute, collected in reverse: newlines and tabs are blanks, and references
are replaced. `expand` gives the value of an entity's text. -/
def valueFrom (dtd : Doctype) (isCdata : Bool) (tagAt : List Char)
    (expand : List Char → List Char → List Char → Except Problem (List Char)) :
    Nat → List Char → List Char → List Char → Except Problem (List Char)
  | 0, value, _, _ => .ok value
  | fuel + 1, value, raw, here =>
    match raw with
    | [] => .ok value
    | '\r' :: '\n' :: rest => valueFrom dtd isCdata tagAt expand fuel (pushBlank isCdata value) rest (here.drop 2)
    | '&' :: rest =>
      match scanReference rest with
      | .invalid bad => .error ⟨.invalidToken, bad⟩
      | .unfinished => .error ⟨.unclosedToken, tagAt⟩
      | .done (.character code) after =>
        match referredChar? code with
        | none => .error ⟨.badCharacterReference, here⟩
        | some c =>
          let value := if c = ' ' then pushBlank isCdata value else c :: value
          valueFrom dtd isCdata tagAt expand fuel value after (here.drop (raw.length - after.length))
      | .done (.entity name) after =>
        let next (value : List Char) :=
          valueFrom dtd isCdata tagAt expand fuel value after (here.drop (raw.length - after.length))
        match predefined? name with
        | some c => next (c :: value)
        | none =>
          match dtd.entity? name with
          | none => if dtd.isComplete then .error ⟨.undefinedEntity, tagAt⟩ else next value
          | some .external => .error ⟨.externalEntityInAttribute, here⟩
          | some .unparsed => .error ⟨.binaryEntityReference, here⟩
          | some (.replaced text) => do
            let value ← expand name text value
            next value
    | c :: rest =>
      let value := if isSpace c then pushBlank isCdata value else c :: value
      valueFrom dtd isCdata tagAt expand fuel value rest (here.drop 1)

/-- The text of an entity inside an attribute value. `depth` bounds how many entities can be open
at once; none may be opened inside itself. -/
def entityValue (dtd : Doctype) (isCdata : Bool) (tagAt here : List Char) :
    Nat → List (List Char) → List Char → List Char → List Char → Except Problem (List Char)
  | 0, _, _, _, _ => .error ⟨.recursiveEntity, here⟩
  | depth + 1, opened, name, text, value =>
    if opened.contains name then .error ⟨.recursiveEntity, here⟩
    else if text.contains '<' then .error ⟨.invalidToken, tagAt⟩
    else
      (valueFrom dtd isCdata tagAt (entityValue dtd isCdata tagAt here depth (name :: opened))
        (text.length + 1) value text here).mapError fun p => { p with rest := tagAt }

/-- The value of an attribute as an application sees it. -/
def attributeValue (dtd : Doctype) (isCdata : Bool) (tagAt raw valueAt : List Char) :
    Except Problem (List Char) := do
  let expand := entityValue dtd isCdata tagAt valueAt (dtd.entities.length + 1) []
  let value ← valueFrom dtd isCdata tagAt expand (raw.length + 1) [] raw valueAt
  let value := if isCdata then value else value.dropWhile (· = ' ')
  .ok value.reverse

/-! ## Declarations -/

/-- A token of a declaration and where it begins, or what ends the declaration early. -/
inductive Item where
  | token (t : PrologToken) (here : List Char)
  | stop (p : Problem)

/-- The tokens of a declaration up to its end, without spaces, and the rest of the text. -/
def declarationItems : Nat → List Char → List Item × List Char
  | 0, cs => ([.stop ⟨.noElement, cs⟩], cs)
  | fuel + 1, cs =>
    if cs.isEmpty then ([.stop ⟨.noElement, cs⟩], cs)
    else match scanProlog cs with
    | .invalid bad => ([.stop ⟨.invalidToken, bad⟩], cs)
    | .unfinished => ([.stop ⟨.unclosedToken, cs⟩], cs)
    | .done .space rest => declarationItems fuel rest
    | .done .declClose rest => ([.token .declClose cs], rest)
    | .done t rest =>
      let (items, rest) := declarationItems fuel rest
      (.token t cs :: items, rest)

/-- The problem with an item that does not fit. -/
def Item.problem : Item → Problem
  | .stop p => p
  | .token .parameterReference here => ⟨.illegalParameterReference, here⟩
  | .token (.instruction (.declaration _)) here => ⟨.misplacedDeclaration, here⟩
  | .token _ here => ⟨.misplacedText, here⟩

abbrev Items := List Item

def misfit {α : Type} : Items → Except Problem α
  | [] => .error ⟨.noElement, []⟩
  | item :: _ => .error item.problem

def takeClose : Items → Except Problem Unit
  | [.token .declClose _] => .ok ()
  | items => misfit items

/-- Takes a plain name. -/
def takeName : Items → Except Problem (List Char × Items)
  | .token (.name chars false) _ :: rest => .ok (chars, rest)
  | items => misfit items

/-- Takes a name that may have a prefix. -/
def takeQualified : Items → Except Problem (List Char × Items)
  | .token (.name chars _) _ :: rest => .ok (chars, rest)
  | items => misfit items

def takeLiteral : Items → Except Problem (List Char × List Char × Items)
  | .token (.literal chars textAt) _ :: rest => .ok (chars, textAt, rest)
  | items => misfit items

/-- Replacement text: character references are replaced and newlines are line feeds, while
references to entities stay for when the entity is used. -/
def replacementText (literalAt : List Char) : Nat → List Char → List Char → Except Problem (List Char)
  | 0, _, _ => .ok []
  | fuel + 1, raw, here =>
    match raw with
    | [] => .ok []
    | '%' :: _ => .error ⟨.illegalParameterReference, literalAt⟩
    | '\r' :: '\n' :: rest => do
      let more ← replacementText literalAt fuel rest (here.drop 2)
      .ok ('\n' :: more)
    | '\r' :: rest => do
      let more ← replacementText literalAt fuel rest (here.drop 1)
      .ok ('\n' :: more)
    | '&' :: rest =>
      match scanReference rest with
      | .invalid bad => .error ⟨.invalidToken, here.drop (raw.length - bad.length)⟩
      | .unfinished => .error ⟨.invalidToken, here⟩
      | .done (.character code) after =>
        match referredChar? code with
        | none => .error ⟨.badCharacterReference, here⟩
        | some c => do
          let more ← replacementText literalAt fuel after (here.drop (raw.length - after.length))
          .ok (c :: more)
      | .done (.entity _) after => do
        let used := raw.length - after.length
        let more ← replacementText literalAt fuel after (here.drop used)
        .ok (raw.take used ++ more)
    | c :: rest => do
      let more ← replacementText literalAt fuel rest (here.drop 1)
      .ok (c :: more)

def keyword (chars : List Char) : String := String.ofList chars

/-- An external identifier: `SYSTEM` and one literal, or `PUBLIC` and two. -/
def takeExternal (word : String) (items : Items) : Except Problem Items := do
  let items ← if word = "PUBLIC" then (do let (_, _, rest) ← takeLiteral items; .ok rest) else .ok items
  let (_, _, rest) ← takeLiteral items
  .ok rest

def isExternalWord (chars : List Char) : Bool := keyword chars = "SYSTEM" || keyword chars = "PUBLIC"

/-- `<!ENTITY name "text">` and its forms. Parameter entities are checked and forgotten. -/
def entityDeclaration (dtd : Doctype) (items : Items) : Except Problem Doctype := do
  let (isParameter, items) := match items with
    | .token .percent _ :: rest => (true, rest)
    | _ => (false, items)
  let (name, items) ← takeName items
  match items with
  | .token (.literal chars textAt) _ :: rest => do
    let text ← replacementText textAt (chars.length + 1) chars textAt
    takeClose rest
    .ok (if isParameter then dtd else dtd.addEntity name (.replaced text))
  | .token (.name word false) here :: rest =>
    if isExternalWord word then do
      let rest ← takeExternal (keyword word) rest
      match isParameter, rest with
      | false, .token (.name notation_ false) here :: rest =>
        if keyword notation_ = "NDATA" then do
          let (_, rest) ← takeName rest
          takeClose rest
          .ok (dtd.addEntity name .unparsed)
        else .error ⟨.misplacedText, here⟩
      | _, rest => do
        takeClose rest
        .ok (if isParameter then dtd else dtd.addEntity name .external)
    else .error ⟨.misplacedText, here⟩
  | items => misfit items

def notationDeclaration (items : Items) : Except Problem Unit := do
  let (_, items) ← takeName items
  let (word, rest) ← takeName items
  if keyword word = "SYSTEM" then do
    let (_, _, rest) ← takeLiteral rest
    takeClose rest
  else if keyword word = "PUBLIC" then do
    let (_, _, rest) ← takeLiteral rest
    match rest with
    | .token (.literal ..) _ :: rest => takeClose rest
    | rest => takeClose rest
  else misfit items

/-- The values of an enumerated type, after its opening parenthesis. -/
def takeChoices (plainNames : Bool) : Nat → Items → Except Problem Items
  | 0, items => misfit items
  | fuel + 1, items => do
    let rest ← match items with
      | .token (.name _ hasPrefix) _ :: rest => if plainNames && hasPrefix then misfit items else .ok rest
      | .token (.nameToken _) _ :: rest => if plainNames then misfit items else .ok rest
      | items => misfit items
    match rest with
    | .token .bar _ :: rest => takeChoices plainNames fuel rest
    | .token (.closeParen .none) _ :: rest => .ok rest
    | rest => misfit rest

def attributeTypeWords : List String :=
  ["CDATA", "ID", "IDREF", "IDREFS", "ENTITY", "ENTITIES", "NMTOKEN", "NMTOKENS"]

/-- The type of an attribute: whether it is plain character data. -/
def takeType (items : Items) : Except Problem (Bool × Items) :=
  match items with
  | .token .openParen _ :: rest => do
    let rest ← takeChoices false rest.length rest
    .ok (false, rest)
  | .token (.name word false) _ :: rest =>
    if attributeTypeWords.contains (keyword word) then .ok (keyword word = "CDATA", rest)
    else if keyword word = "NOTATION" then
      match rest with
      | .token .openParen _ :: rest => do
        let rest ← takeChoices true rest.length rest
        .ok (false, rest)
      | rest => misfit rest
    else misfit items
  | items => misfit items

/-- The attributes of an element type, up to the end of the declaration. -/
def attributeDeclarations (element : List Char) : Nat → Doctype → Items → Except Problem Doctype
  | 0, _, items => misfit items
  | fuel + 1, dtd, items =>
    match items with
    | [.token .declClose _] => .ok dtd
    | items => do
      let (name, items) ← takeQualified items
      let (isCdata, items) ← takeType items
      let defaulted (chars textAt here : List Char) (rest : Items) : Except Problem Doctype := do
        let value ← attributeValue dtd isCdata here chars textAt
        attributeDeclarations element fuel (dtd.addAttribute ⟨element, name, isCdata, some value⟩) rest
      match items with
      | .token (.literal chars textAt) here :: rest => defaulted chars textAt here rest
      | .token (.poundName word) here :: rest =>
        if keyword word = "IMPLIED" || keyword word = "REQUIRED" then
          attributeDeclarations element fuel (dtd.addAttribute ⟨element, name, isCdata, none⟩) rest
        else if keyword word = "FIXED" then
          match rest with
          | .token (.literal chars textAt) here :: rest => defaulted chars textAt here rest
          | rest => misfit rest
        else .error ⟨.misplacedText, here⟩
      | items => misfit items

/-- The rest of mixed content after `#PCDATA`. -/
def mixedContent : Nat → Items → Except Problem Unit
  | 0, items => misfit items
  | fuel + 1, items =>
    match items with
    | .token (.closeParen .many) _ :: rest => takeClose rest
    | .token .bar _ :: rest => do
      let (_, rest) ← takeQualified rest
      mixedContent fuel rest
    | items => misfit items

/-- The particles of a content model. `connectors` holds, for each open group, the connector it
uses once one was read. -/
def contentModel : Nat → List (Option Bool) → (afterParticle : Bool) → Items → Except Problem Unit
  | 0, _, _, items => misfit items
  | fuel + 1, connectors, afterParticle, items =>
    match connectors, afterParticle, items with
    | [], _, items => takeClose items
    | connectors, false, .token .openParen _ :: rest => contentModel fuel (none :: connectors) false rest
    | connectors, false, .token (.name ..) _ :: rest => contentModel fuel connectors true rest
    | connectors, false, .token .suffixedName _ :: rest => contentModel fuel connectors true rest
    | _ :: connectors, true, .token (.closeParen _) _ :: rest => contentModel fuel connectors true rest
    | used :: connectors, true, .token .comma here :: rest =>
      if used = some true then .error ⟨.misplacedText, here⟩
      else contentModel fuel (some false :: connectors) false rest
    | used :: connectors, true, .token .bar here :: rest =>
      if used = some false then .error ⟨.misplacedText, here⟩
      else contentModel fuel (some true :: connectors) false rest
    | _, _, items => misfit items

def elementDeclaration (items : Items) : Except Problem Unit := do
  let (_, items) ← takeQualified items
  match items with
  | .token (.name word false) here :: rest =>
    if keyword word = "EMPTY" || keyword word = "ANY" then takeClose rest
    else .error ⟨.misplacedText, here⟩
  | .token .openParen _ :: .token (.poundName word) here :: rest =>
    if keyword word = "PCDATA" then
      match rest with
      | .token (.closeParen .none) _ :: rest => takeClose rest
      | rest => mixedContent (rest.length + 1) rest
    else .error ⟨.misplacedText, here⟩
  | .token .openParen _ :: rest => contentModel (rest.length + 2) [none] false rest
  | items => misfit items

/-- The declarations of an internal subset, up to its closing bracket. -/
def internalSubset : Nat → Doctype → List Char → Except Problem (Doctype × List Char)
  | 0, _, cs => .error ⟨.noElement, cs⟩
  | fuel + 1, dtd, cs =>
    if cs.isEmpty then .error ⟨.noElement, cs⟩
    else match scanProlog cs with
    | .invalid bad => .error ⟨.invalidToken, bad⟩
    | .unfinished => .error ⟨.unclosedToken, cs⟩
    | .done t rest =>
      match t with
      | .space | .comment | .instruction .processing => internalSubset fuel dtd rest
      | .parameterReference =>
        internalSubset fuel { dtd with isPartial := true, counting := dtd.standalone } rest
      | .closeBracket => .ok (dtd, rest)
      | .declOpen word => do
        let (items, after) := declarationItems (rest.length + 1) rest
        let dtd ← match keyword word with
          | "ENTITY" => entityDeclaration dtd items
          | "ATTLIST" => do
            let (element, items) ← takeQualified items
            attributeDeclarations element (items.length + 1) dtd items
          | "ELEMENT" => do
            elementDeclaration items
            .ok dtd
          | "NOTATION" => do
            notationDeclaration items
            .ok dtd
          | _ => .error ⟨.misplacedText, cs⟩
        internalSubset fuel dtd after
      | t => .error (Item.token t cs).problem

/-- The items up to the first of a subset or the end of the declaration. -/
def headItems : Nat → List Char → List Item × List Char
  | 0, cs => ([.stop ⟨.noElement, cs⟩], cs)
  | fuel + 1, cs =>
    if cs.isEmpty then ([.stop ⟨.noElement, cs⟩], cs)
    else match scanProlog cs with
    | .invalid bad => ([.stop ⟨.invalidToken, bad⟩], cs)
    | .unfinished => ([.stop ⟨.unclosedToken, cs⟩], cs)
    | .done .space rest => headItems fuel rest
    | .done .declClose rest => ([.token .declClose cs], rest)
    | .done .openBracket rest => ([.token .openBracket cs], rest)
    | .done t rest =>
      let (items, rest) := headItems fuel rest
      (.token t cs :: items, rest)

/-- A document type declaration after `<!DOCTYPE`. -/
def doctypeDeclaration (standalone : Bool) (cs : List Char) : Except Problem (Doctype × List Char) := do
  let (items, after) := headItems (cs.length + 1) cs
  let (_, items) ← takeQualified items
  let (isPartial, items) ← match items with
    | .token (.name word false) here :: rest =>
      if isExternalWord word then do
        let rest ← takeExternal (keyword word) rest
        .ok (true, rest)
      else .error ⟨.misplacedText, here⟩
    | items => .ok (false, items)
  let dtd : Doctype := { isPartial, standalone }
  match items with
  | [.token .declClose _] => .ok (dtd, after)
  | [.token .openBracket _] => do
    let (dtd, rest) ← internalSubset (after.length + 1) dtd after
    let (items, rest) := declarationItems (rest.length + 1) rest
    takeClose items
    .ok (dtd, rest)
  | items => misfit items

end ApiDoc.Xml
