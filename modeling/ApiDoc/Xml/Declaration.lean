import ApiDoc.Xml.Token

/-!
# The XML declaration

What stands between `<?xml` and `?>`: a version, and then perhaps an encoding and whether the
document stands alone, in this order and each as a name with a quoted value.
-/

namespace ApiDoc.Xml

structure XmlDeclaration where
  /-- The encoding's name, and where it stands. -/
  encoding : Option (List Char × List Char) := none
  standalone : Bool := false

/-- A name, its value, and where the name and the value begin. -/
structure PseudoAttribute where
  name : List Char
  nameAt : List Char
  value : List Char
  valueAt : List Char

def isValueChar (c : Char) : Bool := c.isAlphanum || c = '.' || c = '-' || c = '_'

/-- The next pseudo-attribute, or none at the end; else the place of the fault. A declaration that
ends in space and nothing else is faulted where that space begins. -/
def pseudoAttribute (cs : List Char) : Except (List Char) (Option PseudoAttribute × List Char) :=
  match cs with
  | [] => .ok (none, cs)
  | c :: _ =>
    if !isSpace c then .error cs
    else match cs.dropWhile isSpace with
    | [] => .ok (none, cs)
    | nameAt =>
      let inName (d : Char) := d ≠ '=' && !isSpace d && d.toNat < 128
      let name := nameAt.takeWhile inName
      match (nameAt.dropWhile inName).dropWhile isSpace with
      | '=' :: rest =>
        if name.isEmpty then .error nameAt
        else match rest.dropWhile isSpace with
        | [] => .error []
        | quote :: valueAt =>
          if quote ≠ '"' && quote ≠ '\'' then .error (quote :: valueAt)
          else
            let value := valueAt.takeWhile isValueChar
            match valueAt.dropWhile isValueChar with
            | [] => .error []
            | d :: rest => if d = quote then .ok (some ⟨name, nameAt, value, valueAt⟩, rest) else .error (d :: rest)
      | fault => .error fault

/-- Reads a declaration; an error is the place of the fault. -/
def xmlDeclaration (cs : List Char) : Except (List Char) XmlDeclaration := do
  let (version, rest) ← pseudoAttribute cs
  match version with
  | none => .error cs
  | some version =>
    if version.name ≠ "version".toList then .error version.nameAt
    else do
      let (second, rest) ← pseudoAttribute rest
      match second with
      | none => .ok {}
      | some second => do
        let (encoding, third, rest) ←
          if second.name = "encoding".toList then
            match second.value with
            | c :: _ =>
              if c.isAlpha then do
                let (third, rest) ← pseudoAttribute rest
                .ok (some (second.value, second.valueAt), third, rest)
              else .error second.valueAt
            | [] => .error second.valueAt
          else .ok (none, some second, rest)
        match third with
        | none => .ok { encoding }
        | some third =>
          if third.name ≠ "standalone".toList then .error third.nameAt
          else if third.value = "yes".toList || third.value = "no".toList then
            match rest.dropWhile isSpace with
            | [] => .ok { encoding, standalone := third.value = "yes".toList }
            | fault => .error fault
          else .error third.valueAt

end ApiDoc.Xml
