/-!
# What makes a document ill-formed

A problem has a cause and the text from which on the document could not be read. Its position
counts lines from one and the characters before it on its line; a carriage return, a line feed or
both together end a line.
-/

namespace ApiDoc.Xml

inductive Cause where
  | misplacedText
  | noElement
  | invalidToken
  | unclosedToken
  | partialCharacter
  | tagMismatch
  | duplicateAttribute
  | junkAfterDocument
  | illegalParameterReference
  | undefinedEntity
  /-- An entity that may be declared where declarations were not read. -/
  | unresolvedEntity (name : String)
  | recursiveEntity
  | asynchronousEntity
  | badCharacterReference
  | binaryEntityReference
  | externalEntityInAttribute
  | misplacedDeclaration
  | unknownEncoding
  | incorrectEncoding
  | unclosedCdata
  | unboundPrefix
  | undeclaredPrefix
  | malformedDeclaration
  | reservedXmlPrefix
  | reservedXmlnsPrefix
  | reservedNamespace
deriving DecidableEq, Repr

def Cause.message : Cause → String
  | .misplacedText => "syntax error"
  | .noElement => "no element found"
  | .invalidToken => "not well-formed (invalid token)"
  | .unclosedToken => "unclosed token"
  | .partialCharacter => "partial character"
  | .tagMismatch => "mismatched tag"
  | .duplicateAttribute => "duplicate attribute"
  | .junkAfterDocument => "junk after document element"
  | .illegalParameterReference => "illegal parameter entity reference"
  | .undefinedEntity => "undefined entity"
  | .unresolvedEntity name => "undefined entity &" ++ name ++ ";"
  | .recursiveEntity => "recursive entity reference"
  | .asynchronousEntity => "asynchronous entity"
  | .badCharacterReference => "reference to invalid character number"
  | .binaryEntityReference => "reference to binary entity"
  | .externalEntityInAttribute => "reference to external entity in attribute"
  | .misplacedDeclaration => "XML or text declaration not at start of entity"
  | .unknownEncoding => "unknown encoding"
  | .incorrectEncoding => "encoding specified in XML declaration is incorrect"
  | .unclosedCdata => "unclosed CDATA section"
  | .unboundPrefix => "unbound prefix"
  | .undeclaredPrefix => "must not undeclare prefix"
  | .malformedDeclaration => "XML declaration not well-formed"
  | .reservedXmlPrefix => "reserved prefix (xml) must not be undeclared or bound to another namespace name"
  | .reservedXmlnsPrefix => "reserved prefix (xmlns) must not be declared or undeclared"
  | .reservedNamespace => "prefix must not be bound to one of the reserved namespace names"

/-- A cause, and the rest of the document where it was noticed. -/
structure Problem where
  cause : Cause
  rest : List Char
deriving Repr

structure Position where
  line : Nat
  column : Nat
deriving DecidableEq, Repr

/-- The position after some text that starts at a position. -/
def Position.after (p : Position) : List Char → Position
  | [] => p
  | '\r' :: '\n' :: cs => after ⟨p.line + 1, 0⟩ cs
  | '\r' :: cs => after ⟨p.line + 1, 0⟩ cs
  | '\n' :: cs => after ⟨p.line + 1, 0⟩ cs
  | _ :: cs => after ⟨p.line, p.column + 1⟩ cs

/-- A problem with its position in the document. -/
structure SyntaxError where
  cause : Cause
  position : Position
deriving Repr

def SyntaxError.message (e : SyntaxError) : String :=
  e.cause.message ++ ": line " ++ toString e.position.line ++ ", column " ++ toString e.position.column

/-- Locates a problem in the document it was found in. -/
def Problem.locate (p : Problem) (document : List Char) : SyntaxError :=
  { cause := p.cause
    position := Position.after ⟨1, 0⟩ (document.take (document.length - p.rest.length)) }

end ApiDoc.Xml
