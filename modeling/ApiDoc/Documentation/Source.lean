import ApiDoc.Error
import ApiDoc.Xml.Encoding

/-!
# Documentation sources

Where the documentation of a unit comes from, and what comes of reading it. A source that cannot be
reached is as good as none, one that is not well-formed is malformed, and the entries of any other
are its `member` elements by name.
-/

namespace ApiDoc

inductive Source where
  | absent
  | text (s : String)
  | bytes (bs : List UInt8)
  /-- A tree that has been read already. -/
  | element (root : Xml.Node)
  /-- A source that is fetched when it is first needed. -/
  | fetched (source : Source)
  /-- Fetching it fails for a reason that leaves the unit undocumented. -/
  | unreachable (reason : String)
  /-- Fetching it fails for a reason of its own. -/
  | failing
deriving Repr

namespace Source

/-- Whether asking for the source is an act that can be counted. -/
def isFetched : Source → Bool
  | .fetched _ | .unreachable _ | .failing => true
  | _ => false

end Source

/-- The entries of a source, each under its name. -/
abbrev Entries := List (String × Xml.Node)

namespace Entries

/-- The entries that bear a name, in document order; repeated names too. -/
def named (root : Xml.Node) : Entries :=
  (root.elementsNamed "member").filterMap fun n =>
    match n.attribute? "name" with
    | some key => if key.isEmpty then none else some (key, n)
    | none => none

/-- The first entry of each name. -/
def firsts : Entries → Entries
  | [] => []
  | (key, n) :: rest => (key, n) :: (firsts rest).filter fun e => e.1 ≠ key

end Entries

/-- What an index holds once its source has been dealt with. -/
inductive Contents where
  | ready (entries : Entries) (duplicates : Nat)
  /-- The unit has no documentation, or it could not be reached for a reason. -/
  | missing (reason : Option String)
  | malformed (reason : String)
deriving Repr

namespace Contents

def ofRoot (root : Xml.Node) : Contents :=
  let named := Entries.named root
  let entries := Entries.firsts named
  .ready entries (named.length - entries.length)

def entries : Contents → Entries
  | .ready entries _ => entries
  | _ => []

def isReady : Contents → Bool
  | .ready .. => true
  | _ => false

def find? (c : Contents) (key : String) : Option Xml.Node := c.entries.lookup key

end Contents

namespace Source

/-- Reads text, bytes or a tree. -/
def readRaw : Source → Except Error Contents
  | .absent => .ok (.missing none)
  | .text s =>
    match Xml.readText s with
    | .ok root => .ok (.ofRoot root)
    | .error e => .ok (.malformed e.message)
  | .bytes bs =>
    match Xml.readBytes bs with
    | .ok root => .ok (.ofRoot root)
    | .error (.illFormed e) => .ok (.malformed e.message)
    | .error .encodingUnknown => .error .encodingUnknown
    | .error .encodingUnsupported => .error .encodingUnsupported
  | .element root => .ok (.ofRoot root)
  | .fetched _ | .unreachable _ | .failing => .error .sourceUnusable

/-- What comes of a source: contents, or an error that is not the business of an index. -/
def read : Source → Except Error Contents
  | .fetched source => source.readRaw
  | .unreachable reason => .ok (.missing (some reason))
  | .failing => .error .sourceFailed
  | source => source.readRaw

end Source

end ApiDoc
