import ApiDoc.Documentation.Source
import ApiDoc.Log.Record

/-!
# Documentation indices

The index of a unit is empty until it is first asked. Then it deals with its source, once and for
all: afterwards it is ready, missing or failed, and neither its state nor its entries change. Only
if the source fails for a reason of its own does the index stay empty, and the next question tries
again.
-/

namespace ApiDoc

structure Index where
  unit : String
  source : Source
  /-- What comes of the source, whenever it is asked for. -/
  outcome : Except Error Contents
  /-- The contents since the index was settled. -/
  contents : Option Contents := none
  /-- How often the source was fetched. -/
  fetches : Nat := 0
  outcome_eq : outcome = source.read

namespace Index

def ofSource (unit : String) (source : Source) : Index :=
  { unit, source, outcome := source.read, outcome_eq := rfl }

/-- The same index before it was asked. -/
def renew (i : Index) : Index := { i with contents := none }

/-- The name of the state an index is in. Looking at it settles nothing. -/
def state (i : Index) : String :=
  match i.contents with
  | none => "empty"
  | some (.ready ..) => "ready"
  | some (.missing _) => "missing"
  | some (.malformed _) => "failed"

/-- What settling an index leaves in the log. -/
def report (unit : String) : Contents → Log.Record
  | .ready entries duplicates =>
    { level := .debug, event := "documentation_index_built"
      fields := [("unit", .text unit), ("entries", .int entries.length), ("duplicates", .int duplicates)] }
  | .missing none =>
    { level := .debug, event := "documentation_source_missing", fields := [("unit", .text unit)] }
  | .missing (some reason) =>
    { level := .warning, event := "documentation_source_unavailable"
      fields := [("unit", .text unit), ("error", .text (Error.sourceUnavailable unit reason).display)] }
  | .malformed reason =>
    let e := Error.sourceMalformed unit reason
    { level := .error, event := "documentation_source_malformed"
      fields := [("unit", .text unit), ("code", .int (e.code?.elim 0 fun c => c.number)),
        ("error", .text e.display)] }

/-- Settles an index that has not been asked before: its contents, the index, and what is logged. -/
def settle (i : Index) : Except Error Contents × Index × List Log.Record :=
  match i.contents with
  | some c => (.ok c, i, [])
  | none =>
    let asked := { i with fetches := i.fetches + if i.source.isFetched then 1 else 0 }
    match i.outcome with
    | .ok c => (.ok c, { asked with contents := some c }, [report i.unit c])
    | .error e => (.error e, asked, [])

/-! ## Questions -/

/-- What a question that a broken source must not answer gets: an error if the source is malformed
and `strict` is set. -/
def demand (strict : Bool) (unit : String) (c : Contents) : Except Error Contents :=
  match c with
  | .malformed reason => if strict then .error (.sourceMalformed unit reason) else .ok c
  | c => .ok c

/-- Settles the index and reads its contents. -/
def ask {α : Type} (i : Index) (read : Contents → Except Error α) :
    Except Error α × Index × List Log.Record :=
  let (contents, i, log) := i.settle
  (contents.bind read, i, log)

/-- The entry of a key. -/
def get (i : Index) (strict : Bool) (key : String) : Except Error (Option Xml.Node) × Index × List Log.Record :=
  i.ask fun c => (demand strict i.unit c).map (·.find? key)

/-- The entry of a key; a malformed source has none. -/
def find (i : Index) (key : String) : Except Error (Option Xml.Node) × Index × List Log.Record :=
  i.ask fun c => .ok (c.find? key)

/-- The keys in the order of their entries. -/
def keys (i : Index) (strict : Bool) : Except Error (List String) × Index × List Log.Record :=
  i.ask fun c => (demand strict i.unit c).map (·.entries.map Prod.fst)

def contains (i : Index) (key : String) : Except Error Bool × Index × List Log.Record :=
  i.ask fun c => .ok (c.find? key).isSome

def size (i : Index) (strict : Bool) : Except Error Nat × Index × List Log.Record :=
  i.ask fun c => (demand strict i.unit c).map (·.entries.length)

/-- Whether the source was found and could be read. -/
def isIndexed (i : Index) : Except Error Bool × Index × List Log.Record :=
  i.ask fun c => .ok c.isReady

end Index

end ApiDoc
