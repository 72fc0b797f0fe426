import ApiDoc.Document.LinkTable
import ApiDoc.Metadata.Symbol
import ApiDoc.Log.Record

/-!
# Answers

Answering a question may fail, and it leaves traces: indices that had to be settled, dispatch tables
that had to be built, log records, and the targets that the text written so far links to. They are
kept in a journal, which an error does not wipe out.
-/

namespace ApiDoc

/-- The methods of an interface by signature; of two with one signature the first counts. -/
abbrev DispatchTable := List (String × Address)

/-- The methods of a table that count. -/
def DispatchTable.firsts : DispatchTable → DispatchTable
  | [] => []
  | (signature, a) :: rest => (signature, a) :: (firsts rest).filter fun e => e.1 ≠ signature

inductive JournalEntry where
  /-- The index of a unit was asked. -/
  | consulted (unit : String)
  /-- The dispatch table of an interface with given arguments was built. -/
  | dispatched (interface : Address) (arguments : List TypeRef) (table : DispatchTable)
  | logged (record : Log.Record)
deriving Repr

structure Journal where
  links : Document.LinkTable := .empty
  /-- What happened, the latest first. -/
  entries : List JournalEntry := []

/-- A computation that may fail and leaves a journal. -/
abbrev Answer (α : Type) := ExceptT Error (StateM Journal) α

namespace Answer

/-- The result and the journal of an answer that starts with a journal. -/
def result {α : Type} (a : Answer α) (j : Journal) : Except Error α × Journal := a.run.run j

def ofExcept {α : Type} (r : Except Error α) : Answer α := ExceptT.mk (pure r)

def record (e : JournalEntry) : Answer Unit := modify fun j => { j with entries := e :: j.entries }

def log (level : Log.Level) (event : String) (fields : List (String × Data)) : Answer Unit :=
  record (.logged { level, event, fields })

/-- The results for each item, in order. -/
def each {α β : Type} (f : α → Answer β) : List α → Answer (List β)
  | [] => pure []
  | a :: rest => do
    let b ← f a
    let more ← each f rest
    pure (b :: more)

/-- The results for each item, one after the other. -/
def concatEach {α β : Type} (f : α → Answer (List β)) (items : List α) : Answer (List β) := do
  let lists ← each f items
  pure lists.flatten

/-- A link, whose target the journal then holds. -/
def link (s target : String) : Answer Document.Node := do
  let j ← get
  let (n, links) := j.links.link s target
  set { j with links }
  pure n

/-- Writes a page, which has links of its own. -/
def page (title : String) (body : Answer (List Document.Node)) : Answer Document.Page := do
  let outer := (← get).links
  modify fun j => { j with links := .empty }
  let blocks ← body
  let links := (← get).links
  modify fun j => { j with links := outer }
  pure { title, blocks, links }

end Answer

end ApiDoc
