import ApiDoc.Document.Node

/-!
# Link tables

The targets a document links to, each once, numbered in the order in which they came up.
-/

namespace ApiDoc.Document

structure LinkTable where
  targets : List String
  distinct : targets.Nodup := by simp
deriving Repr

namespace LinkTable

def empty : LinkTable where
  targets := []

instance : Inhabited LinkTable := ⟨empty⟩

def contains (t : LinkTable) (target : String) : Bool := t.targets.contains target

def size (t : LinkTable) : Nat := t.targets.length

/-- The targets with their numbers. -/
def items (t : LinkTable) : List (String × Nat) := t.targets.zipIdx

/-- The table with a target in it, which comes last if it is new. -/
def insert (t : LinkTable) (target : String) : LinkTable :=
  if h : target ∈ t.targets then t
  else
    { targets := t.targets ++ [target]
      distinct := by
        refine List.nodup_append.2 ⟨t.distinct, by simp, fun a ha b hb => ?_⟩
        obtain rfl := List.mem_singleton.1 hb
        exact fun same => h (same ▸ ha) }

/-- The number of a target, or the one it would get. -/
def index (t : LinkTable) (target : String) : Nat := t.targets.idxOf target

/-- A link to a target, and the table with that target. -/
def link (t : LinkTable) (s target : String) : Node × LinkTable :=
  (.link s target (t.index target), t.insert target)

end LinkTable

/-- A page: its title, its blocks, and what they link to. -/
structure Page where
  title : String
  blocks : List Node
  links : LinkTable
deriving Repr

end ApiDoc.Document
