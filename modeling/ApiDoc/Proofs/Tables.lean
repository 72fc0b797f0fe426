import ApiDoc.Proofs.LineBreaks

/-!
# Tables in documents

The nodes of a document are read at every depth (`nodesOf`). A document is `Tabular` if each table
among them has as many cells in every row as it has heads, and inline nodes only in its cells.
What is done to a fragment before it stands in a document keeps it so: merging its texts
(`Tabular.normalize`) and cutting it into blocks (`Tabular.blocksOf`). A fragment with inline nodes only
in the cells of its tables (`InlineCells`) is inline throughout when it is put on one line, whatever
blocks it holds (`isLine_inlineRun`).
-/

namespace ApiDoc.Document

/-! ## Nodes at every depth -/

mutual

/-- The nodes that stand within a node, at any depth. -/
def Node.within : Node → List Node
  | .heading _ content | .paragraph content | .quote content => nodesOf content
  | .bullets items => nodesOfParts items
  | .table _ rows => nodesOfRows rows
  | .text _ | .code _ | .link _ _ _ | .bold _ | .badge _ | .lineBreak | .codeBlock _ _ | .divider => []

/-- The nodes of a fragment in document order, each before those within it. -/
def nodesOf : List Node → List Node
  | [] => []
  | n :: rest => n :: (n.within ++ nodesOf rest)

def nodesOfParts : List (List Node) → List Node
  | [] => []
  | part :: rest => nodesOf part ++ nodesOfParts rest

def nodesOfRows : List (List (List Node)) → List Node
  | [] => []
  | row :: rest => nodesOfParts row ++ nodesOfRows rest

end

variable {f g : Fragment} {n : Node}

theorem mem_nodesOf {m : Node} : m ∈ nodesOf f ↔ ∃ n ∈ f, m = n ∨ m ∈ n.within := by
  induction f with
  | nil => simp [nodesOf]
  | cons n f ih => simp [nodesOf, ih, or_assoc]

theorem mem_nodesOfParts {m : Node} {parts : List Fragment} :
    m ∈ nodesOfParts parts ↔ ∃ part ∈ parts, m ∈ nodesOf part := by
  induction parts with
  | nil => simp [nodesOfParts]
  | cons part parts ih => simp [nodesOfParts, ih]

theorem mem_nodesOfRows {m : Node} {rows : List (List Fragment)} :
    m ∈ nodesOfRows rows ↔ ∃ row ∈ rows, ∃ cell ∈ row, m ∈ nodesOf cell := by
  induction rows with
  | nil => simp [nodesOfRows]
  | cons row rows ih => simp [nodesOfRows, ih, mem_nodesOfParts]

@[simp] theorem isInline_text (s : String) : (Node.text s).isInline = true := rfl
@[simp] theorem isInline_code (s : String) : (Node.code s).isInline = true := rfl
@[simp] theorem isInline_bold (s : String) : (Node.bold s).isInline = true := rfl
@[simp] theorem isInline_lineBreak : Node.lineBreak.isInline = true := rfl

theorem within_of_isInline (h : n.isInline = true) : n.within = [] := by
  cases n <;> first | rfl | cases h

/-! ## Tabular documents -/

/-- Fragments of inline nodes. -/
def IsLine (f : Fragment) : Prop := ∀ n ∈ f, n.isInline = true

/-- A row of a number of cells, all of them inline. -/
def IsRegularRow (width : Nat) (row : List Fragment) : Prop :=
  row.length = width ∧ ∀ cell ∈ row, IsLine cell

/-- A table whose rows are regular, with a cell for each head. Other nodes are no tables. -/
def Node.IsRegular : Node → Prop
  | .table heads rows => ∀ row ∈ rows, IsRegularRow heads.length row
  | _ => True

/-- All tables, at any depth, are regular. -/
def Tabular (f : Fragment) : Prop := ∀ n ∈ nodesOf f, n.IsRegular

theorem tabular_iff : Tabular f ↔ ∀ n ∈ f, n.IsRegular ∧ ∀ m ∈ n.within, m.IsRegular := by
  simp only [Tabular, mem_nodesOf]
  constructor
  · exact fun h n hn => ⟨h n ⟨n, hn, .inl rfl⟩, fun m hm => h m ⟨n, hn, .inr hm⟩⟩
  · rintro h m ⟨n, hn, rfl | hm⟩
    · exact (h m hn).1
    · exact (h n hn).2 m hm

theorem tabular_singleton : Tabular [n] ↔ n.IsRegular ∧ ∀ m ∈ n.within, m.IsRegular := by
  rw [tabular_iff, List.forall_mem_singleton]

@[simp] theorem tabular_nil : Tabular [] := fun _ h => nomatch h

@[simp] theorem tabular_append : Tabular (f ++ g) ↔ Tabular f ∧ Tabular g := by
  simp only [tabular_iff, List.forall_mem_append]

theorem tabular_cons : Tabular (n :: f) ↔ Tabular [n] ∧ Tabular f := by
  rw [← List.singleton_append, tabular_append]

theorem Tabular.of_mem (h : Tabular f) (hn : n ∈ f) : Tabular [n] :=
  tabular_iff.2 (List.forall_mem_singleton.2 (tabular_iff.1 h n hn))

theorem tabular_of_forall (h : ∀ n ∈ f, Tabular [n]) : Tabular f :=
  tabular_iff.2 fun n hn => tabular_iff.1 (h n hn) n List.mem_cons_self

theorem tabular_flatten {fs : List Fragment} (h : ∀ f ∈ fs, Tabular f) : Tabular fs.flatten := by
  refine tabular_of_forall fun n hn => ?_
  obtain ⟨f, hf, hn⟩ := List.mem_flatten.1 hn
  exact (h f hf).of_mem hn

/-! ### Nodes -/

theorem tabular_of_isInline (h : n.isInline = true) : Tabular [n] := by
  refine tabular_singleton.2 ⟨?_, ?_⟩
  · cases n <;> trivial
  · rw [within_of_isInline h]
    exact fun m hm => nomatch hm

theorem IsLine.tabular (h : IsLine f) : Tabular f :=
  tabular_of_forall fun n hn => tabular_of_isInline (h n hn)

theorem tabular_codeBlock (s language : String) : Tabular [.codeBlock s language] :=
  tabular_singleton.2 ⟨trivial, fun _ hm => nomatch hm⟩

theorem tabular_divider : Tabular [.divider] :=
  tabular_singleton.2 ⟨trivial, fun _ hm => nomatch hm⟩

theorem tabular_heading {level : Nat} : Tabular [.heading level f] ↔ Tabular f :=
  tabular_singleton.trans (and_iff_right (by trivial))

theorem tabular_paragraph : Tabular [.paragraph f] ↔ Tabular f :=
  tabular_singleton.trans (and_iff_right (by trivial))

theorem tabular_quote : Tabular [.quote f] ↔ Tabular f :=
  tabular_singleton.trans (and_iff_right (by trivial))

theorem tabular_bullets {items : List Fragment} :
    Tabular [.bullets items] ↔ ∀ item ∈ items, Tabular item := by
  refine (tabular_singleton.trans (and_iff_right (by trivial))).trans ?_
  simp only [Node.within, mem_nodesOfParts, Tabular]
  exact ⟨fun h item hitem m hm => h m ⟨item, hitem, hm⟩, fun h m ⟨item, hitem, hm⟩ => h item hitem m hm⟩

/-- Inline cells hold no tables, so that a table has none within it. -/
theorem tabular_table {heads : List String} {rows : List (List Fragment)} :
    Tabular [.table heads rows] ↔ ∀ row ∈ rows, IsRegularRow heads.length row := by
  rw [tabular_singleton]
  refine and_iff_left_of_imp fun h m hm => ?_
  obtain ⟨row, hrow, cell, hcell, hm⟩ := mem_nodesOfRows.1 hm
  exact ((h row hrow).2 cell hcell).tabular m hm

/-! ## Inline cells -/

/-- A table with inline nodes only in its cells. Other nodes are no tables. -/
def Node.HasInlineCells : Node → Prop
  | .table _ rows => ∀ row ∈ rows, ∀ cell ∈ row, IsLine cell
  | _ => True

/-- All tables, at any depth, have inline nodes only in their cells. -/
def InlineCells (f : Fragment) : Prop := ∀ n ∈ nodesOf f, n.HasInlineCells

namespace InlineCells

theorem of_subset (h : InlineCells f) (hsub : g ⊆ f) : InlineCells g := by
  intro m hm
  obtain ⟨n, hn, hm⟩ := mem_nodesOf.1 hm
  exact h m (mem_nodesOf.2 ⟨n, hsub hn, hm⟩)

theorem node (h : InlineCells [n]) : n.HasInlineCells := h n List.mem_cons_self

theorem within (h : InlineCells [n]) : ∀ m ∈ n.within, m.HasInlineCells :=
  fun m hm => h m (mem_nodesOf.2 ⟨n, List.mem_cons_self, .inr hm⟩)

theorem items {items : List Fragment} (h : InlineCells [.bullets items]) :
    ∀ item ∈ items, InlineCells item :=
  fun item hitem m hm => h.within m (mem_nodesOfParts.2 ⟨item, hitem, hm⟩)

end InlineCells

theorem Tabular.inlineCells (h : Tabular f) : InlineCells f := by
  intro n hn
  have hregular := h n hn
  cases n <;> first | trivial | exact fun row hrow => (hregular row hrow).2

/-! ## Merging texts -/

theorem isInline_of_isText (h : n.isText = true) : n.isInline = true := by
  cases n <;> first | rfl | cases h

theorem Tabular.normalize (h : Tabular f) : Tabular (normalize f) := by
  rw [normalize_eq]
  exact tabular_of_forall fun _ hn => (mem_mergeWithin hn).elim
    (fun htext => tabular_of_isInline (isInline_of_isText htext)) h.of_mem

theorem IsLine.mergeWithin (h : IsLine f) (start stop : Bool) : IsLine (mergeWithin start stop f) :=
  fun _ hn => (mem_mergeWithin hn).elim isInline_of_isText (h _)

/-! ## One line -/

theorem IsLine.tidy (h : IsLine f) : IsLine (tidy f) := by
  intro n hn
  by_cases hother : n ∈ otherNodes (Document.tidy f)
  · rw [otherNodes_tidy] at hother
    exact h n (List.mem_of_mem_filter (List.mem_of_mem_filter hother))
  · cases n <;> first | rfl | exact absurd (by simp [otherNodes, withoutTexts, withoutBreaks, hn,
      Node.isText, Node.isLineBreak]) hother

theorem isLine_append : IsLine (f ++ g) ↔ IsLine f ∧ IsLine g := List.forall_mem_append

theorem isLine_cons : IsLine (n :: f) ↔ n.isInline = true ∧ IsLine f := List.forall_mem_cons

/-- A row of inline cells with blanks between them. -/
theorem isLine_intercalate {row : List Fragment} (h : ∀ cell ∈ row, IsLine cell) :
    IsLine (List.intercalate [.text " "] row) := by
  induction row with
  | nil => exact fun n hn => nomatch hn
  | cons cell row ih =>
    obtain ⟨hcell, hrow⟩ := List.forall_mem_cons.1 h
    cases row with
    | nil => simpa [List.intercalate] using hcell
    | cons cell' row =>
      rw [List.intercalate, List.intersperse_cons_cons, List.flatten_cons, List.flatten_cons]
      exact isLine_append.2 ⟨hcell, isLine_append.2 ⟨List.forall_mem_singleton.2 rfl, ih hrow⟩⟩

/-- What stands in lines of its own, between line breaks. -/
theorem isLine_between (h : IsLine f) : IsLine (.lineBreak :: tidy f ++ [.lineBreak]) :=
  isLine_append.2 ⟨isLine_cons.2 ⟨rfl, h.tidy⟩, List.forall_mem_singleton.2 rfl⟩

mutual

theorem isLine_inlined : ∀ n : Node, InlineCells [n] → IsLine n.inlined
  | .text _, _ | .code _, _ | .link _ _ _, _ | .bold _, _ | .badge _, _ | .lineBreak, _
  | .codeBlock _ _, _ | .divider, _ => List.forall_mem_singleton.2 rfl
  | .heading _ content, h | .paragraph content, h | .quote content, h =>
    isLine_between (isLine_inlinedAll content h.within)
  | .bullets items, h => isLine_append.2
      ⟨isLine_inlinedItems items h.items, List.forall_mem_singleton.2 rfl⟩
  | .table heads rows, h => by
    rw [Node.inlined]
    refine isLine_append.2 ⟨fun n hn => ?_, List.forall_mem_singleton.2 rfl⟩
    obtain ⟨row, hrow, hn⟩ := List.mem_flatMap.1 hn
    exact isLine_cons.2 ⟨rfl, isLine_intercalate (h.node row hrow)⟩ n hn

theorem isLine_inlinedAll : ∀ f : Fragment, InlineCells f → IsLine (inlinedAll f)
  | [], _ => fun _ hn => nomatch hn
  | n :: rest, h => isLine_append.2
      ⟨isLine_inlined n (h.of_subset (by simp)), isLine_inlinedAll rest (h.of_subset (by simp))⟩

theorem isLine_inlinedItems : ∀ items : List Fragment, (∀ item ∈ items, InlineCells item) →
    IsLine (inlinedItems items)
  | [], _ => fun _ hn => nomatch hn
  | item :: rest, h => by
    obtain ⟨hitem, hrest⟩ := List.forall_mem_cons.1 h
    refine isLine_append.2 ⟨isLine_cons.2 ⟨rfl, ?_⟩, isLine_inlinedItems rest hrest⟩
    exact (isLine_inlinedAll item hitem).tidy

end

/-- On one line there are inline nodes only. -/
theorem isLine_inlineRun (h : InlineCells f) : IsLine (inlineRun f) := (isLine_inlinedAll f h).tidy

/-! ## Blocks -/

theorem tabular_paragraphOf {run : Fragment} (h : IsLine run) : Tabular (paragraphOf run) := by
  unfold paragraphOf
  split
  · exact tabular_nil
  · exact tabular_paragraph.2 h.tabular

theorem tabular_blocksFrom {run : Fragment} (hrun : IsLine run) (h : Tabular f) :
    Tabular (blocksFrom run f) := by
  induction f generalizing run with
  | nil => exact tabular_paragraphOf hrun
  | cons n f ih =>
    obtain ⟨hn, hf⟩ := tabular_cons.1 h
    rw [blocksFrom]
    split
    next hinline =>
      exact ih (isLine_append.2 ⟨hrun, List.forall_mem_singleton.2 hinline⟩) hf
    next =>
      refine tabular_append.2 ⟨tabular_paragraphOf hrun, tabular_cons.2 ⟨hn, ?_⟩⟩
      exact ih (fun _ h => nomatch h) hf

theorem Tabular.blocksOf (h : Tabular f) : Tabular (Document.blocksOf f) :=
  tabular_blocksFrom (fun _ h => nomatch h) h

end ApiDoc.Document
