import ApiDoc.Document.LinkTable
import ApiDoc.Proofs.LineBreaks

/-!
# Links in document order

The links of a document are read from its blocks in order: the content of headings, paragraphs and
quotes, the items of lists, and tables row by row and cell by cell. What is done to a fragment
before it stands in a document keeps them: merging its texts (`linksOf_normalize`), putting it on
one line (`linksOf_inlineRun`) and cutting it into blocks (`linksOf_blocksOf`). A table `Numbers`
links if it holds their targets in order of first occurrence and each bears the number of its
target; taking up one more link keeps it so (`Numbers.link`).
-/

namespace ApiDoc.Document

/-! ## Reading links -/

mutual

/-- The links of a node in document order, each with its target and its number. -/
def Node.links : Node → List (String × Nat)
  | .link _ target index => [(target, index)]
  | .heading _ content | .paragraph content | .quote content => linksOf content
  | .bullets items => linksOfParts items
  | .table _ rows => linksOfRows rows
  | .text _ | .code _ | .bold _ | .badge _ | .lineBreak | .codeBlock _ _ | .divider => []

def linksOf : List Node → List (String × Nat)
  | [] => []
  | n :: rest => n.links ++ linksOf rest

def linksOfParts : List (List Node) → List (String × Nat)
  | [] => []
  | part :: rest => linksOf part ++ linksOfParts rest

def linksOfRows : List (List (List Node)) → List (String × Nat)
  | [] => []
  | row :: rest => linksOfParts row ++ linksOfRows rest

end

@[simp] theorem linksOf_nil : linksOf [] = [] := rfl

@[simp] theorem linksOf_cons (n : Node) (f : Fragment) :
    linksOf (n :: f) = n.links ++ linksOf f := rfl

@[simp] theorem linksOf_append (f g : Fragment) : linksOf (f ++ g) = linksOf f ++ linksOf g := by
  induction f with
  | nil => rfl
  | cons n f ih => simp [ih]

@[simp] theorem linksOfParts_nil : linksOfParts [] = [] := rfl

@[simp] theorem linksOfParts_cons (part : Fragment) (parts : List Fragment) :
    linksOfParts (part :: parts) = linksOf part ++ linksOfParts parts := rfl

@[simp] theorem linksOfRows_nil : linksOfRows [] = [] := rfl

@[simp] theorem linksOfRows_cons (row : List Fragment) (rows : List (List Fragment)) :
    linksOfRows (row :: rows) = linksOfParts row ++ linksOfRows rows := rfl

theorem linksOf_eq_flatMap (f : Fragment) : linksOf f = f.flatMap Node.links := by
  induction f with
  | nil => rfl
  | cons n f ih => simp [ih]

theorem linksOfParts_eq_flatMap (parts : List Fragment) :
    linksOfParts parts = parts.flatMap linksOf := by
  induction parts with
  | nil => rfl
  | cons part parts ih => simp [ih]

theorem linksOfRows_eq_flatMap (rows : List (List Fragment)) :
    linksOfRows rows = rows.flatMap linksOfParts := by
  induction rows with
  | nil => rfl
  | cons row rows ih => simp [ih]

@[simp] theorem linksOf_flatten (fs : List Fragment) : linksOf fs.flatten = linksOfParts fs := by
  induction fs with
  | nil => rfl
  | cons f fs ih => simp [ih]

/-- What has no links may stand between the nodes of a fragment. -/
theorem linksOf_intersperse {separator : Node} (h : separator.links = []) (f : Fragment) :
    linksOf (f.intersperse separator) = linksOf f := by
  induction f with
  | nil => rfl
  | cons n f ih =>
    cases f with
    | nil => rfl
    | cons n' f => simpa [List.intersperse, h] using ih

theorem linksOfParts_intersperse {separator : Fragment} (h : linksOf separator = [])
    (parts : List Fragment) : linksOfParts (parts.intersperse separator) = linksOfParts parts := by
  induction parts with
  | nil => rfl
  | cons part parts ih =>
    cases parts with
    | nil => rfl
    | cons part' parts => simpa [List.intersperse, h] using ih

/-! ## Merging texts -/

/-- Nodes without links may be left out. -/
theorem linksOf_filter {p : Node → Bool} (h : ∀ n, p n = false → n.links = []) (f : Fragment) :
    linksOf (f.filter p) = linksOf f := by
  induction f with
  | nil => rfl
  | cons n f ih => cases hn : p n <;> simp [hn, ih, h]

@[simp] theorem linksOf_withoutTexts (f : Fragment) : linksOf (withoutTexts f) = linksOf f :=
  linksOf_filter (fun n hn => by cases n <;> simp_all [Node.isText, Node.links]) f

@[simp] theorem linksOf_withoutBreaks (f : Fragment) : linksOf (withoutBreaks f) = linksOf f :=
  linksOf_filter (fun n hn => by cases n <;> simp_all [Node.isLineBreak, Node.links]) f

@[simp] theorem linksOf_normalize (f : Fragment) : linksOf (normalize f) = linksOf f := by
  rw [← linksOf_withoutTexts, withoutTexts_normalize, linksOf_withoutTexts]

/-! ## One line -/

@[simp] theorem linksOf_otherNodes (f : Fragment) : linksOf (otherNodes f) = linksOf f := by
  rw [otherNodes, linksOf_withoutTexts, linksOf_withoutBreaks]

@[simp] theorem linksOf_tidy (f : Fragment) : linksOf (tidy f) = linksOf f := by
  rw [← linksOf_otherNodes, otherNodes_tidy, linksOf_otherNodes]

/-- A row in one line, after a line break and with blanks between its cells. -/
theorem linksOf_rowLines (rows : List (List Fragment)) :
    linksOf (rows.flatMap fun row => .lineBreak :: List.intercalate [.text " "] row) =
      linksOfRows rows := by
  induction rows with
  | nil => rfl
  | cons row rows ih =>
    have hrow : linksOf (List.intercalate [.text " "] row) = linksOfParts row := by
      rw [List.intercalate, linksOf_flatten, linksOfParts_intersperse rfl]
    simp [hrow, ih, Node.links]

mutual

theorem linksOf_inlined : ∀ n : Node, linksOf n.inlined = n.links
  | .text _ | .code _ | .bold _ | .badge _ | .lineBreak | .codeBlock _ _ | .divider => rfl
  | .link _ _ _ => rfl
  | .heading _ content | .paragraph content | .quote content => by
    simp [Node.inlined, Node.links, linksOf_inlinedAll content]
  | .bullets items => by simp [Node.inlined, Node.links, linksOf_inlinedItems items]
  | .table _ rows => by simp [Node.inlined, Node.links, linksOf_rowLines rows]

theorem linksOf_inlinedAll : ∀ f : Fragment, linksOf (inlinedAll f) = linksOf f
  | [] => rfl
  | n :: rest => by simp [inlinedAll, linksOf_inlined n, linksOf_inlinedAll rest]

theorem linksOf_inlinedItems : ∀ items : List Fragment,
    linksOf (inlinedItems items) = linksOfParts items
  | [] => rfl
  | item :: rest => by
    simp [inlinedItems, Node.links, linksOf_inlinedAll item, linksOf_inlinedItems rest]

end

@[simp] theorem linksOf_inlineRun (f : Fragment) : linksOf (inlineRun f) = linksOf f := by
  rw [inlineRun, linksOf_tidy, linksOf_inlinedAll]

/-! ## Blocks -/

theorem linksOf_paragraphOf (run : Fragment) : linksOf (paragraphOf run) = linksOf run := by
  cases run <;> simp [paragraphOf, Node.links]

theorem linksOf_blocksFrom (run f : Fragment) :
    linksOf (blocksFrom run f) = linksOf run ++ linksOf f := by
  induction f generalizing run with
  | nil => simp [blocksFrom, linksOf_paragraphOf]
  | cons n f ih =>
    by_cases hn : n.isInline = true
    · simp [blocksFrom, hn, ih]
    · simp [blocksFrom, hn, ih, linksOf_paragraphOf]

@[simp] theorem linksOf_blocksOf (f : Fragment) : linksOf (blocksOf f) = linksOf f :=
  linksOf_blocksFrom [] f

/-! ## Numbers -/

namespace LinkTable

variable {t : LinkTable} {links : List (String × Nat)}

/-- The table holds the targets of the links in order of first occurrence, and each link bears the
number of its target. -/
def Numbers (t : LinkTable) (links : List (String × Nat)) : Prop :=
  t.targets = (links.map Prod.fst).eraseDups ∧ ∀ l ∈ links, l ∈ t.items

theorem numbers_empty : empty.Numbers [] := ⟨rfl, by simp⟩

theorem mem_items {l : String × Nat} : l ∈ t.items ↔ t.targets[l.2]? = some l.1 :=
  List.mem_zipIdx_iff_getElem?

theorem eraseDups_concat (targets : List String) (target : String) :
    (targets ++ [target]).eraseDups =
      if target ∈ targets then targets.eraseDups else targets.eraseDups ++ [target] := by
  rw [List.eraseDups_append]
  split
  next h => simp [List.removeAll, h]
  next h => simp [List.removeAll, h, List.eraseDups_cons]

/-- A link that is made is numbered by the table that has its target. -/
theorem Numbers.link (h : t.Numbers links) (target : String) :
    (t.insert target).Numbers (links ++ [(target, t.index target)]) := by
  obtain ⟨htargets, hlinks⟩ := h
  have hmem : target ∈ t.targets ↔ target ∈ links.map Prod.fst := by
    rw [htargets, List.mem_eraseDups]
  have hgrown : (t.insert target).targets =
      if target ∈ t.targets then t.targets else t.targets ++ [target] := by
    unfold insert
    split <;> rfl
  refine ⟨?_, List.forall_mem_append.2 ⟨fun l hl => ?_, List.forall_mem_singleton.2 ?_⟩⟩
  · rw [hgrown, List.map_append, List.map_singleton, eraseDups_concat, ← htargets]
    simp only [hmem]
  · have hl' := mem_items.1 (hlinks l hl)
    rw [mem_items, hgrown]
    split
    · exact hl'
    · obtain ⟨hlt, -⟩ := List.getElem?_eq_some_iff.1 hl'
      rw [List.getElem?_append_left hlt]
      exact hl'
  · rw [mem_items, hgrown]
    split
    next h => exact List.getElem?_idxOf h
    next h => simp [index, List.idxOf_eq_length h]

end LinkTable

end ApiDoc.Document
