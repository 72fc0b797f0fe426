import ApiDoc.Proofs.PageParts

/-!
# The contents page of a unit

The contents page is a head without tables and then a chapter for each namespace of a visible type,
in ascending order, with a table for each category that the namespace has types of, in the order of
the categories. A table has one row for each type of its namespace and category, by the key that
sorts types, and those of one key as the metadata lists them (`lists_unitPage`). So the rows of the
page are the visible types, each once.
-/

namespace ApiDoc

open Document (Node Page)

open Document (rowsOf rowsOf_append rowsOf_flatMap)

/-! ## Chapters -/

/-- The table of a category: its rows, each with the type that it is for. -/
structure CategoryTable where
  category : TypeCategory
  rows : List (TypeSymbol × List (List Node))

/-- The chapter of a namespace with its tables. -/
structure Chapter where
  space : String
  tables : List CategoryTable

namespace CategoryTable

def types (table : CategoryTable) : List TypeSymbol := table.rows.map Prod.fst

/-- The heading of a table, with the table directly after it. -/
def blocks (table : CategoryTable) : List Node :=
  [.heading 3 [.text table.category.label], .table ["Name", "Summary"] (table.rows.map Prod.snd)]

/-- The table has one row for each of the types and no others, by the key that sorts them; those of
one key stand in their order. -/
structure Lists (r : Renderer) (types : List TypeSymbol) (table : CategoryTable) : Prop where
  nonempty : table.rows ≠ []
  complete : table.types.Perm types
  sorted : table.types.Pairwise fun t t' => t.sortKey ≤ t'.sortKey
  stable : ∀ key, (table.types.filter fun t => t.sortKey = key) = types.filter fun t => t.sortKey = key
  describes : ∀ row ∈ table.rows, r.DescribesType row.1 row.2

end CategoryTable

namespace Chapter

def types (chapter : Chapter) : List TypeSymbol := chapter.tables.flatMap CategoryTable.types

def rows (chapter : Chapter) : List (TypeSymbol × List (List Node)) :=
  chapter.tables.flatMap CategoryTable.rows

def blocks (chapter : Chapter) : List Node :=
  .heading 2 [.text chapter.space] :: chapter.tables.flatMap CategoryTable.blocks

/-- The chapter has a table for each category that there are types of, in the order of the
categories, and in it the types of that category. -/
structure Lists (r : Renderer) (types : List TypeSymbol) (chapter : Chapter) : Prop where
  categories : chapter.tables.map CategoryTable.category =
    TypeCategory.all.filter fun category => types.any fun t => t.decl.category = category
  tables : ∀ table ∈ chapter.tables,
    table.Lists r (types.filter fun t => t.decl.category = table.category)

variable {r : Renderer} {types : List TypeSymbol} {chapter : Chapter}

theorem rowsOf_blocks (chapter : Chapter) :
    rowsOf chapter.blocks = chapter.rows.map Prod.snd := by
  have htable : ∀ table : CategoryTable, rowsOf table.blocks = table.rows.map Prod.snd :=
    fun table => List.append_nil _
  calc rowsOf chapter.blocks
    _ = rowsOf (chapter.tables.flatMap CategoryTable.blocks) := rfl
    _ = chapter.tables.flatMap fun table => table.rows.map Prod.snd := by
        simp only [rowsOf_flatMap, htable]
    _ = chapter.rows.map Prod.snd := (List.map_flatMap ..).symm

theorem types_eq (chapter : Chapter) : chapter.types = chapter.rows.map Prod.fst :=
  (List.map_flatMap ..).symm

theorem mem_all (category : TypeCategory) : category ∈ TypeCategory.all := by
  cases category <;> decide

/-- The tables of a chapter have all its types, each once. -/
theorem Lists.perm (h : chapter.Lists r types) : chapter.types.Perm types := by
  have hdistinct : (chapter.tables.map CategoryTable.category).Nodup := by
    rw [h.categories]
    exact List.Nodup.filter _ (by decide)
  have hall : ∀ t ∈ types, true = true ↔
      t.decl.category ∈ chapter.tables.map CategoryTable.category := by
    intro t ht
    rw [h.categories, List.mem_filter]
    exact iff_of_true rfl ⟨mem_all _, List.any_eq_true.2 ⟨t, ht, decide_eq_true rfl⟩⟩
  have hsplit := perm_flatMap_filter hdistinct hall
  rw [List.flatMap_map, List.filter_true] at hsplit
  exact (List.Perm.flatMap_left _ fun table htable => (h.tables table htable).complete).trans hsplit

end Chapter

/-- The blocks of a contents page: a head without tables, and a chapter for each namespace of a
visible type, in ascending order. -/
structure UnitSymbol.ListsTypes (u : UnitSymbol) (r : Renderer) (contents : List Chapter)
    (blocks : List Node) : Prop where
  /-- Nothing else is on the page. -/
  parts : ∃ unit, blocks = [.heading 1 [.text u.name], .quote unit] ++
    Renderer.references u.decl ++ contents.flatMap Chapter.blocks
  ascending : (contents.map Chapter.space).Pairwise (· < ·)
  spaces : ∀ space, space ∈ contents.map Chapter.space ↔
    ∃ t ∈ u.visibleTypes, t.decl.ref.space = space
  chapters : ∀ chapter ∈ contents,
    chapter.Lists r (u.visibleTypes.filter fun t => t.decl.ref.space = chapter.space)
  /-- The rows of all tables are the visible types, each once. -/
  rows : rowsOf blocks = (contents.flatMap Chapter.rows).map Prod.snd
  complete : ((contents.flatMap Chapter.rows).map Prod.fst).Perm u.visibleTypes

namespace Renderer

open Answer

variable {r : Renderer} {types : List TypeSymbol} {fails : Error → Prop}

/-! ## Tables -/

theorem lists_rows {category : TypeCategory} {rows : List (List (List Node))} (hne : types ≠ [])
    (h : List.Forall₂ (fun t row => (r.typeRow t).Comes row) (sortTypes types) rows) :
    CategoryTable.Lists r types ⟨category, (sortTypes types).zip rows⟩ := by
  have htypes : ((sortTypes types).zip rows).map Prod.fst = sortTypes types :=
    List.map_fst_zip h.length_eq.le
  have hperm : (sortTypes types).Perm types := List.mergeSort_perm _ _
  refine ⟨fun hnil => hne ?_, ?_, ?_, fun key => ?_, fun row hrow => ?_⟩
  · have hnone : sortTypes types = [] := by
      rw [← htypes, show (sortTypes types).zip rows = [] from hnil, List.map_nil]
    exact (hnone ▸ hperm).symm.eq_nil
  · exact (List.Perm.of_eq htypes).trans hperm
  · rw [CategoryTable.types, htypes]
    exact pairwise_sortedBy
  · rw [CategoryTable.types, htypes]
    exact filter_sortedBy key
  · exact describesType ((List.forall₂_iff_zip.1 h).2 hrow)

/-- The blocks are tables for those of some categories that there are types of. -/
def TablesOf (r : Renderer) (types : List TypeSymbol) (categories : List TypeCategory)
    (blocks : List Node) : Prop :=
  ∃ tables : List CategoryTable, blocks = tables.flatMap CategoryTable.blocks ∧
    tables.map CategoryTable.category =
      categories.filter (fun category => types.any fun t => t.decl.category = category) ∧
    ∀ table ∈ tables, table.Lists r (types.filter fun t => t.decl.category = table.category)

/-- A category has a table if it has types. -/
theorem lists_categoryTable (hfails : ∀ t ∈ types, ∀ e, (r.typeRow t).Fails e → fails e)
    (category : TypeCategory) :
    (r.categoryTable types category).Meets fails (r.TablesOf types [category]) := by
  simp only [categoryTable]
  refine Meets.ite (fun hnone => meets_pure ⟨[], rfl, ?_, List.forall_mem_nil _⟩) fun hsome => ?_
  · refine (List.filter_eq_nil_iff.2 fun k hk hany => ?_).symm
    obtain rfl := List.mem_singleton.1 hk
    obtain ⟨t, ht, hcategory⟩ := List.any_eq_true.1 hany
    exact List.filter_eq_nil_iff.1 (List.isEmpty_iff.1 hnone) t ht hcategory
  · have hne : (types.filter fun t => t.decl.category = category) ≠ [] :=
      fun hnil => hsome (List.isEmpty_iff.2 hnil)
    have hrow : ∀ t ∈ sortTypes (types.filter fun t => t.decl.category = category),
        (r.typeRow t).Meets fails (r.typeRow t).Comes := by
      intro t ht
      have ht : t ∈ types := List.mem_of_mem_filter (List.mem_mergeSort.1 ht)
      exact (meets_self _).mono (hfails t ht) fun _ => id
    refine (Meets.each hrow).bind fun rows hrows => meets_pure ?_
    have htable : CategoryTable.Lists r (types.filter fun t => t.decl.category = category)
        ⟨category, _⟩ := lists_rows hne hrows
    refine ⟨[⟨category, _⟩], ?_, ?_, List.forall_mem_singleton.2 htable⟩
    · simp only [List.flatMap_singleton, CategoryTable.blocks, heading,
        List.map_snd_zip hrows.length_eq.ge]
    · obtain ⟨t, ht⟩ := List.exists_mem_of_ne_nil _ hne
      obtain ⟨ht, hcategory⟩ := List.mem_filter.1 ht
      have hany : types.any (fun t => t.decl.category = category) = true :=
        List.any_eq_true.2 ⟨t, ht, hcategory⟩
      change [category] = [category].filter fun k => types.any fun t => t.decl.category = k
      simp [hany]

/-! ## Namespaces -/

/-- A namespace has a chapter with the types that are in it. -/
theorem lists_namespaceTables (hfails : ∀ t ∈ types, ∀ e, (r.typeRow t).Fails e → fails e)
    (space : String) : (r.namespaceTables types space).Meets fails fun blocks =>
      ∃ chapter : Chapter, chapter.space = space ∧ blocks = chapter.blocks ∧
        chapter.Lists r (types.filter fun t => t.decl.ref.space = chapter.space) := by
  have hcategory : ∀ category ∈ TypeCategory.all,
      (r.categoryTable (types.filter fun t => t.decl.ref.space = space) category).Meets fails
        (r.TablesOf (types.filter fun t => t.decl.ref.space = space) [category]) :=
    fun category _ => lists_categoryTable (fun t ht => hfails t (List.mem_of_mem_filter ht)) category
  refine (Meets.concatEach hcategory).bind fun blocks hblocks => meets_pure ?_
  obtain ⟨parts, rfl, hparts⟩ := hblocks
  obtain ⟨tables, hall, hcategories, hlists⟩ := exists_shown hparts
  exact ⟨⟨space, tables⟩, rfl, congrArg _ hall, hcategories, hlists⟩

theorem mem_namespaces {space : String} :
    space ∈ namespaces types ↔ ∃ t ∈ types, t.decl.ref.space = space := by
  rw [namespaces, List.mem_mergeSort, List.mem_eraseDups, List.mem_map]

theorem nodup_namespaces (types : List TypeSymbol) : (namespaces types).Nodup :=
  (List.mergeSort_perm _ _).nodup_iff.2 (nodup_eraseDups _)

theorem pairwise_namespaces (types : List TypeSymbol) : (namespaces types).Pairwise (· < ·) :=
  pairwise_lt_of_le (@pairwise_sortedBy _ id _) (nodup_namespaces types)

/-- The chapters have all types, each once. -/
theorem perm_chapters {contents : List Chapter}
    (hspaces : contents.map Chapter.space = namespaces types)
    (hlists : ∀ chapter ∈ contents,
      chapter.Lists r (types.filter fun t => t.decl.ref.space = chapter.space)) :
    (contents.flatMap Chapter.types).Perm types := by
  have hall : ∀ t ∈ types, true = true ↔ t.decl.ref.space ∈ namespaces types :=
    fun t ht => iff_of_true rfl (mem_namespaces.2 ⟨t, ht, rfl⟩)
  have hsplit := perm_flatMap_filter (nodup_namespaces types) hall
  rw [← hspaces, List.flatMap_map, List.filter_true] at hsplit
  exact (List.Perm.flatMap_left _ fun chapter h => (hlists chapter h).perm).trans hsplit

theorem rowsOf_references (u : MetadataUnit) : rowsOf (references u) = [] := by
  unfold references
  split <;> rfl

end Renderer

/-! ## The page -/

namespace Context

open Answer Renderer

/-- The contents page of a unit lists its visible types in full by namespace and category. It can be
written unless the row of one of them cannot. -/
theorem lists_unitPage (ctx : Context) (u : UnitSymbol) : (ctx.unitPage u).Meets
    (fun e => ∃ t ∈ u.visibleTypes, (Renderer.typeRow { ctx with } t).Fails e)
    fun p => ∃ contents, u.ListsTypes { ctx with } contents p.blocks := by
  let r : Renderer := { ctx with }
  have hspace := fun space (_ : space ∈ namespaces u.visibleTypes) =>
    r.lists_namespaceTables (fun t ht e (he : (r.typeRow t).Fails e) =>
      (⟨t, ht, he⟩ : ∃ t ∈ u.visibleTypes, (r.typeRow t).Fails e)) space
  let listed (blocks : List Node) : Prop := ∃ contents, u.ListsTypes r contents blocks
  refine (@Meets.page _ _ _ listed ?_).weaken fun p hp => hp.2
  refine (meets_header u.name _ _).bind fun header hheader => ?_
  refine (Meets.concatEach hspace).bind fun tables htables => meets_pure ?_
  obtain ⟨parts, rfl, hparts⟩ := htables
  obtain ⟨contents, hordered, hblocks, hlists⟩ := exists_each hparts
  obtain ⟨cells, rfl⟩ := hheader
  refine ⟨contents, ⟨cells, by rw [hblocks]⟩, ?_, fun space => ?_, hlists, ?_, ?_⟩
  · rw [hordered]
    exact pairwise_namespaces _
  · rw [hordered]
    exact mem_namespaces
  · rw [rowsOf_append, rowsOf_append, rowsOf_references, hblocks, rowsOf_flatMap, List.map_flatMap]
    simp only [Chapter.rowsOf_blocks]
    rfl
  · rw [List.map_flatMap]
    simp only [← Chapter.types_eq]
    exact perm_chapters hordered hlists

end Context

end ApiDoc
