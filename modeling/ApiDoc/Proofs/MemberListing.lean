import ApiDoc.Proofs.PageParts

/-!
# The members on the page of a type

The page of a class, struct or interface shows each visible field, property, event and method in a
list of names and in a table. Which list names a member follows from its kind and from whether it is
static, and for a static field from whether it is constant (`Member.listTitle?`), so the nine lists
are a partition of what is listed (`TypeSymbol.perm_titled`); a list names each name once and in
order. The tables have one row for each listed member, apart by the same rule on what is static, and
each visible constructor has one section (`Context.shows_typePage`). All of it is taken from visible
members only.
-/

namespace ApiDoc

open Document (Node Page headings headings_append rowsOf rowsOf_append rowsOf_flatMap)
open scoped List

/-! ## Lists of names -/

/-- The heading of the list that names a member, if one does. -/
def Member.listTitle? (m : Member) : Option String :=
  match m.kind?, m.isStatic with
  | some .field, true => some (if m.isConstant then "Constants" else "Static Fields")
  | some .field, false => some "Fields"
  | some .property, true => some "Static Properties"
  | some .property, false => some "Properties"
  | some .method, true => some "Static Methods"
  | some .method, false => some "Methods"
  | some .event, true => some "Static Events"
  | some .event, false => some "Events"
  | _, _ => none

/-- The headings of the lists of names, in their order. -/
def listTitles : List String :=
  ["Constants", "Fields", "Properties", "Methods", "Events", "Static Fields", "Static Properties",
    "Static Methods", "Static Events"]

theorem Member.listTitle?_mem {m : Member} {title : String} (h : m.listTitle? = some title) :
    title ∈ listTitles := by
  unfold listTitle? at h
  split at h <;> cases h
  · split <;> decide
  all_goals decide

/-- What has a heading is a field, property, method or event, and the other way round. -/
theorem Member.isListed_iff {settings : RenderSettings} {m : Member} :
    m.isListed settings = true ↔ m.isVisible settings = true ∧ m.listTitle?.isSome = true := by
  rw [isListed, Bool.and_eq_true, and_comm, and_congr_right_iff]
  intro _
  unfold listTitle?
  cases m.kind? with
  | none => simp
  | some kind => cases kind <;> cases m.isStatic <;> simp

namespace TypeSymbol

variable {t : TypeSymbol} {settings : RenderSettings} {m : MemberSymbol}

/-- The visible members that the list with a heading is to name. -/
def titled (t : TypeSymbol) (settings : RenderSettings) (title : String) : List MemberSymbol :=
  t.members.filter fun m => m.decl.isVisible settings && m.decl.listTitle? = some title

/-- The lists are a partition of the visible fields, properties, methods and events. -/
theorem perm_titled (t : TypeSymbol) (settings : RenderSettings) :
    (listTitles.flatMap (t.titled settings)).Perm
      (t.members.filter fun m => m.decl.isListed settings) := by
  let visible := t.members.filter fun m => m.decl.isVisible settings
  have hkeys : (listTitles.map some).Nodup := by decide
  have hlisted : ∀ m ∈ visible, m.decl.isListed settings = true ↔
      m.decl.listTitle? ∈ listTitles.map some := by
    intro m hm
    rw [Member.isListed_iff, and_iff_right (List.mem_filter.1 hm).2]
    constructor
    · intro hsome
      obtain ⟨title, htitle⟩ := Option.isSome_iff_exists.1 hsome
      exact htitle ▸ List.mem_map_of_mem (Member.listTitle?_mem htitle)
    · intro hmem
      obtain ⟨title, -, htitle⟩ := List.mem_map.1 hmem
      exact htitle ▸ rfl
  calc listTitles.flatMap (t.titled settings)
    _ = (listTitles.map some).flatMap fun title => visible.filter fun m =>
          m.decl.listTitle? = title := by
        rw [List.flatMap_map]
        refine List.flatMap_congr fun title _ => ?_
        rw [titled, List.filter_filter]
        exact List.filter_congr fun m _ => Bool.and_comm _ _
    _ ~ visible.filter fun m => m.decl.isListed settings := perm_flatMap_filter hkeys hlisted
    _ = t.members.filter fun m => m.decl.isListed settings := by
        rw [List.filter_filter]
        refine List.filter_congr fun m _ => ?_
        rw [Member.isListed, Bool.and_assoc, Bool.and_self]

end TypeSymbol

/-- A list of names under its heading, with a cell for each name. -/
structure NameList where
  title : String
  cells : List Node

namespace NameList

def blocks (list : NameList) : List Node :=
  [.heading 3 [.text list.title], .paragraph (list.cells.intersperse (.text ", "))]

/-- The list shows each name of the members once, in order, each in the cell of one of them. -/
structure Names (r : Renderer) (members : List MemberSymbol) (list : NameList) : Prop where
  nonempty : list.cells ≠ []
  ascending : (list.cells.map Node.shown).Pairwise (· < ·)
  names : ∀ name, name ∈ list.cells.map Node.shown ↔ ∃ m ∈ members, m.displayName = name
  cells : ∀ cell ∈ list.cells, ∃ m ∈ members, (r.memberCell m none).Comes cell

theorem Names.of_perm {r : Renderer} {members members' : List MemberSymbol} {list : NameList}
    (h : list.Names r members) (hperm : members.Perm members') : list.Names r members' := by
  refine { h with names := fun name => ?_, cells := fun cell hcell => ?_ }
  · rw [h.names name]
    exact exists_congr fun m => and_congr_left' hperm.mem_iff
  · obtain ⟨m, hm, hcomes⟩ := h.cells cell hcell
    exact ⟨m, hperm.subset hm, hcomes⟩

end NameList

/-! ## Tables -/

/-- The tables of a kind of members: the rows of instance members and of static ones, each with the
member that it is for. -/
structure MemberTables where
  kind : MemberKind
  instances : List (MemberSymbol × List (List Node))
  statics : List (MemberSymbol × List (List Node))

namespace MemberTables

def table (tables : MemberTables) (rows : List (MemberSymbol × List (List Node))) : Node :=
  .table ["Name", (Renderer.tableTitles tables.kind).2, "Summary"] (rows.map Prod.snd)

/-- A table for instance members and one for static ones, as far as there are any. A table of static
members that stands alone has no heading of its own. -/
def blocks (tables : MemberTables) : List Node :=
  let title : Node := .heading 2 [.text (Renderer.tableTitles tables.kind).1]
  let instances : List Node := [.heading 4 [.text "Instance"], tables.table tables.instances]
  match tables.instances.isEmpty, tables.statics.isEmpty with
  | true, true => []
  | false, true => title :: instances
  | true, false => [title, tables.table tables.statics]
  | false, false => title :: instances ++ [.heading 4 [.text "Static"], tables.table tables.statics]

def rows (tables : MemberTables) : List (MemberSymbol × List (List Node)) :=
  tables.instances ++ tables.statics

/-- The rows are for the given members, one for each of them, by name. -/
structure RowsOf (r : Renderer) (members : List MemberSymbol)
    (rows : List (MemberSymbol × List (List Node))) : Prop where
  complete : (rows.map Prod.fst).Perm members
  sorted : (rows.map Prod.fst).Pairwise fun m m' => m.displayName ≤ m'.displayName
  describes : ∀ row ∈ rows, r.DescribesMember row.1 row.2

/-- The visible members of a kind that are static or not. -/
def membersOf (r : Renderer) (t : TypeSymbol) (kind : MemberKind) (static : Bool) : List MemberSymbol :=
  t.members.filter fun m =>
    m.decl.isVisible r.settings.render && m.decl.kind? = some kind && m.decl.isStatic = static

structure Lists (r : Renderer) (t : TypeSymbol) (tables : MemberTables) : Prop where
  instances : RowsOf r (membersOf r t tables.kind false) tables.instances
  statics : RowsOf r (membersOf r t tables.kind true) tables.statics

theorem rowsOf_blocks (tables : MemberTables) : rowsOf tables.blocks = tables.rows.map Prod.snd := by
  obtain ⟨kind, instances, statics⟩ := tables
  cases instances <;> cases statics <;> simp [blocks, rows, table, rowsOf]

variable {r : Renderer} {t : TypeSymbol} {tables : MemberTables}

/-- Instance members and static ones are all visible members of a kind. -/
theorem Lists.perm (h : tables.Lists r t) : (tables.rows.map Prod.fst).Perm
    (t.members.filter fun m =>
      m.decl.isVisible r.settings.render && m.decl.kind? = some tables.kind) := by
  have hsplit := List.filter_append_perm (fun m : MemberSymbol => !m.decl.isStatic)
    (t.members.filter fun m => m.decl.isVisible r.settings.render && m.decl.kind? = some tables.kind)
  rw [rows, List.map_append]
  refine (h.instances.complete.append h.statics.complete).trans
    ((List.Perm.of_eq ?_).trans hsplit)
  rw [List.filter_filter, List.filter_filter, membersOf, membersOf]
  congr 1 <;> refine List.filter_congr fun m _ => ?_ <;> cases m.decl.isStatic <;> simp

end MemberTables

/-- The kinds of members that have tables, in the order of the tables. -/
def tableKinds : List MemberKind := [.field, .property, .event, .method]

/-- The tables have one row for each visible field, property, event and method. -/
theorem perm_memberTables {r : Renderer} {t : TypeSymbol} {tables : List MemberTables}
    (hkinds : tables.map MemberTables.kind = tableKinds) (h : ∀ k ∈ tables, k.Lists r t) :
    ((tables.flatMap MemberTables.rows).map Prod.fst).Perm
      (t.members.filter fun m => m.decl.isListed r.settings.render) := by
  let visible := t.members.filter fun m => m.decl.isVisible r.settings.render
  have hlisted : ∀ m ∈ visible, m.decl.isListed r.settings.render = true ↔
      m.decl.kind? ∈ tableKinds.map some := by
    intro m hm
    rw [Member.isListed, (List.mem_filter.1 hm).2, Bool.and_true, List.contains_iff_mem]
    cases m.decl.kind? with
    | none => decide
    | some kind => cases kind <;> decide
  calc (tables.flatMap MemberTables.rows).map Prod.fst
    _ = tables.flatMap fun k => k.rows.map Prod.fst := List.map_flatMap
    _ ~ tables.flatMap fun k => visible.filter fun m => m.decl.kind? = some k.kind := by
        refine List.Perm.flatMap_left _ fun k hk => (h k hk).perm.trans (List.Perm.of_eq ?_)
        rw [List.filter_filter]
        exact List.filter_congr fun m _ => Bool.and_comm _ _
    _ = (tableKinds.map some).flatMap fun k => visible.filter fun m => m.decl.kind? = k := by
        rw [← hkinds, List.map_map, List.flatMap_map]
        rfl
    _ ~ visible.filter fun m => m.decl.isListed r.settings.render :=
        perm_flatMap_filter (by decide) hlisted
    _ = t.members.filter fun m => m.decl.isListed r.settings.render := by
        rw [List.filter_filter]
        refine List.filter_congr fun m _ => ?_
        rw [Member.isListed, Bool.and_assoc, Bool.and_self]

/-! ## Parts of the page -/

namespace Renderer

open Answer

variable {r : Renderer} {t : TypeSymbol} {m : MemberSymbol} {members : List MemberSymbol}
  {fails : Error → Prop}

theorem distinctByName_sublist : ∀ members : List MemberSymbol,
    (distinctByName members).Sublist members
  | [] => List.Sublist.slnil
  | m :: rest => (List.filter_sublist.trans (distinctByName_sublist rest)).cons_cons m

theorem nodup_distinctByName : ∀ members : List MemberSymbol,
    ((distinctByName members).map MemberSymbol.displayName).Nodup
  | [] => List.nodup_nil
  | m :: rest => by
    rw [distinctByName, List.map_cons, List.nodup_cons]
    refine ⟨fun hm => ?_, (nodup_distinctByName rest).sublist (List.filter_sublist.map _)⟩
    obtain ⟨m', hm', hname⟩ := List.mem_map.1 hm
    exact of_decide_eq_true (List.mem_filter.1 hm').2 hname

theorem exists_mem_distinctByName (hm : m ∈ members) :
    ∃ m' ∈ distinctByName members, m'.displayName = m.displayName := by
  induction members with
  | nil => cases hm
  | cons first rest ih =>
    by_cases hname : first.displayName = m.displayName
    · exact ⟨first, List.mem_cons_self, hname⟩
    · obtain rfl | hm := List.mem_cons.1 hm
      · exact absurd rfl hname
      · obtain ⟨m', hm', hsame⟩ := ih hm
        refine ⟨m', List.mem_cons_of_mem _ (List.mem_filter.2 ⟨hm', decide_eq_true ?_⟩), hsame⟩
        rw [hsame]
        exact Ne.symm hname

theorem shown_of_memberCells {cells : List Node}
    (h : List.Forall₂ (fun m n => (r.memberCell m none).Comes n) members cells) :
    cells.map Node.shown = members.map MemberSymbol.displayName := by
  induction h with
  | nil => rfl
  | cons hcell _ ih =>
    rw [List.map_cons, List.map_cons, shown_of_memberCell hcell, ih]
    rfl

theorem names_of_cells {title : String} {cells : List Node} (hne : members ≠ [])
    (hsorted : members.Pairwise fun m m' => m.displayName ≤ m'.displayName)
    (h : List.Forall₂ (fun m n => (r.memberCell m none).Comes n) (distinctByName members) cells) :
    NameList.Names r members ⟨title, cells⟩ := by
  have hshown := shown_of_memberCells h
  refine ⟨fun hnil => ?_, ?_, fun name => ?_, fun cell hcell => ?_⟩
  · obtain ⟨m, hm⟩ := List.exists_mem_of_ne_nil _ hne
    obtain ⟨m', hm', -⟩ := exists_mem_distinctByName hm
    obtain ⟨cell, hcell, -⟩ := exists_of_mem_left h hm'
    rw [show cells = [] from hnil] at hcell
    cases hcell
  · rw [hshown]
    refine pairwise_lt_of_le ?_ (nodup_distinctByName members)
    exact List.pairwise_map.2 (hsorted.sublist (distinctByName_sublist members))
  · rw [hshown]
    constructor
    · intro hname
      obtain ⟨m, hm, rfl⟩ := List.mem_map.1 hname
      exact ⟨m, mem_of_mem_distinctByName hm, rfl⟩
    · rintro ⟨m, hm, rfl⟩
      obtain ⟨m', hm', hname⟩ := exists_mem_distinctByName hm
      exact hname ▸ List.mem_map_of_mem hm'
  · obtain ⟨m, hm, hcomes⟩ := exists_of_mem_right h hcell
    exact ⟨m, mem_of_mem_distinctByName hm, hcomes⟩

/-! ### Members of a kind -/

theorem sorted_partition (r : Renderer) (t : TypeSymbol) (kind : MemberKind) (static : Bool) :
    (r.partition t kind static).Pairwise fun m m' => m.displayName ≤ m'.displayName :=
  pairwise_sortedBy.sublist List.filter_sublist

theorem perm_partition (r : Renderer) (t : TypeSymbol) (kind : MemberKind) (static : Bool) :
    (r.partition t kind static).Perm (MemberTables.membersOf r t kind static) := by
  refine ((List.mergeSort_perm _ _).filter _).trans (List.Perm.of_eq ?_)
  rw [TypeSymbol.membersOf, List.filter_filter, List.filter_filter]
  exact List.filter_congr fun m _ => by ac_rfl

/-- The headings of the lists that take a kind of members in full, static ones or others. -/
def plainTitles : List (MemberKind × Bool × String) :=
  [(.field, false, "Fields"), (.property, false, "Properties"), (.method, false, "Methods"),
    (.event, false, "Events"), (.property, true, "Static Properties"),
    (.method, true, "Static Methods"), (.event, true, "Static Events")]

theorem listTitle?_eq_some_iff {kind : MemberKind} {static : Bool} {title : String}
    (h : (kind, static, title) ∈ plainTitles) (m : Member) :
    m.listTitle? = some title ↔ m.kind? = some kind ∧ m.isStatic = static := by
  simp only [plainTitles, List.mem_cons, Prod.mk.injEq, List.not_mem_nil, or_false] at h
  unfold Member.listTitle?
  rcases h with ⟨rfl, rfl, rfl⟩ | ⟨rfl, rfl, rfl⟩ | ⟨rfl, rfl, rfl⟩ | ⟨rfl, rfl, rfl⟩ |
    ⟨rfl, rfl, rfl⟩ | ⟨rfl, rfl, rfl⟩ | ⟨rfl, rfl, rfl⟩ <;>
  split <;> simp_all <;> split <;> decide

theorem perm_titled_plain {kind : MemberKind} {static : Bool} {title : String}
    (h : (kind, static, title) ∈ plainTitles) :
    (r.partition t kind static).Perm (t.titled r.settings.render title) := by
  refine (perm_partition r t kind static).trans (List.Perm.of_eq (List.filter_congr fun m _ => ?_))
  simp only [listTitle?_eq_some_iff h, Bool.decide_and, Bool.and_assoc]

theorem listTitle?_static_field (m : Member) (constant : Bool) :
    m.listTitle? = some (if constant then "Constants" else "Static Fields") ↔
      m.kind? = some .field ∧ m.isStatic = true ∧ m.isConstant = constant := by
  unfold Member.listTitle?
  cases constant <;> split <;> simp_all

theorem perm_titled_static_fields (r : Renderer) (t : TypeSymbol) (constant : Bool) :
    ((r.partition t .field true).filter fun m => m.decl.isConstant = constant).Perm
      (t.titled r.settings.render (if constant then "Constants" else "Static Fields")) := by
  refine ((perm_partition r t .field true).filter _).trans (List.Perm.of_eq ?_)
  rw [MemberTables.membersOf, List.filter_filter]
  refine List.filter_congr fun m _ => ?_
  simp only [listTitle?_static_field, Bool.decide_and]
  ac_rfl

/-- A list of the page takes the visible members that its heading is for, by name. -/
theorem titled_of_mem_nameLists {list : String × List MemberSymbol} (h : list ∈ r.nameLists t) :
    list.2.Perm (t.titled r.settings.render list.1) ∧
      list.2.Pairwise fun m m' => m.displayName ≤ m'.displayName := by
  have hsorted := fun kind static => sorted_partition r t kind static
  have hplain : ∀ kind static title, (kind, static, title) ∈ plainTitles →
      (r.partition t kind static).Perm (t.titled r.settings.render title) ∧
        (r.partition t kind static).Pairwise fun m m' => m.displayName ≤ m'.displayName :=
    fun _ _ _ h => ⟨perm_titled_plain h, hsorted _ _⟩
  simp only [nameLists, List.mem_cons, List.not_mem_nil, or_false] at h
  rcases h with rfl | rfl | rfl | rfl | rfl | rfl | rfl | rfl | rfl
  · refine ⟨?_, (hsorted _ _).sublist List.filter_sublist⟩
    simpa using perm_titled_static_fields r t true
  · exact hplain .field false "Fields" (by decide)
  · exact hplain .property false "Properties" (by decide)
  · exact hplain .method false "Methods" (by decide)
  · exact hplain .event false "Events" (by decide)
  · refine ⟨?_, (hsorted _ _).sublist List.filter_sublist⟩
    simpa using perm_titled_static_fields r t false
  · exact hplain .property true "Static Properties" (by decide)
  · exact hplain .method true "Static Methods" (by decide)
  · exact hplain .event true "Static Events" (by decide)

/-! ### Blocks -/

/-- The lists of names for some headings: one for each heading that has members. -/
def NameListsOf (r : Renderer) (t : TypeSymbol) (titles : List String) (blocks : List Node) : Prop :=
  ∃ lists : List NameList, blocks = lists.flatMap NameList.blocks ∧
    lists.map NameList.title =
      titles.filter (fun title => !(t.titled r.settings.render title).isEmpty) ∧
    ∀ list ∈ lists, list.Names r (t.titled r.settings.render list.title)

theorem names_nameList {title : String} (hperm : members.Perm (t.titled r.settings.render title))
    (hsorted : members.Pairwise fun m m' => m.displayName ≤ m'.displayName)
    (hfails : ∀ m ∈ members, ∀ e, (r.memberCell m none).Fails e → fails e) :
    (r.nameList title members).Meets fails (r.NameListsOf t [title]) := by
  unfold nameList
  have hempty : (t.titled r.settings.render title).isEmpty = members.isEmpty := by
    rw [Bool.eq_iff_iff, List.isEmpty_iff_length_eq_zero, List.isEmpty_iff_length_eq_zero,
      hperm.length_eq]
  refine Meets.ite (fun hnone => meets_pure ⟨[], rfl, ?_, nofun⟩) fun hsome => ?_
  · rw [List.filter_cons_of_neg (by rw [hempty, hnone]; decide)]
    rfl
  · have hcell : ∀ m ∈ distinctByName members,
        (r.memberCell m none).Meets fails (r.memberCell m none).Comes :=
      fun m hm => (meets_self _).mono (hfails m (mem_of_mem_distinctByName hm)) fun _ => id
    refine (Meets.each hcell).bind fun cells hcells => meets_pure ?_
    have hnames : NameList.Names r members ⟨title, cells⟩ :=
      names_of_cells (fun hnil => hsome (List.isEmpty_iff.2 hnil)) hsorted hcells
    refine ⟨[⟨title, cells⟩], rfl, ?_, List.forall_mem_singleton.2 (hnames.of_perm hperm)⟩
    rw [List.filter_cons_of_pos (by rw [hempty]; simpa using hsome)]
    rfl

theorem rowsOf_partition {kind : MemberKind} {static : Bool} {rows : List (List (List Node))}
    (h : List.Forall₂ (fun m row => (r.memberRow m).Comes row) (r.partition t kind static) rows) :
    MemberTables.RowsOf r (MemberTables.membersOf r t kind static)
      ((r.partition t kind static).zip rows) := by
  have hmembers : ((r.partition t kind static).zip rows).map Prod.fst = r.partition t kind static :=
    List.map_fst_zip h.length_eq.le
  refine ⟨?_, ?_, fun row hrow => describesMember ((List.forall₂_iff_zip.1 h).2 hrow)⟩
  · rw [hmembers]
    exact perm_partition r t kind static
  · rw [hmembers]
    exact sorted_partition r t kind static

/-- The tables for the members of a kind, if each of them has a row. -/
theorem exists_memberTables {kind : MemberKind} {instances statics : List (List (List Node))}
    (hinstances : List.Forall₂ (fun m row => (r.memberRow m).Comes row)
      (r.partition t kind false) instances)
    (hstatics : List.Forall₂ (fun m row => (r.memberRow m).Comes row)
      (r.partition t kind true) statics) : ∃ tables : MemberTables,
      tables.kind = kind ∧ tables.Lists r t ∧ tables.instances.map Prod.snd = instances ∧
      tables.statics.map Prod.snd = statics ∧
      tables.instances.isEmpty = (r.partition t kind false).isEmpty ∧
      tables.statics.isEmpty = (r.partition t kind true).isEmpty := by
  have hempty : ∀ {static rows}, List.Forall₂ (fun m row => (r.memberRow m).Comes row)
      (r.partition t kind static) rows → ((r.partition t kind static).zip rows).isEmpty =
        (r.partition t kind static).isEmpty := by
    intro static rows h
    rw [Bool.eq_iff_iff, List.isEmpty_iff_length_eq_zero, List.isEmpty_iff_length_eq_zero,
      List.length_zip, ← h.length_eq, min_self]
  refine ⟨⟨kind, _, _⟩, rfl, ⟨rowsOf_partition hinstances, rowsOf_partition hstatics⟩, ?_, ?_,
    hempty hinstances, hempty hstatics⟩
  · exact List.map_snd_zip hinstances.length_eq.ge
  · exact List.map_snd_zip hstatics.length_eq.ge

/-- A kind of members has its tables. -/
theorem lists_memberTables (kind : MemberKind)
    (hfails : ∀ m ∈ t.members, m.decl.isVisible r.settings.render = true →
      ∀ e, (r.memberRow m).Fails e → fails e) :
    (r.memberTables t kind).Meets fails fun blocks =>
      ∃ tables : MemberTables, tables.kind = kind ∧ blocks = tables.blocks ∧ tables.Lists r t := by
  have htable : ∀ static, (do
      let rows ← each r.memberRow (r.partition t kind static)
      pure [Node.table ["Name", (tableTitles kind).2, "Summary"] rows]).Meets fails fun blocks =>
        ∃ rows, List.Forall₂ (fun m row => (r.memberRow m).Comes row) (r.partition t kind static)
          rows ∧ blocks = [Node.table ["Name", (tableTitles kind).2, "Summary"] rows] := by
    intro static
    refine (Meets.each fun m hm => ?_).bind fun rows hrows => meets_pure ⟨rows, hrows, rfl⟩
    have hmem := List.mem_filter.1 ((perm_partition r t kind static).subset hm)
    simp only [Bool.and_eq_true] at hmem
    exact (meets_self _).mono (hfails m hmem.1 hmem.2.1.1) fun _ => id
  have hnone : ∀ {static}, (r.partition t kind static).isEmpty = true →
      List.Forall₂ (fun m row => (r.memberRow m).Comes row) (r.partition t kind static) [] :=
    fun h => List.isEmpty_iff.1 h ▸ .nil
  -- a table that stands alone has no heading if it is that of static members
  simp only [memberTables]
  cases hi : (r.partition t kind false).isEmpty with
  | true =>
    cases hs : (r.partition t kind true).isEmpty with
    | true =>
      obtain ⟨tables, hkind, hlists, -, -, hi', hs'⟩ := exists_memberTables (hnone hi) (hnone hs)
      refine meets_pure ⟨tables, hkind, ?_, hlists⟩
      simp only [MemberTables.blocks, hi', hs', hi, hs]
    | false =>
      refine (htable true).bind fun blocks hblocks => ?_
      obtain ⟨rows, hrows, rfl⟩ := hblocks
      obtain ⟨tables, rfl, hlists, -, hstatics, hi', hs'⟩ := exists_memberTables (hnone hi) hrows
      refine meets_pure ⟨tables, rfl, ?_, hlists⟩
      simp only [MemberTables.blocks, MemberTables.table, hi', hs', hi, hs, hstatics, heading]
      rfl
  | false =>
    refine (htable false).bind fun blocks hblocks => ?_
    obtain ⟨rows, hrows, rfl⟩ := hblocks
    cases hs : (r.partition t kind true).isEmpty with
    | true =>
      obtain ⟨tables, rfl, hlists, hinstances, -, hi', hs'⟩ := exists_memberTables hrows (hnone hs)
      refine meets_pure ⟨tables, rfl, ?_, hlists⟩
      simp only [MemberTables.blocks, MemberTables.table, hi', hs', hi, hs, hinstances, heading]
      rfl
    | false =>
      refine (htable true).bind fun blocks' hblocks' => ?_
      obtain ⟨rows', hrows', rfl⟩ := hblocks'
      obtain ⟨tables, rfl, hlists, hinstances, hstatics, hi', hs'⟩ := exists_memberTables hrows hrows'
      refine meets_pure ⟨tables, rfl, ?_, hlists⟩
      simp only [MemberTables.blocks, MemberTables.table, hi', hs', hi, hs, hinstances, hstatics,
        heading]
      rfl

theorem sections_constructorSections
    (hfails : ∀ m ∈ r.constructors t, ∀ e, (r.callableSection m).Fails e → fails e) :
    (r.constructorSections t).Meets fails fun blocks => ∃ sections,
      List.Forall₂ r.CallableSection (r.constructors t) sections ∧
      blocks = (if sections.isEmpty then [] else [.heading 2 [.text "Constructors"]])
        ++ sections.flatten := by
  change (if (r.constructors t).isEmpty then pure [] else
    concatEach r.callableSection (r.constructors t) >>= fun sections =>
      pure (heading 2 "Constructors" :: sections)).Meets _ _
  refine Meets.ite (fun hnone => meets_pure ⟨[], ?_, rfl⟩) fun hsome => ?_
  · rw [List.isEmpty_iff.1 hnone]
    exact .nil
  · have hsection : ∀ m ∈ r.constructors t,
        (r.callableSection m).Meets fails (r.CallableSection m) :=
      fun m hm => (meets_self _).mono (hfails m hm) fun _ => callableSection_of_comes
    refine (Meets.concatEach hsection).bind fun blocks hblocks => ?_
    obtain ⟨sections, rfl, hsections⟩ := hblocks
    refine meets_pure ⟨sections, hsections, ?_⟩
    have hne : sections.isEmpty = false := by
      rw [← Bool.not_eq_true, List.isEmpty_iff_length_eq_zero, ← hsections.length_eq,
        ← List.isEmpty_iff_length_eq_zero]
      exact hsome
    rw [hne]
    rfl

theorem meets_inherits
    (hfails : ∀ ref ∈ t.decl.inherits, ∀ e, (r.typeCell ref).Fails e → fails e) :
    (r.inheritsList t).Meets fails fun blocks => headings blocks =
      if t.decl.inherits.isEmpty then [] else [.heading 3 [.text "Inherits"]] := by
  unfold inheritsList
  split
  · exact meets_pure rfl
  · have hcell : ∀ ref ∈ t.decl.inherits, (r.typeCell ref).Meets fails fun _ => True :=
      fun ref href => (meets_self _).mono (hfails ref href) fun _ _ => trivial
    exact (Meets.each hcell).bind fun cells _ => meets_pure rfl

/-- A part of the page of a type fails: its documentation, the cell of a type that it inherits, or
what is shown of a visible member. -/
inductive PartFails (r : Renderer) (t : TypeSymbol) (e : Error) : Prop
  | documentation (tag : String) : (r.sectionBlocks (.type t) tag).Fails e → PartFails r t e
  | inherited {ref : TypeRef} : ref ∈ t.decl.inherits → (r.typeCell ref).Fails e → PartFails r t e
  | member {m : MemberSymbol} : m ∈ t.members → m.decl.isVisible r.settings.render = true →
    (r.memberCell m none).Fails e ∨ (r.memberRow m).Fails e ∨ (r.callableSection m).Fails e →
    PartFails r t e

end Renderer

/-! ## The page -/

/-- What the page of a type shows of its members: lists of names, a section for each constructor, and
tables for each kind. -/
structure MemberParts where
  lists : List NameList
  sections : List (List Node)
  tables : List MemberTables

namespace MemberParts

def blocks (parts : MemberParts) : List Node :=
  parts.lists.flatMap NameList.blocks ++
    ((if parts.sections.isEmpty then [] else [.heading 2 [.text "Constructors"]]) ++
      parts.sections.flatten) ++
    parts.tables.flatMap MemberTables.blocks

/-- The rows of all tables, each with the member that it is for. -/
def rows (parts : MemberParts) : List (MemberSymbol × List (List Node)) :=
  parts.tables.flatMap MemberTables.rows

/-- Each visible member of the type is shown where it belongs, and no other member is shown. -/
structure Shows (r : Renderer) (t : TypeSymbol) (parts : MemberParts) : Prop where
  /-- The lists are those that there are members for, each once. -/
  titles : parts.lists.map NameList.title =
    listTitles.filter fun title => !(t.titled r.settings.render title).isEmpty
  names : ∀ list ∈ parts.lists, list.Names r (t.titled r.settings.render list.title)
  partition : (listTitles.flatMap (t.titled r.settings.render)).Perm
    (t.members.filter fun m => m.decl.isListed r.settings.render)
  sections : List.Forall₂ r.CallableSection (r.constructors t) parts.sections
  kinds : parts.tables.map MemberTables.kind = tableKinds
  tables : ∀ k ∈ parts.tables, k.Lists r t
  /-- The rows of the tables are the visible fields, properties, events and methods, each once. -/
  rows : rowsOf (parts.tables.flatMap MemberTables.blocks) = parts.rows.map Prod.snd
  complete : (parts.rows.map Prod.fst).Perm
    (t.members.filter fun m => m.decl.isListed r.settings.render)

end MemberParts

namespace Renderer

open Answer

variable {r : Renderer} {t : TypeSymbol}

theorem nameLists_titles (r : Renderer) (t : TypeSymbol) :
    (r.nameLists t).map Prod.fst = listTitles := rfl

theorem names_nameLists (r : Renderer) (t : TypeSymbol) :
    (concatEach (fun (title, members) => r.nameList title members) (r.nameLists t)).Meets
      (r.PartFails t) (r.NameListsOf t listTitles) := by
  have hlist : ∀ list ∈ r.nameLists t,
      (r.nameList list.1 list.2).Meets (r.PartFails t) (r.NameListsOf t [list.1]) := by
    intro list hlist
    obtain ⟨hperm, hsorted⟩ := titled_of_mem_nameLists hlist
    refine names_nameList hperm hsorted fun m hm e he => ?_
    obtain ⟨hm, htitle⟩ := List.mem_filter.1 (hperm.subset hm)
    rw [Bool.and_eq_true] at htitle
    exact .member hm htitle.1 (.inl he)
  refine (Meets.concatEach hlist).weaken ?_
  rintro _ ⟨parts, rfl, hparts⟩
  rw [← r.nameLists_titles t]
  exact exists_shown (List.forall₂_map_left_iff.2 hparts)

/-- The body of the page of a class, struct or interface. -/
theorem shows_objectBody (r : Renderer) (t : TypeSymbol) :
    (r.objectBody t).Meets (r.PartFails t) fun blocks => ∃ inherits, ∃ parts : MemberParts,
      blocks = inherits ++ parts.blocks ∧ parts.Shows r t ∧ headings inherits =
        if t.decl.inherits.isEmpty then [] else [.heading 3 [.text "Inherits"]] := by
  have hkind : ∀ kind ∈ tableKinds, (r.memberTables t kind).Meets (r.PartFails t) fun blocks =>
      ∃ tables : MemberTables, tables.kind = kind ∧ blocks = tables.blocks ∧ tables.Lists r t :=
    fun kind _ => lists_memberTables kind fun m hm hvisible e he =>
      .member hm hvisible (.inr (.inl he))
  refine (meets_inherits fun ref href e he => .inherited href he).bind fun inherits hinherits => ?_
  refine (r.names_nameLists t).bind fun blocks hlists => ?_
  refine (sections_constructorSections fun m hm e he => ?_).bind fun constructors hsections => ?_
  · obtain ⟨hm, hvisible⟩ := List.mem_filter.1 hm
    exact .member (List.mem_of_mem_filter hm) hvisible (.inr (.inr he))
  refine (Meets.concatEach hkind).bind fun blocks' htables => meets_pure ?_
  obtain ⟨lists, rfl, htitles, hnames⟩ := hlists
  obtain ⟨sections, hsections, rfl⟩ := hsections
  obtain ⟨parts, rfl, hparts⟩ := htables
  obtain ⟨tables, hkinds, hblocks, htables⟩ := exists_each hparts
  refine ⟨inherits, ⟨lists, sections, tables⟩, ?_, ⟨htitles, hnames, t.perm_titled _, hsections,
    hkinds, htables, ?_, perm_memberTables hkinds htables⟩, hinherits⟩
  · simp only [MemberParts.blocks, hblocks, List.append_assoc]
  · rw [rowsOf_flatMap, MemberParts.rows, List.map_flatMap]
    simp only [MemberTables.rowsOf_blocks]

end Renderer

namespace Context

open Answer Renderer

/-- The page of a class, struct or interface shows each visible member where it belongs: what stands
before says nothing of the members. It can be written unless a part of it cannot. -/
theorem shows_typePage (ctx : Context) {t : TypeSymbol} (ht : t.HasMemberPages) :
    (ctx.typePage t).Meets (Renderer.PartFails { ctx with current := some t } t) fun p =>
      ∃ front, ∃ parts : MemberParts, p.blocks = front ++ parts.blocks ∧
        parts.Shows { ctx with current := some t } t ∧
        headings front = [.heading 1 [.text (t.unit.getD "")],
          .heading 2 [.text (t.displayName ++ " (" ++ t.decl.category.label ++ ")")]] ++
          if t.decl.inherits.isEmpty then [] else [.heading 3 [.text "Inherits"]] := by
  let r : Renderer := { ctx with current := some t }
  let title := t.displayName ++ " (" ++ t.decl.category.label ++ ")"
  have hsection : ∀ tag, (r.sectionBlocks (.type t) tag).Meets (r.PartFails t)
      fun blocks => headings blocks = [] :=
    fun tag => (meets_self _).mono (fun _ => .documentation tag) fun _ => headings_of_sectionBlocks
  have hparagraphs : (r.paragraphs (.type t)).Meets (r.PartFails t)
      fun blocks => headings blocks = [] := by
    refine (hsection "remarks").bind fun remarks hremarks => ?_
    refine (hsection "example").bind fun examples hexamples => meets_pure ?_
    rw [headings_append, hremarks, hexamples, List.append_nil]
  have hbody : r.typeBody t = r.objectBody t := by
    unfold typeBody
    split
    next h => exact absurd h ht.1
    next h => exact absurd h ht.2
    next => rfl
  let shown (blocks : List Node) : Prop := ∃ front, ∃ parts : MemberParts,
    blocks = front ++ parts.blocks ∧ parts.Shows r t ∧
      headings front = [.heading 1 [.text (t.unit.getD "")], .heading 2 [.text title]] ++
        if t.decl.inherits.isEmpty then [] else [.heading 3 [.text "Inherits"]]
  refine (@Meets.page _ _ _ shown ?_).weaken fun p hp => hp.2
  refine (meets_header _ _ _).bind fun header hheader => ?_
  refine (meets_link _ _).bind fun space _ => ?_
  refine (hsection "summary").bind fun summary hsummary => ?_
  refine hparagraphs.bind fun more hmore => ?_
  rw [hbody]
  refine (r.shows_objectBody t).bind fun body hbody => meets_pure ?_
  obtain ⟨cells, rfl⟩ := hheader
  obtain ⟨inherits, parts, rfl, hparts, hinherits⟩ := hbody
  refine ⟨_, parts, (List.append_assoc ..).symm, hparts, ?_⟩
  simp only [headings_append, hsummary, hmore, hinherits, headings_badges]
  rfl

/-- A class with a constant, a static property, overloads of a method, a constructor, and a method
that cannot be seen. -/
def trainedType : TypeDecl :=
  { ref := .named "Zoo" "Dog" [] none
    members := [.method { name := "Sit" }, .constructor { name := ".ctor" },
      .field { name := "Legs", modifiers := ["public", "static"], type := .system "Int32",
               isLiteral := true, value := .int 4 },
      .method { name := "Hide", modifiers := ["private"] },
      .property { name := "Count", type := .system "Int32",
                  getter := some { name := "get_Count", modifiers := ["public", "static"] } },
      .method { name := "Bark" },
      .method { name := "Sit", parameters := [{ name := "times", type := .system "Int32" }] }] }

/-- A catalog with that class only. -/
def training : Context :=
  let catalog : Catalog := { units := [{ name := "Zoo", types := [trainedType] }] }
  { catalog, hierarchy := (Hierarchy.build catalog).toOption.getD {}, outcomes := [] }

/-- The class in its place. -/
def trained : TypeSymbol := ⟨⟨.declared 0 0, []⟩, some "Zoo", trainedType⟩

theorem titled_trained : (listTitles.filter fun title =>
    !(trained.titled Settings.usual.render title).isEmpty) =
      ["Constants", "Methods", "Static Properties"] := by
  decide +kernel

theorem shows_typePage_trained : trained ∈ training.catalog.types ∧ trained.HasMemberPages ∧
    ∃ p j', (training.typePage trained).result {} = (.ok p, j') ∧ ∃ front, ∃ parts : MemberParts,
      p.blocks = front ++ parts.blocks ∧ parts.Shows { training with current := some trained } trained ∧
      parts.lists.map NameList.title = ["Constants", "Methods", "Static Properties"] := by
  have htitle : ((training.typePage trained).result {}).1.map Page.title = .ok "Dog (Class)" := by
    cbv
  obtain ⟨p, hp, -⟩ := map_eq_ok.1 htitle
  have hmembers : trained.HasMemberPages := ⟨by decide, by decide⟩
  obtain ⟨front, parts, hblocks, hparts, -⟩ :=
    (ends_iff.1 (shows_typePage training hmembers {})).1 p hp
  exact ⟨List.mem_cons_self, hmembers, p, _, Prod.ext hp rfl, front, parts, hblocks, hparts,
    hparts.titles.trans titled_trained⟩

end Context

end ApiDoc
