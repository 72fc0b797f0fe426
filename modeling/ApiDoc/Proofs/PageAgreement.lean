import ApiDoc.Page.Unit
import ApiDoc.Proofs.MarkupAgreement
import ApiDoc.Proofs.Place

/-!
# Pages in corresponding contexts

In contexts that correspond, the pages of a unit that is spared are the same, with the same link
tables (`Corresponds.unitPage`, `Corresponds.typePage`, `Corresponds.memberPage`). What a page shows
of other units are cells, which ask no strict question of them.
-/

namespace ApiDoc

open Document (Node)

variable {σ : Equiv.Perm Nat} {sound : JournalEntry → Prop} {spared : Option String → Prop}

theorem TypeSymbol.unit_of_mem_members {t : TypeSymbol} {m : MemberSymbol} (hm : m ∈ t.members) :
    (Symbol.member m).unit = t.unit := by
  rw [Symbol.unit, Placed.unit, owner_of_mem_members hm, Option.bind_some]

theorem UnitSymbol.unit_of_mem_types (u : UnitSymbol) {t : TypeSymbol} (ht : t ∈ u.types) :
    t.unit = some u.name := by
  obtain ⟨⟨decl, i⟩, -, rfl⟩ := List.mem_map.1 ht
  rfl

theorem UnitSymbol.unit_of_mem_visibleTypes (u : UnitSymbol) {t : TypeSymbol}
    (ht : t ∈ u.visibleTypes) : t.unit = some u.name :=
  u.unit_of_mem_types (List.mem_of_mem_filter ht)

theorem TypeSymbol.mem_membersOf_of_visible {t : TypeSymbol} {settings : RenderSettings}
    {kind : MemberKind} {m : MemberSymbol} (hm : m ∈ t.visible settings kind) :
    m ∈ t.membersOf kind := by
  rw [visible, sortByName, List.mem_mergeSort] at hm
  exact List.mem_of_mem_filter hm

theorem TypeSymbol.mem_members_of_visible {t : TypeSymbol} {settings : RenderSettings}
    {kind : MemberKind} {m : MemberSymbol} (hm : m ∈ t.visible settings kind) : m ∈ t.members :=
  List.mem_of_mem_filter (mem_membersOf_of_visible hm)

/-! ## Shown symbols in renumbered units -/

theorem TypeSymbol.renumber_visible (t : TypeSymbol) (settings : RenderSettings)
    (kind : MemberKind) :
    (t.renumber σ).visible settings kind = (t.visible settings kind).map (Placed.renumber σ) := by
  have hvisible : ((t.renumber σ).membersOf kind).filter (fun m => m.decl.isVisible settings) =
      ((t.membersOf kind).filter fun m => m.decl.isVisible settings).map (Placed.renumber σ) := by
    rw [renumber_membersOf, List.filter_map]
    rfl
  rw [visible, hvisible, visible, sortByName, sortByName]
  exact (List.map_mergeSort fun a _ b _ => by simp).symm

theorem UnitSymbol.renumber_visibleTypes (u : UnitSymbol) :
    (u.renumber σ).visibleTypes = u.visibleTypes.map (TypeSymbol.renumber σ) := by
  rw [visibleTypes, renumber_types, List.filter_map]
  rfl

theorem sortTypes_map_renumber (types : List TypeSymbol) :
    sortTypes (types.map (TypeSymbol.renumber σ)) =
      (sortTypes types).map (TypeSymbol.renumber σ) := by
  rw [sortTypes, sortTypes]
  exact (List.map_mergeSort (f := TypeSymbol.renumber σ) fun _ _ _ _ => rfl).symm

namespace Renderer

theorem mem_members_of_partition {r : Renderer} {t : TypeSymbol} {kind : MemberKind} {static : Bool}
    {m : MemberSymbol} (hm : m ∈ r.partition t kind static) : m ∈ t.members :=
  TypeSymbol.mem_members_of_visible (List.mem_of_mem_filter hm)

theorem distinctByName_map_renumber (members : List MemberSymbol) :
    distinctByName (members.map (Placed.renumber σ)) =
      (distinctByName members).map (Placed.renumber σ) := by
  induction members with
  | nil => rfl
  | cons m members ih =>
    simp [distinctByName, ih, List.filter_map, Function.comp_def]

theorem namespaces_map_renumber (types : List TypeSymbol) :
    namespaces (types.map (TypeSymbol.renumber σ)) = namespaces types := by
  rw [namespaces, List.map_map]
  rfl

namespace Corresponds

open Answer

variable {r r' : Renderer} {s : Symbol} {t : TypeSymbol} {m : MemberSymbol}

/-! ## Cells -/

theorem sectionBlocks (h : Corresponds σ sound spared r r') (hs : spared s.unit) (tag : String) :
    Same sound (r.sectionBlocks s tag) (r'.sectionBlocks (s.renumber σ) tag) :=
  Same.bind (h.context.resolve hs) fun _ => Same.bind (h.render _ _) fun _ => same_pure _

theorem summaryText (h : Corresponds σ sound spared r r') (hs : spared s.unit) :
    Same sound (r.summaryText s) (r'.summaryText (s.renumber σ)) := by
  unfold Renderer.summaryText
  rw [h.context.settings]
  exact Same.bind (h.context.resolve hs) fun _ => h.renderText _ _

theorem badges (h : Corresponds σ sound spared r r') (attributes : List String) :
    r'.badges attributes = r.badges attributes := by
  simp only [Renderer.badges, h.context.settings]

theorem codeLine (h : Corresponds σ sound spared r r') (declaration : String) :
    r'.codeLine declaration = r.codeLine declaration := by
  rw [Renderer.codeLine, Renderer.codeLine, h.context.settings]

theorem nameCell (h : Corresponds σ sound spared r r') (name : String) (s : Symbol) :
    Same sound (r.nameCell name s) (r'.nameCell name (s.renumber σ)) := by
  unfold Renderer.nameCell
  rw [h.context.paths, Symbol.renumber_unit]
  refine Same.bind (h.context.isIndexed _) fun indexed =>
    Same.ite (fun _ => ?_) fun _ => same_pure _
  exact Same.bind (same_ofExcept _) fun path => same_link _ _

theorem typeCell (h : Corresponds σ sound spared r r') (ref : TypeRef) :
    Same sound (r.typeCell ref) (r'.typeCell ref) := by
  have hfound : (if ref.isParameter then none else r'.findType ref) =
      (if ref.isParameter then none else r.findType ref).map (TypeSymbol.renumber σ) := by
    rw [h.context.findType]
    split <;> rfl
  unfold Renderer.typeCell
  rw [hfound]
  cases (if ref.isParameter then none else r.findType ref) with
  | none => exact same_pure _
  | some t => exact h.nameCell _ (.type t)

theorem memberCell (h : Corresponds σ sound spared r r') (m : MemberSymbol)
    (text : Option String) :
    Same sound (r.memberCell m text) (r'.memberCell (m.renumber σ) text) := by
  simp only [Renderer.memberCell, MemberSymbol.renumber_displayName]
  exact h.nameCell _ (.member m)

theorem unitHeader (unit : String) (framework : Option String) :
    Same sound (Renderer.unitHeader unit framework) (Renderer.unitHeader unit framework) :=
  Same.bind (same_link _ _) fun _ => same_pure _

/-! ## Members -/

theorem paragraphs (h : Corresponds σ sound spared r r') (hs : spared s.unit) :
    Same sound (r.paragraphs s) (r'.paragraphs (s.renumber σ)) :=
  Same.bind (h.sectionBlocks hs _) fun _ => Same.bind (h.sectionBlocks hs _) fun _ => same_pure _

theorem parameterTable (h : Corresponds σ sound spared r r') (entry : Option Xml.Node)
    (parameters : List Parameter) :
    Same sound (r.parameterTable entry parameters) (r'.parameterTable entry parameters) := by
  unfold Renderer.parameterTable
  rw [h.context.settings]
  refine Same.ite (fun _ => same_pure _) fun _ => ?_
  refine Same.bind (Same.each fun p _ => ?_) fun rows => same_pure _
  exact Same.bind (h.typeCell _) fun type => Same.bind (h.renderText _ _) fun text => same_pure _

theorem returnQuote (h : Corresponds σ sound spared r r') (entry : Option Xml.Node)
    (type : TypeRef) : Same sound (r.returnQuote entry type) (r'.returnQuote entry type) := by
  unfold Renderer.returnQuote
  rw [h.context.settings]
  exact Same.bind (h.typeCell _) fun cell => Same.bind (h.renderText _ _) fun text => same_pure _

theorem parameterSummary (h : Corresponds σ sound spared r r')
    (hm : spared (Symbol.member m).unit) :
    Same sound (r.parameterSummary m) (r'.parameterSummary (m.renumber σ)) := by
  unfold Renderer.parameterSummary
  rw [Placed.renumber_decl]
  refine Same.bind (h.context.resolve hm) fun entry => ?_
  refine Same.bind (h.parameterTable _ _) fun table => ?_
  split
  · exact Same.bind (h.returnQuote _ _) fun returns => same_pure _
  · exact Same.bind (same_pure _) fun returns => same_pure _

theorem callableSection (h : Corresponds σ sound spared r r')
    (hm : spared (Symbol.member m).unit) :
    Same sound (r.callableSection m) (r'.callableSection (m.renumber σ)) := by
  simp only [Renderer.callableSection, h.codeLine, h.badges, MemberSymbol.renumber_declaration,
    MemberSymbol.renumber_compactSignature, Placed.renumber_decl]
  refine Same.bind (h.sectionBlocks hm _) fun summary => ?_
  refine Same.bind (h.parameterSummary hm) fun parameters => ?_
  exact Same.bind (h.paragraphs hm) fun more => same_pure _

theorem fieldSection (h : Corresponds σ sound spared r r') (hm : spared (Symbol.member m).unit)
    (f : Field) : Same sound (r.fieldSection m f) (r'.fieldSection (m.renumber σ) f) := by
  simp only [Renderer.fieldSection, h.codeLine, h.badges, MemberSymbol.renumber_declaration]
  exact Same.bind (h.sectionBlocks hm _) fun summary =>
    Same.bind (h.paragraphs hm) fun more => same_pure _

theorem propertySection (h : Corresponds σ sound spared r r') (hm : spared (Symbol.member m).unit)
    (p : Property) :
    Same sound (r.propertySection m p) (r'.propertySection (m.renumber σ) p) := by
  simp only [Renderer.propertySection, h.codeLine, h.badges, MemberSymbol.renumber_declaration,
    MemberSymbol.renumber_displayName]
  refine Same.bind (h.sectionBlocks hm _) fun summary => Same.ite (fun _ => ?_) fun _ => ?_
  · refine Same.bind (h.typeCell _) fun cell => Same.bind (same_pure _) fun returns => ?_
    exact Same.bind (h.paragraphs hm) fun more => same_pure _
  · exact Same.bind (same_pure _) fun returns =>
      Same.bind (h.paragraphs hm) fun more => same_pure _

theorem eventSection (h : Corresponds σ sound spared r r') (hm : spared (Symbol.member m).unit)
    (e : ApiDoc.Event) : Same sound (r.eventSection m e) (r'.eventSection (m.renumber σ) e) := by
  simp only [Renderer.eventSection, h.codeLine, h.badges, MemberSymbol.renumber_declaration]
  exact Same.bind (h.sectionBlocks hm _) fun summary =>
    Same.bind (h.paragraphs hm) fun more => same_pure _

theorem memberSection (h : Corresponds σ sound spared r r') (hm : spared (Symbol.member m).unit) :
    Same sound (r.memberSection m) (r'.memberSection (m.renumber σ)) := by
  unfold Renderer.memberSection
  rw [Placed.renumber_decl]
  split
  · exact h.fieldSection hm _
  · exact h.propertySection hm _
  · exact h.eventSection hm _
  · exact h.callableSection hm
  · exact h.callableSection hm
  · exact parallel_throw _
  · exact parallel_throw _

theorem dividedSections (h : Corresponds σ sound spared r r') {members : List MemberSymbol}
    (hmembers : ∀ m ∈ members, spared (Symbol.member m).unit) :
    Same sound (Context.dividedSections r members)
      (Context.dividedSections r' (members.map (Placed.renumber σ))) :=
  Same.bind (Same.each_map fun m hm => h.memberSection (hmembers m hm)) fun _ => same_pure _

/-! ## Types -/

theorem partition (h : Corresponds σ sound spared r r') (t : TypeSymbol) (kind : MemberKind)
    (static : Bool) :
    r'.partition (t.renumber σ) kind static =
      (r.partition t kind static).map (Placed.renumber σ) := by
  rw [Renderer.partition, h.context.settings, TypeSymbol.renumber_visible, List.filter_map]
  rfl

theorem nameList (h : Corresponds σ sound spared r r') (title : String)
    (members : List MemberSymbol) :
    Same sound (r.nameList title members)
      (r'.nameList title (members.map (Placed.renumber σ))) := by
  unfold Renderer.nameList
  rw [List.isEmpty_map, distinctByName_map_renumber]
  refine Same.ite (fun _ => same_pure _) fun _ => ?_
  exact Same.bind (Same.each_map fun m _ => h.memberCell m none) fun cells => same_pure _

theorem nameLists (h : Corresponds σ sound spared r r') (t : TypeSymbol) :
    r'.nameLists (t.renumber σ) =
      (r.nameLists t).map fun list => (list.1, list.2.map (Placed.renumber σ)) := by
  simp [Renderer.nameLists, h.partition, List.filter_map, Function.comp_def]

theorem memberRow (h : Corresponds σ sound spared r r') (hm : spared (Symbol.member m).unit) :
    Same sound (r.memberRow m) (r'.memberRow (m.renumber σ)) := by
  simp only [Renderer.memberRow, Renderer.shownName, h.context.settings, Placed.renumber_decl,
    MemberSymbol.renumber_compactSignature]
  refine Same.bind (h.memberCell _ _) fun name => Same.bind (h.typeCell _) fun type => ?_
  exact Same.bind (h.summaryText hm) fun summary => same_pure _

theorem memberTables (h : Corresponds σ sound spared r r') (ht : spared t.unit)
    (kind : MemberKind) :
    Same sound (r.memberTables t kind) (r'.memberTables (t.renumber σ) kind) := by
  have htable : ∀ (static : Bool) (heads : List String),
      Same sound
        (each r.memberRow (r.partition t kind static) >>= fun rows =>
          pure [Node.table heads rows])
        (each r'.memberRow ((r.partition t kind static).map (Placed.renumber σ)) >>= fun rows =>
          pure [Node.table heads rows]) := by
    intro static heads
    refine Same.bind (Same.each_map fun m hm => h.memberRow ?_) fun rows => same_pure _
    rwa [TypeSymbol.unit_of_mem_members (mem_members_of_partition hm)]
  simp only [Renderer.memberTables, h.partition, List.isEmpty_map]
  refine Same.ite (fun _ => same_pure _) fun _ => Same.ite (fun _ => ?_) fun _ => ?_
  · refine Same.bind (same_pure _) fun first => Same.ite (fun _ => ?_) fun _ => ?_
    · exact Same.bind (same_pure _) fun second => same_pure _
    · exact Same.bind (htable _ _) fun blocks => Same.bind (same_pure _) fun second => same_pure _
  · refine Same.bind (htable _ _) fun blocks => Same.bind (same_pure _) fun first => ?_
    refine Same.ite (fun _ => ?_) fun _ => ?_
    · exact Same.bind (same_pure _) fun second => same_pure _
    · exact Same.bind (htable _ _) fun blocks => Same.bind (same_pure _) fun second => same_pure _

theorem inheritsList (h : Corresponds σ sound spared r r') (t : TypeSymbol) :
    Same sound (r.inheritsList t) (r'.inheritsList (t.renumber σ)) := by
  unfold Renderer.inheritsList
  rw [TypeSymbol.renumber_decl]
  refine Same.ite (fun _ => same_pure _) fun _ => ?_
  exact Same.bind (Same.each fun ref _ => h.typeCell ref) fun cells => same_pure _

theorem constructorSections (h : Corresponds σ sound spared r r') (ht : spared t.unit) :
    Same sound (r.constructorSections t) (r'.constructorSections (t.renumber σ)) := by
  have hconstructors : ((t.renumber σ).membersOf .constructor).filter
      (fun m => m.decl.isVisible r.settings.render) = ((t.membersOf .constructor).filter
        fun m => m.decl.isVisible r.settings.render).map (Placed.renumber σ) := by
    rw [TypeSymbol.renumber_membersOf, List.filter_map]
    rfl
  simp only [Renderer.constructorSections, h.context.settings, hconstructors, List.isEmpty_map]
  refine Same.ite (fun _ => same_pure _) fun _ => ?_
  refine Same.bind (Same.concatEach_map fun m hm => h.callableSection ?_) fun sections =>
    same_pure _
  rwa [TypeSymbol.unit_of_mem_members (List.mem_of_mem_filter (List.mem_of_mem_filter hm))]

theorem enumBody (h : Corresponds σ sound spared r r') (ht : spared t.unit) :
    Same sound (r.enumBody t) (r'.enumBody (t.renumber σ)) := by
  unfold Renderer.enumBody
  rw [h.context.settings, TypeSymbol.renumber_visible]
  refine Same.bind (Same.each_map fun m hm => ?_) fun rows => same_pure _
  have hm' : spared (Symbol.member m).unit := by
    rwa [TypeSymbol.unit_of_mem_members (TypeSymbol.mem_members_of_visible hm)]
  exact Same.bind (h.context.resolve hm') fun entry =>
    Same.bind (h.renderText _ _) fun text => same_pure _

theorem objectBody (h : Corresponds σ sound spared r r') (ht : spared t.unit) :
    Same sound (r.objectBody t) (r'.objectBody (t.renumber σ)) := by
  simp only [Renderer.objectBody, h.nameLists]
  refine Same.bind (h.inheritsList t) fun inherits => ?_
  refine Same.bind (Same.concatEach_map fun list _ => h.nameList _ _) fun lists => ?_
  refine Same.bind (h.constructorSections ht) fun constructors => ?_
  exact Same.bind (Same.concatEach fun kind _ => h.memberTables ht kind) fun tables => same_pure _

theorem typeBody (h : Corresponds σ sound spared r r') (ht : spared t.unit) :
    Same sound (r.typeBody t) (r'.typeBody (t.renumber σ)) := by
  unfold Renderer.typeBody
  rw [TypeSymbol.renumber_decl]
  split
  · exact h.enumBody ht
  · exact same_pure _
  · exact h.objectBody ht

/-! ## Units -/

theorem typeRow (h : Corresponds σ sound spared r r') (ht : spared t.unit) :
    Same sound (r.typeRow t) (r'.typeRow (t.renumber σ)) :=
  Same.bind (h.typeCell _) fun _ =>
    Same.bind (h.summaryText (s := .type t) ht) fun _ => same_pure _

theorem categoryTable (h : Corresponds σ sound spared r r') {types : List TypeSymbol}
    (htypes : ∀ t ∈ types, spared t.unit) (category : TypeCategory) :
    Same sound (r.categoryTable types category)
      (r'.categoryTable (types.map (TypeSymbol.renumber σ)) category) := by
  have hlisted : (types.map (TypeSymbol.renumber σ)).filter
      (fun t => t.decl.category = category) =
      (types.filter fun t => t.decl.category = category).map (TypeSymbol.renumber σ) := by
    rw [List.filter_map]
    rfl
  simp only [Renderer.categoryTable, hlisted, List.isEmpty_map, sortTypes_map_renumber]
  refine Same.ite (fun _ => same_pure _) fun _ => ?_
  refine Same.bind (Same.each_map fun t ht => h.typeRow (htypes t ?_)) fun rows => same_pure _
  exact List.mem_of_mem_filter (List.mem_mergeSort.1 ht)

theorem namespaceTables (h : Corresponds σ sound spared r r') {types : List TypeSymbol}
    (htypes : ∀ t ∈ types, spared t.unit) (space : String) :
    Same sound (r.namespaceTables types space)
      (r'.namespaceTables (types.map (TypeSymbol.renumber σ)) space) := by
  have hlisted : (types.map (TypeSymbol.renumber σ)).filter (fun t => t.decl.ref.space = space) =
      (types.filter fun t => t.decl.ref.space = space).map (TypeSymbol.renumber σ) := by
    rw [List.filter_map]
    rfl
  simp only [Renderer.namespaceTables, hlisted]
  refine Same.bind (Same.concatEach fun category _ => h.categoryTable ?_ category)
    fun tables => same_pure _
  exact fun t ht => htypes t (List.mem_of_mem_filter ht)

end Corresponds

end Renderer

/-! ## Pages -/

/-- The unit with another source. -/
def UnitSymbol.documentedBy (u : UnitSymbol) (source : Source) : UnitSymbol :=
  { u with decl := { u.decl with documentation := source } }

namespace Context

/-- The groups of a type are groups of its members. -/
theorem mem_members_of_memberGroups {ctx : Context} {t : TypeSymbol}
    {groups : List (String × List MemberSymbol)} (h : ctx.memberGroups t = .ok groups)
    {path : String} {group : List MemberSymbol} (hgroup : (path, group) ∈ groups)
    {m : MemberSymbol} (hm : m ∈ group) : m ∈ t.members := by
  obtain ⟨located, hlocated, h⟩ := bind_eq_ok.1 h
  cases h
  obtain ⟨path', -, hpath⟩ := List.mem_map.1 hgroup
  cases hpath
  obtain ⟨⟨path, m'⟩, hmem, rfl⟩ := List.mem_map.1 hm
  obtain ⟨m, hlisted, hm'⟩ := (mem_mapM hlocated).1 (List.mem_of_mem_filter hmem)
  obtain ⟨_, -, hm'⟩ := bind_eq_ok.1 hm'
  cases hm'
  obtain ⟨kind, -, hvisible⟩ := List.mem_flatMap.1 hlisted
  exact TypeSymbol.mem_members_of_visible hvisible

theorem ownerNames_map_renumber (members : List MemberSymbol) :
    ownerNames (members.map (Placed.renumber σ)) = ownerNames members := by
  simp [ownerNames, List.filterMap_map, Function.comp_def]

namespace Corresponds

open Answer

variable {ctx ctx' : Context} {t : TypeSymbol}

/-! ### Pages of members -/

theorem ownedPage (h : Corresponds σ sound spared ctx ctx')
    (hframework : ∀ unit, ctx'.frameworks.lookup unit = ctx.frameworks.lookup unit)
    {owner : TypeSymbol} {kind : String} {first : MemberSymbol} {others : List MemberSymbol}
    (hmembers : ∀ m ∈ first :: others, spared (Symbol.member m).unit) :
    Same sound (ctx.ownedPage owner kind first others)
      (ctx'.ownedPage (owner.renumber σ) kind (first.renumber σ)
        (others.map (Placed.renumber σ))) := by
  have hr := h.renderer (some owner)
  simp only [Context.ownedPage, Renderer.framework, hframework, TypeSymbol.renumber_unit,
    MemberSymbol.renumber_displayName]
  refine Same.page (Same.bind (Renderer.Corresponds.unitHeader _ _) fun header => ?_) _
  refine Same.bind (same_link _ _) fun space => Same.bind (hr.typeCell _) fun declaring => ?_
  exact Same.bind (hr.dividedSections hmembers) fun sections => same_pure _

theorem parallel_asMember {s : Symbol} (hs : spared s.unit) :
    Parallel sound (fun m m' => m' = m.renumber σ ∧ spared (Symbol.member m).unit)
      (asMember s) (asMember (s.renumber σ)) := by
  cases s with
  | member m => exact parallel_pure ⟨rfl, hs⟩
  | type t => exact parallel_throw _
  | parameter p => exact parallel_throw _

theorem parallel_asMembers {symbols : List Symbol} (hsymbols : ∀ s ∈ symbols, spared s.unit) :
    Parallel sound (fun ms ms' => Renumbered σ ms ms' ∧ ∀ m ∈ ms, spared (Symbol.member m).unit)
      (each asMember symbols) (each asMember (symbols.map (Symbol.renumber σ))) := by
  induction symbols with
  | nil => exact parallel_pure ⟨rfl, by simp⟩
  | cons s symbols ih =>
    obtain ⟨hs, hsymbols⟩ := List.forall_mem_cons.1 hsymbols
    refine Parallel.bind (parallel_asMember hs) fun m m' ⟨hmm, hm⟩ => ?_
    refine Parallel.bind (ih hsymbols) fun ms ms' ⟨hmms, hms⟩ => ?_
    refine parallel_pure ⟨?_, List.forall_mem_cons.2 ⟨hm, hms⟩⟩
    rw [hmm, hmms, Renumbered, List.map_cons]

theorem memberPage (h : Corresponds σ sound spared ctx ctx')
    (hframework : ∀ unit, ctx'.frameworks.lookup unit = ctx.frameworks.lookup unit)
    {symbols : List Symbol} (hsymbols : ∀ s ∈ symbols, spared s.unit) :
    Same sound (ctx.memberPage symbols)
      (ctx'.memberPage (symbols.map (Symbol.renumber σ))) := by
  cases symbols with
  | nil => exact parallel_throw _
  | cons s rest =>
    obtain ⟨hs, hrest⟩ := List.forall_mem_cons.1 hsymbols
    refine Parallel.bind (parallel_asMember hs) fun first _ ⟨hfirst, hfirst'⟩ => ?_
    subst hfirst
    cases ho : first.owner with
    | none =>
      simp only [Placed.renumber_owner, ho, Option.map_none, Placed.renumber_decl]
      exact parallel_throw _
    | some owner =>
      simp only [Placed.renumber_owner, ho, Option.map_some, Placed.renumber_decl,
        MemberSymbol.renumber_displayName]
      refine Parallel.bind (parallel_asMembers hrest) fun others _ ⟨hothers, hothers'⟩ => ?_
      subst hothers
      have hdeclared : ((others.map (Placed.renumber σ)).all fun m =>
          MemberSymbol.isDeclaredOn m (owner.renumber σ)) =
          others.all fun m => m.isDeclaredOn owner := by
        simp [List.all_map, Function.comp_def]
      have hnames : ownerNames (first.renumber σ :: others.map (Placed.renumber σ)) =
          ownerNames (first :: others) := ownerNames_map_renumber (first :: others)
      rw [hdeclared, hnames]
      refine Same.ite (fun _ => ?_) fun _ => parallel_throw _
      split
      · exact h.ownedPage hframework (List.forall_mem_cons.2 ⟨hfirst', hothers'⟩)
      · exact parallel_throw _

/-! ### Pages of types -/

theorem memberGroups (h : Corresponds σ sound spared ctx ctx') (t : TypeSymbol) :
    ctx'.memberGroups (t.renumber σ) = (ctx.memberGroups t).map
      (List.map fun group => (group.1, group.2.map (Placed.renumber σ))) := by
  have hlisted : ctx'.listedMembers (t.renumber σ) =
      (ctx.listedMembers t).map (Placed.renumber σ) := by
    rw [listedMembers, h.settings, listedMembers, List.map_flatMap]
    exact congrArg (List.flatMap · _) (funext (t.renumber_visible ctx.settings.render))
  have hlocated : ∀ members : List MemberSymbol,
      ((members.map (Placed.renumber σ)).mapM fun m => do
        let path ← ctx'.paths (.member m)
        .ok (path, m)) =
      (members.mapM fun m => do
        let path ← ctx.paths (.member m)
        Except.ok (path, m)).map
          (List.map fun l : String × MemberSymbol => (l.1, l.2.renumber σ)) := by
    intro members
    induction members with
    | nil => rfl
    | cons m members ih =>
      have hpath : ctx'.paths (.member (m.renumber σ)) = ctx.paths (.member m) :=
        h.paths (.member m)
      rw [List.map_cons, List.mapM_cons, List.mapM_cons, ih, hpath]
      cases ctx.paths (.member m) with
      | error e => rfl
      | ok path =>
        cases members.mapM fun m => do
          let path ← ctx.paths (.member m)
          Except.ok (path, m) <;> rfl
  rw [Context.memberGroups, hlisted, hlocated, Context.memberGroups]
  cases (ctx.listedMembers t).mapM fun m => do
    let path ← ctx.paths (.member m)
    Except.ok (path, m) with
  | error e => rfl
  | ok located =>
    simp [bind, Except.bind, Except.map, List.filter_map, Function.comp_def]

theorem typePage (h : Corresponds σ sound spared ctx ctx')
    (hframework : ∀ unit, ctx'.frameworks.lookup unit = ctx.frameworks.lookup unit)
    (ht : spared t.unit) : Same sound (ctx.typePage t) (ctx'.typePage (t.renumber σ)) := by
  have hr := h.renderer (some t)
  have ht' : spared (Symbol.type t).unit := ht
  have hcode : ∀ declaration, Renderer.codeLine { ctx' with current := some (t.renumber σ) }
      declaration = Renderer.codeLine { ctx with current := some t } declaration := hr.codeLine
  have hbadges : ∀ attributes, Renderer.badges { ctx' with current := some (t.renumber σ) }
      attributes = Renderer.badges { ctx with current := some t } attributes := hr.badges
  simp only [Context.typePage, Renderer.framework, hframework, hcode, hbadges,
    TypeSymbol.renumber_unit, TypeSymbol.renumber_decl]
  refine Same.page (Same.bind (Renderer.Corresponds.unitHeader _ _) fun header => ?_) _
  refine Same.bind (same_link _ _) fun space => Same.bind (hr.sectionBlocks ht' _) fun summary => ?_
  refine Same.bind (hr.paragraphs ht') fun more => ?_
  exact Same.bind (hr.typeBody ht) fun body => same_pure _

theorem typePages (h : Corresponds σ sound spared ctx ctx')
    (hframework : ∀ unit, ctx'.frameworks.lookup unit = ctx.frameworks.lookup unit)
    (ht : spared t.unit) : Same sound (ctx.typePages t) (ctx'.typePages (t.renumber σ)) := by
  have hpath : ctx'.paths (.type (t.renumber σ)) = ctx.paths (.type t) := h.paths (.type t)
  unfold Context.typePages
  rw [hpath, h.memberGroups, TypeSymbol.renumber_decl]
  refine Same.bind (same_ofExcept _) fun path => Same.bind (h.typePage hframework ht) fun page => ?_
  refine Same.ite (fun _ => same_pure _) fun _ => ?_
  cases hgroups : ctx.memberGroups t with
  | error e => exact parallel_throw e
  | ok groups =>
    simp only [Except.map, ofExcept_ok_bind]
    refine Same.bind (Same.each_map fun group hgroup => ?_) fun members => same_pure _
    have hsymbols : (group.2.map (Placed.renumber σ)).map Symbol.member =
        (group.2.map Symbol.member).map (Symbol.renumber σ) := by
      rw [List.map_map, List.map_map]
      rfl
    simp only [hsymbols]
    refine Same.bind (h.memberPage hframework fun s hs => ?_) fun page => same_pure _
    obtain ⟨m, hm, rfl⟩ := List.mem_map.1 hs
    rwa [TypeSymbol.unit_of_mem_members (mem_members_of_memberGroups hgroups hgroup hm)]

/-! ### Pages of units -/

theorem withFramework (h : Corresponds σ sound spared ctx ctx') (u u' : MetadataUnit) :
    Corresponds σ sound spared (ctx.withFramework u) (ctx'.withFramework u') := { h with }

theorem lookup_withFramework
    (hframework : ∀ unit, ctx'.frameworks.lookup unit = ctx.frameworks.lookup unit)
    (u : UnitSymbol) (source : Source) (unit : String) :
    (ctx'.withFramework ((u.renumber σ).documentedBy source).decl).frameworks.lookup unit =
      (ctx.withFramework u.decl).frameworks.lookup unit := by
  simp only [Context.withFramework, UnitSymbol.documentedBy, UnitSymbol.renumber,
    List.lookup_cons, hframework]

theorem unitPage (h : Corresponds σ sound spared ctx ctx') {u : UnitSymbol}
    (hu : spared (some u.name)) (source : Source) :
    Same sound (ctx.unitPage u) (ctx'.unitPage ((u.renumber σ).documentedBy source)) := by
  have hr := h.renderer none
  have htypes : ((u.renumber σ).documentedBy source).visibleTypes =
      u.visibleTypes.map (TypeSymbol.renumber σ) := u.renumber_visibleTypes
  simp only [Context.unitPage, htypes, Renderer.namespaces_map_renumber]
  refine Same.page (Same.bind (Renderer.Corresponds.unitHeader _ _) fun header => ?_) _
  refine Same.bind (Same.concatEach fun space _ => hr.namespaceTables ?_ space) fun tables =>
    same_pure _
  intro t ht
  rwa [u.unit_of_mem_visibleTypes ht]

theorem unitPages (h : Corresponds σ sound spared ctx ctx')
    (hframework : ∀ unit, ctx'.frameworks.lookup unit = ctx.frameworks.lookup unit)
    {u : UnitSymbol} (hu : spared (some u.name)) (source : Source) :
    Same sound (ctx.unitPages u) (ctx'.unitPages ((u.renumber σ).documentedBy source)) := by
  have h' := h.withFramework u.decl ((u.renumber σ).documentedBy source).decl
  have hframework' := lookup_withFramework (σ := σ) hframework u source
  have htypes : ((u.renumber σ).documentedBy source).visibleTypes =
      u.visibleTypes.map (TypeSymbol.renumber σ) := u.renumber_visibleTypes
  simp only [Context.unitPages, htypes]
  refine Same.bind (h'.unitPage hu source) fun contents => ?_
  refine Same.bind (Same.concatEach_map fun t ht => h'.typePages hframework' ?_) fun pages => ?_
  · rwa [u.unit_of_mem_visibleTypes ht]
  · exact Same.bind (h.same_log _ _ _) fun _ => same_pure _

end Corresponds

namespace Agrees

open Answer

variable {ctx ctx' : Context} {u : UnitSymbol}

theorem withFramework (h : Agrees sound spared ctx ctx') (u : UnitSymbol) (source : Source) :
    Agrees sound spared (ctx.withFramework u.decl)
      (ctx'.withFramework (u.documentedBy source).decl) where
  types := h.types
  symbol? := h.symbol?
  hierarchy := h.hierarchy
  settings := h.settings
  paths := h.paths
  framework unit := by
    simp only [Context.withFramework, UnitSymbol.documentedBy, List.lookup_cons, h.framework]
  outcomes := h.outcomes
  logged := h.logged
  consulted := h.consulted
  dispatch := h.dispatch

theorem unitPage (h : Agrees sound spared ctx ctx') (hu : spared (some u.name)) (source : Source) :
    Same sound (ctx.unitPage u) (ctx'.unitPage (u.documentedBy source)) := by
  simpa using h.corresponds.unitPage hu source

theorem unitPages (h : Agrees sound spared ctx ctx') (hu : spared (some u.name))
    (source : Source) :
    Same sound (ctx.unitPages u) (ctx'.unitPages (u.documentedBy source)) := by
  simpa using h.corresponds.unitPages (fun unit => (h.framework unit).symm) hu source

end Agrees

end Context

end ApiDoc
