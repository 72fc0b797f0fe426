import ApiDoc.Proofs.MarkupTargets
import ApiDoc.Proofs.PageAgreement
import ApiDoc.Proofs.PageLinks

/-!
# What pages are made of

The section of a member is a heading of its own and prose with its declaration (`IsSection`). The
page of members has a head and then one section for each of them (`meets_memberPage`). The page of a
type has the headings that its declaration gives it (`typeOutline`), so that only its visible
constructors have sections there (`meets_typePage`). A page links to the contents of its unit and to
where the parts of it link.
-/

namespace ApiDoc

open Document (Node Fragment linksOf linksOfParts linksOfRows Outlined Prose)

/-- What heads the section of a member. -/
def MemberSymbol.sectionHeading (m : MemberSymbol) : Node :=
  match m.decl with
  | .field f => .heading 4 [.text f.name]
  | .event e => .heading 4 [.text e.name]
  | .property _ => .heading 3 [.text m.displayName]
  | _ => .heading 3 [.text m.compactSignature]

/-- The section of a member: a heading of its own, and prose with its declaration. -/
def Context.IsSection (ctx : Context) (m : MemberSymbol) (blocks : List Node) : Prop :=
  ∃ rest, blocks = m.sectionHeading :: rest ∧
    .codeBlock m.declaration ctx.settings.render.codeLanguage ∈ rest ∧ Prose ctx.LinksTo rest

namespace Renderer

open Answer

variable {r : Renderer} {s : Symbol} {t : TypeSymbol} {m : MemberSymbol}

/-! ## Cells -/

theorem outlined_heading {leads : String → Prop} (level : Nat) (title : String) :
    Outlined leads [heading level title] [heading level title] :=
  ⟨rfl, fun _ hl => nomatch hl⟩

theorem meets_sectionBlocks (hr : r.WellBuilt) (hs : s.Owned) (tag : String) :
    (r.sectionBlocks s tag).Meets r.MayRaise (Prose r.LinksTo) := by
  refine (r.meets_resolve hr hs).bind fun entry hentry => ?_
  refine (meets_render hr .normal (r.sources_sectionOf? hentry tag)).bind fun f hf => ?_
  exact meets_pure hf.blocksOf

theorem meets_summaryText (hr : r.WellBuilt) (hs : s.Owned) :
    (r.summaryText s).Meets r.MayRaise fun _ => True := by
  refine (r.meets_resolve hr hs).bind fun entry hentry => ?_
  exact meets_renderText hr (r.sources_sectionOf? hentry _) _

theorem prose_badges {leads : String → Prop} (r : Renderer) (attributes : List String) :
    Prose leads (r.badges attributes) := by
  refine ⟨?_, by rw [linksOf_badges]; exact fun _ hl => nomatch hl⟩
  simp only [badges]
  split <;> rfl

theorem prose_codeLine {leads : String → Prop} (r : Renderer) (declaration : String) :
    Prose leads [r.codeLine declaration] := Outlined.bare rfl rfl

theorem meets_nameCell (name : String) (hs : r.catalog.Declares s) :
    (r.nameCell name s).Meets r.MayRaise fun n => Prose r.LinksTo [n] :=
  meets_linkOf_declared hs name name

theorem meets_typeCell (hr : r.WellBuilt) (ref : TypeRef) :
    (r.typeCell ref).Meets r.MayRaise fun n => Prose r.LinksTo [n] := by
  unfold typeCell
  split
  next t ht =>
    have hfind : r.findType ref = some t := by
      split at ht
      · cases ht
      · exact ht
    exact meets_nameCell _ (r.declares_of_findType hr hfind)
  next => exact meets_pure (Outlined.bare rfl rfl)

theorem meets_memberCell (ht : t ∈ r.catalog.types) (hm : m ∈ t.members) (text : Option String) :
    (r.memberCell m text).Meets r.MayRaise fun n => Prose r.LinksTo [n] :=
  meets_nameCell _ ⟨t, ht, List.mem_cons_of_mem _ (List.mem_map_of_mem hm)⟩

/-- Cells in one line. -/
theorem prose_commaList {α : Type} {leads : String → Prop} {items : List α} {cells : List Node}
    (h : List.Forall₂ (fun _ n => Prose leads [n]) items cells) :
    Prose leads [commaList cells] := by
  refine Outlined.single rfl fun l hl => ?_
  rw [links_commaList] at hl
  induction h with
  | nil => cases hl
  | cons hn _ ih =>
    rw [Document.linksOf_cons, List.mem_append] at hl
    refine hl.elim (fun hl => hn.links l ?_) ih
    simpa using hl

/-- The links of a table are those of its rows. -/
theorem prose_table {α : Type} {leads : String → Prop} {items : List α} {heads : List String}
    {rows : List (List (List Node))}
    (h : List.Forall₂ (fun _ row => ∀ l ∈ linksOfParts row, leads l.1) items rows) :
    Prose leads [.table heads rows] := by
  refine Outlined.single rfl fun l hl => ?_
  change l ∈ linksOfRows rows at hl
  induction h with
  | nil => cases hl
  | cons hrow _ ih =>
    rw [Document.linksOfRows_cons, List.mem_append] at hl
    exact hl.elim (hrow l) ih

/-- A quote has the links of what it contains. -/
theorem prose_quote {leads : String → Prop} (before : Fragment) {after : Fragment} {n : Node}
    (hbefore : linksOf before = []) (hn : Prose leads [n]) (hafter : linksOf after = []) :
    Prose leads [.quote (before ++ n :: after)] := by
  refine Outlined.single rfl fun l hl => hn.links l ?_
  simpa [Document.Node.links, hbefore, hafter] using hl

/-- The parts of a page one after the other, each with its own outline. -/
theorem Meets.parts {α : Type} {fails : Error → Prop} {leads : String → Prop}
    {part : α → Answer (List Node)} {outline : α → List Node} {items : List α}
    (h : ∀ x ∈ items, (part x).Meets fails (Outlined leads (outline x))) :
    (concatEach part items).Meets fails (Outlined leads (items.flatMap outline)) := by
  refine (Meets.concatEach h).weaken ?_
  rintro _ ⟨parts, rfl, hparts⟩
  clear h
  induction hparts with
  | nil => exact Outlined.nil
  | cons hpart _ ih => exact hpart.append ih

/-! ## Members -/

theorem meets_paragraphs (hr : r.WellBuilt) (hs : s.Owned) :
    (r.paragraphs s).Meets r.MayRaise (Prose r.LinksTo) := by
  refine (meets_sectionBlocks hr hs _).bind fun remarks hremarks => ?_
  refine (meets_sectionBlocks hr hs _).bind fun examples hexamples => ?_
  exact meets_pure (hremarks.append hexamples)

theorem meets_parameterTable (hr : r.WellBuilt) {entry : Option Xml.Node} (he : r.Sources entry)
    (parameters : List Parameter) :
    (r.parameterTable entry parameters).Meets r.MayRaise (Prose r.LinksTo) := by
  refine Meets.ite (fun _ => meets_pure Outlined.nil) fun _ => ?_
  have hrow : ∀ p ∈ parameters, (do
      let type ← r.typeCell p.type
      let text ← r.renderText (Entry.parameter? entry p.name) (some r.settings.render.summaryBudget)
      pure (row [.text p.name, type, .text text])).Meets r.MayRaise
        fun line => ∀ l ∈ linksOfParts line, r.LinksTo l.1 := by
    intro p _
    refine (meets_typeCell hr p.type).bind fun type htype => ?_
    refine (meets_renderText hr (r.sources_parameter? he _) _).bind fun text _ => meets_pure ?_
    intro l hl
    refine htype.links l ?_
    simpa [Node.links] using hl
  exact (Meets.each hrow).bind fun rows hrows => meets_pure (prose_table hrows)

theorem meets_returnQuote (hr : r.WellBuilt) {entry : Option Xml.Node} (he : r.Sources entry)
    (type : TypeRef) : (r.returnQuote entry type).Meets r.MayRaise (Prose r.LinksTo) := by
  refine (meets_typeCell hr type).bind fun cell hcell => ?_
  refine (meets_renderText hr (r.sources_sectionOf? he _) _).bind fun text _ => meets_pure ?_
  refine prose_quote [.bold "Returns", .text " - "] rfl hcell ?_
  split <;> rfl

theorem meets_parameterSummary (hr : r.WellBuilt) (hm : (Symbol.member m).Owned) :
    (r.parameterSummary m).Meets r.MayRaise (Prose r.LinksTo) := by
  refine (r.meets_resolve hr hm).bind fun entry hentry => ?_
  refine (meets_parameterTable hr hentry _).bind fun table htable => ?_
  have hmore : ∀ returns : List Node, Prose r.LinksTo returns →
      (pure (table ++ returns) : Answer (List Node)).Meets r.MayRaise (Prose r.LinksTo) :=
    fun returns hreturns => meets_pure (htable.append hreturns)
  split
  · exact (meets_returnQuote hr hentry _).bind hmore
  · exact (meets_pure Outlined.nil).bind hmore

theorem outlined_of_isSection {ctx : Context} {blocks : List Node} (h : ctx.IsSection m blocks) :
    Outlined ctx.LinksTo [m.sectionHeading] blocks := by
  obtain ⟨rest, rfl, -, hrest⟩ := h
  have hheading : m.sectionHeading.isHeading = true ∧ m.sectionHeading.links = [] := by
    unfold MemberSymbol.sectionHeading
    split <;> exact ⟨rfl, rfl⟩
  refine ⟨?_, fun l hl => hrest.links l ?_⟩
  · rw [Document.headings_cons, hheading.1, hrest.headings]
    rfl
  · rwa [Document.linksOf_cons, hheading.2, List.nil_append] at hl

theorem meets_callableSection (hr : r.WellBuilt) (hm : (Symbol.member m).Owned)
    (hheading : m.sectionHeading = .heading 3 [.text m.compactSignature]) :
    (r.callableSection m).Meets r.MayRaise (r.IsSection m) := by
  refine (meets_sectionBlocks hr hm _).bind fun summary hsummary => ?_
  refine (meets_parameterSummary hr hm).bind fun parameters hparameters => ?_
  refine (meets_paragraphs hr hm).bind fun more hmore => meets_pure ?_
  refine ⟨summary ++ [r.codeLine m.declaration] ++ r.badges m.decl.declared.attributes
    ++ parameters ++ more, ?_, by simp [codeLine], ?_⟩
  · rw [hheading]
    simp
  · have hdeclared := (hsummary.append (prose_codeLine r m.declaration)).append
      (prose_badges r m.decl.declared.attributes)
    exact (hdeclared.append hparameters).append hmore

theorem meets_memberSection (hr : r.WellBuilt) (hm : (Symbol.member m).Owned) :
    (r.memberSection m).Meets r.MayRaise (r.IsSection m) := by
  obtain ⟨address, owner, decl⟩ := m
  cases decl with
  | method d => exact meets_callableSection hr hm rfl
  | constructor c => exact meets_callableSection hr hm rfl
  | field f =>
    refine (meets_sectionBlocks hr hm _).bind fun summary hsummary => ?_
    refine (meets_paragraphs hr hm).bind fun more hmore => meets_pure ?_
    refine ⟨_, rfl, by simp [codeLine], ?_⟩
    exact ((hsummary.append (prose_codeLine r _)).append (prose_badges r _)).append hmore
  | property p =>
    refine (meets_sectionBlocks hr hm _).bind fun summary hsummary => ?_
    have hrest : ∀ returns : List Node, Prose r.LinksTo returns → (do
        let more ← r.paragraphs (.member ⟨address, owner, .property p⟩)
        pure ([Node.heading 3 [.text (MemberSymbol.displayName ⟨address, owner, .property p⟩)]] ++
          summary ++ [r.codeLine (MemberSymbol.declaration ⟨address, owner, .property p⟩)] ++
          returns ++ r.badges p.attributes ++ more)).Meets r.MayRaise
          (r.IsSection ⟨address, owner, .property p⟩) := by
      intro returns hreturns
      refine (meets_paragraphs hr hm).bind fun more hmore => ?_
      refine meets_pure ⟨_, rfl, by simp [codeLine], ?_⟩
      exact (((hsummary.append (prose_codeLine r _)).append hreturns).append
        (prose_badges r _)).append hmore
    refine Meets.ite (fun _ => ?_) fun _ => (meets_pure Outlined.nil).bind hrest
    refine (meets_typeCell hr p.type).bind fun cell hcell => Meets.bind (meets_pure ?_) hrest
    exact prose_quote [.bold "Returns", .text ": "] rfl hcell rfl
  | event e =>
    refine (meets_sectionBlocks hr hm _).bind fun summary hsummary => ?_
    refine (meets_paragraphs hr hm).bind fun more hmore => meets_pure ?_
    refine ⟨_, rfl, by simp [codeLine], ?_⟩
    exact (((hsummary.append (prose_codeLine r _)).append (prose_badges r _)).append
      (Outlined.bare rfl rfl)).append hmore
  | unclassified d => exact meets_throw (.inl rfl)
  | unclassifiedCallable c => exact meets_throw (.inl rfl)

theorem meets_dividedSections (hr : r.WellBuilt) {members : List MemberSymbol}
    (hmembers : ∀ m ∈ members, (Symbol.member m).Owned) :
    (Context.dividedSections r members).Meets r.MayRaise fun blocks => ∃ sections,
      blocks = (sections.intersperse [.divider]).flatten ∧
      List.Forall₂ r.IsSection members sections :=
  (Meets.each fun m hm => meets_memberSection hr (hmembers m hm)).bind fun sections hsections =>
    meets_pure ⟨sections, rfl, hsections⟩

/-! ## Types -/

theorem mem_of_mem_distinctByName {members : List MemberSymbol} (hm : m ∈ distinctByName members) :
    m ∈ members := by
  induction members with
  | nil => cases hm
  | cons first rest ih =>
    rcases List.mem_cons.1 hm with rfl | hm
    · exact List.mem_cons_self
    · exact List.mem_cons_of_mem _ (ih (List.mem_of_mem_filter hm))

theorem meets_nameList (ht : t ∈ r.catalog.types) (title : String) {members : List MemberSymbol}
    (hmembers : ∀ m ∈ members, m ∈ t.members) :
    (r.nameList title members).Meets r.MayRaise
      (Outlined r.LinksTo (if members.isEmpty then [] else [heading 3 title])) := by
  unfold nameList
  split
  · exact meets_pure Outlined.nil
  · have hcell : ∀ m ∈ distinctByName members,
        (r.memberCell m none).Meets r.MayRaise fun n => Prose r.LinksTo [n] :=
      fun m hm => meets_memberCell ht (hmembers m (mem_of_mem_distinctByName hm)) none
    refine (Meets.each hcell).bind fun cells hcells => meets_pure ?_
    exact (outlined_heading 3 title).append (prose_commaList hcells)

theorem meets_memberRow (hr : r.WellBuilt) (ht : t ∈ r.catalog.types) (hm : m ∈ t.members) :
    (r.memberRow m).Meets r.MayRaise fun line => ∀ l ∈ linksOfParts line, r.LinksTo l.1 := by
  have howned : (Symbol.member m).Owned := ⟨t, TypeSymbol.owner_of_mem_members hm⟩
  refine (meets_memberCell ht hm _).bind fun name hname => ?_
  refine (meets_typeCell hr _).bind fun type htype => ?_
  refine (meets_summaryText hr howned).bind fun summary _ => meets_pure fun l hl => ?_
  have hcells : l ∈ name.links ∨ l ∈ type.links := by simpa [Node.links] using hl
  exact hcells.elim (fun h => hname.links l (by simpa using h))
    fun h => htype.links l (by simpa using h)

/-- The headings of the tables of a kind. -/
def tableOutline (r : Renderer) (t : TypeSymbol) (kind : MemberKind) : List Node :=
  let instances := r.partition t kind false
  let statics := r.partition t kind true
  if instances.isEmpty && statics.isEmpty then []
  else heading 2 (tableTitles kind).1 ::
    (if instances.isEmpty then [] else [heading 4 "Instance"]) ++
    if statics.isEmpty || instances.isEmpty then [] else [heading 4 "Static"]

theorem meets_memberTables (hr : r.WellBuilt) (ht : t ∈ r.catalog.types) (kind : MemberKind) :
    (r.memberTables t kind).Meets r.MayRaise (Outlined r.LinksTo (r.tableOutline t kind)) := by
  have htable : ∀ (static : Bool) (heads : List String), (do
      let rows ← each r.memberRow (r.partition t kind static)
      pure [Node.table heads rows]).Meets r.MayRaise (Prose r.LinksTo) := by
    intro static heads
    have hrow : ∀ m ∈ r.partition t kind static,
        (r.memberRow m).Meets r.MayRaise fun line => ∀ l ∈ linksOfParts line, r.LinksTo l.1 :=
      fun m hm => meets_memberRow hr ht (mem_members_of_partition hm)
    exact (Meets.each hrow).bind fun rows hrows => meets_pure (prose_table hrows)
  have hall : ∀ {outline outline' first second : List Node},
      Outlined r.LinksTo outline first → Outlined r.LinksTo outline' second →
      Outlined r.LinksTo (heading 2 (tableTitles kind).1 :: outline ++ outline')
        (heading 2 (tableTitles kind).1 :: first ++ second) :=
    fun hfirst hsecond => ((outlined_heading 2 _).append hfirst).append hsecond
  have hinstance : ∀ {blocks : List Node}, Prose r.LinksTo blocks →
      Outlined r.LinksTo [heading 4 "Instance"] (heading 4 "Instance" :: blocks) :=
    (outlined_heading 4 "Instance").append
  have hstatic : ∀ {blocks : List Node}, Prose r.LinksTo blocks →
      Outlined r.LinksTo [heading 4 "Static"] (heading 4 "Static" :: blocks) :=
    (outlined_heading 4 "Static").append
  -- a table that stands alone has no heading if it is that of static members
  simp only [memberTables, tableOutline]
  cases hi : (r.partition t kind false).isEmpty with
  | true =>
    cases hs : (r.partition t kind true).isEmpty with
    | true => exact meets_pure Outlined.nil
    | false =>
      exact (meets_pure Outlined.nil).bind fun first hfirst => (htable true _).bind
        fun blocks hblocks => meets_pure (hall hfirst hblocks)
  | false =>
    cases hs : (r.partition t kind true).isEmpty with
    | true =>
      exact (htable false _).bind fun blocks hblocks =>
        meets_pure (hall (hinstance hblocks) Outlined.nil)
    | false =>
      exact (htable false _).bind fun first hfirst => (htable true _).bind fun second hsecond =>
        meets_pure (hall (hinstance hfirst) (hstatic hsecond))

/-- The visible constructors of a type. -/
def constructors (r : Renderer) (t : TypeSymbol) : List MemberSymbol :=
  (t.membersOf .constructor).filter fun m => m.decl.isVisible r.settings.render

theorem sectionHeading_of_mem_constructors (hm : m ∈ r.constructors t) :
    m.sectionHeading = .heading 3 [.text m.compactSignature] := by
  have hkind := (List.mem_filter.1 (List.mem_of_mem_filter hm)).2
  obtain ⟨address, owner, decl⟩ := m
  cases decl <;> simp [Member.kind?] at hkind
  rfl

theorem meets_inheritsList (hr : r.WellBuilt) (t : TypeSymbol) :
    (r.inheritsList t).Meets r.MayRaise
      (Outlined r.LinksTo (if t.decl.inherits.isEmpty then [] else [heading 3 "Inherits"])) := by
  unfold inheritsList
  split
  · exact meets_pure Outlined.nil
  · refine (Meets.each fun ref _ => meets_typeCell hr ref).bind fun cells hcells => meets_pure ?_
    exact (outlined_heading 3 "Inherits").append (prose_commaList hcells)

theorem meets_constructorSections (hr : r.WellBuilt) (t : TypeSymbol) :
    (r.constructorSections t).Meets r.MayRaise (Outlined r.LinksTo
      (if (r.constructors t).isEmpty then []
        else heading 2 "Constructors" :: (r.constructors t).map MemberSymbol.sectionHeading)) := by
  have hsection : ∀ m ∈ r.constructors t, (r.callableSection m).Meets r.MayRaise
      (Outlined r.LinksTo [m.sectionHeading]) := by
    intro m hm
    have howner := TypeSymbol.owner_of_mem_members
      (List.mem_of_mem_filter (List.mem_of_mem_filter hm))
    have hheading := sectionHeading_of_mem_constructors hm
    exact (meets_callableSection hr ⟨t, howner⟩ hheading).weaken fun _ => outlined_of_isSection
  change (if (r.constructors t).isEmpty then pure [] else
    concatEach r.callableSection (r.constructors t) >>= fun sections =>
      pure (heading 2 "Constructors" :: sections)).Meets _ _
  split
  · exact meets_pure Outlined.nil
  · refine (Meets.parts hsection).bind fun sections hsections => meets_pure ?_
    rw [List.map_eq_flatMap]
    exact (outlined_heading 2 "Constructors").append hsections

theorem meets_enumBody (hr : r.WellBuilt) (t : TypeSymbol) :
    (r.enumBody t).Meets r.MayRaise (Prose r.LinksTo) := by
  have hrow : ∀ m ∈ t.visible r.settings.render .field, (do
      let entry ← r.resolve (.member m)
      let text ← r.renderText (Entry.sectionOf? entry "summary") none
      pure (row [.text m.decl.name, .text text])).Meets r.MayRaise
        fun line => ∀ l ∈ linksOfParts line, r.LinksTo l.1 := by
    intro m hm
    have howner := TypeSymbol.owner_of_mem_members (TypeSymbol.mem_members_of_visible hm)
    refine (r.meets_resolve hr (s := .member m) ⟨t, howner⟩).bind fun entry hentry => ?_
    refine (meets_renderText hr (r.sources_sectionOf? hentry _) _).bind fun text _ => ?_
    exact meets_pure fun l hl => by simp [Node.links] at hl
  exact (Meets.each hrow).bind fun rows hrows => meets_pure (prose_table hrows)

/-- The headings in the body of a class, struct or interface. Of the members only the constructors
have sections there; the others are named in lists and tables. -/
def objectOutline (r : Renderer) (t : TypeSymbol) : List Node :=
  (if t.decl.inherits.isEmpty then [] else [heading 3 "Inherits"]) ++
  ((r.nameLists t).flatMap fun (title, members) =>
    if members.isEmpty then [] else [heading 3 title]) ++
  (if (r.constructors t).isEmpty then []
    else heading 2 "Constructors" :: (r.constructors t).map MemberSymbol.sectionHeading) ++
  [MemberKind.field, .property, .event, .method].flatMap (r.tableOutline t)

theorem mem_members_of_nameLists {list : String × List MemberSymbol} (hlist : list ∈ r.nameLists t) :
    ∀ m ∈ list.2, m ∈ t.members := by
  intro m hm
  simp only [nameLists, List.mem_cons, List.not_mem_nil, or_false] at hlist
  rcases hlist with rfl | rfl | rfl | rfl | rfl | rfl | rfl | rfl | rfl
  · exact mem_members_of_partition (List.mem_of_mem_filter hm)
  · exact mem_members_of_partition hm
  · exact mem_members_of_partition hm
  · exact mem_members_of_partition hm
  · exact mem_members_of_partition hm
  · exact mem_members_of_partition (List.mem_of_mem_filter hm)
  · exact mem_members_of_partition hm
  · exact mem_members_of_partition hm
  · exact mem_members_of_partition hm

theorem meets_objectBody (hr : r.WellBuilt) (ht : t ∈ r.catalog.types) :
    (r.objectBody t).Meets r.MayRaise (Outlined r.LinksTo (r.objectOutline t)) := by
  refine (meets_inheritsList hr t).bind fun inherits hinherits => ?_
  refine Meets.bind (Meets.parts fun list hlist =>
    meets_nameList ht list.1 (mem_members_of_nameLists hlist)) fun lists hlists => ?_
  refine (meets_constructorSections hr t).bind fun sections hsections => ?_
  refine Meets.bind (Meets.parts fun kind _ => meets_memberTables hr ht kind)
    fun tables htables => ?_
  exact meets_pure (((hinherits.append hlists).append hsections).append htables)

/-- The headings in the body of a type. -/
def bodyOutline (r : Renderer) (t : TypeSymbol) : List Node :=
  match t.decl.category with
  | .enumType | .delegateType => []
  | _ => r.objectOutline t

theorem meets_typeBody (hr : r.WellBuilt) (ht : t ∈ r.catalog.types) :
    (r.typeBody t).Meets r.MayRaise (Outlined r.LinksTo (r.bodyOutline t)) := by
  unfold typeBody bodyOutline
  cases t.decl.category with
  | enumType => exact meets_enumBody hr t
  | delegateType => exact meets_pure Outlined.nil
  | classType | structType | interfaceType => exact meets_objectBody hr ht

/-! ## Units -/

theorem meets_typeRow (hr : r.WellBuilt) (t : TypeSymbol) :
    (r.typeRow t).Meets r.MayRaise fun line => ∀ l ∈ linksOfParts line, r.LinksTo l.1 := by
  refine (meets_typeCell hr _).bind fun name hname => ?_
  refine (meets_summaryText hr (s := .type t) trivial).bind fun summary _ => ?_
  refine meets_pure fun l hl => ?_
  exact hname.links l (by simpa [Node.links] using hl)

/-- The heading of the table of a category, if it has types. -/
def categoryOutline (types : List TypeSymbol) (category : TypeCategory) : List Node :=
  if (types.filter fun t => t.decl.category = category).isEmpty then []
  else [heading 3 category.label]

theorem meets_categoryTable (hr : r.WellBuilt) (types : List TypeSymbol) (category : TypeCategory) :
    (r.categoryTable types category).Meets r.MayRaise
      (Outlined r.LinksTo (categoryOutline types category)) := by
  simp only [categoryTable, categoryOutline]
  split
  · exact meets_pure Outlined.nil
  · refine (Meets.each fun t _ => meets_typeRow hr t).bind fun rows hrows => meets_pure ?_
    exact (outlined_heading 3 _).append (prose_table hrows)

/-- The headings of the tables of a namespace. -/
def namespaceOutline (types : List TypeSymbol) (space : String) : List Node :=
  heading 2 space ::
    TypeCategory.all.flatMap (categoryOutline (types.filter fun t => t.decl.ref.space = space))

theorem meets_namespaceTables (hr : r.WellBuilt) (types : List TypeSymbol) (space : String) :
    (r.namespaceTables types space).Meets r.MayRaise
      (Outlined r.LinksTo (namespaceOutline types space)) := by
  refine Meets.bind (Meets.parts fun category _ => meets_categoryTable hr _ category)
    fun tables htables => meets_pure ?_
  exact (outlined_heading 2 space).append htables

end Renderer

/-! ## Pages -/

namespace Context

open Answer

variable {ctx : Context} {t : TypeSymbol}

/-- Where the links of the pages of a unit may lead. -/
def LinksFrom (ctx : Context) (unit : String) (target : String) : Prop :=
  target = unitPath unit ∨ ctx.LinksTo target

theorem meets_unitHeader (unit : String) (framework : Option String) :
    (Renderer.unitHeader unit framework).Meets ctx.MayRaise
      (Outlined (ctx.LinksFrom unit) [.heading 1 [.text unit]]) := by
  refine (meets_link unit (unitPath unit)).bind fun n hn => meets_pure ?_
  obtain ⟨index, rfl⟩ := hn
  refine ⟨rfl, fun l hl => .inl ?_⟩
  rw [List.mem_singleton.1 hl]

/-- The headings of the contents page of a unit: its visible types stand under their namespaces and
categories. -/
def contentsOutline (u : UnitSymbol) : List Node :=
  .heading 1 [.text u.name] ::
    (if u.decl.references.isEmpty then [] else [Renderer.heading 2 "Assembly Dependencies"]) ++
    (Renderer.namespaces u.visibleTypes).flatMap (Renderer.namespaceOutline u.visibleTypes)

theorem meets_unitPage (hctx : ctx.WellBuilt) (u : UnitSymbol) :
    (ctx.unitPage u).Meets ctx.MayRaise fun p =>
      Outlined (ctx.LinksFrom u.name) (contentsOutline u) p.blocks := by
  have hreferences : Outlined (ctx.LinksFrom u.name)
      (if u.decl.references.isEmpty then [] else [Renderer.heading 2 "Assembly Dependencies"])
      (Renderer.references u.decl) := by
    refine ⟨?_, by rw [Renderer.linksOf_references]; exact fun _ hl => nomatch hl⟩
    unfold Renderer.references
    split <;> rfl
  refine (Meets.page ?_).weaken fun p hp => hp.2
  refine (meets_unitHeader u.name _).bind fun header hheader => ?_
  refine Meets.bind (Renderer.Meets.parts fun space _ =>
    Renderer.meets_namespaceTables (r := { ctx with }) hctx _ space) fun tables htables => ?_
  exact meets_pure ((hheader.append hreferences).append (htables.mono fun _ => .inr))

/-- The headings of the page of a type. -/
def typeOutline (ctx : Context) (t : TypeSymbol) : List Node :=
  .heading 1 [.text (t.unit.getD "")] ::
    Renderer.heading 2 (t.displayName ++ " (" ++ t.decl.category.label ++ ")") ::
    Renderer.bodyOutline { ctx with current := some t } t

/-- The line of a page that leads to the namespace of a type. -/
theorem outlined_namespace {unit space : String} {n : Node}
    (hn : ∃ index, n = .link space (unitPath unit) index) :
    Prose (ctx.LinksFrom unit) [n] := by
  obtain ⟨index, rfl⟩ := hn
  exact Outlined.link (.inl rfl)

theorem meets_typePage (hctx : ctx.WellBuilt) (ht : t ∈ ctx.catalog.types) :
    (ctx.typePage t).Meets ctx.MayRaise fun p =>
      Outlined (ctx.LinksFrom (t.unit.getD "")) (ctx.typeOutline t) p.blocks := by
  refine (Meets.page ?_).weaken fun p hp => hp.2
  refine (meets_unitHeader _ _).bind fun header hheader => ?_
  refine (meets_link _ _).bind fun space hspace => ?_
  let r : Renderer := { ctx with current := some t }
  have hr : r.WellBuilt := hctx
  have hown : (Symbol.type t).Owned := trivial
  refine (Renderer.meets_sectionBlocks hr hown "summary").bind fun summary hsummary => ?_
  refine (Renderer.meets_paragraphs hr hown).bind fun more hmore => ?_
  refine (Renderer.meets_typeBody hr ht).bind fun body hbody => meets_pure ?_
  have hquote : Prose (ctx.LinksFrom (t.unit.getD ""))
      [.quote [.bold "Namespace", .text ": ", space]] :=
    Renderer.prose_quote [.bold "Namespace", .text ": "] rfl (outlined_namespace hspace) rfl
  have hprose : ∀ {f}, Prose r.LinksTo f → Prose (ctx.LinksFrom (t.unit.getD "")) f :=
    fun hf => hf.mono fun _ => .inr
  have hhead := (hheader.append (Renderer.outlined_heading 2
    (t.displayName ++ " (" ++ t.decl.category.label ++ ")"))).append hquote
  have hdeclared := ((hhead.append (hprose hsummary)).append (Renderer.prose_codeLine r
    (t.decl.declaration t.decl.inherits))).append (Renderer.prose_badges r t.decl.attributes)
  simpa [typeOutline] using (hdeclared.append (hprose hmore)).append (hbody.mono fun _ => .inr)

/-- A head with a title, and then one section for each member, with dividers between. -/
def Presents (ctx : Context) (owner : TypeSymbol) (title : String) (members : List MemberSymbol)
    (blocks : List Node) : Prop :=
  ∃ head sections, blocks = head ++ (sections.intersperse [.divider]).flatten ∧
    Outlined (ctx.LinksFrom (owner.unit.getD ""))
      [.heading 1 [.text (owner.unit.getD "")], .heading 2 [.text title]] head ∧
    List.Forall₂ ctx.IsSection members sections

/-- Dividers between sections add nothing to their outline. -/
theorem outlined_dividedSections {members : List MemberSymbol} {sections : List Fragment}
    (h : List.Forall₂ ctx.IsSection members sections) :
    Outlined ctx.LinksTo (members.map MemberSymbol.sectionHeading)
      (sections.intersperse [.divider]).flatten := by
  induction h with
  | nil => exact Outlined.nil
  | cons hfirst hrest ih =>
    have hsection := Renderer.outlined_of_isSection hfirst
    cases hrest with
    | nil => simpa using hsection
    | cons hsecond hrest =>
      have hdivider : Prose ctx.LinksTo [.divider] := Outlined.bare rfl rfl
      simpa [List.intersperse] using (hsection.append hdivider).append ih

/-- The headings of a page of members are those of its head and one for each member. -/
theorem Presents.outlined {owner : TypeSymbol} {title : String} {members : List MemberSymbol}
    {blocks : List Node} (h : ctx.Presents owner title members blocks) :
    Outlined (ctx.LinksFrom (owner.unit.getD "")) (.heading 1 [.text (owner.unit.getD "")] ::
      .heading 2 [.text title] :: members.map MemberSymbol.sectionHeading) blocks := by
  obtain ⟨head, sections, rfl, hhead, hsections⟩ := h
  exact hhead.append ((outlined_dividedSections hsections).mono fun _ => .inr)

theorem meets_ownedPage (hctx : ctx.WellBuilt) (kind : String) {first : MemberSymbol}
    {others : List MemberSymbol} (hmembers : ∀ m ∈ first :: others, (Symbol.member m).Owned) :
    (ctx.ownedPage t kind first others).Meets ctx.MayRaise fun p =>
      ctx.Presents t p.title (first :: others) p.blocks := by
  let r : Renderer := { ctx with current := some t }
  have hr : r.WellBuilt := hctx
  refine (Meets.page ?_).weaken fun p hp => hp.1 ▸ hp.2
  refine (meets_unitHeader _ _).bind fun header hheader => ?_
  refine (meets_link _ _).bind fun space hspace => ?_
  refine (Renderer.meets_typeCell hr _).bind fun declaring hdeclaring => ?_
  refine (Renderer.meets_dividedSections hr hmembers).bind fun blocks hblocks => ?_
  obtain ⟨sections, rfl, hsections⟩ := hblocks
  refine meets_pure ⟨_, sections, rfl, ?_, hsections⟩
  refine hheader.append ((Renderer.outlined_heading 2 _).append ?_)
  refine Outlined.single rfl fun l hl => ?_
  have hcells : l ∈ space.links ∨ l ∈ declaring.links := by simpa [Node.links] using hl
  refine hcells.elim (fun h => ?_) fun h => ?_
  · exact (outlined_namespace hspace).links l (by simpa using h)
  · exact .inr (hdeclaring.links l (by simpa using h))

theorem each_asMember (members : List MemberSymbol) :
    each asMember (members.map .member) = pure members := by
  induction members with
  | nil => rfl
  | cons m members ih =>
    rw [List.map_cons, each, ih]
    rfl

/-- Members of one type go together on a page. -/
theorem meets_memberPage (hctx : ctx.WellBuilt) {group : List MemberSymbol} (hne : group ≠ [])
    (hgroup : ∀ m ∈ group, m ∈ t.members) :
    (ctx.memberPage (group.map .member)).Meets ctx.MayRaise fun p =>
      ctx.Presents t p.title group p.blocks := by
  have howner : ∀ m ∈ group, m.owner = some t :=
    fun m hm => TypeSymbol.owner_of_mem_members (hgroup m hm)
  cases group with
  | nil => exact absurd rfl hne
  | cons first rest =>
    obtain ⟨hfirst, hrest⟩ := List.forall_mem_cons.1 howner
    have hdeclared : (rest.all fun m => m.isDeclaredOn t) = true := by
      refine List.all_eq_true.2 fun m hm => ?_
      simp [MemberSymbol.isDeclaredOn, hrest m hm]
    have hpage : ctx.memberPage ((first :: rest).map .member) =
        first.decl.kind?.elim (throw .notApplicable) fun kind =>
          ctx.ownedPage t kind.label first rest := by
      simp only [List.map_cons, memberPage, asMember, pure_bind, hfirst, each_asMember, hdeclared,
        if_true]
      cases first.decl.kind? <;> rfl
    rw [hpage]
    cases first.decl.kind? with
    | none => exact meets_throw (.inl rfl)
    | some kind => exact meets_ownedPage hctx _ fun m hm => ⟨t, howner m hm⟩

end Context

end ApiDoc
