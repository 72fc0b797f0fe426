import Mathlib
import ApiDoc.Page.Unit
import ApiDoc.Proofs.MarkupLinks

/-!
# Links of pages

Every part of a page adds its links in the order in which they stand in it, so the link table of a
page and the links in its blocks agree (`items_page`): the table holds the targets in order of first
occurrence, numbered from zero, and each link bears the number of its target. Parts that are asked
for their texts only, summaries and heads of tables, link to nothing.
-/

namespace ApiDoc

open Document (Node Page linksOf linksOfParts linksOfRows linksOf_eq_flatMap
  linksOfRows_eq_flatMap linksOf_intersperse linksOfParts_intersperse linksOf_flatten
  linksOf_blocksOf)

namespace Renderer

open Answer

/-! ## Parts without links -/

@[simp] theorem linksOf_badges (r : Renderer) (attributes : List String) :
    linksOf (r.badges attributes) = [] := by
  have hbadges : ∀ shown : List String, linksOf (shown.map Node.badge) = [] := by
    intro shown
    induction shown with
    | nil => rfl
    | cons s shown ih => simp [ih, Node.links]
  simp only [badges]
  split
  · rfl
  · simp [Node.links, hbadges]

@[simp] theorem links_codeLine (r : Renderer) (declaration : String) :
    (r.codeLine declaration).links = [] := rfl

@[simp] theorem links_heading (level : Nat) (title : String) :
    (heading level title).links = [] := rfl

@[simp] theorem linksOf_references (u : MetadataUnit) : linksOf (references u) = [] := by
  have hnames : ∀ names : List String, linksOfParts (names.map ([Node.text ·])) = [] := by
    intro names
    induction names with
    | nil => rfl
    | cons s names ih => simp [ih, Node.links]
  unfold references
  split
  · rfl
  · simp [Node.links, hnames]

theorem notes_summaryText (r : Renderer) (s : Symbol) :
    (r.summaryText s).Notes fun _ => True :=
  (r.notes_resolve s).bind fun _ => (r.logs_renderText _ _).mono fun _ _ => trivial

/-! ## Cells -/

@[simp] theorem linksOfParts_row (cells : List Node) :
    linksOfParts (row cells) = linksOf cells := by
  induction cells with
  | nil => rfl
  | cons n cells ih => simpa [row] using ih

@[simp] theorem links_commaList (cells : List Node) : (commaList cells).links = linksOf cells :=
  linksOf_intersperse rfl cells

theorem adds_nameCell (r : Renderer) (name : String) (s : Symbol) :
    (r.nameCell name s).Adds Node.links := by
  intro before
  refine (r.quiet_isIndexed _).links.bind fun indexed => ?_
  split
  · exact (links_ofExcept _).bind fun path => adds_link _ _ _
  · exact links_pure (by simp [Node.links])

theorem adds_typeCell (r : Renderer) (ref : TypeRef) : (r.typeCell ref).Adds Node.links := by
  unfold typeCell
  split
  · exact r.adds_nameCell _ _
  · exact adds_pure rfl

theorem adds_memberCell (r : Renderer) (m : MemberSymbol) (text : Option String) :
    (r.memberCell m text).Adds Node.links := r.adds_nameCell _ _

/-- The cells of a list, each of which adds its own link. -/
theorem adds_cells {α : Type} {cell : α → Answer Node} (hcell : ∀ x, (cell x).Adds Node.links)
    (items : List α) : (each cell items).Adds linksOf := by
  simpa only [← linksOf_eq_flatMap] using Adds.each fun x _ => hcell x

/-- The rows of a table, each of which adds the links of its cells. -/
theorem adds_rows {α : Type} {line : α → Answer (List (List Node))}
    (hline : ∀ x, (line x).Adds linksOfParts) (items : List α) :
    (each line items).Adds linksOfRows := by
  simpa only [← linksOfRows_eq_flatMap] using Adds.each fun x _ => hline x

/-- Parts of a page that stand one after the other. -/
theorem adds_parts {α : Type} {part : α → Answer (List Node)} (hpart : ∀ x, (part x).Adds linksOf)
    (items : List α) : (concatEach part items).Adds linksOf := by
  refine Adds.concatEach (fun x _ => hpart x) fun parts => ?_
  rw [linksOf_flatten, Document.linksOfParts_eq_flatMap]

theorem adds_nothing : (pure [] : Answer (List Node)).Adds linksOf := adds_pure rfl

theorem adds_unitHeader (unit : String) (framework : Option String) :
    (unitHeader unit framework).Adds linksOf :=
  (adds_link _ _).map fun n => by simp [Node.links]

/-! ## Documentation -/

theorem adds_sectionBlocks (r : Renderer) (s : Symbol) (tag : String) :
    (r.sectionBlocks s tag).Adds linksOf :=
  fun _ => (r.notes_resolve s).links.bind fun _ =>
    (r.adds_render _).map linksOf_blocksOf _

theorem adds_paragraphs (r : Renderer) (s : Symbol) : (r.paragraphs s).Adds linksOf := by
  intro before
  refine (r.adds_sectionBlocks s _).bind fun remarks => ?_
  refine (r.adds_sectionBlocks s _).bind fun examples => ?_
  exact links_pure (by simp)

/-! ## Members -/

theorem adds_parameterTable (r : Renderer) (entry : Option Xml.Node) (parameters : List Parameter) :
    (r.parameterTable entry parameters).Adds linksOf := by
  unfold parameterTable
  split
  · exact adds_pure rfl
  · refine Adds.map (adds_rows (fun p before => ?_) parameters) fun rows => by simp [Node.links]
    refine (r.adds_typeCell _).bind fun type => (r.logs_renderText _ _).links.bind fun text => ?_
    exact links_pure (by simp [Node.links])

theorem adds_returnQuote (r : Renderer) (entry : Option Xml.Node) (type : TypeRef) :
    (r.returnQuote entry type).Adds linksOf := by
  intro before
  refine (r.adds_typeCell _).bind fun cell => (r.logs_renderText _ _).links.bind fun text => ?_
  refine links_pure ?_
  split <;> simp [Node.links]

theorem adds_parameterSummary (r : Renderer) (m : MemberSymbol) :
    (r.parameterSummary m).Adds linksOf := by
  intro before
  refine (r.notes_resolve _).links.bind fun entry => ?_
  refine (r.adds_parameterTable _ _).bind fun table => ?_
  have hmore : ∀ returns : List Node, Links (before ++ linksOf table ++ linksOf returns)
      (pure (table ++ returns)) fun x => before ++ linksOf x :=
    fun returns => links_pure (by simp)
  split
  · exact (r.adds_returnQuote _ _).bind hmore
  · exact adds_nothing.bind hmore

theorem adds_callableSection (r : Renderer) (m : MemberSymbol) :
    (r.callableSection m).Adds linksOf := by
  intro before
  refine (r.adds_sectionBlocks _ _).bind fun summary => ?_
  refine (r.adds_parameterSummary m).bind fun parameters => ?_
  refine (r.adds_paragraphs _).bind fun more => ?_
  exact links_pure (by simp [Node.links])

theorem adds_fieldSection (r : Renderer) (m : MemberSymbol) (f : Field) :
    (r.fieldSection m f).Adds linksOf := by
  intro before
  refine (r.adds_sectionBlocks _ _).bind fun summary => ?_
  refine (r.adds_paragraphs _).bind fun more => ?_
  exact links_pure (by simp [Node.links])

theorem adds_propertySection (r : Renderer) (m : MemberSymbol) (p : Property) :
    (r.propertySection m p).Adds linksOf := by
  intro before
  refine (r.adds_sectionBlocks _ _).bind fun summary => ?_
  have hmore : ∀ returns : List Node, Links (before ++ linksOf summary ++ linksOf returns) (do
      let more ← r.paragraphs (.member m)
      pure ([.heading 3 [.text m.displayName]] ++ summary ++ [r.codeLine m.declaration] ++ returns
        ++ r.badges p.attributes ++ more)) fun x => before ++ linksOf x :=
    fun returns => (r.adds_paragraphs _).bind fun more => links_pure (by simp [Node.links])
  split
  · refine (r.adds_typeCell _).bind fun cell => Links.bind (links_pure ?_) hmore
    simp [Node.links]
  · exact adds_nothing.bind hmore

theorem adds_eventSection (r : Renderer) (m : MemberSymbol) (e : ApiDoc.Event) :
    (r.eventSection m e).Adds linksOf := by
  intro before
  refine (r.adds_sectionBlocks _ _).bind fun summary => ?_
  refine (r.adds_paragraphs _).bind fun more => ?_
  exact links_pure (by simp [Node.links])

theorem adds_memberSection (r : Renderer) (m : MemberSymbol) :
    (r.memberSection m).Adds linksOf := by
  unfold memberSection
  split
  · exact r.adds_fieldSection _ _
  · exact r.adds_propertySection _ _
  · exact r.adds_eventSection _ _
  · exact r.adds_callableSection _
  · exact r.adds_callableSection _
  · exact fun _ => links_throw _
  · exact fun _ => links_throw _

theorem adds_dividedSections (r : Renderer) (members : List MemberSymbol) :
    (Context.dividedSections r members).Adds linksOf := by
  refine (Adds.each fun m _ => r.adds_memberSection m).map fun sections => ?_
  rw [linksOf_flatten, linksOfParts_intersperse rfl, Document.linksOfParts_eq_flatMap]

/-! ## Types -/

theorem adds_nameList (r : Renderer) (title : String) (members : List MemberSymbol) :
    (r.nameList title members).Adds linksOf := by
  unfold nameList
  split
  · exact adds_nothing
  · exact (adds_cells (fun m => r.adds_memberCell m none) _).map fun cells => by simp

theorem adds_memberRow (r : Renderer) (m : MemberSymbol) : (r.memberRow m).Adds linksOfParts := by
  intro before
  refine (r.adds_memberCell _ _).bind fun name => (r.adds_typeCell _).bind fun type => ?_
  refine (r.notes_summaryText _).links.bind fun summary => ?_
  exact links_pure (by simp [Node.links])

theorem adds_memberTables (r : Renderer) (t : TypeSymbol) (kind : MemberKind) :
    (r.memberTables t kind).Adds linksOf := by
  have htable : ∀ (members : List MemberSymbol) (heads : List String), (do
      let rows ← each r.memberRow members
      pure [Node.table heads rows]).Adds linksOf :=
    fun members heads => (adds_rows r.adds_memberRow members).map fun rows => by simp [Node.links]
  simp only [memberTables]
  split
  · exact adds_nothing
  · intro before
    have hlast : ∀ first second : List Node, Links (before ++ linksOf first ++ linksOf second)
        (pure (heading 2 (tableTitles kind).1 :: first ++ second))
        fun x => before ++ linksOf x :=
      fun first second => links_pure (by simp)
    -- `lone` says that there are no instance members, whose table would stand before
    have hsecond : ∀ (lone : Bool) (first : List Node), Links (before ++ linksOf first) (do
        let second ← if (r.partition t kind true).isEmpty then pure [] else do
          let blocks ← each r.memberRow (r.partition t kind true) >>= fun rows =>
            pure [Node.table ["Name", (tableTitles kind).2, "Summary"] rows]
          pure (if lone then blocks else heading 4 "Static" :: blocks)
        pure (heading 2 (tableTitles kind).1 :: first ++ second)) fun x => before ++ linksOf x := by
      intro lone first
      split
      · exact adds_nothing.bind (hlast first)
      · refine (htable _ _).bind fun blocks => Links.bind (links_pure ?_) (hlast first)
        split <;> simp
    split
    · exact adds_nothing.bind (hsecond true)
    · refine (htable _ _).bind fun blocks => Links.bind (links_pure ?_) (hsecond false)
      simp

theorem adds_inheritsList (r : Renderer) (t : TypeSymbol) : (r.inheritsList t).Adds linksOf := by
  unfold inheritsList
  split
  · exact adds_nothing
  · exact (adds_cells r.adds_typeCell _).map fun cells => by simp

theorem adds_constructorSections (r : Renderer) (t : TypeSymbol) :
    (r.constructorSections t).Adds linksOf := by
  simp only [constructorSections]
  split
  · exact adds_nothing
  · exact (adds_parts r.adds_callableSection _).map fun sections => by simp

theorem adds_enumBody (r : Renderer) (t : TypeSymbol) : (r.enumBody t).Adds linksOf := by
  refine Adds.map (adds_rows (fun m before => ?_) _) fun rows => by simp [Node.links]
  refine (r.notes_resolve _).links.bind fun entry => ?_
  refine (r.logs_renderText _ _).links.bind fun text => ?_
  exact links_pure (by simp [Node.links])

theorem adds_objectBody (r : Renderer) (t : TypeSymbol) : (r.objectBody t).Adds linksOf := by
  intro before
  refine (r.adds_inheritsList t).bind fun inherits => ?_
  refine (adds_parts (fun list => r.adds_nameList _ _) _).bind fun lists => ?_
  refine (r.adds_constructorSections t).bind fun constructors => ?_
  refine (adds_parts (r.adds_memberTables t) _).bind fun tables => ?_
  exact links_pure (by simp)

theorem adds_typeBody (r : Renderer) (t : TypeSymbol) : (r.typeBody t).Adds linksOf := by
  unfold typeBody
  split
  · exact r.adds_enumBody t
  · exact adds_nothing
  · exact r.adds_objectBody t

/-! ## Units -/

theorem adds_typeRow (r : Renderer) (t : TypeSymbol) : (r.typeRow t).Adds linksOfParts := by
  intro before
  refine (r.adds_typeCell _).bind fun name => (r.notes_summaryText _).links.bind fun summary => ?_
  exact links_pure (by simp [Node.links])

theorem adds_categoryTable (r : Renderer) (types : List TypeSymbol) (category : TypeCategory) :
    (r.categoryTable types category).Adds linksOf := by
  simp only [categoryTable]
  split
  · exact adds_nothing
  · exact (adds_rows r.adds_typeRow _).map fun rows => by simp [Node.links]

theorem adds_namespaceTables (r : Renderer) (types : List TypeSymbol) (space : String) :
    (r.namespaceTables types space).Adds linksOf :=
  (adds_parts (r.adds_categoryTable _) _).map fun tables => by simp

end Renderer

/-! ## Pages -/

namespace Context

open Answer

variable {ctx : Context}

variable {title : String} {body : Answer (List Node)} {j j' : Journal} {p : Page}

/-- A page numbers the links of its blocks if its body adds them. -/
theorem numbers_of_page (hbody : body.Adds linksOf)
    (h : (Answer.page title body).result j = (.ok p, j')) : p.links.Numbers (linksOf p.blocks) := by
  rw [result_page] at h
  split at h
  next blocks j₁ hresult =>
    cases h
    exact hbody [] _ _ _ Document.LinkTable.numbers_empty hresult
  next => cases h

theorem numbers_of_unitPage {u : UnitSymbol} (h : (ctx.unitPage u).result j = (.ok p, j')) :
    p.links.Numbers (linksOf p.blocks) := by
  refine numbers_of_page (fun before => ?_) h
  refine (Renderer.adds_unitHeader _ _).bind fun header => ?_
  refine (Renderer.adds_parts (Renderer.adds_namespaceTables _ _) _).bind fun tables => ?_
  exact links_pure (by simp)

theorem numbers_of_typePage {t : TypeSymbol} (h : (ctx.typePage t).result j = (.ok p, j')) :
    p.links.Numbers (linksOf p.blocks) := by
  refine numbers_of_page (fun before => ?_) h
  refine (Renderer.adds_unitHeader _ _).bind fun header => (adds_link _ _).bind fun space => ?_
  refine (Renderer.adds_sectionBlocks _ _ _).bind fun summary => ?_
  refine (Renderer.adds_paragraphs _ _).bind fun more => ?_
  refine (Renderer.adds_typeBody _ t).bind fun body => ?_
  exact links_pure (by simp [Node.links])

theorem numbers_of_ownedPage {owner : TypeSymbol} {kind : String} {first : MemberSymbol}
    {others : List MemberSymbol}
    (h : (ctx.ownedPage owner kind first others).result j = (.ok p, j')) :
    p.links.Numbers (linksOf p.blocks) := by
  refine numbers_of_page (fun before => ?_) h
  refine (Renderer.adds_unitHeader _ _).bind fun header => (adds_link _ _).bind fun space => ?_
  refine (Renderer.adds_typeCell _ _).bind fun declaring => ?_
  refine (Renderer.adds_dividedSections _ _).bind fun sections => ?_
  exact links_pure (by simp [Node.links])

theorem numbers_of_memberPage {symbols : List Symbol}
    (h : (ctx.memberPage symbols).result j = (.ok p, j')) :
    p.links.Numbers (linksOf p.blocks) := by
  cases symbols with
  | nil => cases h
  | cons s rest =>
    rw [memberPage] at h
    obtain ⟨first, j₁, -, h⟩ := result_bind_eq_ok.1 h
    split at h
    next => cases h
    next owner howner =>
      obtain ⟨others, j₂, -, h⟩ := result_bind_eq_ok.1 h
      split at h
      next hall =>
        split at h
        next kind hkind => exact numbers_of_ownedPage h
        next => cases h
      next => cases h

/-- The pages that can be written: the contents page of a unit, the page of a type, and that of
members. -/
inductive WritesPage (ctx : Context) : Answer Page → Prop
  | unit (u : UnitSymbol) : WritesPage ctx (ctx.unitPage u)
  | type (t : TypeSymbol) : WritesPage ctx (ctx.typePage t)
  | members (symbols : List Symbol) : WritesPage ctx (ctx.memberPage symbols)

/-- The link table of a page holds the targets of the links in its blocks, each once and in order
of first occurrence, and each link bears the number of its target. -/
theorem items_links_of_writesPage {a : Answer Page} (ha : ctx.WritesPage a)
    (h : a.result j = (.ok p, j')) :
    p.links.items = ((linksOf p.blocks).map Prod.fst).eraseDups.zipIdx ∧
      ∀ l ∈ linksOf p.blocks, l ∈ p.links.items := by
  have hnumbers : p.links.Numbers (linksOf p.blocks) := by
    cases ha with
    | unit u => exact numbers_of_unitPage h
    | type t => exact numbers_of_typePage h
    | members symbols => exact numbers_of_memberPage h
  obtain ⟨htargets, hlinks⟩ := hnumbers
  exact ⟨by rw [Document.LinkTable.items, htargets], hlinks⟩

/-- The entry of a delegate, which names two outside pages, one of them twice. -/
def signpostEntry : Xml.Node :=
  let see (target : String) : Xml.Node :=
    .element (.plain "see") [(.plain "href", target)] []
  .element (.plain "member") []
    [.element (.plain "summary") [] [see "far", see "near", .text " and ", see "far"]]

/-- The delegate `Walk` of the unit `Zoo`. -/
def signpostType : TypeSymbol :=
  { address := { root := .declared 0 0 }, unit := "Zoo"
    decl := { ref := .named "Zoo" "Walk" [] none, category := .delegateType } }

/-- A unit whose only type is the delegate. -/
def signpost : Context :=
  { catalog := { units := [{ name := "Zoo", types := [signpostType.decl] }] }
    hierarchy := {}
    outcomes := [("Zoo", .ok (.ready [("T:Zoo.Walk", signpostEntry)] 0))] }

theorem items_links_of_writesPage_signpost :
    ∃ p j', (signpost.typePage signpostType).result {} = (.ok p, j') ∧
      linksOf p.blocks = [("Zoo", 0), ("Zoo", 0), ("far", 1), ("near", 2), ("far", 1)] ∧
      p.links.items = [("Zoo", 0), ("far", 1), ("near", 2)] := by
  have hblocks : ((signpost.typePage signpostType).result {}).1.map (fun p => linksOf p.blocks) =
      .ok [("Zoo", 0), ("Zoo", 0), ("far", 1), ("near", 2), ("far", 1)] := by cbv
  obtain ⟨p, hp, hl⟩ := map_eq_ok.1 hblocks
  have hresult : (signpost.typePage signpostType).result {} = (.ok p, _) := Prod.ext hp rfl
  have hitems := (items_links_of_writesPage (.type signpostType) hresult).1
  rw [hl] at hitems
  exact ⟨p, _, hresult, hl, hitems⟩

end Context

end ApiDoc
