import ApiDoc.Proofs.MarkupTables
import ApiDoc.Proofs.PageBlocks
import ApiDoc.Proofs.PageLinks

/-!
# Tables of pages

Every table of a page is regular, whether a part of the page builds it row by row or the
documentation that stands there is rendered to it (`Context.regular_of_outputs`). The rows that
pages build have one inline node in each cell (`isRegularRow_row`), and as many cells as there are
heads above them.
-/

namespace ApiDoc

open Document (Node Page Fragment IsLine IsRegularRow Tabular nodesOf tabular_nil tabular_append
  tabular_cons tabular_of_isInline tabular_heading tabular_paragraph tabular_quote tabular_table)

namespace Renderer

open Answer

/-! ## Cells -/

theorem isRegularRow_row {cells : List Node} (h : IsLine cells) :
    IsRegularRow cells.length (row cells) := by
  refine ⟨List.length_map _, fun cell hcell => ?_⟩
  obtain ⟨n, hn, rfl⟩ := List.mem_map.1 hcell
  exact List.forall_mem_singleton.2 (h n hn)

theorem gives_nameCell (r : Renderer) (name : String) (s : Symbol) :
    (r.nameCell name s).Gives fun n => n.isInline = true := r.gives_linkOf _ s name name

theorem gives_typeCell (r : Renderer) (ref : TypeRef) :
    (r.typeCell ref).Gives fun n => n.isInline = true := by
  unfold typeCell
  split
  · exact r.gives_nameCell _ _
  · exact meets_pure rfl

theorem gives_memberCell (r : Renderer) (m : MemberSymbol) (text : Option String) :
    (r.memberCell m text).Gives fun n => n.isInline = true := r.gives_nameCell _ _

/-- A table whose rows are built one by one. -/
theorem gives_table {α : Type} {line : α → Answer (List Fragment)} (heads : List String)
    (hline : ∀ x, (line x).Gives (IsRegularRow heads.length)) (items : List α) : (do
      let rows ← each line items
      pure [Node.table heads rows]).Gives Tabular :=
  (gives_each hline items).bind fun _ hrows => meets_pure (tabular_table.2 hrows)

/-- Parts of a page that stand one after the other. -/
theorem gives_parts {α : Type} {part : α → Answer (List Node)}
    (hpart : ∀ x, (part x).Gives Tabular) (items : List α) :
    (concatEach part items).Gives Tabular :=
  (gives_each hpart items).bind fun _ hparts => meets_pure (Document.tabular_flatten hparts)

/-! ## Parts without tables -/

theorem tabular_badges (r : Renderer) (attributes : List String) :
    Tabular (r.badges attributes) := by
  simp only [badges]
  split
  · exact tabular_nil
  · refine tabular_paragraph.2 (IsLine.tabular fun n hn => ?_)
    obtain ⟨s, -, rfl⟩ := List.mem_map.1 hn
    rfl

theorem tabular_references (u : MetadataUnit) : Tabular (references u) := by
  unfold references
  split
  · exact tabular_nil
  · refine tabular_cons.2 ⟨tabular_heading.2 (tabular_of_isInline rfl), ?_⟩
    refine Document.tabular_bullets.2 fun item hitem => ?_
    obtain ⟨s, -, rfl⟩ := List.mem_map.1 hitem
    exact tabular_of_isInline rfl

/-- Texts and the like in a block of their own. -/
theorem tabular_codeLine (r : Renderer) (s : String) : Tabular [r.codeLine s] :=
  Document.tabular_codeBlock _ _

theorem tabular_title (level : Nat) (s : String) : Tabular [.heading level [.text s]] :=
  tabular_heading.2 (tabular_of_isInline rfl)

theorem tabular_commaList {cells : List Node} (h : IsLine cells) : Tabular [commaList cells] :=
  tabular_paragraph.2 (IsLine.tabular (forall_mem_intersperse rfl h))

theorem gives_nothing : (pure [] : Answer (List Node)).Gives Tabular := meets_pure tabular_nil

theorem gives_unitHeader (unit : String) (framework : Option String) :
    (unitHeader unit framework).Gives Tabular := by
  refine (gives_link _ _).bind fun n hn => meets_pure ?_
  refine tabular_cons.2 ⟨tabular_title _ _, tabular_quote.2 (IsLine.tabular ?_)⟩
  simp [IsLine, hn]

/-! ## Documentation -/

theorem gives_sectionBlocks (r : Renderer) (s : Symbol) (tag : String) :
    (r.sectionBlocks s tag).Gives Tabular :=
  (gives_true _).bind fun _ _ => (r.gives_render _ _).bind fun _ hf => meets_pure hf.blocksOf

theorem gives_paragraphs (r : Renderer) (s : Symbol) : (r.paragraphs s).Gives Tabular :=
  (r.gives_sectionBlocks s _).bind fun _ hremarks => (r.gives_sectionBlocks s _).bind
    fun _ hexamples => meets_pure (tabular_append.2 ⟨hremarks, hexamples⟩)

/-! ## Members -/

theorem gives_parameterTable (r : Renderer) (entry : Option Xml.Node) (parameters : List Parameter) :
    (r.parameterTable entry parameters).Gives Tabular := by
  unfold parameterTable
  refine Meets.ite (fun _ => gives_nothing) fun _ => gives_table _ (fun p => ?_) parameters
  refine (r.gives_typeCell _).bind fun type htype => (gives_true _).bind fun text _ => ?_
  exact meets_pure (isRegularRow_row (by simp [IsLine, htype]))

theorem gives_returnQuote (r : Renderer) (entry : Option Xml.Node) (type : TypeRef) :
    (r.returnQuote entry type).Gives Tabular := by
  refine (r.gives_typeCell _).bind fun cell hcell => (gives_true _).bind fun text _ => ?_
  refine meets_pure (tabular_quote.2 (IsLine.tabular ?_))
  split <;> simp [IsLine, hcell]

theorem gives_parameterSummary (r : Renderer) (m : MemberSymbol) :
    (r.parameterSummary m).Gives Tabular := by
  refine (gives_true _).bind fun entry _ => ?_
  refine (r.gives_parameterTable _ _).bind fun table htable => ?_
  have hmore : ∀ returns : List Node, Tabular returns →
      (pure (table ++ returns) : Answer (List Node)).Gives Tabular :=
    fun returns hreturns => meets_pure (tabular_append.2 ⟨htable, hreturns⟩)
  split
  · exact (r.gives_returnQuote _ _).bind hmore
  · exact gives_nothing.bind hmore

theorem gives_callableSection (r : Renderer) (m : MemberSymbol) :
    (r.callableSection m).Gives Tabular := by
  refine (r.gives_sectionBlocks _ _).bind fun summary hsummary => ?_
  refine (r.gives_parameterSummary m).bind fun parameters hparameters => ?_
  refine (r.gives_paragraphs _).bind fun more hmore => meets_pure ?_
  simp only [tabular_append]
  exact ⟨⟨⟨⟨⟨tabular_title _ _, hsummary⟩, r.tabular_codeLine _⟩, r.tabular_badges _⟩, hparameters⟩,
    hmore⟩

theorem gives_fieldSection (r : Renderer) (m : MemberSymbol) (f : Field) :
    (r.fieldSection m f).Gives Tabular := by
  refine (r.gives_sectionBlocks _ _).bind fun summary hsummary => ?_
  refine (r.gives_paragraphs _).bind fun more hmore => meets_pure ?_
  simp only [tabular_append]
  exact ⟨⟨⟨⟨tabular_title _ _, hsummary⟩, r.tabular_codeLine _⟩, r.tabular_badges _⟩, hmore⟩

theorem gives_propertySection (r : Renderer) (m : MemberSymbol) (p : Property) :
    (r.propertySection m p).Gives Tabular := by
  refine (r.gives_sectionBlocks _ _).bind fun summary hsummary => ?_
  have hmore : ∀ returns : List Node, Tabular returns → (do
      let more ← r.paragraphs (.member m)
      pure ([Node.heading 3 [.text m.displayName]] ++ summary ++ [r.codeLine m.declaration] ++ returns
        ++ r.badges p.attributes ++ more)).Gives Tabular := by
    refine fun returns hreturns => (r.gives_paragraphs _).bind fun more hmore => meets_pure ?_
    simp only [tabular_append]
    exact ⟨⟨⟨⟨⟨tabular_title _ _, hsummary⟩, r.tabular_codeLine _⟩, hreturns⟩, r.tabular_badges _⟩,
      hmore⟩
  refine Meets.ite (fun _ => ?_) fun _ => gives_nothing.bind hmore
  refine (r.gives_typeCell _).bind fun cell hcell => Meets.bind (meets_pure ?_) hmore
  exact tabular_quote.2 (IsLine.tabular (by simp [IsLine, hcell]))

theorem gives_eventSection (r : Renderer) (m : MemberSymbol) (e : ApiDoc.Event) :
    (r.eventSection m e).Gives Tabular := by
  refine (r.gives_sectionBlocks _ _).bind fun summary hsummary => ?_
  refine (r.gives_paragraphs _).bind fun more hmore => meets_pure ?_
  simp only [tabular_append]
  refine ⟨⟨⟨⟨⟨tabular_title _ _, hsummary⟩, r.tabular_codeLine _⟩, r.tabular_badges _⟩, ?_⟩, hmore⟩
  exact tabular_paragraph.2 (IsLine.tabular (by simp [IsLine]))

theorem gives_memberSection (r : Renderer) (m : MemberSymbol) :
    (r.memberSection m).Gives Tabular := by
  unfold memberSection
  split
  · exact r.gives_fieldSection _ _
  · exact r.gives_propertySection _ _
  · exact r.gives_eventSection _ _
  · exact r.gives_callableSection _
  · exact r.gives_callableSection _
  · exact meets_throw trivial
  · exact meets_throw trivial

theorem gives_symbolSection (r : Renderer) (s : Symbol) : (r.symbolSection s).Gives Tabular := by
  cases s with
  | member m => exact r.gives_memberSection m
  | type t => exact meets_throw trivial
  | parameter p => exact meets_throw trivial

theorem gives_dividedSections (r : Renderer) (members : List MemberSymbol) :
    (Context.dividedSections r members).Gives Tabular :=
  (gives_each r.gives_memberSection members).bind fun _ hsections => meets_pure
    (Document.tabular_flatten (forall_mem_intersperse Document.tabular_divider hsections))

/-! ## Types -/

theorem gives_nameList (r : Renderer) (title : String) (members : List MemberSymbol) :
    (r.nameList title members).Gives Tabular := by
  refine Meets.ite (fun _ => gives_nothing) fun _ => ?_
  refine (gives_each (fun m => r.gives_memberCell m none) _).bind fun cells hcells => ?_
  exact meets_pure (tabular_cons.2 ⟨tabular_title _ _, tabular_commaList hcells⟩)

theorem gives_memberRow (r : Renderer) (m : MemberSymbol) :
    (r.memberRow m).Gives (IsRegularRow 3) := by
  refine (r.gives_memberCell _ _).bind fun name hname => ?_
  refine (r.gives_typeCell _).bind fun type htype => (gives_true _).bind fun summary _ => ?_
  exact meets_pure (isRegularRow_row (by simp [IsLine, hname, htype]))

theorem gives_memberTables (r : Renderer) (t : TypeSymbol) (kind : MemberKind) :
    (r.memberTables t kind).Gives Tabular := by
  have htable : ∀ (members : List MemberSymbol) (typeTitle : String), (do
      let rows ← each r.memberRow members
      pure [Node.table ["Name", typeTitle, "Summary"] rows]).Gives Tabular :=
    fun members typeTitle => gives_table ["Name", typeTitle, "Summary"] r.gives_memberRow members
  simp only [memberTables]
  refine Meets.ite (fun _ => gives_nothing) fun _ => ?_
  have hlast : ∀ first second : List Node, Tabular first → Tabular second →
      (pure (heading 2 (tableTitles kind).1 :: first ++ second) : Answer (List Node)).Gives Tabular :=
    fun first second hfirst hsecond => meets_pure
      (tabular_append.2 ⟨tabular_cons.2 ⟨tabular_title _ _, hfirst⟩, hsecond⟩)
  -- `lone` says that there are no instance members, whose table would stand before
  have hsecond : ∀ (lone : Bool) (first : List Node), Tabular first → (do
      let second ← if (r.partition t kind true).isEmpty then pure [] else do
        let blocks ← each r.memberRow (r.partition t kind true) >>= fun rows =>
          pure [Node.table ["Name", (tableTitles kind).2, "Summary"] rows]
        pure (if lone then blocks else heading 4 "Static" :: blocks)
      pure (heading 2 (tableTitles kind).1 :: first ++ second)).Gives Tabular := by
    intro lone first hfirst
    split
    · exact hlast first [] hfirst tabular_nil
    · refine (htable _ _).bind fun blocks hblocks => Meets.bind (meets_pure ?_)
        fun second => hlast first second hfirst
      split
      · exact hblocks
      · exact tabular_cons.2 ⟨tabular_title _ _, hblocks⟩
  split
  · exact hsecond true [] tabular_nil
  · exact (htable _ _).bind fun blocks hblocks => hsecond false _
      (tabular_cons.2 ⟨tabular_title _ _, hblocks⟩)

theorem gives_inheritsList (r : Renderer) (t : TypeSymbol) :
    (r.inheritsList t).Gives Tabular := by
  refine Meets.ite (fun _ => gives_nothing) fun _ => ?_
  refine (gives_each r.gives_typeCell _).bind fun cells hcells => ?_
  exact meets_pure (tabular_cons.2 ⟨tabular_title _ _, tabular_commaList hcells⟩)

theorem gives_constructorSections (r : Renderer) (t : TypeSymbol) :
    (r.constructorSections t).Gives Tabular := by
  simp only [constructorSections]
  refine Meets.ite (fun _ => gives_nothing) fun _ => ?_
  exact (gives_parts r.gives_callableSection _).bind fun sections hsections =>
    meets_pure (tabular_cons.2 ⟨tabular_title _ _, hsections⟩)

theorem gives_enumBody (r : Renderer) (t : TypeSymbol) : (r.enumBody t).Gives Tabular := by
  refine gives_table _ (fun m => ?_) _
  refine (gives_true _).bind fun entry _ => (gives_true _).bind fun text _ => ?_
  exact meets_pure (isRegularRow_row (by simp [IsLine]))

theorem gives_objectBody (r : Renderer) (t : TypeSymbol) : (r.objectBody t).Gives Tabular := by
  refine (r.gives_inheritsList t).bind fun inherits hinherits => ?_
  refine (gives_parts (fun list => r.gives_nameList _ _) _).bind fun lists hlists => ?_
  refine (r.gives_constructorSections t).bind fun constructors hconstructors => ?_
  refine (gives_parts (r.gives_memberTables t) _).bind fun tables htables => meets_pure ?_
  simp only [tabular_append]
  exact ⟨⟨⟨hinherits, hlists⟩, hconstructors⟩, htables⟩

theorem gives_typeBody (r : Renderer) (t : TypeSymbol) : (r.typeBody t).Gives Tabular := by
  unfold typeBody
  split
  · exact r.gives_enumBody t
  · exact gives_nothing
  · exact r.gives_objectBody t

/-! ## Units -/

theorem gives_typeRow (r : Renderer) (t : TypeSymbol) : (r.typeRow t).Gives (IsRegularRow 2) := by
  refine (r.gives_typeCell _).bind fun name hname => (gives_true _).bind fun summary _ => ?_
  exact meets_pure (isRegularRow_row (by simp [IsLine, hname]))

theorem gives_categoryTable (r : Renderer) (types : List TypeSymbol) (category : TypeCategory) :
    (r.categoryTable types category).Gives Tabular := by
  simp only [categoryTable]
  refine Meets.ite (fun _ => gives_nothing) fun _ => ?_
  exact (gives_each r.gives_typeRow _).bind fun rows hrows =>
    meets_pure (tabular_cons.2 ⟨tabular_title _ _, tabular_table.2 hrows⟩)

theorem gives_namespaceTables (r : Renderer) (types : List TypeSymbol) (space : String) :
    (r.namespaceTables types space).Gives Tabular :=
  (gives_parts (r.gives_categoryTable _) _).bind fun _ htables =>
    meets_pure (tabular_cons.2 ⟨tabular_title _ _, htables⟩)

end Renderer

/-! ## Pages -/

namespace Context

open Answer

variable {ctx : Context}

theorem gives_page {title : String} {body : Answer (List Node)} (h : body.Gives Tabular) :
    (Answer.page title body).Gives fun p => Tabular p.blocks :=
  (Meets.page h).weaken fun _ => And.right

theorem gives_unitPage (ctx : Context) (u : UnitSymbol) :
    (ctx.unitPage u).Gives fun p => Tabular p.blocks := by
  refine gives_page ((Renderer.gives_unitHeader _ _).bind fun header hheader => ?_)
  refine (Renderer.gives_parts (Renderer.gives_namespaceTables _ _) _).bind fun tables htables => ?_
  exact meets_pure (by simp [hheader, Renderer.tabular_references, htables])

theorem gives_typePage (ctx : Context) (t : TypeSymbol) :
    (ctx.typePage t).Gives fun p => Tabular p.blocks := by
  refine gives_page ((Renderer.gives_unitHeader _ _).bind fun header hheader => ?_)
  refine (gives_link _ _).bind fun space hspace => ?_
  refine (Renderer.gives_sectionBlocks _ _ _).bind fun summary hsummary => ?_
  refine (Renderer.gives_paragraphs _ _).bind fun more hmore => ?_
  refine (Renderer.gives_typeBody _ t).bind fun body hbody => meets_pure ?_
  simp only [tabular_append]
  refine ⟨⟨⟨⟨⟨⟨hheader, ?_⟩, hsummary⟩, Renderer.tabular_codeLine _ _⟩, Renderer.tabular_badges _ _⟩,
    hmore⟩, hbody⟩
  refine tabular_cons.2 ⟨Renderer.tabular_title _ _, tabular_quote.2 (IsLine.tabular ?_)⟩
  simp [IsLine, hspace]

theorem gives_ownedPage (ctx : Context) (owner : TypeSymbol) (kind : String) (first : MemberSymbol)
    (others : List MemberSymbol) :
    (ctx.ownedPage owner kind first others).Gives fun p => Tabular p.blocks := by
  refine gives_page ((Renderer.gives_unitHeader _ _).bind fun header hheader => ?_)
  refine (gives_link _ _).bind fun space hspace => ?_
  refine (Renderer.gives_typeCell _ _).bind fun declaring hdeclaring => ?_
  refine (Renderer.gives_dividedSections _ _).bind fun sections hsections => meets_pure ?_
  simp only [tabular_append]
  refine ⟨⟨hheader, ?_⟩, hsections⟩
  refine tabular_cons.2 ⟨Renderer.tabular_title _ _, tabular_quote.2 (IsLine.tabular ?_)⟩
  simp [IsLine, hspace, hdeclaring]

theorem gives_memberPage (ctx : Context) (symbols : List Symbol) :
    (ctx.memberPage symbols).Gives fun p => Tabular p.blocks := by
  unfold memberPage
  split
  · exact meets_throw trivial
  · refine (gives_true _).bind fun first _ => ?_
    split
    · exact meets_throw trivial
    · refine (gives_true _).bind fun others _ => Meets.ite (fun _ => ?_) fun _ => meets_throw trivial
      split
      · exact ctx.gives_ownedPage _ _ _ _
      · exact meets_throw trivial

theorem gives_of_writesPage {a : Answer Page} (ha : ctx.WritesPage a) :
    a.Gives fun p => Tabular p.blocks := by
  cases ha with
  | unit u => exact ctx.gives_unitPage u
  | type t => exact ctx.gives_typePage t
  | members symbols => exact ctx.gives_memberPage symbols

theorem gives_typePages (ctx : Context) (t : TypeSymbol) :
    (ctx.typePages t).Gives fun pages => ∀ d ∈ pages, Tabular d.2.blocks := by
  refine (gives_true _).bind fun path _ => (ctx.gives_typePage t).bind fun page hpage => ?_
  refine Meets.ite (fun _ => meets_pure (List.forall_mem_singleton.2 hpage)) fun _ => ?_
  refine (gives_true _).bind fun groups _ => ?_
  have hgroup : ∀ group : String × List MemberSymbol, (do
      let page ← ctx.memberPage (group.2.map .member)
      pure (group.1, page)).Gives fun d : String × Page => Tabular d.2.blocks :=
    fun group => (ctx.gives_memberPage _).bind fun page hpage => meets_pure hpage
  refine (gives_each hgroup groups).bind fun members hmembers => ?_
  exact meets_pure (List.forall_mem_cons.2 ⟨hpage, hmembers⟩)

theorem gives_unitPages (ctx : Context) (u : UnitSymbol) :
    (ctx.unitPages u).Gives fun pages => ∀ d ∈ pages, Tabular d.2.blocks := by
  refine ((ctx.withFramework u.decl).gives_unitPage u).bind fun contents hcontents => ?_
  refine (gives_concatEach (gives_typePages _) _).bind fun pages hpages => ?_
  refine (gives_true _).bind fun _ _ => ?_
  exact meets_pure (List.forall_mem_cons.2 ⟨hcontents, hpages⟩)

/-- The fragments that come of a context: a rendered section of documentation, the section of a
symbol, the blocks of a page, and those of the pages of a unit. -/
inductive Outputs (ctx : Context) : Fragment → Prop
  | markup {current : Option TypeSymbol} {mode : Markup.Mode} {e : Option Xml.Node} {f : Fragment} :
    (Renderer.render { ctx with current } mode e).Comes f → Outputs ctx f
  | symbol {current : Option TypeSymbol} {s : Symbol} {f : Fragment} :
    (Renderer.symbolSection { ctx with current } s).Comes f → Outputs ctx f
  | page {a : Answer Page} {p : Page} : ctx.WritesPage a → a.Comes p → Outputs ctx p.blocks
  | unit {u : UnitSymbol} {pages : List (String × Page)} {d : String × Page} :
    (ctx.unitPages u).Comes pages → d ∈ pages → Outputs ctx d.2.blocks

/-- A table, at whatever depth it stands, has a cell for each head in every row, and inline nodes
only in its cells. -/
theorem regular_of_outputs {f : Fragment} (hf : ctx.Outputs f) {heads : List String}
    {rows : List (List Fragment)} (htable : .table heads rows ∈ nodesOf f) {row : List Fragment}
    (hrow : row ∈ rows) :
    row.length = heads.length ∧ ∀ cell ∈ row, ∀ n ∈ cell, n.isInline = true := by
  have htabular : Tabular f := by
    cases hf with
    | markup h => exact h.meets (Renderer.gives_render _ _ _)
    | symbol h => exact h.meets (Renderer.gives_symbolSection _ _)
    | page ha h => exact h.meets (gives_of_writesPage ha)
    | unit h hd => exact h.meets (ctx.gives_unitPages _) _ hd
  exact htabular _ htable row hrow

/-- The entry of a delegate. An item of a list holds a table, whose only row has a paragraph for its
term, and code and a table of its own for its description. -/
def rosterEntry : Xml.Node :=
  let element (name : String) (content : List Xml.Node) : Xml.Node := .element (.plain name) [] content
  let table (content : List Xml.Node) : Xml.Node :=
    .element (.plain "list") [(.plain "type", "table")] content
  let line (term description : List Xml.Node) : Xml.Node :=
    element "item" [element "term" term, element "description" description]
  let inner := table [line [.text "six"] [.text "oats"]]
  let outer := table [line [element "para" [element "c" [.text "Gnu"]]] [element "code" [.text "Feed"], inner]]
  element "member" [element "remarks" [element "list" [element "item" [outer]]]]

/-- The delegate `Feed` of the unit `Zoo`. -/
def rosterType : TypeSymbol :=
  { address := { root := .declared 0 0 }, unit := "Zoo"
    decl := { ref := .named "Zoo" "Feed" [] none, category := .delegateType, modifiers := ["public"] } }

/-- A unit whose only type is the delegate. -/
def roster : Context :=
  { catalog := { units := [{ name := "Zoo", types := [rosterType.decl] }] }
    hierarchy := {}
    outcomes := [("Zoo", .ok (.ready [("T:Zoo.Feed", rosterEntry)] 0))] }

theorem regular_of_outputs_roster : ∃ (p : Page) (heads : List String)
    (rows : List (List Fragment)) (row : List Fragment), roster.Outputs p.blocks ∧
    .table heads rows ∈ nodesOf p.blocks ∧ row ∈ rows ∧
    row = [[.code "Gnu"], [.code "Feed", .lineBreak, .text "six oats"]] ∧
    row.length = heads.length ∧ ∀ cell ∈ row, ∀ n ∈ cell, n.isInline = true := by
  have hlast : ((roster.typePage rosterType).result {}).1.map (fun p => p.blocks.getLast?) =
      .ok (some (.bullets [[.table ["Term", "Description"]
        [[[.code "Gnu"], [.code "Feed", .lineBreak, .text "six oats"]]]]])) := by cbv
  obtain ⟨p, hp, hlast⟩ := map_eq_ok.1 hlast
  have houtputs : roster.Outputs p.blocks := .page (.type rosterType) ⟨{}, _, Prod.ext hp rfl⟩
  have htable : .table ["Term", "Description"]
      [[[.code "Gnu"], [.code "Feed", .lineBreak, .text "six oats"]]] ∈ nodesOf p.blocks :=
    Document.mem_nodesOf.2 ⟨_, List.mem_of_getLast? hlast, .inr List.mem_cons_self⟩
  have hrow := List.mem_singleton_self [[Node.code "Gnu"], [.code "Feed", .lineBreak, .text "six oats"]]
  exact ⟨p, _, _, _, houtputs, htable, hrow, rfl, regular_of_outputs houtputs htable hrow⟩

end Context

end ApiDoc
