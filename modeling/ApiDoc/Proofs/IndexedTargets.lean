import Mathlib
import ApiDoc.Proofs.PageBlocks

/-!
# Only indexed targets are linked to

A link on a page leads to the contents page of its unit, to an outside page that rendered markup
names, or to the path of a type or member whose unit has an index (`Context.Targets`,
`Context.targets_of_composes`). A reference is dead if its key is marked as one that was not
resolved, if no symbol has the key, or if the unit of the symbol has no index
(`Context.DeadReference`). At whatever depth it stands, no link comes of it
(`Renderer.exists_live_sources`).
-/

namespace ApiDoc

open Document (Node Page linksOf)

namespace Context

open Answer Markup

variable {ctx : Context}

/-! ## Indexed units -/

/-- The source of a unit was found, and it could be read. -/
def Ready (ctx : Context) (unit : Option String) : Prop :=
  ∃ name entries duplicates, unit = some name ∧
    ctx.outcomes.lookup name = some (.ok (.ready entries duplicates))

theorem isIndexed_eq_true_iff (ctx : Context) (unit : Option String) :
    (ctx.isIndexed unit).value = .ok true ↔ ctx.Ready unit := by
  cases unit with
  | none =>
    constructor
    · intro h
      cases h
    · rintro ⟨_, _, _, ⟨⟩, _⟩
  | some name =>
    have hvalue : (ctx.isIndexed (some name)).value =
        (ctx.outcomes.lookup name).elim (.ok false) (·.map Contents.isReady) := by
      simp only [isIndexed, contents]
      cases ctx.outcomes.lookup name with
      | none => rfl
      | some outcome => cases outcome <;> rfl
    rw [hvalue]
    constructor
    · intro h
      cases ho : ctx.outcomes.lookup name with
      | none =>
        rw [ho] at h
        cases h
      | some outcome =>
        rw [ho] at h
        obtain ⟨c, rfl, hc⟩ := map_eq_ok.1 h
        cases c with
        | ready entries duplicates => exact ⟨name, entries, duplicates, rfl, ho⟩
        | missing | malformed => cases hc
    · rintro ⟨_, entries, duplicates, ⟨⟩, ho⟩
      rw [ho]
      rfl

/-! ## Targets -/

/-- Where the links of a page of a unit may lead, if the page shows some symbols: to the contents
page of the unit, to an outside page that an element in their documentation names, or to the path of
a type or member of an indexed unit. -/
inductive Targets (ctx : Context) (u : UnitSymbol) (shows : Symbol → Prop) : String → Prop
  | contents : Targets ctx u shows (unitPath u.name)
  | outside {s : Symbol} {tag : String} {entry : Option Xml.Node} {part e : Xml.Node}
      {target : String} : shows s → (ctx.resolve s).Comes entry →
    Entry.sectionOf? entry tag = some part → e ∈ Xml.Node.elementsOf part.content →
    (e.tag = "see" ∨ e.tag = "seealso") → e.attribute? "href" = some target → target ≠ "" →
    Targets ctx u shows target
  | indexed {s : Symbol} {target : String} : ctx.catalog.Declares s → ctx.Ready s.unit →
    ctx.paths s = .ok target → Targets ctx u shows target

/-- A reference by key that leads nowhere. -/
structure DeadReference (ctx : Context) (e : Xml.Node) : Prop where
  tag : e.tag = "see" ∨ e.tag = "seealso"
  href : (e.attribute? "href").getD "" = ""
  dead : ((e.attribute? "cref").getD "").startsWith unresolvedMark = true ∨
    ctx.findSymbol ((e.attribute? "cref").getD "") = none ∨
    ∃ s, ctx.findSymbol ((e.attribute? "cref").getD "") = some s ∧ ¬ ctx.Ready s.unit

end Context

namespace Renderer

open Answer Markup

variable {r : Renderer} {u : UnitSymbol} {shows : Symbol → Prop} {mode : Mode} {e : Xml.Node}
  {n : Node} {f : List Node}

/-! ## Markup -/

theorem not_leadsTo_of_dead (hr : r.WellBuilt) (he : r.DeadReference e) (target : String) :
    ¬ r.LeadsTo e target := by
  intro hleads
  cases hleads with
  | outside _ hhref hne => exact hne (by simpa [hhref] using he.href)
  | symbol _ hcref hmark hfind hindexed _ =>
    obtain rfl := hcref.cref
    rcases he.dead with h | h | ⟨s, h, hready⟩
    · exact absurd (h.symm.trans hmark) (by decide)
    · exact absurd (h.symm.trans hfind) (by simp)
    · cases h.symm.trans hfind
      have hunit := referenceUnit_eq (r.declares_of_findSymbol hr hfind)
      exact hready ((r.isIndexed_eq_true_iff _).1 (hunit ▸ hindexed))

/-- The links of rendered markup come from elements of their own that lead to their targets, none of
which is a dead reference. -/
theorem exists_live_sources (hr : r.WellBuilt) {part : Option Xml.Node}
    (h : (r.render mode part).Comes f) :
    ∃ sources, sources.Subperm (Xml.Node.elementsOf (part.toList.flatMap Xml.Node.content)) ∧
      List.Forall₂ (fun e l => r.LeadsTo e l.1) sources (linksOf f) ∧
      ∀ e ∈ sources, ¬ r.DeadReference e := by
  obtain ⟨sources, hsub, hlead⟩ := (h.meets (traced_render r mode part)).sources
  refine ⟨sources, hsub, hlead, fun e he hdead => ?_⟩
  obtain ⟨l, -, hl⟩ := exists_of_mem_left hlead he
  exact not_leadsTo_of_dead hr hdead _ hl

/-- A `see` or `seealso` element is rendered as one node. -/
theorem node_of_see (htag : e.tag = "see" ∨ e.tag = "seealso") :
    r.node mode e = r.see mode e >>= fun n => pure [n] := by
  cases e with
  | text s => simp [Xml.Node.tag] at htag
  | element name attributes content =>
    rw [Renderer.node]
    rcases htag with h | h <;> simp [h, containers]

theorem links_of_dead (hr : r.WellBuilt) (he : r.DeadReference e) (h : (r.node mode e).Comes f) :
    linksOf f = [] := by
  rw [node_of_see he.tag] at h
  obtain ⟨n, hn, h⟩ := h.bind
  rw [← h.eq]
  refine List.eq_nil_iff_forall_not_mem.2 fun l hl => ?_
  obtain ⟨e', he', hleads⟩ := (hn.meets (traced_see r mode he.tag)).sources.exists_source hl
  obtain rfl := List.mem_singleton.1 he'
  exact not_leadsTo_of_dead hr he _ hleads

theorem targets_of_sectionBlocks (hr : r.WellBuilt) {s : Symbol} {tag : String} (hs : shows s)
    (h : (r.sectionBlocks s tag).Comes f) : ∀ l ∈ linksOf f, r.Targets u shows l.1 := by
  obtain ⟨entry, hentry, h⟩ := h.bind
  obtain ⟨inner, hinner, h⟩ := h.bind
  rw [← h.eq, Document.linksOf_blocksOf]
  intro l hl
  obtain ⟨e, he, hleads⟩ := (hinner.meets (traced_render r .normal _)).sources.exists_source hl
  cases hpart : Entry.sectionOf? entry tag with
  | none => simp [hpart, Xml.Node.elementsOf] at he
  | some part =>
    have he : e ∈ Xml.Node.elementsOf part.content := by simpa [hpart] using he
    cases hleads with
    | outside htag hhref hne => exact .outside hs hentry hpart he htag hhref hne
    | symbol _ _ _ hfind hindexed hpath =>
      have hdeclares := r.declares_of_findSymbol hr hfind
      rw [referenceUnit_eq hdeclares] at hindexed
      exact .indexed hdeclares ((r.isIndexed_eq_true_iff _).1 hindexed) hpath

/-! ## Cells -/

theorem targets_of_cell (h : r.Cell u.name n) : ∀ l ∈ n.links, r.Targets u shows l.1 := by
  cases h with
  | plain _ hlinks => simp [hlinks]
  | contents shown index => exact List.forall_mem_singleton.2 .contents
  | name hs hcell =>
    rcases hcell.meets (r.meets_linkOf _ _ _) with rfl | ⟨_, _, _, rfl, hindexed, hpath⟩
    · exact fun l hl => nomatch hl
    · exact List.forall_mem_singleton.2
        (.indexed hs ((r.isIndexed_eq_true_iff _).1 hindexed) hpath)

theorem targets_of_cells {cells : List Node} (h : ∀ n ∈ cells, r.Cell u.name n) :
    ∀ l ∈ linksOf cells, r.Targets u shows l.1 := by
  intro l hl
  rw [Document.linksOf_eq_flatMap] at hl
  obtain ⟨n, hn, hl⟩ := List.mem_flatMap.1 hl
  exact targets_of_cell (h n hn) l hl

/-- The rows of a table are made of cells. -/
theorem exists_cells_of_tabulates (hr : r.WellBuilt) (unit : String) {kind : TableKind}
    {rows : List (List (List Node))} (h : r.Tabulates kind rows) :
    ∀ line ∈ rows, ∃ cells, line = row cells ∧ ∀ n ∈ cells, r.Cell unit n := by
  intro line hline
  cases h with
  | types h =>
    obtain ⟨t, -, hrow⟩ := exists_of_mem_right h hline
    obtain ⟨name, text, rfl, hname, -⟩ := comes_typeRow hrow
    exact ⟨_, rfl, List.forall_mem_cons.2 ⟨cell_of_typeCell hr hname,
      List.forall_mem_singleton.2 (.text _)⟩⟩
  | values h =>
    obtain ⟨m, -, hrow⟩ := exists_of_mem_right h hline
    obtain ⟨entry, text, rfl, -, -⟩ := comes_valueRow hrow
    exact ⟨_, rfl, List.forall_mem_cons.2 ⟨.text _, List.forall_mem_singleton.2 (.text _)⟩⟩
  | parameters _ h =>
    obtain ⟨p, -, hrow⟩ := exists_of_mem_right h hline
    obtain ⟨type, text, rfl, htype, -⟩ := comes_parameterRow hrow
    exact ⟨_, rfl, List.forall_mem_cons.2 ⟨.text _, List.forall_mem_cons.2
      ⟨cell_of_typeCell hr htype, List.forall_mem_singleton.2 (.text _)⟩⟩⟩
  | members ht h =>
    obtain ⟨m, hm, hrow⟩ := exists_of_mem_right h hline
    obtain ⟨name, type, text, rfl, hname, htype, -⟩ := comes_memberRow hrow
    have hname : r.Cell unit name := cell_of_memberCell ht (mem_members_of_partition hm) hname
    exact ⟨_, rfl, List.forall_mem_cons.2 ⟨hname, List.forall_mem_cons.2
      ⟨cell_of_typeCell hr htype, List.forall_mem_singleton.2 (.text _)⟩⟩⟩

/-! ## Blocks -/

theorem targets_of_written (hr : r.WellBuilt) (h : r.Written u.name shows n) :
    ∀ l ∈ n.links, r.Targets u shows l.1 := by
  cases h with
  | documentation hs hf hn =>
    intro l hl
    refine targets_of_sectionBlocks hr hs hf l ?_
    rw [Document.linksOf_eq_flatMap]
    exact List.mem_flatMap.2 ⟨n, hn, hl⟩
  | heading | declaration | divider => exact fun l hl => nomatch hl
  | list names =>
    have hnone : (Node.bullets (names.map ([.text ·]))).links = [] := by
      rw [Node.links, Document.linksOfParts_eq_flatMap, List.flatMap_map]
      simp [Node.links]
    simp [hnone]
  | line hcells | quote hcells => exact targets_of_cells hcells
  | table hrows =>
    intro l hl
    rw [Node.links, Document.linksOfRows_eq_flatMap] at hl
    obtain ⟨line, hline, hl⟩ := List.mem_flatMap.1 hl
    obtain ⟨cells, rfl, hcells⟩ := exists_cells_of_tabulates hr u.name hrows line hline
    rw [linksOfParts_row] at hl
    exact targets_of_cells hcells l hl

end Renderer

/-! ## Pages -/

namespace Context

open Answer

variable {ctx : Context} {u : UnitSymbol} {p : Page}

theorem targets_of_composes (hctx : ctx.WellBuilt) (hu : u ∈ ctx.catalog.unitSymbols)
    {a : Answer Page} {current : Option TypeSymbol} {shows : Symbol → Prop}
    (ha : ctx.Composes u a current shows) (h : a.Comes p) :
    ∀ l ∈ linksOf p.blocks, ctx.Targets u shows l.1 := by
  intro l hl
  rw [Document.linksOf_eq_flatMap] at hl
  obtain ⟨n, hn, hl⟩ := List.mem_flatMap.1 hl
  exact Renderer.targets_of_written (r := { ctx with current }) hctx (ha.written hctx hu h n hn) l hl

theorem eq_of_asMember {s : Symbol} {m : MemberSymbol} (h : (asMember s).Comes m) :
    s = .member m := by
  cases s with
  | member m' => rw [← h.eq]
  | type | parameter => exact absurd h not_comes_throw

theorem eq_map_of_asMembers {symbols : List Symbol} {members : List MemberSymbol}
    (h : (each asMember symbols).Comes members) : symbols = members.map .member := by
  have hall := h.each
  clear h
  induction hall with
  | nil => rfl
  | cons hm _ ih => rw [eq_of_asMember hm, ih, List.map_cons]

/-- A page of symbols of the catalog is one of members of a type. -/
theorem exists_composes_of_memberPage {symbols : List Symbol}
    (hsymbols : ∀ s ∈ symbols, ctx.catalog.Declares s) (h : (ctx.memberPage symbols).Comes p) :
    ∃ u ∈ ctx.catalog.unitSymbols, ∃ t shows,
      ctx.Composes u (ctx.memberPage symbols) (some t) shows ∧ ∀ s, shows s ↔ s ∈ symbols := by
  have hmember : ∀ {m : MemberSymbol}, .member m ∈ symbols → ∃ t ∈ ctx.catalog.types, m ∈ t.members := by
    intro m hm
    obtain ⟨t, ht, hs⟩ := hsymbols _ hm
    exact ⟨t, ht, by simpa [TypeSymbol.symbols] using hs⟩
  cases symbols with
  | nil => exact absurd h not_comes_throw
  | cons s rest =>
    obtain ⟨first, hcomes, howner⟩ := h.bind
    obtain rfl := eq_of_asMember hcomes
    obtain ⟨t, ht, hfirst⟩ := hmember List.mem_cons_self
    rw [TypeSymbol.owner_of_mem_members hfirst] at howner
    obtain ⟨others, hothers, hpage⟩ := howner.bind
    obtain rfl := eq_map_of_asMembers hothers
    split at hpage
    next hdeclared =>
      have hgroup : ∀ m ∈ first :: others, m ∈ t.members := by
        refine List.forall_mem_cons.2 ⟨hfirst, fun m hm => ?_⟩
        obtain ⟨t', ht', hm'⟩ := hmember (List.mem_cons_of_mem _ (List.mem_map_of_mem hm))
        have haddress : t'.address = t.address := by
          simpa [MemberSymbol.isDeclaredOn, TypeSymbol.owner_of_mem_members hm'] using
            List.all_eq_true.1 hdeclared m hm
        exact Catalog.type_ext ht' ht haddress ▸ hm'
      obtain ⟨u, hu, htypes⟩ := List.mem_flatMap.1 ht
      have hcomposes : ctx.Composes u (ctx.memberPage ((first :: others).map .member)) (some t)
          fun s => ∃ m ∈ first :: others, s = .member m := .members htypes hgroup
      exact ⟨u, hu, t, _, hcomposes, fun s => by simp [eq_comm]⟩
    next => exact absurd hpage not_comes_throw

/-- Only indexed targets are linked to. Each link of each page of a unit leads to the contents page
of the unit, to an outside page named in the documentation of a symbol that the page shows, or to
the path of a type or member whose unit has an index; and pages of members that are asked for by
symbols, and the pages that are written for a whole unit, are such pages. In rendered markup each
link has an element of its own that leads to its target, and a dead reference is never that element
and is itself rendered without a link, at any depth. -/
theorem only_indexed_targets (hctx : ctx.WellBuilt) :
    (∀ u ∈ ctx.catalog.unitSymbols, ∀ a current shows p, ctx.Composes u a current shows →
      a.Comes p → ∀ l ∈ linksOf p.blocks, ctx.Targets u shows l.1) ∧
    (∀ symbols p, (∀ s ∈ symbols, ctx.catalog.Declares s) → (ctx.memberPage symbols).Comes p →
      ∃ u ∈ ctx.catalog.unitSymbols, ∃ t shows,
        ctx.Composes u (ctx.memberPage symbols) (some t) shows ∧ ∀ s, shows s ↔ s ∈ symbols) ∧
    (∀ u ∈ ctx.catalog.unitSymbols, ∀ pages, (ctx.unitPages u).Comes pages → ∀ d ∈ pages,
      ∃ a current shows, (ctx.withFramework u.decl).Composes u a current shows ∧ a.Comes d.2 ∧
        ∀ l ∈ linksOf d.2.blocks, (ctx.withFramework u.decl).Targets u shows l.1) ∧
    ∀ current mode, let r : Renderer := { ctx with current }
      (∀ part f, (r.render mode part).Comes f →
        ∃ sources, sources.Subperm (Xml.Node.elementsOf (part.toList.flatMap Xml.Node.content)) ∧
          List.Forall₂ (fun e l => r.LeadsTo e l.1) sources (linksOf f) ∧
          ∀ e ∈ sources, ¬ ctx.DeadReference e) ∧
      ∀ e f, ctx.DeadReference e → (r.node mode e).Comes f → linksOf f = [] := by
  have hframework : ∀ u : MetadataUnit, (ctx.withFramework u).WellBuilt := fun _ => { hctx with }
  refine ⟨fun u hu a current shows p ha h => targets_of_composes hctx hu ha h,
    fun symbols p hsymbols h => exists_composes_of_memberPage hsymbols h,
    fun u hu pages h d hd => ?_, fun current mode => ⟨fun part f h => ?_, fun e f he h => ?_⟩⟩
  · obtain ⟨a, current, shows, ha, hcomes⟩ := composes_of_unitPages h d hd
    exact ⟨a, current, shows, ha, hcomes, targets_of_composes (hframework u.decl) hu ha hcomes⟩
  · exact Renderer.exists_live_sources (r := { ctx with current }) hctx h
  · exact Renderer.links_of_dead (r := { ctx with current }) hctx he h

/-- A reference to a type of a unit without documentation. -/
def boxReference : Xml.Node := .element (.plain "see") [(.plain "cref", "T:Attic.Box")] []

/-- A documentation file with one entry, in which a class refers to itself, to an outside page and to
that type. -/
def trailsDocumentation : Xml.Node :=
  .element (.plain "doc") [] [.element (.plain "members") [] [
    .element (.plain "member") [(.plain "name", "T:Zoo.Dog")] [
      .element (.plain "remarks") [] [.element (.plain "para") [] [
        .element (.plain "see") [(.plain "cref", "T:Zoo.Dog")] [],
        .element (.plain "see") [(.plain "href", "dogs:")] [], boxReference]]]]]

/-- A unit with a class. -/
def trailsUnit : UnitSymbol := ⟨0, { name := "Zoo", types := [{ ref := .named "Zoo" "Dog" [] none }] }⟩

/-- A unit with another class. -/
def trailsAttic : UnitSymbol :=
  ⟨1, { name := "Attic", types := [{ ref := .named "Attic" "Box" [] none }] }⟩

/-- The first of the units is documented, and the second is not. -/
def trails : Context :=
  { catalog := { units := [trailsUnit.decl, trailsAttic.decl] }
    hierarchy := (Hierarchy.build { units := [trailsUnit.decl, trailsAttic.decl] }).toOption.getD {}
    outcomes := [("Zoo", (Source.element trailsDocumentation).read), ("Attic", Source.absent.read)] }

/-- The paths of the pages, and where their links lead. -/
theorem trails_unitPages : ((trails.unitPages trailsUnit).result {}).1.map
    (fun pages => pages.map fun d => (d.1, (linksOf d.2.blocks).map Prod.fst)) = .ok [
      ("Zoo", ["Zoo", "Zoo/Zoo/Dog"]), ("Zoo/Zoo/Dog", ["Zoo", "Zoo", "Zoo/Zoo/Dog", "dogs:"])] := by
  cbv

theorem only_indexed_targets_trails : ∃ pages, (trails.unitPages trailsUnit).Comes pages ∧
    (∀ d ∈ pages, ∃ shows, ∀ l ∈ linksOf d.2.blocks,
      (trails.withFramework trailsUnit.decl).Targets trailsUnit shows l.1) ∧
    trails.DeadReference boxReference ∧
    ∀ f, (Renderer.node { trails with } .normal boxReference).Comes f → linksOf f = [] := by
  have hctx : trails.WellBuilt := ⟨by cbv, by simp [trails]⟩
  obtain ⟨pages, hpages, -⟩ := map_eq_ok.1 trails_unitPages
  have hcomes : (trails.unitPages trailsUnit).Comes pages := ⟨_, _, Prod.ext hpages rfl⟩
  have hfind : trails.findSymbol "T:Attic.Box" =
      some (.type ⟨{ root := .declared 1 0 }, some "Attic", { ref := .named "Attic" "Box" [] none }⟩) := by
    cbv
  have hindexed : (trails.isIndexed (some "Attic")).value = .ok false := by cbv
  have hdead : trails.DeadReference boxReference := by
    refine ⟨.inl rfl, rfl, .inr (.inr ⟨_, hfind, fun hready => ?_⟩)⟩
    exact absurd (hindexed.symm.trans ((trails.isIndexed_eq_true_iff _).2 hready)) (by simp)
  obtain ⟨-, -, hall, hrender⟩ := only_indexed_targets hctx
  refine ⟨pages, hcomes, fun d hd => ?_, hdead, fun f => (hrender none .normal).2 _ f hdead⟩
  obtain ⟨a, current, shows, -, -, hlinks⟩ := hall trailsUnit List.mem_cons_self pages hcomes d hd
  exact ⟨shows, hlinks⟩

end Context

end ApiDoc
