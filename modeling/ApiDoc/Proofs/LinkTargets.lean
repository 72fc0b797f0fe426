import Mathlib
import ApiDoc.Proofs.MemberGroups

/-!
# Which links lead to pages

A reference or cell that becomes a link leads to the path of the symbol that it is made for, and a
symbol that has a page has it at that path. So every link between symbols that have pages leads to
one of them (`links_of_unitPages`). But references are resolved among all symbols, and constructors,
the values of enumerations and the members of delegates have no pages of their own: a reference to
a constructor leads nowhere (`dangling_constructor`).
-/

namespace ApiDoc

open Document (Node Page linksOf)

namespace Context

open Answer Markup

variable {ctx : Context} {u : UnitSymbol} {s : Symbol} {pages : List (String × Page)}

/-! ## Symbols with pages -/

/-- The symbols of a unit that have pages: its visible types, and their listed members except for
those of enumerations and delegates. -/
inductive HasPage (ctx : Context) (u : UnitSymbol) : Symbol → Prop
  | type {t : TypeSymbol} : t ∈ u.visibleTypes → HasPage ctx u (.type t)
  | member {t : TypeSymbol} {m : MemberSymbol} : t ∈ u.visibleTypes → t.HasMemberPages →
    m ∈ t.members → m.decl.isListed ctx.settings.render = true → HasPage ctx u (.member m)

/-- A symbol that has a page has it at its path. -/
theorem PagesOfUnit.path_mem (h : ctx.PagesOfUnit u pages) (hs : ctx.HasPage u s) {target : String}
    (htarget : ctx.paths s = .ok target) : target ∈ pages.map Prod.fst := by
  obtain ⟨contents, typePages, rfl, -, htypes⟩ := h
  have hflat : ∀ {t}, t ∈ u.visibleTypes → (∀ l, ctx.PagesOf t l → target ∈ l.map Prod.fst) →
      target ∈ ((unitPath u.name, contents) :: typePages.flatten).map Prod.fst := by
    intro t ht hall
    obtain ⟨l, hl, ht⟩ := exists_of_mem_left htypes ht
    obtain ⟨d, hd, rfl⟩ := List.mem_map.1 (hall l ht)
    exact List.mem_map_of_mem (List.mem_cons_of_mem _ (List.mem_flatten.2 ⟨l, hl, hd⟩))
  cases hs with
  | @type t ht =>
    refine hflat ht fun l hl => ?_
    obtain ⟨path, page, members, rfl, hpath, -⟩ := hl
    cases hpath.symm.trans htarget
    exact List.mem_cons_self
  | @member t m ht hpages hm hlisted =>
    refine hflat ht fun l hl => ?_
    obtain ⟨path, page, members, rfl, -, -, hmembers, -⟩ := hl
    obtain ⟨groups, hgroups, hall⟩ := hmembers hpages
    have hfacts := groups_of_memberGroups hgroups
    -- the member is in a group, and the page of the group lies at the path of the member
    obtain ⟨group, hgroup, hmem⟩ := List.mem_flatMap.1
      (hfacts.perm.mem_iff.2 (List.mem_filter.2 ⟨hm, hlisted⟩))
    obtain ⟨d, hd, hpath, -⟩ := exists_of_mem_left hall hgroup
    cases (hfacts.path group hgroup m hmem).symm.trans htarget
    exact List.mem_cons_of_mem _ (List.mem_map.2 ⟨d, hd, hpath⟩)

/-! ## Links that are made for symbols -/

/-- The references and cells of a page that are made for a symbol. -/
inductive Refers (ctx : Context) : Answer Node → Symbol → Prop
  | reference (current : Option TypeSymbol) {key : String} (inner : String) {s : Symbol} :
    key.startsWith unresolvedMark = false → ctx.findSymbol key = some s →
    Refers ctx (Renderer.reference { ctx with current } .normal key inner) s
  | typeCell (current : Option TypeSymbol) {ref : TypeRef} {t : TypeSymbol} :
    ref.isParameter = false → ctx.findType ref = some t →
    Refers ctx (Renderer.typeCell { ctx with current } ref) (.type t)
  | memberCell (current : Option TypeSymbol) (m : MemberSymbol) (text : Option String) :
    Refers ctx (Renderer.memberCell { ctx with current } m text) (.member m)

/-- A link that is made for a symbol leads to the path of the symbol. -/
theorem Refers.paths_eq (hctx : ctx.WellBuilt) {a : Answer Node} (h : ctx.Refers a s)
    {j j' : Journal} {shown target : String} {index : Nat}
    (ha : a.result j = (.ok (.link shown target index), j')) : ctx.paths s = .ok target := by
  have hmeets : ∃ code : String, a.Meets ctx.MayRaise fun n =>
      n = .code code ∨ ctx.IsLinkTo s n := by
    cases h with
    | @reference current key inner s hmark hfind =>
      have hdeclares := declares_of_findSymbol hctx hfind
      have hunit := Renderer.referenceUnit_eq (r := { ctx with }) hdeclares
      have hlink := Renderer.meets_linkOf { ctx with current } s
      simp only [Renderer.reference, hmark, hfind, hunit, Bool.false_eq_true, reduceCtorEq,
        ↓reduceIte]
      exact ⟨_, hlink _ _⟩
    | @typeCell current ref t href hfind =>
      have hlink := Renderer.meets_linkOf { ctx with current } (.type t)
      simp only [Renderer.typeCell, href, hfind, Bool.false_eq_true, ↓reduceIte]
      exact ⟨_, hlink _ _⟩
    | memberCell current m text => exact ⟨_, Renderer.meets_linkOf { ctx with current } _ _ _⟩
  obtain ⟨code, hmeets⟩ := hmeets
  rcases (ends_iff.1 (hmeets j)).1 _ (congrArg Prod.fst ha) with h | ⟨_, _, _, h, -, hpath⟩
  · cases h
  · cases h
    exact hpath

/-! ## Links of pages -/

/-- The links of the pages of a unit lead to its contents page, or where those of rendered markup
may. -/
theorem PagesOfUnit.links (h : ctx.PagesOfUnit u pages) {d : String × Page} (hd : d ∈ pages)
    {l : String × Nat} (hl : l ∈ linksOf d.2.blocks) : ctx.LinksFrom u.name l.1 := by
  obtain ⟨contents, typePages, rfl, hcontents, htypes⟩ := h
  rcases List.mem_cons.1 hd with rfl | hd
  · exact hcontents.links l hl
  obtain ⟨typePage, htypePage, hd⟩ := List.mem_flatten.1 hd
  obtain ⟨t, ht, path, page, members, rfl, -, hpage, hgroups, hnone⟩ :=
    exists_of_mem_right htypes htypePage
  rw [u.unit_of_mem_visibleTypes ht] at hpage
  rcases List.mem_cons.1 hd with rfl | hd
  · exact hpage.links l hl
  by_cases hmembers : t.HasMemberPages
  · obtain ⟨groups, -, hall⟩ := hgroups hmembers
    obtain ⟨group, -, -, hsections⟩ := exists_of_mem_right hall hd
    have hlinks := hsections.outlined.links l hl
    rwa [u.unit_of_mem_visibleTypes ht] at hlinks
  · rw [hnone hmembers] at hd
    cases hd

theorem PagesOfUnit.unitPath_mem (h : ctx.PagesOfUnit u pages) :
    unitPath u.name ∈ pages.map Prod.fst := by
  obtain ⟨contents, typePages, rfl, -, -⟩ := h
  exact List.mem_cons_self

/-- When the pages of all units are written, a reference or cell that becomes a link to a symbol
with a page leads to one of the pages. The links of a page lead to the contents page of its unit, to
a cited address, or to the path of a symbol of an indexed unit; and there is a page there if the
symbol has one. -/
theorem links_of_unitPages (hctx : ctx.WellBuilt) {pages : UnitSymbol → List (String × Page)}
    (hpages : ∀ u ∈ ctx.catalog.unitSymbols,
      ∃ j j', (ctx.unitPages u).result j = (.ok (pages u), j')) :
    (∀ a s, ctx.Refers a s → ∀ j shown target index j',
      a.result j = (.ok (.link shown target index), j') →
      ∀ u ∈ ctx.catalog.unitSymbols, ctx.HasPage u s → target ∈ (pages u).map Prod.fst) ∧
    ∀ u ∈ ctx.catalog.unitSymbols, unitPath u.name ∈ (pages u).map Prod.fst ∧
      ∀ d ∈ pages u, ∀ l ∈ linksOf d.2.blocks,
        l.1 = unitPath u.name ∨ ctx.Cites l.1 ∨ ∃ s, ctx.Locates s l.1 ∧
          ∀ u' ∈ ctx.catalog.unitSymbols, ctx.HasPage u' s → l.1 ∈ (pages u').map Prod.fst := by
  have hwritten : ∀ u ∈ ctx.catalog.unitSymbols, ctx.PagesOfUnit u (pages u) := by
    intro u hu
    obtain ⟨j, j', hresult⟩ := hpages u hu
    exact (ends_iff.1 (meets_unitPages hctx hu j)).1 _ (congrArg Prod.fst hresult)
  refine ⟨fun a s ha j shown target index j' hlink u hu hs => ?_, fun u hu => ⟨?_, ?_⟩⟩
  · exact (hwritten u hu).path_mem hs (ha.paths_eq hctx hlink)
  · exact (hwritten u hu).unitPath_mem
  · intro d hd l hl
    rcases (hwritten u hu).links hd hl with hunit | hcited | ⟨s, hs⟩
    · exact .inl hunit
    · exact .inr (.inl hcited)
    · exact .inr (.inr ⟨s, hs, fun u' hu' hpage => (hwritten u' hu').path_mem hpage hs.2.2⟩)

/-- A documentation file with one entry, in which a class refers to its constructor. -/
def leashDocumentation : Xml.Node :=
  .element (.plain "doc") [] [.element (.plain "members") [] [
    .element (.plain "member") [(.plain "name", "T:Zoo.Dog")] [
      .element (.plain "remarks") [] [
        .element (.plain "see") [(.plain "cref", "M:Zoo.Dog.#ctor")] []]]]]

def leashType : TypeSymbol :=
  { address := { root := .declared 0 0 }, unit := "Zoo"
    decl := { ref := .named "Zoo" "Dog" [] none, members := [.constructor { name := ".ctor" }] } }

def leashConstructor : MemberSymbol :=
  { address := leashType.address.under (.member 0), owner := leashType
    decl := .constructor { name := ".ctor" } }

/-- A unit whose only type is that class. -/
def leashUnit : UnitSymbol := ⟨0, { name := "Zoo", types := [leashType.decl] }⟩

def leash : Context :=
  { catalog := { units := [leashUnit.decl] }
    hierarchy := (Hierarchy.build { units := [leashUnit.decl] }).toOption.getD {}
    outcomes := [("Zoo", (Source.element leashDocumentation).read)] }

/-- The paths of the pages, and where their links lead. -/
theorem leash_unitPages : ((leash.unitPages leashUnit).result {}).1.map
    (fun pages => pages.map fun d => (d.1, (linksOf d.2.blocks).map Prod.fst)) = .ok [
      ("Zoo", ["Zoo", "Zoo/Zoo/Dog"]),
      ("Zoo/Zoo/Dog", ["Zoo", "Zoo", "Zoo/Zoo/Dog/Dog"])] := by
  cbv

theorem links_of_unitPages_leash : ∃ pages j',
    (leash.unitPages leashUnit).result {} = (.ok pages, j') ∧
    (∃ j'', (Renderer.typeCell { leash with } leashType.decl.ref).result {} =
      (.ok (.link "Dog" "Zoo/Zoo/Dog" 0), j'')) ∧
    "Zoo/Zoo/Dog" ∈ pages.map Prod.fst := by
  have hctx : leash.WellBuilt := ⟨by cbv, by simp [leash]⟩
  obtain ⟨pages, hpages, -⟩ := map_eq_ok.1 leash_unitPages
  have hresult : (leash.unitPages leashUnit).result {} = (.ok pages, _) := Prod.ext hpages rfl
  have hshown : ((Renderer.typeCell { leash with } leashType.decl.ref).result {}).1 =
      .ok (.link "Dog" "Zoo/Zoo/Dog" 0) := by cbv
  have hlink : (Renderer.typeCell { leash with } leashType.decl.ref).result {} =
      (.ok (.link "Dog" "Zoo/Zoo/Dog" 0), _) := Prod.ext hshown rfl
  have hrefers : leash.Refers (Renderer.typeCell { leash with } leashType.decl.ref)
      (.type leashType) := .typeCell none (by rfl) (by rfl)
  have hpage : leash.HasPage leashUnit (.type leashType) := .type List.mem_cons_self
  let written : UnitSymbol → List (String × Page) := fun _ => pages
  have hwritten : ∀ u ∈ leash.catalog.unitSymbols, ∃ j j',
      (leash.unitPages u).result j = (.ok (written u), j') := by
    intro u hu
    cases List.mem_singleton.1 hu
    exact ⟨{}, _, hresult⟩
  have hleads := (links_of_unitPages hctx hwritten).1
  exact ⟨pages, _, hresult, ⟨_, hlink⟩,
    hleads _ _ hrefers _ _ _ _ _ hlink _ List.mem_cons_self hpage⟩

/-- A reference to a visible constructor becomes a link to a path at which there is no page. -/
theorem dangling_constructor : leash.catalog.unitSymbols = [leashUnit] ∧
    leashType ∈ leashUnit.visibleTypes ∧ leashConstructor ∈ leashType.members ∧
    leashConstructor.decl.isVisible leash.settings.render = true ∧
    (leash.isIndexed leashConstructor.unit).value = .ok true ∧
    leash.findSymbol "M:Zoo.Dog.#ctor" = some (.member leashConstructor) ∧
    leash.paths (.member leashConstructor) = .ok "Zoo/Zoo/Dog/Dog" ∧
    ∃ pages j', (leash.unitPages leashUnit).result {} = (.ok pages, j') ∧
      (∃ d ∈ pages, ∃ l ∈ linksOf d.2.blocks, l.1 = "Zoo/Zoo/Dog/Dog") ∧
      "Zoo/Zoo/Dog/Dog" ∉ pages.map Prod.fst := by
  obtain ⟨pages, hpages, hlinks⟩ := map_eq_ok.1 leash_unitPages
  have hresult : (leash.unitPages leashUnit).result {} = (.ok pages, _) := Prod.ext hpages rfl
  have hpaths : pages.map Prod.fst = ["Zoo", "Zoo/Zoo/Dog"] := by
    simpa [List.map_map, Function.comp_def] using congrArg (List.map Prod.fst) hlinks
  have hleads : "Zoo/Zoo/Dog/Dog" ∈ pages.flatMap fun d => (linksOf d.2.blocks).map Prod.fst := by
    have hall := congrArg (List.flatMap Prod.snd) hlinks
    rw [List.flatMap_map] at hall
    rw [hall]
    decide
  obtain ⟨d, hd, hl⟩ := List.mem_flatMap.1 hleads
  obtain ⟨l, hl, htarget⟩ := List.mem_map.1 hl
  refine ⟨rfl, List.mem_cons_self, List.mem_cons_self, by decide, by cbv, by cbv, by cbv, ?_⟩
  exact ⟨pages, _, hresult, ⟨d, hd, l, hl, htarget⟩, by rw [hpaths]; decide⟩

end Context

end ApiDoc
