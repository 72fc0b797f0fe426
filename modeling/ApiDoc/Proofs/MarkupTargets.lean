import ApiDoc.Proofs.MarkupSources

/-!
# What rendered markup links to

Rendered markup is prose: it has no headings, and its links lead where the documentation it is
rendered from cites an address, or to the path of a symbol of an indexed unit (`meets_render`).
-/

namespace ApiDoc

open Document (Node Fragment linksOf)

namespace Document

/-! ## Prose -/

/-- A fragment with the given headings, whose links lead where they may. -/
structure Outlined (leads : String → Prop) (outline : List Node) (f : Fragment) : Prop where
  headings : headings f = outline
  links : ∀ l ∈ linksOf f, leads l.1

/-- No headings, and links that lead where they may. -/
abbrev Prose (leads : String → Prop) : Fragment → Prop := Outlined leads []

namespace Outlined

variable {leads leads' : String → Prop} {outline outline' : List Node} {f g : Fragment} {n : Node}

theorem mono (h : Outlined leads outline f) (himp : ∀ target, leads target → leads' target) :
    Outlined leads' outline f :=
  ⟨h.headings, fun l hl => himp _ (h.links l hl)⟩

theorem nil : Prose leads [] := ⟨rfl, fun _ hl => nomatch hl⟩

theorem append (hf : Outlined leads outline f) (hg : Outlined leads outline' g) :
    Outlined leads (outline ++ outline') (f ++ g) := by
  refine ⟨by rw [headings_append, hf.headings, hg.headings], fun l hl => ?_⟩
  rw [linksOf_append] at hl
  exact (List.mem_append.1 hl).elim (hf.links l) (hg.links l)

theorem single (hn : n.isHeading = false) (hlinks : ∀ l ∈ n.links, leads l.1) :
    Prose leads [n] := by
  refine ⟨by rw [headings_cons, hn]; rfl, fun l hl => hlinks l ?_⟩
  simpa using hl

/-- A node without links. -/
theorem bare (hn : n.isHeading = false) (hlinks : n.links = []) : Prose leads [n] :=
  single hn fun l hl => by rw [hlinks] at hl; cases hl

theorem link {s target : String} {index : Nat} (h : leads target) :
    Prose leads [.link s target index] :=
  single rfl fun l hl => by rw [List.mem_singleton.1 hl]; exact h

theorem blocksOf (h : Outlined leads outline f) : Outlined leads outline (Document.blocksOf f) :=
  ⟨by rw [headings_blocksOf, h.headings], by rw [linksOf_blocksOf]; exact h.links⟩

end Outlined

end Document

open Document (Outlined Prose)

/-! ## Targets -/

namespace Context

variable {ctx : Context} {s : Symbol}

theorem declares_of_findType (hctx : ctx.WellBuilt) {ref : TypeRef} {t : TypeSymbol}
    (h : ctx.findType ref = some t) : ctx.catalog.Declares (.type t) :=
  ⟨t, hctx.mem_of_findType h, List.mem_cons_self⟩

/-- Some documentation names the address of an outside page. -/
def Cites (ctx : Context) (target : String) : Prop :=
  ∃ e, ctx.Documents e ∧ (e.tag = "see" ∨ e.tag = "seealso") ∧ e.attribute? "href" = some target

/-- The path of a symbol of an indexed unit. -/
def Locates (ctx : Context) (s : Symbol) (target : String) : Prop :=
  ctx.catalog.Declares s ∧ (ctx.isIndexed s.unit).value = .ok true ∧ ctx.paths s = .ok target

/-- A link to the path of a symbol of an indexed unit. -/
def IsLinkTo (ctx : Context) (s : Symbol) (n : Node) : Prop :=
  ∃ shown target index, n = .link shown target index ∧
    (ctx.isIndexed s.unit).value = .ok true ∧ ctx.paths s = .ok target

/-- Where the links of rendered markup may lead. -/
def LinksTo (ctx : Context) (target : String) : Prop :=
  ctx.Cites target ∨ ∃ s, ctx.Locates s target

end Context

namespace Renderer

open Answer Markup

variable {r : Renderer}

/-! ## References -/

/-- A symbol is shown as a link to its path, if its unit is indexed. -/
theorem meets_linkOf (r : Renderer) (s : Symbol) (name : String) (other : Node) : (do
      if ← r.isIndexed s.unit then
        let path ← Answer.ofExcept (r.paths s)
        Answer.link name path
      else pure other).Meets r.MayRaise fun n => n = other ∨ r.IsLinkTo s n := by
  refine (r.meets_isIndexed s.unit).bind fun indexed hindexed => ?_
  refine Meets.ite (fun h => ?_) fun _ => meets_pure (.inl rfl)
  have hfails : ∀ e, r.paths s = .error e → r.MayRaise e := fun e he => .inr (.inr ⟨s, he⟩)
  refine (meets_ofExcept_self hfails).bind fun path hpath => (meets_link name path).weaken ?_
  rintro n ⟨index, rfl⟩
  exact .inr ⟨name, path, index, rfl, h ▸ hindexed, hpath⟩

/-- Such a link leads where links may. -/
theorem meets_linkOf_declared {s : Symbol} (hs : r.catalog.Declares s) (name code : String) : (do
      if ← r.isIndexed s.unit then
        let path ← Answer.ofExcept (r.paths s)
        Answer.link name path
      else pure (.code code)).Meets r.MayRaise fun n => Prose r.LinksTo [n] := by
  refine (r.meets_linkOf s name (.code code)).weaken ?_
  rintro n (rfl | ⟨shown, target, index, rfl, hindexed, hpath⟩)
  · exact Outlined.bare rfl rfl
  · exact Outlined.link (.inr ⟨s, hs, hindexed, hpath⟩)

/-! ## Entries -/

/-- An element of a documentation leads where links may. -/
theorem linksTo_of_leadsTo (hr : r.WellBuilt) {e : Xml.Node} (he : r.Documents e) {target : String}
    (h : r.LeadsTo e target) : r.LinksTo target := by
  cases h with
  | outside htag hhref _ => exact .inl ⟨e, he, htag, hhref⟩
  | symbol _ _ _ hfind hindexed hpath =>
    have hs := r.declares_of_findSymbol hr hfind
    exact .inr ⟨_, hs, referenceUnit_eq hs ▸ hindexed, hpath⟩

theorem meets_render (hr : r.WellBuilt) (mode : Mode) {e : Option Xml.Node} (he : r.Sources e) :
    (r.render mode e).Meets r.MayRaise (Prose r.LinksTo) := by
  refine (traced_render r mode e).weaken fun f hf => ⟨hf.headings, fun l hl => ?_⟩
  obtain ⟨e', he', hleads⟩ := hf.sources.exists_source hl
  obtain ⟨n, hn, he'⟩ := Xml.Node.mem_elementsOf.1 he'
  obtain ⟨entry, hentry, hn⟩ := List.mem_flatMap.1 hn
  have hsource := he entry (Option.mem_toList.1 hentry) e'
    (Xml.Node.mem_elements_of_content (Xml.Node.mem_elementsOf.2 ⟨n, hn, he'⟩))
  exact linksTo_of_leadsTo hr hsource hleads

theorem meets_renderText (hr : r.WellBuilt) {e : Option Xml.Node} (he : r.Sources e)
    (budget : Option Int) : (r.renderText e budget).Meets r.MayRaise fun _ => True :=
  (meets_render hr .plain he).bind fun _ _ => meets_pure trivial

end Renderer

end ApiDoc
