import ApiDoc.Proofs.Contract
import ApiDoc.Proofs.MarkupLinks
import ApiDoc.Proofs.SymbolTable
import Mathlib.Data.List.Perm.Subperm

/-!
# Where the links of rendered markup come from

A `see` or `seealso` element leads to the outside page that it names, or to the page of the symbol
that it cites, if the symbol is known and its unit indexed (`Renderer.LeadsTo`). Each link of
rendered markup comes from an element of its own that leads to its target
(`Renderer.Sourced`, `Renderer.traced_nodes`), at whatever depth the element stands. Plain rendering
comes to texts only.
-/

namespace ApiDoc

open Document (Node Fragment linksOf linksOfParts linksOfRows linksOf_normalize linksOf_inlineRun)

namespace Document

/-! ## Headings -/

def Node.isHeading : Node → Bool
  | .heading .. => true
  | _ => false

/-- The headings among the nodes of a fragment. -/
def headings (f : Fragment) : List Node := f.filter Node.isHeading

@[simp] theorem headings_nil : headings [] = [] := rfl

@[simp] theorem headings_append (f g : Fragment) : headings (f ++ g) = headings f ++ headings g :=
  List.filter_append ..

theorem headings_cons (n : Node) (f : Fragment) :
    headings (n :: f) = (if n.isHeading then [n] else []) ++ headings f := by
  rw [headings, List.filter_cons]
  split <;> rfl

theorem headings_withoutTexts (f : Fragment) : headings (withoutTexts f) = headings f := by
  rw [headings, withoutTexts, List.filter_filter, headings]
  refine List.filter_congr fun n _ => ?_
  cases n <;> rfl

@[simp] theorem headings_normalize (f : Fragment) : headings (normalize f) = headings f := by
  rw [← headings_withoutTexts, withoutTexts_normalize, headings_withoutTexts]

@[simp] theorem headings_blocksOf (f : Fragment) : headings (blocksOf f) = headings f := by
  have hparagraph : ∀ run, headings (paragraphOf run) = [] := by
    intro run
    unfold paragraphOf
    split <;> rfl
  have hfrom : ∀ f run, headings (blocksFrom run f) = headings f := by
    intro f
    induction f with
    | nil => exact hparagraph
    | cons n f ih =>
      intro run
      rw [blocksFrom]
      split
      next hn =>
        have hinline : n.isHeading = false := by
          cases n <;> simp_all [Node.isInline, Node.isHeading]
        rw [ih, headings_cons, hinline]
        rfl
      next => rw [headings_append, headings_cons, headings_cons, hparagraph, ih, List.nil_append]
  exact hfrom f []

/-! ## Texts -/

namespace AllTexts

variable {f g : Fragment}

theorem nil : AllTexts [] := fun _ h => nomatch h

theorem text (s : String) : AllTexts [.text s] := fun _ h => List.mem_singleton.1 h ▸ rfl

theorem append (hf : AllTexts f) (hg : AllTexts g) : AllTexts (f ++ g) :=
  List.forall_mem_append.2 ⟨hf, hg⟩

theorem links_eq (h : AllTexts f) : linksOf f = [] := by
  rw [linksOf_eq_flatMap, List.flatMap_eq_nil_iff]
  intro n hn
  have htext := h n hn
  cases n <;> simp_all [Node.isText, Node.links]

theorem headings_eq (h : AllTexts f) : headings f = [] := by
  refine List.filter_eq_nil_iff.2 fun n hn => ?_
  have htext := h n hn
  cases n <;> simp_all [Node.isText, Node.isHeading]

theorem normalize (h : AllTexts f) : AllTexts (Document.normalize f) := by
  rw [normalize_eq]
  exact h.mergeWithin

end AllTexts

end Document

open Document (headings AllTexts)

namespace Xml.Node

/-- The content of the first element with a tag. -/
def firstContent (tag : String) (f : List Node) : List Node := ((f.find? (·.hasTag tag)).map content).getD []

theorem firstContent_cons (tag : String) (n : Node) (f : List Node) :
    firstContent tag (n :: f) = if n.hasTag tag then n.content else firstContent tag f := by
  rw [firstContent, List.find?_cons]
  cases n.hasTag tag <;> rfl

theorem elementsOf_content_sublist (n : Node) : (elementsOf n.content).Sublist n.elements := by
  cases n with
  | text s => exact List.Sublist.slnil
  | element name attributes content =>
    rw [elements]
    exact List.sublist_cons_self _ _

theorem elementsOf_firstContent_sublist (tag : String) (f : List Node) :
    (elementsOf (firstContent tag f)).Sublist (elementsOf f) := by
  induction f with
  | nil => exact List.Sublist.slnil
  | cons n f ih =>
    rw [firstContent_cons, elementsOf]
    split
    · exact (elementsOf_content_sublist n).trans (List.sublist_append_left _ _)
    · exact ih.trans (List.sublist_append_right _ _)

/-- The contents of the first elements with two different tags have no element in common. -/
theorem elementsOf_firstContents_subperm {tag tag' : String} (hne : tag ≠ tag') (f : List Node) :
    (elementsOf (firstContent tag f) ++ elementsOf (firstContent tag' f)).Subperm
      (elementsOf f) := by
  induction f with
  | nil => exact List.Subperm.refl _
  | cons n f ih =>
    have hcontent := (elementsOf_content_sublist n).subperm
    rw [firstContent_cons, firstContent_cons, elementsOf]
    by_cases htag : n.hasTag tag = true
    · have htag' : n.hasTag tag' = false := by
        simp only [hasTag, Bool.and_eq_true, beq_iff_eq] at htag ⊢
        simp [htag.2, hne]
      rw [if_pos htag, htag', if_neg Bool.false_ne_true]
      exact hcontent.append (elementsOf_firstContent_sublist tag' f).subperm
    · rw [if_neg htag]
      by_cases htag' : n.hasTag tag' = true
      · rw [if_pos htag']
        refine List.perm_append_comm.subperm.trans ?_
        exact hcontent.append (elementsOf_firstContent_sublist tag f).subperm
      · rw [if_neg htag']
        exact ih.trans (List.sublist_append_right _ _).subperm

end Xml.Node

namespace Renderer

open Answer Markup

variable {r : Renderer} {e : Xml.Node} {mode : Mode}

/-! ## Elements that lead somewhere -/

/-- The target to which a `see` or `seealso` element leads: the outside page that it names, or the
page of the symbol that it cites, if the symbol is known and its unit indexed. -/
inductive LeadsTo (r : Renderer) (e : Xml.Node) (target : String) : Prop
  | outside : (e.tag = "see" ∨ e.tag = "seealso") → e.attribute? "href" = some target →
    target ≠ "" → LeadsTo r e target
  | symbol {key : String} {s : Symbol} : (e.tag = "see" ∨ e.tag = "seealso") → RefersBy key e →
    key.startsWith unresolvedMark = false → r.findSymbol key = some s →
    (r.isIndexed (referenceUnit s)).value = .ok true → r.paths s = .ok target → LeadsTo r e target

/-! ## Links and their sources -/

/-- Each of the links comes from an element of its own that leads to its target. -/
def Sourced (r : Renderer) (elements : List Xml.Node) (links : List (String × Nat)) : Prop :=
  ∃ sources : List Xml.Node, sources.Subperm elements ∧
    List.Forall₂ (fun e l => r.LeadsTo e l.1) sources links

namespace Sourced

variable {elements elements' : List Xml.Node} {links links' : List (String × Nat)}

theorem nil (elements : List Xml.Node) : r.Sourced elements [] := ⟨[], List.nil_subperm, .nil⟩

theorem append (h : r.Sourced elements links) (h' : r.Sourced elements' links') :
    r.Sourced (elements ++ elements') (links ++ links') := by
  obtain ⟨sources, hsub, hlead⟩ := h
  obtain ⟨sources', hsub', hlead'⟩ := h'
  exact ⟨sources ++ sources', hsub.append hsub', List.rel_append hlead hlead'⟩

theorem mono (h : r.Sourced elements links) (hsub : elements.Subperm elements') :
    r.Sourced elements' links := by
  obtain ⟨sources, hsources, hlead⟩ := h
  exact ⟨sources, hsources.trans hsub, hlead⟩

theorem exists_source (h : r.Sourced elements links) {l : String × Nat} (hl : l ∈ links) :
    ∃ e ∈ elements, r.LeadsTo e l.1 := by
  obtain ⟨sources, hsub, hlead⟩ := h
  induction hlead generalizing elements with
  | nil => cases hl
  | @cons e l' sources links hel _ ih =>
    rcases List.mem_cons.1 hl with rfl | hl
    · exact ⟨e, hsub.subset List.mem_cons_self, hel⟩
    · exact ih hl ((List.sublist_cons_self _ _).subperm.trans hsub)

end Sourced

/-- What elements of a tree are rendered as: no headings, in plain rendering texts only, and links
that come from the elements. -/
structure Traced (r : Renderer) (mode : Mode) (elements : List Xml.Node) (f : Fragment) : Prop where
  headings : headings f = []
  texts : mode = .plain → AllTexts f
  sources : r.Sourced elements (linksOf f)

namespace Traced

variable {elements elements' : List Xml.Node} {f g : Fragment} {n : Node}

theorem ofTexts (elements : List Xml.Node) (h : AllTexts f) : r.Traced mode elements f :=
  ⟨h.headings_eq, fun _ => h, h.links_eq ▸ .nil elements⟩

theorem append (hf : r.Traced mode elements f) (hg : r.Traced mode elements' g) :
    r.Traced mode (elements ++ elements') (f ++ g) where
  headings := by rw [Document.headings_append, hf.headings, hg.headings]; rfl
  texts h := (hf.texts h).append (hg.texts h)
  sources := by rw [Document.linksOf_append]; exact hf.sources.append hg.sources

theorem mono (h : r.Traced mode elements f) (hsub : elements.Subperm elements') :
    r.Traced mode elements' f := { h with sources := h.sources.mono hsub }

theorem normalize (h : r.Traced mode elements f) :
    r.Traced mode elements (Document.normalize f) where
  headings := by rw [Document.headings_normalize, h.headings]
  texts hmode := (h.texts hmode).normalize
  sources := by rw [linksOf_normalize]; exact h.sources

/-- A node that stands for itself in normal rendering. -/
theorem single (hn : n.isHeading = false) (hlinks : r.Sourced elements n.links) :
    r.Traced .normal elements [n] where
  headings := by rw [Document.headings_cons, hn]; rfl
  texts hmode := nomatch hmode
  sources := by simpa using hlinks

theorem bare (elements : List Xml.Node) (hn : n.isHeading = false) (hlinks : n.links = []) :
    r.Traced .normal elements [n] := single hn (hlinks ▸ .nil elements)

theorem codeOr (r : Renderer) (mode : Mode) (elements : List Xml.Node) (s : String) :
    r.Traced mode elements [Markup.codeOr mode s] := by
  cases mode with
  | normal => exact bare elements rfl rfl
  | plain => exact ofTexts elements (.text s)

end Traced

/-! ## References -/

theorem Mode.eq_normal (h : mode ≠ .plain) : mode = .normal := by
  cases mode with
  | normal => rfl
  | plain => exact absurd rfl h

/-- A reference by key is shown without a link, or leads to the symbol with the key. -/
theorem traced_see (r : Renderer) (mode : Mode) (htag : e.tag = "see" ∨ e.tag = "seealso") :
    (r.see mode e).Meets r.MayRaise fun n => r.Traced mode [e] [n] := by
  have hreference : ∀ {key}, RefersBy key e →
      (r.reference mode key (Text.flat e.innerText)).Meets r.MayRaise
        fun n => r.Traced mode [e] [n] := by
    intro key he
    simp only [reference]
    split
    next => exact (meets_log _ _ _).bind fun _ _ => meets_pure (.codeOr r mode _ _)
    next s hs =>
      obtain ⟨hmark, hfind⟩ : key.startsWith unresolvedMark = false ∧ r.findSymbol key = some s := by
        split at hs
        · cases hs
        next hmark => exact ⟨by simpa using hmark, hs⟩
      refine Meets.ite (fun _ => meets_pure (.ofTexts _ (.text _))) fun hmode => ?_
      obtain rfl := Mode.eq_normal hmode
      refine (r.meets_isIndexed _).bind fun indexed hindexed => ?_
      refine Meets.ite (fun h => ?_) fun _ => meets_pure (.bare _ rfl rfl)
      have hfails : ∀ e, r.paths s = .error e → r.MayRaise e := fun e he => .inr (.inr ⟨s, he⟩)
      refine (meets_ofExcept_self hfails).bind fun path hpath => (meets_link _ path).weaken ?_
      rintro n ⟨index, rfl⟩
      refine .single rfl ⟨[e], List.Subperm.refl _, .cons ?_ .nil⟩
      exact .symbol htag he hmark hfind (h ▸ hindexed) hpath
  simp only [see]
  refine Meets.ite (fun _ => meets_pure (.codeOr r mode _ _)) fun hlangword => ?_
  refine Meets.ite (fun hhref => ?_) fun hhref => ?_
  · refine Meets.ite (fun _ => meets_pure (.ofTexts _ (.text _))) fun hmode => ?_
    obtain rfl := Mode.eq_normal hmode
    refine (meets_link _ _).weaken ?_
    rintro n ⟨index, rfl⟩
    refine .single rfl ⟨[e], List.Subperm.refl _, .cons (.outside htag ?_ hhref) .nil⟩
    cases hvalue : e.attribute? "href" with
    | none => simp [hvalue] at hhref
    | some value => rfl
  · exact hreference ⟨by simpa using hlangword, by simpa using hhref, rfl⟩

theorem meets_unknown (e : Xml.Node) :
    (unknown e).Meets r.MayRaise fun f => AllTexts f :=
  (meets_log _ _ _).bind fun _ _ => meets_pure (.text _)

/-! ## Trees -/

mutual

theorem traced_node (r : Renderer) (mode : Mode) : ∀ n : Xml.Node,
    (r.node mode n).Meets r.MayRaise (r.Traced mode n.elements)
  | .text s => by
    rw [Renderer.node]
    exact meets_pure (.ofTexts _ (.text _))
  | .element name attributes content => by
    have hcontent := traced_nodes r mode content
    have hbelow : ∀ {f}, r.Traced mode (Xml.Node.elementsOf content) f →
        r.Traced mode (Xml.Node.elements (.element name attributes content)) f :=
      fun h => h.mono (Xml.Node.elementsOf_content_sublist (.element name attributes content)).subperm
    have hlinks : ∀ {links}, r.Sourced (Xml.Node.elementsOf content) links →
        r.Sourced (Xml.Node.elements (.element name attributes content)) links :=
      fun h => h.mono (Xml.Node.elementsOf_content_sublist (.element name attributes content)).subperm
    have hself : List.Subperm [Xml.Node.element name attributes content]
        (Xml.Node.elements (.element name attributes content)) := by
      rw [Xml.Node.elements]
      exact (List.singleton_sublist.2 List.mem_cons_self).subperm
    rw [Renderer.node]
    refine Meets.ite (fun _ => hcontent.weaken fun f => hbelow) fun _ => ?_
    refine Meets.ite (fun _ => ?_) fun _ => ?_
    · refine Meets.ite (fun _ => ?_) fun hmode => ?_
      · refine hcontent.bind fun inner hinner => meets_pure (hbelow ?_)
        simpa using (Traced.ofTexts [] (.text " ")).append (hinner.append (.ofTexts [] (.text " ")))
      obtain rfl := Mode.eq_normal hmode
      refine Meets.ite (fun _ => ?_) fun _ => ?_
      · refine hcontent.bind fun inner hinner => meets_pure (.single rfl (hlinks ?_))
        exact hinner.normalize.sources
      · refine meets_pure ?_
        split
        · exact .bare _ rfl rfl
        · exact (Traced.bare [] (n := .lineBreak) rfl rfl).append (.bare _ rfl rfl)
    refine Meets.ite (fun _ => meets_pure ?_) fun _ => ?_
    · cases mode with
      | normal => exact .bare _ rfl rfl
      | plain => exact .ofTexts _ (.text _)
    refine Meets.ite (fun _ => meets_pure (.codeOr ..)) fun _ => ?_
    refine Meets.ite (fun _ => meets_pure (.codeOr ..)) fun _ => ?_
    refine Meets.ite (fun htag => ?_) fun _ => ?_
    · refine (traced_see r mode (by simpa using htag)).bind fun n hn => meets_pure ?_
      exact hn.mono hself
    refine Meets.ite (fun _ => ?_) fun _ => ?_
    · refine Meets.ite (fun _ => ?_) fun hmode => ?_
      · exact (traced_itemsBelow r content).weaken fun f hf => .ofTexts _ hf
      obtain rfl := Mode.eq_normal hmode
      refine Meets.ite (fun _ => ?_) fun _ => ?_
      · refine (traced_tableHead r content).bind fun heads _ => ?_
        refine (traced_tableRows r content).bind fun rows hrows => ?_
        exact meets_pure (.single rfl (hlinks hrows))
      · refine (traced_listItems r content).bind fun items hitems => ?_
        exact meets_pure (.single rfl (hlinks hitems))
    refine Meets.ite (fun _ => meets_pure ?_) fun _ => ?_
    · cases mode with
      | normal => exact .bare _ rfl rfl
      | plain => exact .ofTexts _ (.text _)
    refine Meets.ite (fun _ => meets_pure (.ofTexts _ .nil)) fun _ => ?_
    exact (meets_unknown _).weaken fun f => .ofTexts _

theorem traced_nodes (r : Renderer) (mode : Mode) : ∀ f : List Xml.Node,
    (r.nodes mode f).Meets r.MayRaise (r.Traced mode (Xml.Node.elementsOf f))
  | [] => by
    rw [Renderer.nodes]
    exact meets_pure (.ofTexts _ .nil)
  | n :: rest => by
    rw [Renderer.nodes, Xml.Node.elementsOf]
    refine (traced_node r mode n).bind fun first hfirst => ?_
    refine (traced_nodes r mode rest).bind fun others hothers => ?_
    exact meets_pure (hfirst.append hothers)

theorem traced_firstTagged (r : Renderer) (mode : Mode) (tag : String) : ∀ f : List Xml.Node,
    (r.firstTagged mode tag f).Meets r.MayRaise
      (r.Traced mode (Xml.Node.elementsOf (Xml.Node.firstContent tag f)))
  | [] => by
    rw [Renderer.firstTagged]
    exact meets_pure (.ofTexts _ .nil)
  | .text s :: rest => by
    rw [Renderer.firstTagged, Xml.Node.firstContent_cons]
    exact traced_firstTagged r mode tag rest
  | .element name attributes content :: rest => by
    have hothers := traced_firstTagged r mode tag rest
    rw [Renderer.firstTagged, Xml.Node.firstContent_cons]
    split
    · exact (traced_nodes r mode content).bind fun inner hinner => meets_pure hinner.normalize
    · exact hothers

theorem traced_listItems (r : Renderer) : ∀ f : List Xml.Node,
    (r.listItems f).Meets r.MayRaise fun items =>
      r.Sourced (Xml.Node.elementsOf f) (linksOfParts items)
  | [] => by
    rw [Renderer.listItems]
    exact meets_pure (.nil _)
  | .text s :: rest => by
    rw [Renderer.listItems]
    exact traced_listItems r rest
  | .element name attributes content :: rest => by
    have hothers := traced_listItems r rest
    have hskip : ∀ {links}, r.Sourced (Xml.Node.elementsOf rest) links →
        r.Sourced (Xml.Node.elementsOf (.element name attributes content :: rest)) links :=
      fun h => h.mono (List.sublist_append_right _ _).subperm
    rw [Renderer.listItems]
    refine Meets.ite (fun _ => ?_) fun _ => hothers.weaken fun items => hskip
    refine (traced_nodes r .normal content).bind fun inner hinner => ?_
    refine hothers.bind fun others hothers => meets_pure ?_
    split
    · exact hskip hothers
    · have hcontent := (Xml.Node.elementsOf_content_sublist (.element name attributes content)).subperm
      exact (hinner.normalize.sources.mono hcontent).append hothers

theorem traced_tableHead (r : Renderer) : ∀ f : List Xml.Node,
    (r.tableHead f).Meets r.MayRaise fun _ => True
  | [] => by
    rw [Renderer.tableHead]
    exact meets_pure trivial
  | .text s :: rest => by
    rw [Renderer.tableHead]
    exact traced_tableHead r rest
  | .element name attributes content :: rest => by
    have hothers := traced_tableHead r rest
    rw [Renderer.tableHead]
    refine Meets.ite (fun _ => ?_) fun _ => hothers
    exact (traced_firstTagged r .plain "term" content).bind fun _ _ =>
      (traced_firstTagged r .plain "description" content).bind fun _ _ => meets_pure trivial

theorem traced_tableRows (r : Renderer) : ∀ f : List Xml.Node,
    (r.tableRows f).Meets r.MayRaise fun rows =>
      r.Sourced (Xml.Node.elementsOf f) (linksOfRows rows)
  | [] => by
    rw [Renderer.tableRows]
    exact meets_pure (.nil _)
  | .text s :: rest => by
    rw [Renderer.tableRows]
    exact traced_tableRows r rest
  | .element name attributes content :: rest => by
    have hothers := traced_tableRows r rest
    rw [Renderer.tableRows]
    refine Meets.ite (fun _ => ?_) fun _ => hothers.weaken fun rows h =>
      h.mono (List.sublist_append_right _ _).subperm
    refine (traced_firstTagged r .normal "term" content).bind fun term hterm => ?_
    refine (traced_firstTagged r .normal "description" content).bind fun description hdescription => ?_
    refine hothers.bind fun others hothers => meets_pure ?_
    -- the description may stand before the term, but not within it
    have hcontent := (Xml.Node.elementsOf_firstContents_subperm
      (show "term" ≠ "description" by decide) content).trans
      (Xml.Node.elementsOf_content_sublist (.element name attributes content)).subperm
    have hcells := (hterm.sources.append hdescription.sources).mono hcontent
    simp only [Document.linksOfRows_cons, Document.linksOfParts_cons, Document.linksOfParts_nil,
      linksOf_inlineRun, List.append_nil]
    exact hcells.append hothers

theorem traced_itemsBelow (r : Renderer) : ∀ f : List Xml.Node,
    (r.itemsBelow f).Meets r.MayRaise fun f => AllTexts f
  | [] => by
    rw [Renderer.itemsBelow]
    exact meets_pure .nil
  | .text s :: rest => by
    rw [Renderer.itemsBelow]
    exact traced_itemsBelow r rest
  | .element name attributes content :: rest => by
    have hbelow := traced_itemsBelow r content
    have hothers := traced_itemsBelow r rest
    have hmore : ∀ own : Fragment, AllTexts own → (do
        let below ← r.itemsBelow content
        let others ← r.itemsBelow rest
        pure (own ++ below ++ others)).Meets r.MayRaise fun f => AllTexts f :=
      fun own hown => hbelow.bind fun below hbelow => hothers.bind fun others hothers =>
        meets_pure ((hown.append hbelow).append hothers)
    rw [Renderer.itemsBelow]
    refine Meets.ite (fun _ => ?_) fun _ => (meets_pure .nil).bind hmore
    refine (traced_nodes r .plain content).bind fun inner hinner => Meets.bind (meets_pure ?_) hmore
    exact (AllTexts.text " ").append (hinner.texts rfl)

end

theorem traced_render (r : Renderer) (mode : Mode) (e : Option Xml.Node) :
    (r.render mode e).Meets r.MayRaise
      (r.Traced mode (Xml.Node.elementsOf (e.toList.flatMap Xml.Node.content))) := by
  unfold render
  split
  · exact meets_pure (.ofTexts _ .nil)
  next n =>
    refine (traced_nodes r mode n.content).bind fun inner hinner => meets_pure ?_
    simpa using hinner.normalize

end Renderer

end ApiDoc
