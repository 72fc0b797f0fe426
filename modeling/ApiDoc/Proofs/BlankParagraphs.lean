import ApiDoc.Proofs.Letters

/-!
# Blank paragraphs

Each run of inline nodes in a section becomes a paragraph. A run is cleaned up before that, on its own,
since a block parts the texts on its two sides; so there is no paragraph for a run of blanks at an edge
of the section, and there is one for a run of blanks between two blocks. `Renderer.IsBlankRun` says which
runs of markup make a blank paragraph, and `Renderer.blankParagraphs_render` that these runs and the
`para` elements that hold elements and show nothing are all that make one.
-/

namespace ApiDoc

open Text (withoutBlanks)

namespace Document

variable {f g : Fragment} {b : Node}

/-! ## Runs of inline nodes -/

/-- There is a paragraph that shows nothing. -/
def HasBlankParagraph (f : Fragment) : Prop := ∃ p, .paragraph p ∈ f ∧ plainText p = ""

theorem blocksFrom_append (hf : IsLine f) (run rest : Fragment) :
    blocksFrom run (f ++ rest) = blocksFrom (run ++ f) rest := by
  induction f generalizing run with
  | nil => rw [List.nil_append, List.append_nil]
  | cons n f ih =>
    obtain ⟨hn, hf⟩ := isLine_cons.1 hf
    rw [List.cons_append, blocksFrom, if_pos hn, ih hf, List.append_assoc, List.singleton_append]

theorem blocksOf_line (hf : IsLine f) : blocksOf f = paragraphOf f := by
  have h := blocksFrom_append hf [] []
  rwa [List.append_nil, List.nil_append, blocksFrom] at h

/-- Inline nodes before a block are a run of their own. -/
theorem blocksOf_append_cons (hf : IsLine f) (hb : b.isInline = false) (rest : Fragment) :
    blocksOf (f ++ b :: rest) = paragraphOf f ++ b :: blocksOf rest := by
  rw [blocksOf, blocksFrom_append hf, List.nil_append, blocksFrom, if_neg (by simp [hb]), blocksOf]

theorem hasBlankParagraph_append :
    HasBlankParagraph (f ++ g) ↔ HasBlankParagraph f ∨ HasBlankParagraph g := by
  simp only [HasBlankParagraph, List.mem_append, or_and_right, exists_or]

theorem hasBlankParagraph_cons :
    HasBlankParagraph (b :: f) ↔ HasBlankParagraph [b] ∨ HasBlankParagraph f :=
  hasBlankParagraph_append (f := [b])

theorem hasBlankParagraph_paragraph : HasBlankParagraph [.paragraph f] ↔ plainText f = "" := by
  simp [HasBlankParagraph]

theorem hasBlankParagraph_paragraphOf :
    HasBlankParagraph (paragraphOf f) ↔ f ≠ [] ∧ plainText f = "" := by
  cases f with
  | nil => simp [HasBlankParagraph, paragraphOf]
  | cons n f =>
    rw [paragraphOf, List.isEmpty_cons, if_neg Bool.false_ne_true, hasBlankParagraph_paragraph]
    simp

end Document

/-! ## Markup without containers -/

namespace Xml.Node

open Markup

mutual

/-- A node, or what is opened in it if it is a container. -/
def openedNode : Node → List Node
  | .text s => [.text s]
  | .element name attributes content =>
    if containers.contains name.display then opened content else [.element name attributes content]

/-- The nodes, with what a container holds in its place. -/
def opened : List Node → List Node
  | [] => []
  | n :: rest => openedNode n ++ opened rest

end

/-- The elements that normal rendering makes a block of. -/
def isBlock (n : Node) : Bool :=
  n.tag = "code" || n.tag = "list" || n.tag = "para" && n.content.any isElement

/-- The elements that stand in a line and are more than text there, if they are no blocks. -/
def lineTags : List String := ["para", "c", "paramref", "typeparamref", "see", "seealso", "br"]

theorem not_container_of_mem_opened {n : Node} {f : List Node} (h : n ∈ opened f) :
    containers.contains n.tag = false := by
  induction f using contentInduction with
  | nil => cases h
  | text s rest ih =>
    rw [opened, openedNode] at h
    rcases List.mem_cons.1 h with rfl | h
    · rfl
    · exact ih h
  | element name attributes content rest ihcontent ih =>
    rw [opened, openedNode] at h
    split at h
    next =>
      exact (List.mem_append.1 h).elim ihcontent ih
    next htag =>
      rcases List.mem_cons.1 h with rfl | h
      · exact Bool.eq_false_iff.2 htag
      · exact ih h

end Xml.Node

namespace Renderer

open Answer Markup Xml.Node
open Document (Node Fragment AllTexts IsLine HasBlankParagraph shownAll plainText mergeWithin blocksOf
  paragraphOf)

variable {r : Renderer} {n : Xml.Node} {run run' : List Xml.Node} {f g : Fragment}

/-- A container adds nothing to what is in it. -/
theorem nodes_opened (r : Renderer) (mode : Mode) (f : List Xml.Node) :
    r.nodes mode (opened f) = r.nodes mode f := by
  induction f using contentInduction with
  | nil => rw [opened]
  | text s rest ih => rw [opened, openedNode, List.singleton_append, nodes_cons, ih, nodes_cons]
  | element name attributes content rest ihcontent ih =>
    rw [opened, openedNode]
    split
    next htag =>
      have hnode : r.node mode (.element name attributes content) = r.nodes mode content :=
        node_container r mode htag
      rw [nodes_append, ihcontent, ih, nodes_cons, hnode]
    next => rw [List.singleton_append, nodes_cons, ih, nodes_cons]

theorem comes_inTurn {a b : Answer Fragment} {h : Fragment} (hh : (inTurn a b).Comes h) :
    ∃ f g, a.Comes f ∧ b.Comes g ∧ h = f ++ g := by
  obtain ⟨f, hf, hh⟩ := hh.bind
  obtain ⟨g, hg, hh⟩ := hh.bind
  exact ⟨f, g, hf, hg, hh.eq.symm⟩

/-! ## Lines of markup -/

/-- What is rendered of nodes without blocks and containers: inline nodes, only texts if none of the
elements is more than text, and then no more than empty texts if that is what the nodes are. -/
structure IsRun (run : List Xml.Node) (f : Fragment) : Prop where
  isLine : IsLine f
  allTexts : AllTexts f ↔ ∀ n ∈ run, n.tag ∉ lineTags
  shown : withoutBlanks (shownAll f) = [] → AllTexts f →
    (shownAll f = "" ↔ ∀ s, .text s ∈ run → s = "")

namespace IsRun

theorem nil : IsRun [] [] where
  isLine := nofun
  allTexts := iff_of_true nofun nofun
  shown _ _ := iff_of_true rfl nofun

theorem append (h : IsRun run f) (h' : IsRun run' g) : IsRun (run ++ run') (f ++ g) where
  isLine := Document.isLine_append.2 ⟨h.isLine, h'.isLine⟩
  allTexts := by
    rw [List.forall_mem_append, ← h.allTexts, ← h'.allTexts]
    exact List.forall_mem_append
  shown hblank htexts := by
    rw [Document.shownAll_append, Text.withoutBlanks_append, List.append_eq_nil_iff] at hblank
    obtain ⟨hf, hg⟩ := List.forall_mem_append.1 htexts
    rw [Document.shownAll_append, String.append_eq_empty_iff, h.shown hblank.1 hf, h'.shown hblank.2 hg]
    simp [or_imp, forall_and]

theorem text (s : String) : IsRun [.text s] [.text (Text.collapse s)] where
  isLine := List.forall_mem_singleton.2 rfl
  allTexts := iff_of_true (List.forall_mem_singleton.2 rfl)
    (List.forall_mem_singleton.2 (show "" ∉ lineTags by decide))
  shown _ _ := by
    rw [Document.shownAll_singleton, Node.shown]
    simp only [List.mem_singleton, Xml.Node.text.injEq, forall_eq]
    refine ⟨Text.collapse_eq_empty, ?_⟩
    rintro rfl
    rfl

/-- An element that begins with a mark or a line break. -/
theorem mark {m : Node} (htag : n.tag ∈ lineTags) (hm : m.isInline = true) (hnot : m.isText = false)
    (hf : IsLine f) : IsRun [n] (m :: f) where
  isLine := Document.isLine_cons.2 ⟨hm, hf⟩
  allTexts := iff_of_false (fun h => by simp [h m List.mem_cons_self] at hnot)
    fun h => h n List.mem_cons_self htag
  shown _ htexts := by simp [htexts m List.mem_cons_self] at hnot

/-- An element that is left out. -/
theorem leftOut (he : n.isElement = true) (htag : n.tag ∉ lineTags) : IsRun [n] [] where
  isLine := nofun
  allTexts := iff_of_true nofun (List.forall_mem_singleton.2 htag)
  shown _ _ := by
    refine iff_of_true rfl fun s hs => ?_
    rw [← List.mem_singleton.1 hs] at he
    cases he

/-- An element that is written out. -/
theorem written {s : String} (htag : n.tag ∉ lineTags) (hs : withoutBlanks s ≠ []) :
    IsRun [n] [.text s] where
  isLine := List.forall_mem_singleton.2 rfl
  allTexts := iff_of_true (List.forall_mem_singleton.2 rfl) (List.forall_mem_singleton.2 htag)
  shown hblank _ := by
    rw [Document.shownAll_singleton] at hblank
    exact absurd hblank hs

end IsRun

/-- An element that is written out shows at least the bracket it opens with. -/
theorem withoutBlanks_write (name : Xml.Name) (attributes : Xml.Attributes) (content : List Xml.Node) :
    withoutBlanks (Text.collapse (Xml.write (.element name attributes content))) ≠ [] := by
  have hopen : withoutBlanks "<" = ['<'] := by decide
  rw [Text.withoutBlanks_collapse, Xml.write, Xml.writeNode]
  split <;> simp [hopen]

/-- A reference is a mark in its line. -/
theorem isMark_see (r : Renderer) (e : Xml.Node) :
    (r.see .normal e).Meets (fun _ => True) fun n => n.isMark = true := by
  simp only [see, reference]
  have hlink : ∀ s target, (link s target).Meets (fun _ => True) fun n => n.isMark = true := by
    intro s target
    refine (meets_link s target).weaken ?_
    rintro n ⟨index, rfl⟩
    rfl
  split
  · exact meets_pure rfl
  split
  · exact hlink _ _
  split
  · exact (meets_log _ _ _).bind fun _ _ => meets_pure rfl
  · refine Meets.ite (fun h => absurd h (by decide)) fun _ => ?_
    refine ((r.meets_isIndexed_propagates _).mono (fun _ _ => trivial) fun _ => id).bind fun _ _ => ?_
    refine Meets.ite (fun _ => ?_) fun _ => meets_pure rfl
    exact (meets_ofExcept_self fun _ _ => trivial).bind fun _ _ => hlink _ _

theorem isRun_node (r : Renderer) (hn : containers.contains n.tag = false) (hb : n.isBlock = false) :
    (r.node .normal n).Meets (fun _ => True) fun f => IsRun [n] f := by
  cases n with
  | text s =>
    rw [Renderer.node]
    exact meets_pure (.text s)
  | element name attributes content =>
    have hline : ∀ {tag : String}, tag ∈ lineTags → (Xml.Node.element name attributes content).tag = tag →
        (Xml.Node.element name attributes content).tag ∈ lineTags := fun h htag => htag ▸ h
    have hmark : ∀ {m : Node}, (Xml.Node.element name attributes content).tag ∈ lineTags →
        m.isInline = true → m.isText = false → (pure [m] : Answer Fragment).Meets (fun _ => True)
          fun f => IsRun [.element name attributes content] f :=
      fun htag hm hnot => meets_pure (.mark htag hm hnot nofun)
    rw [Renderer.node]
    -- the cases are those of the renderer; what is a container or a block is ruled out
    refine Meets.ite (fun h => absurd h (Bool.eq_false_iff.1 hn)) fun _ => ?_
    refine Meets.ite (fun htag => ?_) fun hpara => ?_
    · have htag := hline (by decide) htag
      refine Meets.ite (fun h => absurd h (by decide)) fun _ => ?_
      refine Meets.ite (fun hany => ?_) fun _ => meets_pure ?_
      · exact absurd hb (by simp_all [isBlock, Xml.Node.content])
      · split
        · exact .mark htag rfl rfl nofun
        · exact .mark htag rfl rfl (List.forall_mem_singleton.2 rfl)
    refine Meets.ite (fun htag => absurd hb (by simp [isBlock, htag])) fun _ => ?_
    refine Meets.ite (fun htag => hmark (hline (by decide) htag) rfl rfl) fun hc => ?_
    refine Meets.ite (fun htag => hmark ?_ rfl rfl) fun hparam => ?_
    · rcases (by simpa using htag : _ ∨ _) with htag | htag <;> exact hline (by decide) htag
    refine Meets.ite (fun htag => ?_) fun hsee => ?_
    · refine (isMark_see r _).bind fun m hm => hmark ?_ ?_ ?_
      · rcases (by simpa using htag : _ ∨ _) with htag | htag <;> exact hline (by decide) htag
      · cases m <;> first | rfl | cases hm
      · cases m <;> first | rfl | cases hm
    refine Meets.ite (fun htag => absurd hb (by simp [isBlock, htag])) fun _ => ?_
    refine Meets.ite (fun htag => hmark (hline (by decide) htag) rfl rfl) fun hbr => ?_
    have hother : (Xml.Node.element name attributes content).tag ∉ lineTags := by
      simp_all [lineTags]
    refine Meets.ite (fun _ => meets_pure (.leftOut rfl hother)) fun _ => ?_
    exact (meets_log _ _ _).bind fun _ _ => meets_pure (.written hother (withoutBlanks_write _ _ _))

/-- Nodes without blocks and containers make a run. -/
theorem isRun_nodes (r : Renderer) (h : ∀ n ∈ run, containers.contains n.tag = false ∧ n.isBlock = false) :
    (r.nodes .normal run).Meets (fun _ => True) fun f => IsRun run f := by
  induction run with
  | nil =>
    rw [Renderer.nodes]
    exact meets_pure .nil
  | cons n run ih =>
    obtain ⟨hn, hrun⟩ := List.forall_mem_cons.1 h
    rw [nodes_cons]
    refine (isRun_node r hn.1 hn.2).bind fun f hf => (ih hrun).bind fun g hg => meets_pure ?_
    exact hf.append hg

/-- A run of nodes between blocks is not cleaned up to nothing and shows nothing still: there is an
element in it that is more than text, or it is texts between two blocks. -/
def IsBlankRun (r : Renderer) (first last : Bool) (run : List Xml.Node) : Prop :=
  r.letters run = [] ∧ ((∃ n ∈ run, n.tag ∈ lineTags) ∨
    first = false ∧ last = false ∧ ∃ s, .text s ∈ run ∧ s ≠ "")

theorem hasBlankParagraph_run (h : ∀ n ∈ run, containers.contains n.tag = false ∧ n.isBlock = false)
    (hf : (r.nodes .normal run).Comes f) (first last : Bool) :
    HasBlankParagraph (paragraphOf (mergeWithin first last f)) ↔ r.IsBlankRun first last run := by
  have hrun := hf.meets (isRun_nodes r h)
  have hletters := hf.meets (r.meets_letters run)
  rw [Document.hasBlankParagraph_paragraphOf, plainText, Text.flat_eq_empty_iff,
    Document.withoutBlanks_mergeWithin, hletters, and_comm, IsBlankRun]
  refine and_congr_right fun hblank => ?_
  rw [Ne, Document.mergeWithin_eq_nil_iff]
  by_cases htexts : AllTexts f
  · have hnone : ¬∃ n ∈ run, n.tag ∈ lineTags := by simpa using hrun.allTexts.1 htexts
    have hempty := hrun.shown (hletters.trans hblank) htexts
    have hline : plainText f = "" := Text.flat_eq_empty_iff.2 (hletters.trans hblank)
    cases first <;> cases last <;> simp [htexts, hnone, hempty, hline]
  · refine iff_of_true (fun h => htexts h.1) (.inl ?_)
    simpa using mt hrun.allTexts.2 htexts

/-! ## Blocks of markup -/

/-- A `para` that holds elements and shows nothing. -/
def IsBlankPara (r : Renderer) (p : Xml.Node) : Prop :=
  p.tag = "para" ∧ p.isBlock = true ∧ r.letters p.content = []

/-- A block is one node, and a blank paragraph only if it is a `para` that shows nothing. -/
theorem block_node (r : Renderer) (hb : n.isBlock = true) (hf : (r.node .normal n).Comes f) :
    ∃ b, f = [b] ∧ b.isInline = false ∧ (HasBlankParagraph [b] ↔ r.IsBlankPara n) := by
  rw [IsBlankPara, hb]
  simp only [isBlock, Bool.or_eq_true, Bool.and_eq_true, decide_eq_true_eq] at hb
  have hnot : n.tag ≠ "para" → ∀ {b : Node}, b.isInline = false → (∀ p, b ≠ .paragraph p) →
      b.isInline = false ∧
        (HasBlankParagraph [b] ↔ n.tag = "para" ∧ true = true ∧ r.letters n.content = []) := by
    intro htag b hb hp
    refine ⟨hb, iff_of_false ?_ fun h => htag h.1⟩
    rintro ⟨p, hmem, -⟩
    exact hp p (List.mem_singleton.1 hmem).symm
  rcases hb with (htag | htag) | ⟨htag, hany⟩
  · rw [node_code r .normal htag] at hf
    exact ⟨_, hf.eq.symm, hnot (by simp [htag]) rfl nofun⟩
  · rw [node_list r .normal htag, if_neg (by decide)] at hf
    split at hf
    · obtain ⟨heads, -, hf⟩ := hf.bind
      obtain ⟨rows, -, hf⟩ := hf.bind
      exact ⟨_, hf.eq.symm, hnot (by simp [htag]) rfl nofun⟩
    · obtain ⟨items, -, hf⟩ := hf.bind
      exact ⟨_, hf.eq.symm, hnot (by simp [htag]) rfl nofun⟩
  · rw [node_para r .normal htag, if_neg (by decide), if_pos hany] at hf
    obtain ⟨inner, hinner, hf⟩ := hf.bind
    refine ⟨_, hf.eq.symm, rfl, ?_⟩
    rw [Document.hasBlankParagraph_paragraph, Document.plainText_normalize, plainText,
      Text.flat_eq_empty_iff, hinner.meets (r.meets_letters n.content)]
    simp [htag]

/-- The blank paragraphs of nodes without containers, `first` if nothing stands before them: a `para`
among them, or a run between the blocks. -/
theorem hasBlankParagraph_blocksOf {l : List Xml.Node}
    (hl : ∀ n ∈ l, containers.contains n.tag = false) (hf : (r.nodes .normal l).Comes f) (first : Bool) :
    HasBlankParagraph (blocksOf (mergeWithin first true f)) ↔
      (∃ p ∈ l, r.IsBlankPara p) ∨
      ∃ before run after, l.splitOnP isBlock = before ++ run :: after ∧
        r.IsBlankRun (first && before.isEmpty) after.isEmpty run := by
  have hno : ∀ {run : List Xml.Node}, (∀ n ∈ run, n.isBlock = false) →
      ¬∃ p ∈ run, r.IsBlankPara p := by
    rintro run hrun ⟨p, hp, -, hblock, -⟩
    rw [hrun p hp] at hblock
    cases hblock
  induction l using partInduction isBlock generalizing first f with
  | part l hpart =>
    have hrun := fun n hn => And.intro (hl n hn) (hpart n hn)
    rw [Document.blocksOf_line ((hf.meets (isRun_nodes r hrun)).isLine.mergeWithin first true),
      hasBlankParagraph_run hrun hf, List.splitOnP_eq_singleton hpart, exists_append_cons_iff,
      or_iff_right (hno hpart)]
    simp
  | separated run b rest hpart hb ih =>
    obtain ⟨hlrun, hlrest⟩ := List.forall_mem_append.1 hl
    have hrun := fun n hn => And.intro (hlrun n hn) (hpart n hn)
    rw [nodes_append, nodes_cons] at hf
    obtain ⟨line, others, hline, hothers, rfl⟩ := comes_inTurn hf
    obtain ⟨block, g, hblock, hg, rfl⟩ := comes_inTurn hothers
    obtain ⟨m, rfl, hm, hblank⟩ := block_node r hb hblock
    have htext : m.isText = false := by cases m <;> first | rfl | cases hm
    have hinline := (hline.meets (isRun_nodes r hrun)).isLine
    have hafter : HasBlankParagraph (blocksOf (mergeWithin false true g)) ↔ _ :=
      ih (fun n hn => hlrest n (List.mem_cons_of_mem _ hn)) hg false
    -- the block keeps the texts on its two sides apart, in clean-up and in the paragraphs
    rw [List.singleton_append, Document.mergeWithin_append_cons htext,
      Document.blocksOf_append_cons (hinline.mergeWithin first false) hm,
      Document.hasBlankParagraph_append, Document.hasBlankParagraph_cons,
      hasBlankParagraph_run hrun hline, hblank, hafter,
      List.splitOnP_append_cons_of_forall_mem hpart _ hb, exists_append_cons_iff]
    have hsome : (rest.splitOnP isBlock).isEmpty = false := by simp
    simp only [List.mem_append, List.mem_cons, or_and_right, exists_or, exists_eq_left, hno hpart, hsome,
      List.isEmpty_nil, List.isEmpty_cons, Bool.and_true, Bool.and_false, Bool.false_and, false_or]
    exact or_left_comm.trans ((or_congr_right or_left_comm).trans or_assoc.symm)

/-- Normal rendering of an element makes a blank paragraph exactly of a `para` that holds elements and
shows nothing, and of a run between blocks that shows nothing and is not cleaned up to nothing. -/
theorem blankParagraphs_render (r : Renderer) (e : Xml.Node) :
    (r.render .normal (some e)).Meets r.Propagates fun f =>
      (HasBlankParagraph (blocksOf f) ↔
        (∃ p ∈ opened e.content, r.IsBlankPara p) ∨
        ∃ before run after, (opened e.content).splitOnP isBlock = before ++ run :: after ∧
          r.IsBlankRun before.isEmpty after.isEmpty run) := by
  refine (Meets.comes (r.meets_letters e.content)).bind fun inner hinner => ?_
  rw [← nodes_opened] at hinner
  refine meets_pure ?_
  exact hasBlankParagraph_blocksOf (fun n => not_container_of_mem_opened) hinner true

/-- Two blocks of code, each in a line of its own. -/
def lesson : Xml.Node :=
  .element (.plain "remarks") [] [
    .text "\n  ", .element (.plain "code") [] [.text "sit();"],
    .text "\n  ", .element (.plain "code") [] [.text "stay();"], .text "\n"]

/-- The line end and the indentation between the blocks make a paragraph. -/
theorem hasBlankParagraph_lesson :
    ∃ f, (bare.render .normal (some lesson)).Comes f ∧ HasBlankParagraph (blocksOf f) := by
  have hrender : (bare.render .normal (some lesson)).result {} =
      (.ok [.codeBlock "sit();" "cs", .text " ", .codeBlock "stay();" "cs"], {}) := by cbv
  refine ⟨_, ⟨{}, {}, hrender⟩, [.text " "], ?_, by cbv⟩
  exact List.mem_cons_of_mem _ List.mem_cons_self

end Renderer
end ApiDoc
