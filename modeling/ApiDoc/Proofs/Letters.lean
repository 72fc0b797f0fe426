import ApiDoc.Proofs.Boundaries
import ApiDoc.Proofs.Cells

/-!
# The letters of markup

What normal rendering shows of markup apart from blanks (`Renderer.letters`). It shows less than plain
rendering says: of a list the items right in it, and of the items of a table their first term and their
first description. Normal rendering fails only with an error of a source or a path, and what it comes
to shows these letters (`Renderer.meets_letters`), however its texts are merged and its cells are put
on one line.
-/

namespace ApiDoc

open Document (Node Fragment shownAll shownEach shownRows)
open Text (withoutBlanks)

namespace Renderer

open Answer Markup Xml.Node

variable {r : Renderer} {e : Xml.Node}

/-! ## Letters -/

mutual

/-- The characters that normal rendering of a node shows, blanks left out. -/
def lettersNode (r : Renderer) : Xml.Node → List Char
  | .text s => withoutBlanks s
  | .element name attributes content =>
    let e : Xml.Node := .element name attributes content
    let tag := e.tag
    if containers.contains tag then letters r content
    else if tag = "para" then letters r content
    else if tag = "code" then withoutBlanks (Text.codeText e.innerText)
    else if tag = "c" then withoutBlanks e.innerText
    else if tag = "paramref" || tag = "typeparamref" then withoutBlanks ((e.attribute? "name").getD "")
    else if tag = "see" || tag = "seealso" then withoutBlanks (r.referenceText e)
    else if tag = "list" then
      if e.attribute? "type" = some "table" then lettersOfRows r content else lettersOfItems r content
    else if tag = "br" then []
    else if r.isMarker tag then []
    else withoutBlanks (Xml.write e)

def letters (r : Renderer) : List Xml.Node → List Char
  | [] => []
  | n :: rest => lettersNode r n ++ letters r rest

/-- The letters of the first element with a tag. -/
def lettersOfFirst (r : Renderer) (tag : String) : List Xml.Node → List Char
  | [] => []
  | .text _ :: rest => lettersOfFirst r tag rest
  | .element name attributes content :: rest =>
    if (Xml.Node.element name attributes content).hasTag tag then letters r content
    else lettersOfFirst r tag rest

/-- The letters of the items of a list. -/
def lettersOfItems (r : Renderer) : List Xml.Node → List Char
  | [] => []
  | .text _ :: rest => lettersOfItems r rest
  | .element name attributes content :: rest =>
    (if (Xml.Node.element name attributes content).hasTag "item" then letters r content else []) ++
      lettersOfItems r rest

/-- The letters of the terms and descriptions of a table. -/
def lettersOfRows (r : Renderer) : List Xml.Node → List Char
  | [] => []
  | .text _ :: rest => lettersOfRows r rest
  | .element name attributes content :: rest =>
    (if (Xml.Node.element name attributes content).hasTag "item" then
      lettersOfFirst r "term" content ++ lettersOfFirst r "description" content else []) ++
      lettersOfRows r rest

end

/-- Of texts, all letters are shown. -/
theorem letters_texts (r : Renderer) {f : List Xml.Node} (h : f.any Xml.Node.isElement = false) :
    r.letters f = withoutBlanks (innerTexts f) := by
  induction f with
  | nil =>
    rw [letters]
    rfl
  | cons n f ih =>
    obtain ⟨hn, hf⟩ := (by simpa [List.any_cons] using h : n.isElement = false ∧ _)
    cases n with
    | text s =>
      rw [letters, lettersNode, ih (by simpa using hf), innerTexts, innerText, Text.withoutBlanks_append]
    | element name attributes content => cases hn

/-! ## Rendering -/

/-- The heads of a table are rendered plainly, so this never fails. -/
theorem meets_tableHead (r : Renderer) (f : List Xml.Node) :
    (r.tableHead f).Meets (fun _ => False) fun _ => True := by
  have hfirst : ∀ tag f, (r.firstTagged .plain tag f).Meets (fun _ => False) fun _ => True := by
    intro tag f
    rw [firstTagged_eq]
    cases f.find? (·.hasTag tag) with
    | none => exact meets_pure trivial
    | some e => exact (r.meets_render_plain e).weaken fun _ _ => trivial
  induction f with
  | nil =>
    rw [tableHead]
    exact meets_pure trivial
  | cons n f ih =>
    cases n with
    | text s =>
      rw [tableHead]
      exact ih
    | element name attributes content =>
      rw [tableHead]
      refine Meets.ite (fun _ => ?_) fun _ => ih
      exact (hfirst _ _).bind fun _ _ => (hfirst _ _).bind fun _ _ => meets_pure trivial

mutual

theorem meets_lettersNode (r : Renderer) : ∀ n : Xml.Node,
    (r.node .normal n).Meets r.Propagates fun f => withoutBlanks (shownAll f) = r.lettersNode n
  | .text s => by
    rw [Renderer.node, lettersNode]
    exact meets_pure (by simp [Node.shown])
  | .element name attributes content => by
    have hcontent := meets_letters r content
    have hsingle : ∀ {n : Node} {cs : List Char}, withoutBlanks n.shown = cs →
        (pure [n] : Answer Fragment).Meets r.Propagates fun f => withoutBlanks (shownAll f) = cs :=
      fun hn => meets_pure (by rw [Document.shownAll_singleton, hn])
    rw [Renderer.node, lettersNode]
    refine meets_ite_shown (fun _ => hcontent) fun _ => ?_
    refine meets_ite_shown (fun _ => Meets.ite (fun h => nomatch h) fun _ => ?_) fun _ => ?_
    · -- without elements in it a paragraph is a line break before its text
      refine Meets.ite (fun _ => ?_) fun hany => meets_pure ?_
      · refine hcontent.bind fun inner hinner => meets_pure ?_
        rw [Document.shownAll_singleton, Node.shown]
        simpa using hinner
      · rw [letters_texts r (by simpa using hany), innerText]
        split
        next hempty =>
          have hflat := Text.withoutBlanks_flat (innerTexts content)
          rw [String.isEmpty_iff.1 hempty] at hflat
          exact hflat
        next => simp [shownAll, Node.shown]
    refine meets_ite_shown (fun _ => hsingle ?_) fun _ => ?_
    · simp [codeBlock, Node.shown]
    refine meets_ite_shown (fun _ => hsingle (Text.withoutBlanks_flat _)) fun _ => ?_
    refine meets_ite_shown (fun _ => hsingle rfl) fun _ => ?_
    refine meets_ite_shown (fun _ => ?_) fun _ => ?_
    · refine ((r.meets_referenceText .normal _).mono (fun _ h => h.2) fun _ => id).bind ?_
      exact fun n hn => hsingle (congrArg withoutBlanks hn)
    refine meets_ite_shown (fun _ => Meets.ite (fun h => nomatch h) fun _ => ?_) fun _ => ?_
    · refine meets_ite_shown (fun _ => ?_) fun _ => ?_
      · refine ((r.meets_tableHead content).mono (fun _ => False.elim) fun _ => id).bind fun _ _ => ?_
        exact (meets_lettersOfRows r content).bind fun rows hrows => hsingle hrows
      · exact (meets_lettersOfItems r content).bind fun items hitems => hsingle hitems
    refine meets_ite_shown (fun _ => hsingle rfl) fun _ => ?_
    refine meets_ite_shown (fun _ => meets_pure rfl) fun _ => ?_
    exact (meets_log _ _ _).bind fun _ _ => hsingle (Text.withoutBlanks_collapse _)

theorem meets_letters (r : Renderer) : ∀ f : List Xml.Node,
    (r.nodes .normal f).Meets r.Propagates fun g => withoutBlanks (shownAll g) = r.letters f
  | [] => by
    rw [Renderer.nodes, letters]
    exact meets_pure rfl
  | n :: rest => by
    rw [Renderer.nodes, letters]
    refine (meets_lettersNode r n).bind fun first hfirst => ?_
    refine (meets_letters r rest).bind fun others hothers => meets_pure ?_
    rw [Document.shownAll_append, Text.withoutBlanks_append, hfirst, hothers]

theorem meets_lettersOfFirst (r : Renderer) (tag : String) : ∀ f : List Xml.Node,
    (r.firstTagged .normal tag f).Meets r.Propagates
      fun g => withoutBlanks (shownAll g) = r.lettersOfFirst tag f
  | [] => by
    rw [firstTagged, lettersOfFirst]
    exact meets_pure rfl
  | .text _ :: rest => by
    rw [firstTagged, lettersOfFirst]
    exact meets_lettersOfFirst r tag rest
  | .element name attributes content :: rest => by
    have hothers := meets_lettersOfFirst r tag rest
    rw [firstTagged, lettersOfFirst]
    split
    · exact (meets_letters r content).bind fun inner hinner => meets_pure (by simpa using hinner)
    · exact hothers

theorem meets_lettersOfItems (r : Renderer) : ∀ f : List Xml.Node,
    (r.listItems f).Meets r.Propagates
      fun items => withoutBlanks (shownEach items) = r.lettersOfItems f
  | [] => by
    rw [listItems, lettersOfItems]
    exact meets_pure rfl
  | .text _ :: rest => by
    rw [listItems, lettersOfItems]
    exact meets_lettersOfItems r rest
  | .element name attributes content :: rest => by
    have hothers := meets_lettersOfItems r rest
    rw [listItems, lettersOfItems]
    split
    · refine (meets_letters r content).bind fun inner hinner => hothers.bind fun others hothers => ?_
      refine meets_pure ?_
      rw [← hinner, ← Document.withoutBlanks_normalize, ← hothers]
      split
      next hempty =>
        rw [List.isEmpty_iff.1 hempty]
        rfl
      next => simp [shownEach]
    · exact hothers

theorem meets_lettersOfRows (r : Renderer) : ∀ f : List Xml.Node,
    (r.tableRows f).Meets r.Propagates
      fun rows => withoutBlanks (shownRows rows) = r.lettersOfRows f
  | [] => by
    rw [tableRows, lettersOfRows]
    exact meets_pure rfl
  | .text _ :: rest => by
    rw [tableRows, lettersOfRows]
    exact meets_lettersOfRows r rest
  | .element name attributes content :: rest => by
    have hothers := meets_lettersOfRows r rest
    rw [tableRows, lettersOfRows]
    split
    · refine (meets_lettersOfFirst r "term" content).bind fun term hterm => ?_
      refine (meets_lettersOfFirst r "description" content).bind fun description hdescription => ?_
      refine hothers.bind fun others hothers => meets_pure ?_
      simp [shownRows, shownEach, hterm, hdescription, hothers]
    · exact hothers

end

end Renderer
end ApiDoc
