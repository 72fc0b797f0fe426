import Mathlib
import ApiDoc.Proofs.PageBlocks
import ApiDoc.Proofs.Spoken

/-!
# Where words are kept apart

What is rendered before an element and after it stands directly around what the element shows,
whatever containers and paragraphs it is in (`Renderer.Lies`, `Renderer.Lies.result`): a container
adds nothing, and a paragraph a blank at each of its ends. So words of different blocks are kept apart
by the blanks that the blocks show themselves, and by nothing else (`Renderer.words_around`). A
paragraph that is no more than a line break before its text, code in plain rendering, and the last
part of a list show none at their end.
-/

namespace ApiDoc

open Document (Node Fragment shownAll)
open Text (Alike)

namespace Renderer

open Answer Markup Xml.Node

variable {r : Renderer} {mode : Mode} {b e : Xml.Node} {content before after : List Xml.Node}
  {j j' : Journal} {f g : Fragment}

/-! ## Elements by their tags -/

theorem node_container (r : Renderer) (mode : Mode) (h : containers.contains e.tag = true) :
    r.node mode e = r.nodes mode e.content := by
  obtain ⟨name, attributes, content, rfl⟩ := exists_container h
  rw [Renderer.node]
  exact if_pos h

theorem node_para (r : Renderer) (mode : Mode) (h : e.tag = "para") :
    r.node mode e =
      if mode = .plain then do
        let inner ← r.nodes mode e.content
        pure (.text " " :: inner ++ [.text " "])
      else if e.content.any Xml.Node.isElement then do
        let inner ← r.nodes mode e.content
        pure [.paragraph (Document.normalize inner)]
      else
        let words := Text.flat e.innerText
        pure (if words.isEmpty then [.lineBreak] else [.lineBreak, .text words]) := by
  obtain ⟨name, attributes, content, rfl⟩ := exists_element h (by decide)
  rw [Renderer.node, h]
  rfl

theorem node_code (r : Renderer) (mode : Mode) (h : e.tag = "code") :
    r.node mode e = pure [r.codeBlock mode e] := by
  obtain ⟨name, attributes, content, rfl⟩ := exists_element h (by decide)
  rw [Renderer.node, h]
  rfl

theorem node_list (r : Renderer) (mode : Mode) (h : e.tag = "list") :
    r.node mode e =
      if mode = .plain then r.itemsBelow e.content
      else if e.attribute? "type" = some "table" then (do
        let heads ← r.tableHead e.content
        let rows ← r.tableRows e.content
        pure [.table heads rows])
      else (do
        let items ← r.listItems e.content
        pure [.bullets items]) := by
  obtain ⟨name, attributes, content, rfl⟩ := exists_element h (by decide)
  rw [Renderer.node, h]
  rfl

/-! ## Content in parts -/

/-- Both parts, one after the other. -/
def inTurn (a b : Answer Fragment) : Answer Fragment := do
  let first ← a
  let others ← b
  pure (first ++ others)

theorem nodes_append (r : Renderer) (mode : Mode) (f g : List Xml.Node) :
    r.nodes mode (f ++ g) = inTurn (r.nodes mode f) (r.nodes mode g) := by
  induction f with
  | nil => simp [nodes, inTurn]
  | cons n f ih => simp [nodes, inTurn, ih, -List.append_assoc, ← List.append_assoc]

theorem nodes_cons (r : Renderer) (mode : Mode) (n : Xml.Node) (f : List Xml.Node) :
    r.nodes mode (n :: f) = inTurn (r.node mode n) (r.nodes mode f) := by
  rw [Renderer.nodes]
  rfl

theorem nodes_texts (r : Renderer) (mode : Mode) (texts : List String) :
    r.nodes mode (texts.map .text) = pure (texts.map fun s => .text (Text.collapse s)) := by
  induction texts with
  | nil =>
    rw [List.map_nil, Renderer.nodes]
    rfl
  | cons s texts ih =>
    rw [List.map_cons, nodes_cons, ih, Renderer.node]
    rfl

theorem result_inTurn {a b : Answer Fragment} {F : Fragment} :
    (inTurn a b).result j = (.ok F, j') ↔
      ∃ f g j₁, a.result j = (.ok f, j₁) ∧ b.result j₁ = (.ok g, j') ∧ F = f ++ g := by
  constructor
  · intro h
    obtain ⟨f, j₁, hf, h⟩ := result_bind_eq_ok.1 h
    obtain ⟨g, j₂, hg, h⟩ := result_bind_eq_ok.1 h
    cases h
    exact ⟨f, g, j₁, hf, hg, rfl⟩
  · rintro ⟨f, g, j₁, hf, hg, rfl⟩
    exact result_bind_eq_ok.2 ⟨f, j₁, hf, result_bind_eq_ok.2 ⟨g, j', hg, rfl⟩⟩

/-! ## Surroundings -/

/-- What is rendered at the ends of an element that is rendered as what it contains: nothing, or a
blank if it is a paragraph. -/
inductive Edge : String → List Xml.Node → Prop
  | container {tag : String} : containers.contains tag = true → Edge tag []
  | para : Edge "para" [.text " "]

/-- An element stands in the content of another one, within containers and paragraphs only. What
stands before and after it is what is rendered there. -/
inductive Lies (b : Xml.Node) : (content before after : List Xml.Node) → Prop
  | here (before after : List Xml.Node) : b.isElement = true →
    Lies b (before ++ b :: after) before after
  | within {e : Xml.Node} {before after edge : List Xml.Node} (front back : List Xml.Node) :
    Edge e.tag edge → Lies b e.content before after →
    Lies b (front ++ e :: back) (front ++ (edge ++ before)) (after ++ (edge ++ back))

theorem Edge.isElement {edge : List Xml.Node} (h : Edge e.tag edge) : e.isElement = true := by
  generalize htag : e.tag = tag at h
  cases h with
  | container h =>
    obtain ⟨name, attributes, content, rfl⟩ := exists_container (htag ▸ h)
    rfl
  | para =>
    obtain ⟨name, attributes, content, rfl⟩ := exists_element htag (by decide)
    rfl

theorem Lies.any_isElement (h : Lies b content before after) :
    content.any Xml.Node.isElement = true := by
  cases h with
  | here before after hb => simp [hb]
  | within front back hedge => simp [hedge.isElement]

/-- What is rendered at the ends of an element stands around what it contains. -/
theorem Edge.result {edge : List Xml.Node} (h : Edge e.tag edge)
    (hcontent : e.content.any Xml.Node.isElement = true)
    (hf : (r.node mode e).result j = (.ok f, j')) :
    ∃ ends inner, (∀ j, (r.nodes mode edge).result j = (.ok ends, j)) ∧
      (r.nodes mode e.content).result j = (.ok inner, j') ∧
      Alike (shownAll f) (shownAll ends ++ shownAll inner ++ shownAll ends) := by
  generalize htag : e.tag = tag at h
  cases h with
  | container h =>
    rw [node_container r mode (htag ▸ h)] at hf
    refine ⟨[], f, fun j => by rw [Renderer.nodes]; rfl, hf, .of_eq ?_⟩
    rw [shownAll, String.empty_append, String.append_empty]
  | para =>
    have hends : ∀ j, (r.nodes mode [.text " "]).result j = (.ok [.text " "], j) := by
      intro j
      rw [nodes_cons, Renderer.node, Renderer.nodes]
      rfl
    have hspace : shownAll [.text " "] = " " := Document.shownAll_singleton _
    rw [node_para r mode htag, if_pos hcontent] at hf
    refine ⟨[.text " "], ?_⟩
    split at hf
    · obtain ⟨inner, j₁, hinner, hf⟩ := result_bind_eq_ok.1 hf
      cases hf
      refine ⟨inner, hends, hinner, .of_eq ?_⟩
      rw [List.cons_append, shownAll, Document.shownAll_append, hspace, ← String.append_assoc]
      rfl
    · obtain ⟨inner, j₁, hinner, hf⟩ := result_bind_eq_ok.1 hf
      cases hf
      refine ⟨inner, hends, hinner, ?_⟩
      rw [Document.shownAll_singleton, Node.shown, hspace]
      exact Document.alike_normalize inner

/-- What an element contains is what stands before an element in it, that element, and what stands
after it. -/
theorem Lies.result (h : Lies b content before after) {F : Fragment}
    (hF : (r.nodes mode content).result j = (.ok F, j')) :
    ∃ f g k j₁ j₂, (r.nodes mode before).result j = (.ok f, j₁) ∧
      (r.node mode b).result j₁ = (.ok g, j₂) ∧ (r.nodes mode after).result j₂ = (.ok k, j') ∧
      Alike (shownAll F) (shownAll f ++ shownAll g ++ shownAll k) := by
  induction h generalizing j j' F with
  | here before after hb =>
    rw [nodes_append, nodes_cons] at hF
    obtain ⟨f, rest, j₁, hf, hrest, rfl⟩ := result_inTurn.1 hF
    obtain ⟨g, k, j₂, hg, hk, rfl⟩ := result_inTurn.1 hrest
    refine ⟨f, g, k, j₁, j₂, hf, hg, hk, .of_eq ?_⟩
    rw [Document.shownAll_append, Document.shownAll_append, String.append_assoc]
  | @within e before after edge front back hedge hlies ih =>
    rw [nodes_append, nodes_cons] at hF
    obtain ⟨f₀, rest, j₁, hf₀, hrest, rfl⟩ := result_inTurn.1 hF
    obtain ⟨P, k₀, j₂, hP, hk₀, rfl⟩ := result_inTurn.1 hrest
    obtain ⟨ends, inner, hends, hinner, halike⟩ := hedge.result hlies.any_isElement hP
    obtain ⟨f, g, k, j₃, j₄, hf, hg, hk, hF⟩ := ih hinner
    refine ⟨f₀ ++ (ends ++ f), g, k ++ (ends ++ k₀), j₃, j₄, ?_, hg, ?_, ?_⟩
    · rw [nodes_append, nodes_append]
      exact result_inTurn.2 ⟨_, _, _, hf₀, result_inTurn.2 ⟨_, _, _, hends _, hf, rfl⟩, rfl⟩
    · rw [nodes_append, nodes_append]
      exact result_inTurn.2 ⟨_, _, _, hk, result_inTurn.2 ⟨_, _, _, hends _, hk₀, rfl⟩, rfl⟩
    · have hinside := ((Alike.refl (shownAll ends)).append hF).append (.refl (shownAll ends))
      have hall := (Alike.refl (shownAll f₀)).append ((halike.trans hinside).append
        (.refl (shownAll k₀)))
      simpa only [Document.shownAll_append, String.append_assoc] using hall

/-! ## Lists -/

theorem firstTagged_eq (r : Renderer) (mode : Mode) (tag : String) (f : List Xml.Node) :
    r.firstTagged mode tag f = r.render mode (f.find? (·.hasTag tag)) := by
  induction f with
  | nil =>
    rw [firstTagged]
    rfl
  | cons n f ih =>
    cases n with
    | text s =>
      rw [firstTagged, ih, List.find?_cons]
      rfl
    | element name attributes content =>
      rw [firstTagged, ih, List.find?_cons]
      split
      next h => rw [h]; rfl
      next h => rw [Bool.eq_false_iff.2 h]

theorem listItems_eq (r : Renderer) (f : List Xml.Node) :
    r.listItems f = (do
      let items ← Answer.each (fun e => r.render .normal (some e)) (f.filter (·.hasTag "item"))
      pure (items.filter (!·.isEmpty))) := by
  induction f with
  | nil =>
    rw [listItems]
    rfl
  | cons n f ih =>
    cases n with
    | text s =>
      rw [listItems, ih]
      rfl
    | element name attributes content =>
      rw [listItems, ih, List.filter_cons]
      split
      · simp only [Answer.each, render, bind_assoc, pure_bind, List.filter_cons, Xml.Node.content]
        refine bind_congr fun inner => bind_congr fun items => congrArg pure ?_
        cases (Document.normalize inner).isEmpty <;> rfl
      · rfl

theorem tableRows_eq (r : Renderer) (f : List Xml.Node) :
    r.tableRows f = Answer.each (fun e => do
      let term ← r.render .normal (e.find? "term")
      let description ← r.render .normal (e.find? "description")
      pure [Document.inlineRun term, Document.inlineRun description])
      (f.filter (·.hasTag "item")) := by
  induction f with
  | nil =>
    rw [tableRows]
    rfl
  | cons n f ih =>
    cases n with
    | text s =>
      rw [tableRows, ih]
      rfl
    | element name attributes content =>
      rw [tableRows, ih, List.filter_cons]
      split
      · simp only [Answer.each, firstTagged_eq, bind_assoc, pure_bind]
        rfl
      · rfl

/-- The texts that a list keeps apart: in plain rendering what its items say, at any depth; in a list
of bullets the items that are not empty; and the cells of a table, two for each item. -/
inductive ListParts (r : Renderer) (b : Xml.Node) : Mode → List String → Prop
  | plain : ListParts r b .plain ((itemsOf b.content).map fun e => r.spoken e.content)
  | bullets {items : List Fragment} : b.attribute? "type" ≠ some "table" →
    List.Forall₂ (fun e f => (r.render .normal (some e)).Comes f) (b.findAll "item") items →
    ListParts r b .normal ((items.filter (!·.isEmpty)).map shownAll)
  | table {rows : List (List Fragment)} : b.attribute? "type" = some "table" →
    List.Forall₂ (fun e row => ∃ term description,
      (r.render .normal (e.find? "term")).Comes term ∧
      (r.render .normal (e.find? "description")).Comes description ∧
      row = [Document.inlineRun term, Document.inlineRun description]) (b.findAll "item") rows →
    ListParts r b .normal (rows.flatten.map shownAll)

/-- A list shows its parts, each after a blank. -/
theorem exists_listParts (hb : b.tag = "list") (hg : (r.node mode b).result j = (.ok g, j')) :
    ∃ parts, r.ListParts b mode parts ∧ shownAll g = Text.eachAfterSpace parts := by
  rw [node_list r mode hb] at hg
  split at hg
  next hmode =>
    subst hmode
    have hcomes : (r.itemsBelow b.content).Comes g := ⟨j, j', hg⟩
    exact ⟨_, .plain, (hcomes.meets (r.meets_spokenItems b.content)).trans (r.spokenItems_eq _)⟩
  next hmode =>
    obtain rfl := Mode.eq_normal hmode
    split at hg
    next htable =>
      obtain ⟨heads, j₁, -, hg⟩ := result_bind_eq_ok.1 hg
      obtain ⟨rows, j₂, hrows, hg⟩ := result_bind_eq_ok.1 hg
      cases hg
      rw [tableRows_eq] at hrows
      have heach : (Answer.each _ (b.findAll "item")).Comes rows := ⟨j₁, j', hrows⟩
      refine ⟨_, .table htable (heach.each.imp fun e row h => ?_), ?_⟩
      · obtain ⟨term, hterm, h⟩ := h.bind
        obtain ⟨description, hdescription, h⟩ := h.bind
        exact ⟨term, description, hterm, hdescription, h.eq.symm⟩
      · rw [Document.shownAll_singleton, Node.shown, Document.shownRows_eq]
    next htable =>
      obtain ⟨items, j₁, hitems, hg⟩ := result_bind_eq_ok.1 hg
      cases hg
      rw [listItems_eq] at hitems
      obtain ⟨all, j₂, hall, hitems⟩ := result_bind_eq_ok.1 hitems
      cases hitems
      have heach : (Answer.each _ (b.findAll "item")).Comes all := ⟨j, j', hall⟩
      refine ⟨_, .bullets htable heach.each, ?_⟩
      rw [Document.shownAll_singleton, Node.shown, Document.shownEach_eq]

/-! ## Boundaries -/

/-- A paragraph begins with a blank, and so does a block of code. -/
def opensWithSpace (mode : Mode) (b : Xml.Node) : Bool :=
  b.tag = "para" || b.tag = "code" && mode = .normal

/-- A paragraph ends with a blank unless it is no more than a line break before its text, and so does a
block of code. -/
def closesWithSpace (mode : Mode) (b : Xml.Node) : Bool :=
  b.tag = "para" && (mode = .plain || b.content.any Xml.Node.isElement) ||
    b.tag = "code" && mode = .normal

/-- A paragraph that is no more than a line break before its text shows that. -/
theorem shown_line (htag : b.tag = "para") (hopen : closesWithSpace mode b = false)
    (hg : (r.node mode b).result j = (.ok g, j')) : shownAll g = " " ++ Text.flat b.innerText := by
  simp only [closesWithSpace, htag, decide_true, Bool.true_and, Bool.or_eq_false_iff,
    decide_eq_false_iff_not] at hopen
  rw [node_para r mode htag, if_neg hopen.1.1, if_neg (by simp [hopen.1.2])] at hg
  have hcomes : (pure _ : Answer Fragment).Comes g := ⟨j, j', hg⟩
  rw [← hcomes.eq]
  split
  next hempty => rw [String.isEmpty_iff.1 hempty, Document.shownAll_singleton]; rfl
  next => rw [shownAll, Document.shownAll_singleton]; rfl

/-- A paragraph that holds elements, and each paragraph in plain rendering, has a blank on each side. -/
theorem exists_shown_para (htag : b.tag = "para")
    (hwide : mode = .plain ∨ b.content.any Xml.Node.isElement = true)
    (hg : (r.node mode b).result j = (.ok g, j')) : ∃ s, shownAll g = " " ++ s ++ " " := by
  rw [node_para r mode htag] at hg
  split at hg
  · obtain ⟨inner, j₁, -, hg⟩ := result_bind_eq_ok.1 hg
    cases hg
    refine ⟨shownAll inner, ?_⟩
    rw [List.cons_append, shownAll, Document.shownAll_append, Document.shownAll_singleton,
      ← String.append_assoc]
    rfl
  next hmode =>
    rw [if_pos (hwide.resolve_left hmode)] at hg
    obtain ⟨inner, j₁, -, hg⟩ := result_bind_eq_ok.1 hg
    cases hg
    exact ⟨_, Document.shownAll_singleton _⟩

theorem shown_code (htag : b.tag = "code") (hg : (r.node mode b).result j = (.ok g, j')) :
    shownAll g = match mode with
      | .plain => Text.collapse b.innerText
      | .normal => " " ++ Text.codeText b.innerText ++ " " := by
  rw [node_code r mode htag] at hg
  cases hg
  cases mode <;> exact Document.shownAll_singleton _

theorem exists_opening (h : opensWithSpace mode b = true)
    (hg : (r.node mode b).result j = (.ok g, j')) : ∃ s, shownAll g = " " ++ s := by
  simp only [opensWithSpace, Bool.or_eq_true, Bool.and_eq_true, decide_eq_true_eq] at h
  rcases h with htag | ⟨htag, rfl⟩
  · cases hcloses : closesWithSpace mode b with
    | true =>
      obtain ⟨s, hs⟩ := exists_shown_para htag (by simpa [closesWithSpace, htag] using hcloses) hg
      exact ⟨_, hs.trans (String.append_assoc ..)⟩
    | false => exact ⟨_, shown_line htag hcloses hg⟩
  · exact ⟨_, (shown_code htag hg).trans (String.append_assoc ..)⟩

theorem exists_closing (h : closesWithSpace mode b = true)
    (hg : (r.node mode b).result j = (.ok g, j')) : ∃ s, shownAll g = s ++ " " := by
  simp only [closesWithSpace, Bool.or_eq_true, Bool.and_eq_true, decide_eq_true_eq] at h
  rcases h with ⟨htag, hwide⟩ | ⟨htag, rfl⟩
  · obtain ⟨s, hs⟩ := exists_shown_para htag hwide hg
    exact ⟨_, hs⟩
  · exact ⟨_, shown_code htag hg⟩

/-- A line with an element in it: `shown` is what the element shows, `before` and `after` what is
shown on its two sides. -/
structure Borders (r : Renderer) (mode : Mode) (b : Xml.Node) (line before shown after : String) :
    Prop where
  /-- Nothing else stands between them. -/
  line_eq : line = Text.flat (before ++ shown ++ after)
  opening : opensWithSpace mode b = true →
    Text.words line = Text.words before ++ Text.words (shown ++ after)
  closing : closesWithSpace mode b = true →
    Text.words line = Text.words (before ++ shown) ++ Text.words after
  /-- Each part of a list is kept from what comes before it, be that another part or not. -/
  parts : b.tag = "list" → ∃ parts, r.ListParts b mode parts ∧ ∀ xs part ys,
    parts = xs ++ part :: ys → Text.words line =
      Text.words (before ++ Text.eachAfterSpace xs) ++
        Text.words (part ++ Text.eachAfterSpace ys ++ after)
  /-- A paragraph that does not close with a blank ends with its text. -/
  lineBreak : b.tag = "para" → closesWithSpace mode b = false →
    shown = " " ++ Text.flat b.innerText
  /-- Code that does not open and close with a blank is its text. -/
  plainCode : b.tag = "code" → closesWithSpace mode b = false → shown = Text.collapse b.innerText

/-- The line of an element is what an element in it shows, between what stands before and after it
and nothing else. So words are kept apart where the element shows a blank: before and after a block
that opens and closes with one, and before each part of a list. They run on into each other after a
paragraph that is no more than a line break before its text, on both sides of code in plain rendering,
and after the last part of a list. The parts of a list are rendered as elements of their own, in which
the same holds. -/
theorem words_around (h : Lies b e.content before after) {F : Fragment}
    (hF : (r.render mode (some e)).result j = (.ok F, j')) :
    ∃ f g k j₁ j₂, (r.nodes mode before).result j = (.ok f, j₁) ∧
      (r.node mode b).result j₁ = (.ok g, j₂) ∧ (r.nodes mode after).result j₂ = (.ok k, j') ∧
      r.Borders mode b (Document.plainText F) (shownAll f) (shownAll g) (shownAll k) := by
  obtain ⟨inner, j₃, hinner, hF⟩ := result_bind_eq_ok.1 hF
  cases hF
  obtain ⟨f, g, k, j₁, j₂, hf, hg, hk, halike⟩ := h.result hinner
  have hline : Document.plainText (Document.normalize inner) =
      Text.flat (shownAll f ++ shownAll g ++ shownAll k) := by
    rw [Document.plainText_normalize, Document.plainText, halike.flat_eq]
  have hwords : ∀ s s', shownAll f ++ shownAll g ++ shownAll k = s ++ " " ++ s' →
      Text.words (Document.plainText (Document.normalize inner)) = Text.words s ++ Text.words s' := by
    intro s s' heq
    rw [hline, Text.words_flat, heq, Text.words_append_space]
  refine ⟨f, g, k, j₁, j₂, hf, hg, hk, hline, fun hopens => ?_, fun hcloses => ?_, fun hlist => ?_,
    fun htag hopen => ?_, fun htag hopen => ?_⟩
  · obtain ⟨s, hs⟩ := exists_opening hopens hg
    rw [hwords (shownAll f) (s ++ shownAll k) (by rw [hs]; simp only [String.append_assoc]), hs,
      String.append_assoc, Text.words_space_append]
  · obtain ⟨s, hs⟩ := exists_closing hcloses hg
    rw [hwords (shownAll f ++ s) (shownAll k) (by rw [hs]; simp only [String.append_assoc]), hs,
      ← String.append_assoc, Text.words_space_concat]
  · obtain ⟨parts, hparts, hshown⟩ := exists_listParts hlist hg
    refine ⟨parts, hparts, fun xs part ys heq => hwords _ _ ?_⟩
    rw [hshown, heq, Text.eachAfterSpace_append, Text.eachAfterSpace]
    simp only [String.append_assoc]
  · exact shown_line htag hopen hg
  · have hmode : mode = .plain := by
      cases mode with
      | plain => rfl
      | normal => simp [closesWithSpace, htag] at hopen
    subst hmode
    exact shown_code htag hg

/-- Code right between two words. -/
def usage : Xml.Node :=
  .element (.plain "summary") [] [
    .text "Use", .element (.plain "code") [] [.text "go"], .text "now"]

/-- Plain rendering makes one word of the code and the words around it. -/
theorem words_around_usage :
    ∃ F, (bare.render .plain (some usage)).result {} = (.ok F, {}) ∧
      Document.plainText F = "Usegonow" ∧
      ∃ f g k j₁ j₂, (bare.nodes .plain [.text "Use"]).result {} = (.ok f, j₁) ∧
        (bare.node .plain (.element (.plain "code") [] [.text "go"])).result j₁ = (.ok g, j₂) ∧
        (bare.nodes .plain [.text "now"]).result j₂ = (.ok k, {}) ∧
        bare.Borders .plain (.element (.plain "code") [] [.text "go"]) (Document.plainText F)
          (shownAll f) (shownAll g) (shownAll k) ∧
        shownAll g = Text.collapse "go" := by
  have hlies : Lies (.element (.plain "code") [] [.text "go"]) usage.content [.text "Use"]
      [.text "now"] := .here [.text "Use"] [.text "now"] rfl
  have hF : (bare.render .plain (some usage)).result {} = (.ok [.text "Usegonow"], {}) := by cbv
  obtain ⟨f, g, k, j₁, j₂, hf, hg, hk, hborders⟩ := words_around hlies hF
  exact ⟨_, hF, by cbv, f, g, k, j₁, j₂, hf, hg, hk, hborders, hborders.plainCode rfl rfl⟩

/-- A paragraph without elements keeps its text from the words before it only. -/
example : ((bare.render .normal (some (.element (.plain "summary") [] [
    .text "one", .element (.plain "para") [] [.text "two"], .text "three"]))).value.toOption.map
      Document.plainText) = some "one twothree" := by cbv

end Renderer
end ApiDoc
