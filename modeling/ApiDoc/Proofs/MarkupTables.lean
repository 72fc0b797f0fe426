import ApiDoc.Proofs.Contract
import ApiDoc.Proofs.Tables

/-!
# Tables in rendered markup

The tables that markup is rendered to are regular, wherever they stand (`gives_render`). A table has
two heads, and each of its rows a cell for the term and one for the description, which are put on one
line whatever blocks the markup of the item makes. That rendering may fail is no matter here: what is
said of an answer is said of what it `Gives`.
-/

namespace ApiDoc

open Document (Node Fragment Tabular IsLine IsRegularRow)

namespace Answer

variable {α : Type} {a : Answer α} {post : α → Prop}

/-- What comes of the answer, if anything does, meets a condition. -/
abbrev Gives (post : α → Prop) (a : Answer α) : Prop := a.Meets (fun _ => True) post

theorem gives_true (a : Answer α) : a.Gives fun _ => True := by
  intro j
  cases (a.result j).1 with
  | ok x => exact .ok trivial
  | error e => exact .error trivial

/-- What each item gives, they give together. -/
theorem gives_each {β : Type} {f : α → Answer β} {post : β → Prop} (hf : ∀ x, (f x).Gives post)
    (items : List α) : (each f items).Gives fun ys => ∀ y ∈ ys, post y := by
  refine (Meets.each fun x _ => hf x).weaken fun ys hys y hy => ?_
  obtain ⟨-, -, h⟩ := exists_of_mem_right hys hy
  exact h

theorem gives_concatEach {β : Type} {f : α → Answer (List β)} {post : β → Prop}
    (hf : ∀ x, (f x).Gives fun ys => ∀ y ∈ ys, post y) (items : List α) :
    (concatEach f items).Gives fun ys => ∀ y ∈ ys, post y :=
  (gives_each hf items).bind fun _ hlists => meets_pure (List.forall_mem_flatten.2 hlists)

theorem gives_link (s target : String) : (link s target).Gives fun n => n.isInline = true :=
  (meets_link s target).weaken fun _ ⟨_, hn⟩ => hn ▸ rfl

end Answer

namespace Renderer

open Answer Markup

variable {r : Renderer}

/-! ## References -/

@[simp] theorem isInline_codeOr (mode : Mode) (s : String) : (codeOr mode s).isInline = true := by
  cases mode <;> rfl

/-- A symbol is shown inline, as a link or as code. -/
theorem gives_linkOf (r : Renderer) (unit : Option String) (s : Symbol) (shown code : String) : (do
      if ← r.isIndexed unit then
        let path ← Answer.ofExcept (r.paths s)
        Answer.link shown path
      else pure (.code code)).Gives fun n : Node => n.isInline = true := by
  refine (gives_true _).bind fun indexed _ => Meets.ite (fun _ => ?_) fun _ => meets_pure rfl
  exact (gives_true _).bind fun path _ => gives_link _ _

theorem gives_reference (r : Renderer) (mode : Mode) (key inner : String) :
    (r.reference mode key inner).Gives fun n => n.isInline = true := by
  simp only [reference]
  split
  · exact (gives_true _).bind fun _ _ => meets_pure (isInline_codeOr mode _)
  · exact Meets.ite (fun _ => meets_pure rfl) fun _ => r.gives_linkOf _ _ _ _

theorem gives_see (r : Renderer) (mode : Mode) (e : Xml.Node) :
    (r.see mode e).Gives fun n => n.isInline = true := by
  simp only [see]
  refine Meets.ite (fun _ => meets_pure (isInline_codeOr mode _)) fun _ => ?_
  refine Meets.ite (fun _ => ?_) fun _ => r.gives_reference mode _ _
  exact Meets.ite (fun _ => meets_pure rfl) fun _ => gives_link _ _

/-! ## Elements -/

theorem tabular_codeBlock (r : Renderer) (mode : Mode) (e : Xml.Node) :
    Tabular [r.codeBlock mode e] := by
  cases mode with
  | normal => exact Document.tabular_codeBlock _ _
  | plain => exact Document.tabular_of_isInline rfl

theorem gives_unknown (e : Xml.Node) : (unknown e).Gives Tabular :=
  (gives_true _).bind fun _ _ => meets_pure (Document.tabular_of_isInline rfl)

mutual

theorem gives_node (r : Renderer) (mode : Mode) : ∀ n : Xml.Node, (r.node mode n).Gives Tabular
  | .text s => by
    rw [Renderer.node]
    exact meets_pure (Document.tabular_of_isInline rfl)
  | .element name attributes content => by
    have hcontent := gives_nodes r mode content
    have hinline : ∀ n : Node, n.isInline = true → (pure [n] : Answer Fragment).Gives Tabular :=
      fun n hn => meets_pure (Document.tabular_of_isInline hn)
    rw [Renderer.node]
    refine Meets.ite (fun _ => hcontent) fun _ => ?_
    refine Meets.ite (fun _ => ?_) fun _ => ?_
    · refine Meets.ite (fun _ => ?_) fun _ => Meets.ite (fun _ => ?_) fun _ => meets_pure ?_
      · refine hcontent.bind fun inner hinner => meets_pure ?_
        have hblank : Tabular [.text " "] := Document.tabular_of_isInline rfl
        exact Document.tabular_cons.2 ⟨hblank, Document.tabular_append.2 ⟨hinner, hblank⟩⟩
      · exact hcontent.bind fun inner hinner =>
          meets_pure (Document.tabular_paragraph.2 hinner.normalize)
      · refine IsLine.tabular ?_
        split <;> simp [IsLine]
    refine Meets.ite (fun _ => meets_pure (r.tabular_codeBlock mode _)) fun _ => ?_
    refine Meets.ite (fun _ => hinline _ (isInline_codeOr mode _)) fun _ => ?_
    refine Meets.ite (fun _ => hinline _ (isInline_codeOr mode _)) fun _ => ?_
    refine Meets.ite (fun _ => ?_) fun _ => ?_
    · exact (r.gives_see mode _).bind fun n hn => hinline n hn
    refine Meets.ite (fun _ => ?_) fun _ => ?_
    · refine Meets.ite (fun _ => ?_) fun _ => Meets.ite (fun _ => ?_) fun _ => ?_
      · exact gives_itemsBelow r content
      · refine (gives_tableHead r content).bind fun heads hheads => ?_
        refine (gives_tableRows r content).bind fun rows hrows => ?_
        exact meets_pure (Document.tabular_table.2 (hheads ▸ hrows))
      · exact (gives_listItems r content).bind fun items hitems =>
          meets_pure (Document.tabular_bullets.2 hitems)
    refine Meets.ite (fun _ => hinline _ ?_) fun _ => ?_
    · split <;> rfl
    exact Meets.ite (fun _ => meets_pure Document.tabular_nil) fun _ => gives_unknown _

theorem gives_nodes (r : Renderer) (mode : Mode) : ∀ f : List Xml.Node,
    (r.nodes mode f).Gives Tabular
  | [] => by
    rw [Renderer.nodes]
    exact meets_pure Document.tabular_nil
  | n :: rest => by
    rw [Renderer.nodes]
    refine (gives_node r mode n).bind fun first hfirst => ?_
    refine (gives_nodes r mode rest).bind fun others hothers => ?_
    exact meets_pure (Document.tabular_append.2 ⟨hfirst, hothers⟩)

theorem gives_firstTagged (r : Renderer) (mode : Mode) (tag : String) : ∀ f : List Xml.Node,
    (r.firstTagged mode tag f).Gives Tabular
  | [] => by
    rw [Renderer.firstTagged]
    exact meets_pure Document.tabular_nil
  | .text s :: rest => by
    rw [Renderer.firstTagged]
    exact gives_firstTagged r mode tag rest
  | .element name attributes content :: rest => by
    have hothers := gives_firstTagged r mode tag rest
    rw [Renderer.firstTagged]
    refine Meets.ite (fun _ => ?_) fun _ => hothers
    exact (gives_nodes r mode content).bind fun inner hinner => meets_pure hinner.normalize

theorem gives_listItems (r : Renderer) : ∀ f : List Xml.Node,
    (r.listItems f).Gives fun items => ∀ item ∈ items, Tabular item
  | [] => by
    rw [Renderer.listItems]
    exact meets_pure fun _ hitem => nomatch hitem
  | .text s :: rest => by
    rw [Renderer.listItems]
    exact gives_listItems r rest
  | .element name attributes content :: rest => by
    have hothers := gives_listItems r rest
    rw [Renderer.listItems]
    refine Meets.ite (fun _ => ?_) fun _ => hothers
    refine (gives_nodes r .normal content).bind fun inner hinner => ?_
    refine hothers.bind fun others hothers => meets_pure ?_
    split
    · exact hothers
    · exact List.forall_mem_cons.2 ⟨hinner.normalize, hothers⟩

theorem gives_tableHead (r : Renderer) : ∀ f : List Xml.Node,
    (r.tableHead f).Gives fun heads => heads.length = 2
  | [] => by
    rw [Renderer.tableHead]
    exact meets_pure rfl
  | .text s :: rest => by
    rw [Renderer.tableHead]
    exact gives_tableHead r rest
  | .element name attributes content :: rest => by
    have hothers := gives_tableHead r rest
    rw [Renderer.tableHead]
    refine Meets.ite (fun _ => ?_) fun _ => hothers
    exact (gives_true _).bind fun term _ => (gives_true _).bind fun description _ => meets_pure rfl

theorem gives_tableRows (r : Renderer) : ∀ f : List Xml.Node,
    (r.tableRows f).Gives fun rows => ∀ row ∈ rows, IsRegularRow 2 row
  | [] => by
    rw [Renderer.tableRows]
    exact meets_pure fun _ hrow => nomatch hrow
  | .text s :: rest => by
    rw [Renderer.tableRows]
    exact gives_tableRows r rest
  | .element name attributes content :: rest => by
    have hothers := gives_tableRows r rest
    rw [Renderer.tableRows]
    refine Meets.ite (fun _ => ?_) fun _ => hothers
    refine (gives_firstTagged r .normal "term" content).bind fun term hterm => ?_
    refine (gives_firstTagged r .normal "description" content).bind fun description hdescription => ?_
    refine hothers.bind fun others hothers => meets_pure ?_
    -- blocks in the markup of the item are flattened when its cells are made
    refine List.forall_mem_cons.2 ⟨⟨rfl, List.forall_mem_cons.2 ⟨?_, ?_⟩⟩, hothers⟩
    · exact Document.isLine_inlineRun hterm.inlineCells
    · exact List.forall_mem_singleton.2 (Document.isLine_inlineRun hdescription.inlineCells)

theorem gives_itemsBelow (r : Renderer) : ∀ f : List Xml.Node, (r.itemsBelow f).Gives Tabular
  | [] => by
    rw [Renderer.itemsBelow]
    exact meets_pure Document.tabular_nil
  | .text s :: rest => by
    rw [Renderer.itemsBelow]
    exact gives_itemsBelow r rest
  | .element name attributes content :: rest => by
    have hbelow := gives_itemsBelow r content
    have hothers := gives_itemsBelow r rest
    have hmore : ∀ own : Fragment, Tabular own → (do
        let below ← r.itemsBelow content
        let others ← r.itemsBelow rest
        pure (own ++ below ++ others)).Gives Tabular :=
      fun own hown => hbelow.bind fun below hbelow => hothers.bind fun others hothers =>
        meets_pure (by simp [hown, hbelow, hothers])
    rw [Renderer.itemsBelow]
    refine Meets.ite (fun _ => ?_) fun _ => (meets_pure Document.tabular_nil).bind hmore
    refine (gives_nodes r .plain content).bind fun inner hinner => Meets.bind (meets_pure ?_) hmore
    exact Document.tabular_cons.2 ⟨Document.tabular_of_isInline rfl, hinner⟩

end

/-- Whatever the markup of an entry is, the tables it is rendered to are regular. -/
theorem gives_render (r : Renderer) (mode : Mode) (e : Option Xml.Node) :
    (r.render mode e).Gives Tabular := by
  unfold render
  split
  · exact meets_pure Document.tabular_nil
  · exact (gives_nodes r mode _).bind fun inner hinner => meets_pure hinner.normalize

end Renderer

end ApiDoc
