import ApiDoc.Markup
import ApiDoc.Proofs.Journal
import ApiDoc.Proofs.LinkOrder

/-!
# Links of rendered markup

An answer `Adds` links if, asked while the table of the journal numbers some links, it leaves one
that numbers those and then its own. Rendering adds the links of the fragment it comes to
(`adds_render`). Plain rendering makes no links, whatever is done with its texts
(`logs_renderText`).
-/

namespace ApiDoc

open Document (Node Fragment linksOf linksOfParts linksOfRows linksOf_normalize)

namespace Answer

variable {α β : Type} {a : Answer α} {f : α → Answer β} {allowed : JournalEntry → Prop}
  {before : List (String × Nat)} {middle new : α → List (String × Nat)}
  {after : β → List (String × Nat)}

/-- Asked with a table that numbers the links before, the answer leaves one that numbers the links
after. -/
def Links (before : List (String × Nat)) (a : Answer α) (after : α → List (String × Nat)) : Prop :=
  ∀ j x j', j.links.Numbers before → a.result j = (.ok x, j') → j'.links.Numbers (after x)

/-- The answer adds links to those before. -/
def Adds (a : Answer α) (new : α → List (String × Nat)) : Prop :=
  ∀ before, Links before a fun x => before ++ new x

theorem links_pure {x : α} (h : middle x = before) : Links before (pure x) middle := by
  intro j y j' hj hresult
  cases hresult
  rwa [h]

theorem links_ofExcept (r : Except Error α) : Links before (ofExcept r) fun _ => before := by
  intro j y j' hj hresult
  cases hresult
  exact hj

theorem links_throw (e : Error) : Links before (throw e) after := by
  intro j y j' hj hresult
  cases hresult

theorem Links.bind (ha : Links before a middle) (hf : ∀ x, Links (middle x) (f x) after) :
    Links before (a >>= f) after := by
  intro j y j' hj hresult
  obtain ⟨x, j₁, hx, hy⟩ := result_bind_eq_ok.1 hresult
  exact hf x j₁ y j' (ha j x j₁ hj hx) hy

theorem Adds.bind (ha : a.Adds new) (hf : ∀ x, Links (before ++ new x) (f x) after) :
    Links before (a >>= f) after :=
  (ha before).bind hf

theorem Notes.links (h : a.Notes allowed) : Links before a fun _ => before := by
  intro j x j' hj hresult
  have hlinks := h.links_eq j
  rw [hresult] at hlinks
  rwa [hlinks]

theorem adds_pure {x : α} (h : new x = []) : (pure x : Answer α).Adds new := by
  intro before
  exact links_pure (by rw [h, List.append_nil])

theorem adds_link (s target : String) : (link s target).Adds Node.links := by
  intro before j n j' hj hresult
  cases hresult
  exact hj.link target

/-- What is made of the result of an answer keeps its links. -/
theorem Adds.map {g : α → β} (ha : a.Adds new) (hg : ∀ x, after (g x) = new x) :
    (a >>= fun x => (pure (g x) : Answer β)).Adds after :=
  fun _ => ha.bind fun x => links_pure (by rw [hg])

theorem Adds.each {new : β → List (String × Nat)} {items : List α}
    (hf : ∀ x ∈ items, (f x).Adds new) : (each f items).Adds fun ys => ys.flatMap new := by
  intro before
  induction items generalizing before with
  | nil => exact links_pure (by simp)
  | cons x items ih =>
    obtain ⟨hx, hitems⟩ := List.forall_mem_cons.1 hf
    refine hx.bind fun y => (ih hitems _).bind fun ys => links_pure ?_
    simp

theorem Adds.concatEach {γ : Type} {f : α → Answer (List γ)} {new : List γ → List (String × Nat)}
    {items : List α} (hf : ∀ x ∈ items, (f x).Adds new)
    (hnew : ∀ ls : List (List γ), new ls.flatten = ls.flatMap new) :
    (concatEach f items).Adds new :=
  (Adds.each hf).map hnew

end Answer

namespace Renderer

open Answer Markup

variable {r : Renderer}

/-! ## Plain rendering -/

theorem logs_reference (r : Renderer) (key inner : String) :
    (r.reference .plain key inner).Logs := by
  simp only [reference]
  generalize (if key.startsWith unresolvedMark then none else r.findSymbol key) = symbol
  cases symbol with
  | none => exact (logs_log _ _ _).bind fun _ => notes_pure _
  | some s => exact notes_pure _

theorem logs_see (r : Renderer) (e : Xml.Node) : (r.see .plain e).Logs := by
  simp only [see]
  split
  · exact notes_pure _
  · split
    · exact notes_pure _
    · exact r.logs_reference _ _

theorem logs_unknown (e : Xml.Node) : (unknown e).Logs :=
  (logs_log _ _ _).bind fun _ => notes_pure _

mutual

theorem logs_node (r : Renderer) : ∀ n : Xml.Node, (r.node .plain n).Logs
  | .text s => by
    rw [Renderer.node]
    exact notes_pure _
  | .element name attributes content => by
    have hcontent := logs_nodes r content
    have hbelow := logs_itemsBelow r content
    simp only [Renderer.node, ↓reduceIte, reduceCtorEq]
    split_ifs
    · exact hcontent
    · exact hcontent.bind fun _ => notes_pure _
    · exact notes_pure _
    · exact notes_pure _
    · exact notes_pure _
    · exact (r.logs_see _).bind fun _ => notes_pure _
    · exact hbelow
    · exact notes_pure _
    · exact notes_pure _
    · exact logs_unknown _

theorem logs_nodes (r : Renderer) : ∀ f : List Xml.Node, (r.nodes .plain f).Logs
  | [] => by
    rw [Renderer.nodes]
    exact notes_pure _
  | n :: rest => by
    rw [Renderer.nodes]
    exact (logs_node r n).bind fun _ => (logs_nodes r rest).bind fun _ => notes_pure _

theorem logs_itemsBelow (r : Renderer) :
    ∀ f : List Xml.Node, (r.itemsBelow f).Logs
  | [] => by
    rw [Renderer.itemsBelow]
    exact notes_pure _
  | .text _ :: rest => by
    rw [Renderer.itemsBelow]
    exact logs_itemsBelow r rest
  | .element name attributes content :: rest => by
    have hcontent := logs_nodes r content
    have hbelow := logs_itemsBelow r content
    have hrest := logs_itemsBelow r rest
    have hmore : ∀ own : Fragment, (do
        let below ← r.itemsBelow content
        let others ← r.itemsBelow rest
        pure (own ++ below ++ others)).Logs :=
      fun own => hbelow.bind fun _ => hrest.bind fun _ => notes_pure _
    rw [Renderer.itemsBelow]
    split
    · exact hcontent.bind fun inner => (notes_pure _).bind hmore
    · exact (notes_pure _).bind hmore

end

theorem logs_firstTagged (r : Renderer) (tag : String) (f : List Xml.Node) :
    (r.firstTagged .plain tag f).Logs := by
  induction f with
  | nil =>
    rw [Renderer.firstTagged]
    exact notes_pure _
  | cons n rest ih =>
    cases n with
    | text s =>
      rw [Renderer.firstTagged]
      exact ih
    | element name attributes content =>
      rw [Renderer.firstTagged]
      split
      · exact (logs_nodes r content).bind fun _ => notes_pure _
      · exact ih

theorem logs_tableHead (r : Renderer) (f : List Xml.Node) :
    (r.tableHead f).Logs := by
  induction f with
  | nil =>
    rw [Renderer.tableHead]
    exact notes_pure _
  | cons n rest ih =>
    cases n with
    | text s =>
      rw [Renderer.tableHead]
      exact ih
    | element name attributes content =>
      rw [Renderer.tableHead]
      split
      · exact (r.logs_firstTagged _ _).bind fun _ => (r.logs_firstTagged _ _).bind fun _ =>
          notes_pure _
      · exact ih

theorem logs_render (r : Renderer) (e : Option Xml.Node) : (r.render .plain e).Logs := by
  unfold render
  split
  · exact notes_pure _
  · exact (r.logs_nodes _).bind fun _ => notes_pure _

theorem logs_renderText (r : Renderer) (e : Option Xml.Node) (budget : Option Int) :
    (r.renderText e budget).Logs := (r.logs_render e).bind fun _ => notes_pure _

/-! ## Rendering with links -/

theorem links_codeOr (mode : Mode) (s : String) : (codeOr mode s).links = [] := by
  cases mode <;> rfl

theorem adds_reference (r : Renderer) (key inner : String) :
    (r.reference .normal key inner).Adds Node.links := by
  simp only [reference, reduceCtorEq, ↓reduceIte]
  generalize (if key.startsWith unresolvedMark then none else r.findSymbol key) = symbol
  intro before
  cases symbol with
  | none =>
    refine (notes_log _ _ _).links.bind fun _ => ?_
    exact links_pure (by simp [links_codeOr])
  | some s =>
    refine (r.quiet_isIndexed _).links.bind fun indexed => ?_
    split
    · refine (links_ofExcept _).bind fun path => ?_
      exact adds_link _ _ _
    · exact links_pure (by simp [Node.links])

theorem adds_see (r : Renderer) (e : Xml.Node) : (r.see .normal e).Adds Node.links := by
  simp only [see, reduceCtorEq, ↓reduceIte]
  split
  · exact adds_pure (links_codeOr _ _)
  · split
    · exact adds_link _ _
    · exact r.adds_reference _ _

theorem adds_unknown (e : Xml.Node) : (unknown e).Adds linksOf :=
  fun _ => (notes_log _ _ _).links.bind fun _ => links_pure (by simp [Node.links])

mutual

theorem adds_node (r : Renderer) : ∀ n : Xml.Node, (r.node .normal n).Adds linksOf
  | .text s => by
    rw [Renderer.node]
    exact adds_pure rfl
  | .element name attributes content => by
    have hcontent := adds_nodes r content
    have hitems := adds_listItems r content
    have hrows := adds_tableRows r content
    simp only [Renderer.node, ↓reduceIte, reduceCtorEq]
    split_ifs
    · exact hcontent
    · exact hcontent.map fun inner => by simp [Node.links]
    · exact adds_pure rfl
    · exact adds_pure rfl
    · exact adds_pure rfl
    · exact adds_pure rfl
    · exact adds_pure rfl
    · exact (r.adds_see _).map fun n => by simp
    · intro before
      refine (r.logs_tableHead content).links.bind fun heads => ?_
      exact hrows.map (fun rows => by simp [Node.links]) before
    · exact hitems.map fun items => by simp [Node.links]
    · exact adds_pure rfl
    · exact adds_pure rfl
    · exact adds_unknown _

theorem adds_nodes (r : Renderer) : ∀ f : List Xml.Node, (r.nodes .normal f).Adds linksOf
  | [] => by
    rw [Renderer.nodes]
    exact adds_pure rfl
  | n :: rest => by
    rw [Renderer.nodes]
    intro before
    refine (adds_node r n).bind fun first => (adds_nodes r rest).bind fun others => ?_
    exact links_pure (by simp)

theorem adds_firstTagged (r : Renderer) (tag : String) :
    ∀ f : List Xml.Node, (r.firstTagged .normal tag f).Adds linksOf
  | [] => by
    rw [Renderer.firstTagged]
    exact adds_pure rfl
  | .text _ :: rest => by
    rw [Renderer.firstTagged]
    exact adds_firstTagged r tag rest
  | .element name attributes content :: rest => by
    have hcontent := adds_nodes r content
    have hrest := adds_firstTagged r tag rest
    rw [Renderer.firstTagged]
    split
    · exact hcontent.map linksOf_normalize
    · exact hrest

theorem adds_listItems (r : Renderer) :
    ∀ f : List Xml.Node, (r.listItems f).Adds linksOfParts
  | [] => by
    rw [Renderer.listItems]
    exact adds_pure rfl
  | .text _ :: rest => by
    rw [Renderer.listItems]
    exact adds_listItems r rest
  | .element name attributes content :: rest => by
    have hcontent := adds_nodes r content
    have hrest := adds_listItems r rest
    rw [Renderer.listItems]
    split
    · intro before
      refine hcontent.bind fun inner => hrest.bind fun others => links_pure ?_
      -- an item that is dropped is empty, so it has no links
      have hinner : linksOf (Document.normalize inner) = linksOf inner := linksOf_normalize inner
      split
      next hempty =>
        rw [List.isEmpty_iff.1 hempty] at hinner
        simp [← hinner]
      next => simp
    · exact hrest

theorem adds_tableRows (r : Renderer) :
    ∀ f : List Xml.Node, (r.tableRows f).Adds linksOfRows
  | [] => by
    rw [Renderer.tableRows]
    exact adds_pure rfl
  | .text _ :: rest => by
    rw [Renderer.tableRows]
    exact adds_tableRows r rest
  | .element name attributes content :: rest => by
    have hterm := adds_firstTagged r "term" content
    have hdescription := adds_firstTagged r "description" content
    have hrest := adds_tableRows r rest
    rw [Renderer.tableRows]
    split
    · intro before
      refine hterm.bind fun term => hdescription.bind fun description => ?_
      exact hrest.bind fun others => links_pure (by simp)
    · exact hrest

end

/-- The links of a rendered entry are what rendering it adds. -/
theorem adds_render (r : Renderer) (e : Option Xml.Node) : (r.render .normal e).Adds linksOf := by
  unfold render
  split
  · exact adds_pure rfl
  · exact (r.adds_nodes _).map linksOf_normalize

end Renderer

end ApiDoc
