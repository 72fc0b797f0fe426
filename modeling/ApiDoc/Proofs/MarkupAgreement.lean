import ApiDoc.Markup
import ApiDoc.Proofs.Agreement

/-!
# Rendering in corresponding contexts

In contexts that correspond, markup is rendered to the same fragments, with the same links
(`Corresponds.nodes`). So are the sections and summaries of symbols of units that are spared
(`Context.Corresponds.renderSection`, `Context.Corresponds.summary`).
-/

namespace ApiDoc

variable {σ : Equiv.Perm Nat} {sound : JournalEntry → Prop} {spared : Option String → Prop}

namespace Renderer

open Answer Markup

variable {r r' : Renderer}

@[simp] theorem referenceUnit_renumber (s : Symbol) :
    referenceUnit (s.renumber σ) = referenceUnit s := by
  cases s with
  | parameter p => rfl
  | type t => rfl
  | member m => exact Symbol.renumber_unit (.member m)

/-- The contexts correspond, and the page of the same type is being written. -/
structure Corresponds (σ : Equiv.Perm Nat) (sound : JournalEntry → Prop)
    (spared : Option String → Prop) (r r' : Renderer) : Prop where
  context : Context.Corresponds σ sound spared r.toContext r'.toContext
  current : r'.current = r.current.map (TypeSymbol.renumber σ)

namespace Corresponds

/-! ## References -/

theorem referenceName (h : Corresponds σ sound spared r r') (s : Symbol) :
    r'.referenceName (s.renumber σ) = r.referenceName s := by
  cases s with
  | member m =>
    simp only [Renderer.referenceName, Symbol.renumber, h.current]
    exact m.renumber_qualifiedName r.current
  | type t => rfl
  | parameter p => rfl

theorem reference (h : Corresponds σ sound spared r r') (mode : Mode) (key inner : String) :
    Same sound (r.reference mode key inner) (r'.reference mode key inner) := by
  have hsymbol : (if key.startsWith unresolvedMark then none else r'.findSymbol key) =
      (if key.startsWith unresolvedMark then none else r.findSymbol key).map
        (Symbol.renumber σ) := by
    rw [h.context.findSymbol]
    split <;> rfl
  simp only [Renderer.reference, hsymbol]
  generalize (if key.startsWith unresolvedMark then none else r.findSymbol key) = symbol
  cases symbol with
  | none => exact Same.bind (h.context.same_log _ _ _) fun _ => same_pure _
  | some s =>
    simp only [Option.map_some, h.referenceName, h.context.paths, referenceUnit_renumber]
    split
    · exact same_pure _
    · refine Same.bind (h.context.isIndexed _) fun indexed => ?_
      split
      · exact Same.bind (same_ofExcept _) fun path => same_link _ _
      · exact same_pure _

theorem see (h : Corresponds σ sound spared r r') (mode : Mode) (e : Xml.Node) :
    Same sound (r.see mode e) (r'.see mode e) := by
  simp only [Renderer.see]
  split
  · exact same_pure _
  · split
    · split
      · exact same_pure _
      · exact same_link _ _
    · exact h.reference _ _ _

theorem unknown (h : Corresponds σ sound spared r r') (e : Xml.Node) :
    Same sound (unknown e) (unknown e) :=
  Same.bind (h.context.same_log _ _ _) fun _ => same_pure _

/-! ## Elements -/

theorem codeBlock (h : Corresponds σ sound spared r r') (mode : Mode) (e : Xml.Node) :
    r.codeBlock mode e = r'.codeBlock mode e := by
  unfold Renderer.codeBlock
  rw [h.context.settings]

theorem isMarker (h : Corresponds σ sound spared r r') (tag : String) :
    r.isMarker tag = r'.isMarker tag := by
  rw [Renderer.isMarker, Renderer.isMarker, h.context.settings]

mutual

theorem node (h : Corresponds σ sound spared r r') (mode : Mode) :
    ∀ n : Xml.Node, Same sound (r.node mode n) (r'.node mode n)
  | .text s => by
    rw [Renderer.node, Renderer.node]
    exact same_pure _
  | .element name attributes content => by
    have hcontent := nodes h mode content
    have hbelow := itemsBelow h content
    have hhead := tableHead h content
    have hrows := tableRows h content
    have hitems := listItems h content
    simp only [Renderer.node, h.codeBlock, h.isMarker]
    refine Same.ite (fun _ => hcontent) fun _ => ?_
    refine Same.ite (fun _ => ?_) fun _ => ?_
    · refine Same.ite (fun _ => ?_) fun _ => ?_
      · exact Same.bind hcontent fun inner => same_pure _
      · refine Same.ite (fun _ => ?_) fun _ => same_pure _
        exact Same.bind hcontent fun inner => same_pure _
    refine Same.ite (fun _ => same_pure _) fun _ => ?_
    refine Same.ite (fun _ => same_pure _) fun _ => ?_
    refine Same.ite (fun _ => same_pure _) fun _ => ?_
    refine Same.ite (fun _ => ?_) fun _ => ?_
    · exact Same.bind (h.see _ _) fun n => same_pure _
    refine Same.ite (fun _ => ?_) fun _ => ?_
    · refine Same.ite (fun _ => hbelow) fun _ => ?_
      refine Same.ite (fun _ => ?_) fun _ => ?_
      · exact Same.bind hhead fun heads => Same.bind hrows fun rows => same_pure _
      · exact Same.bind hitems fun items => same_pure _
    refine Same.ite (fun _ => same_pure _) fun _ => ?_
    exact Same.ite (fun _ => same_pure _) fun _ => h.unknown _

theorem nodes (h : Corresponds σ sound spared r r') (mode : Mode) :
    ∀ f : List Xml.Node, Same sound (r.nodes mode f) (r'.nodes mode f)
  | [] => by
    rw [Renderer.nodes, Renderer.nodes]
    exact same_pure _
  | n :: rest => by
    rw [Renderer.nodes, Renderer.nodes]
    exact Same.bind (node h mode n) fun first => Same.bind (nodes h mode rest) fun others =>
      same_pure _

theorem firstTagged (h : Corresponds σ sound spared r r') (mode : Mode) (tag : String) :
    ∀ f : List Xml.Node, Same sound (r.firstTagged mode tag f) (r'.firstTagged mode tag f)
  | [] => by
    rw [Renderer.firstTagged, Renderer.firstTagged]
    exact same_pure _
  | .text _ :: rest => by
    rw [Renderer.firstTagged, Renderer.firstTagged]
    exact firstTagged h mode tag rest
  | .element name attributes content :: rest => by
    have hcontent := nodes h mode content
    have hrest := firstTagged h mode tag rest
    rw [Renderer.firstTagged, Renderer.firstTagged]
    split
    · exact Same.bind hcontent fun inner => same_pure _
    · exact hrest

theorem listItems (h : Corresponds σ sound spared r r') :
    ∀ f : List Xml.Node, Same sound (r.listItems f) (r'.listItems f)
  | [] => by
    rw [Renderer.listItems, Renderer.listItems]
    exact same_pure _
  | .text _ :: rest => by
    rw [Renderer.listItems, Renderer.listItems]
    exact listItems h rest
  | .element name attributes content :: rest => by
    have hcontent := nodes h .normal content
    have hrest := listItems h rest
    rw [Renderer.listItems, Renderer.listItems]
    split
    · exact Same.bind hcontent fun inner => Same.bind hrest fun others => same_pure _
    · exact hrest

theorem tableHead (h : Corresponds σ sound spared r r') :
    ∀ f : List Xml.Node, Same sound (r.tableHead f) (r'.tableHead f)
  | [] => by
    rw [Renderer.tableHead, Renderer.tableHead]
    exact same_pure _
  | .text _ :: rest => by
    rw [Renderer.tableHead, Renderer.tableHead]
    exact tableHead h rest
  | .element name attributes content :: rest => by
    have hterm := firstTagged h .plain "term" content
    have hdescription := firstTagged h .plain "description" content
    have hrest := tableHead h rest
    rw [Renderer.tableHead, Renderer.tableHead]
    split
    · exact Same.bind hterm fun term => Same.bind hdescription fun description => same_pure _
    · exact hrest

theorem tableRows (h : Corresponds σ sound spared r r') :
    ∀ f : List Xml.Node, Same sound (r.tableRows f) (r'.tableRows f)
  | [] => by
    rw [Renderer.tableRows, Renderer.tableRows]
    exact same_pure _
  | .text _ :: rest => by
    rw [Renderer.tableRows, Renderer.tableRows]
    exact tableRows h rest
  | .element name attributes content :: rest => by
    have hterm := firstTagged h .normal "term" content
    have hdescription := firstTagged h .normal "description" content
    have hrest := tableRows h rest
    rw [Renderer.tableRows, Renderer.tableRows]
    split
    · exact Same.bind hterm fun term => Same.bind hdescription fun description =>
        Same.bind hrest fun others => same_pure _
    · exact hrest

theorem itemsBelow (h : Corresponds σ sound spared r r') :
    ∀ f : List Xml.Node, Same sound (r.itemsBelow f) (r'.itemsBelow f)
  | [] => by
    rw [Renderer.itemsBelow, Renderer.itemsBelow]
    exact same_pure _
  | .text _ :: rest => by
    rw [Renderer.itemsBelow, Renderer.itemsBelow]
    exact itemsBelow h rest
  | .element name attributes content :: rest => by
    have hcontent := nodes h .plain content
    have hbelow := itemsBelow h content
    have hrest := itemsBelow h rest
    rw [Renderer.itemsBelow, Renderer.itemsBelow]
    split
    · exact Same.bind hcontent fun inner => Same.bind (same_pure _) fun own =>
        Same.bind hbelow fun below => Same.bind hrest fun others => same_pure _
    · exact Same.bind (same_pure _) fun own =>
        Same.bind hbelow fun below => Same.bind hrest fun others => same_pure _

end

/-! ## Entries -/

theorem render (h : Corresponds σ sound spared r r') (mode : Mode) (e : Option Xml.Node) :
    Same sound (r.render mode e) (r'.render mode e) := by
  unfold Renderer.render
  split
  · exact same_pure _
  · exact Same.bind (h.nodes _ _) fun inner => same_pure _

theorem renderText (h : Corresponds σ sound spared r r') (e : Option Xml.Node) (budget : Option Int) :
    Same sound (r.renderText e budget) (r'.renderText e budget) :=
  Same.bind (h.render _ _) fun _ => same_pure _

end Corresponds

end Renderer

namespace Context

open Answer

namespace Corresponds

variable {ctx ctx' : Context} {s : Symbol}

theorem renderer (h : Corresponds σ sound spared ctx ctx') (current : Option TypeSymbol) :
    Renderer.Corresponds σ sound spared { ctx with current }
      { ctx' with current := current.map (TypeSymbol.renumber σ) } := ⟨h, rfl⟩

theorem renderSection (h : Corresponds σ sound spared ctx ctx') (hs : spared s.unit) (tag : String)
    (mode : Markup.Mode) :
    Same sound (ctx.renderSection s tag mode) (ctx'.renderSection (s.renumber σ) tag mode) := by
  refine Same.bind (h.resolve hs) fun entry => ?_
  cases s with
  | type t => exact (h.renderer (some t)).render _ _
  | member m => exact (h.renderer m.owner).render _ _
  | parameter p => exact (h.renderer none).render _ _

theorem summary (h : Corresponds σ sound spared ctx ctx') (hs : spared s.unit)
    (budget : Option Int) :
    Same sound (ctx.summary s budget) (ctx'.summary (s.renumber σ) budget) := by
  refine Same.bind (h.resolve hs) fun entry => ?_
  cases s <;> exact (h.renderer none).renderText _ _

end Corresponds

end Context

end ApiDoc
