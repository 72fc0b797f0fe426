import Mathlib
import ApiDoc.Proofs.Spoken

/-!
# Prose

Markup without lists and code whose paragraphs all hold elements (`Xml.Node.IsProse`) says the same in
both modes. What normal rendering shows of it is alike to its words (`Renderer.meets_prose`), since
clean-up within a paragraph drops blanks only where the paragraph has blanks around it. So both modes
give the same line (`Renderer.plainText_render_prose`).
-/

namespace ApiDoc

open Document (Node Fragment shownAll)
open Text (Alike)

namespace Xml.Node

/-- There are no lists and no code, and each paragraph has an element in it. -/
def IsProse (f : List Node) : Prop :=
  ∀ e ∈ elementsOf f, e.tag ≠ "list" ∧ e.tag ≠ "code" ∧
    (e.tag = "para" → ∃ n ∈ e.content, n.isElement = true)

theorem IsProse.head {n : Node} {f : List Node} (h : IsProse (n :: f)) : IsProse [n] := by
  intro e he
  rw [elementsOf, elementsOf, List.append_nil] at he
  exact h e (List.mem_append_left _ he)

theorem IsProse.content {n : Node} {f : List Node} (h : IsProse (n :: f)) : IsProse n.content :=
  fun e he => h e (List.mem_append_left _ (mem_elements_of_content he))

theorem IsProse.tail {n : Node} {f : List Node} (h : IsProse (n :: f)) : IsProse f :=
  fun e he => h e (List.mem_append_right _ he)

end Xml.Node

namespace Renderer

open Answer Markup Xml.Node

mutual

theorem meets_proseNode (r : Renderer) : ∀ n : Xml.Node, IsProse [n] →
    (r.node .normal n).Meets r.Propagates fun f => Alike (shownAll f) (r.spokenNode n)
  | .text s, _ => by
    rw [Renderer.node, spokenNode]
    exact meets_pure (.of_eq (Document.shownAll_singleton _))
  | .element name attributes content, h => by
    have hcontent := meets_prose r content h.content
    obtain ⟨hlist, hcode, hpara⟩ := h (.element name attributes content) (List.mem_cons_self ..)
    have hsingle : ∀ {n : Node} {s : String}, n.shown = s →
        (pure [n] : Answer Fragment).Meets r.Propagates fun f => Alike (shownAll f) s :=
      fun hn => meets_pure (.of_eq ((Document.shownAll_singleton _).trans hn))
    rw [Renderer.node, spokenNode]
    refine meets_ite_shown (fun _ => hcontent) fun _ => ?_
    refine meets_ite_shown (fun htag => ?_) fun _ => ?_
    · refine Meets.ite (fun h => nomatch h) fun _ => Meets.ite (fun _ => ?_) fun hany => ?_
      · refine hcontent.bind fun inner hinner => meets_pure ?_
        rw [Document.shownAll_singleton, Node.shown]
        exact (Document.alike_normalize inner).trans
          (((Alike.refl " ").append hinner).append (.refl " "))
      · exact absurd (List.any_eq_true.2 (hpara htag)) hany
    refine meets_ite_shown (fun htag => absurd htag hcode) fun _ => ?_
    refine meets_ite_shown (fun _ => hsingle rfl) fun _ => ?_
    refine meets_ite_shown (fun _ => hsingle rfl) fun _ => ?_
    refine meets_ite_shown (fun _ => ?_) fun _ => ?_
    · refine ((r.meets_referenceText .normal _).mono (fun _ h => h.2) fun _ => id).bind ?_
      exact fun n hn => hsingle hn
    refine meets_ite_shown (fun htag => absurd htag hlist) fun _ => ?_
    refine meets_ite_shown (fun _ => hsingle rfl) fun _ => ?_
    refine meets_ite_shown (fun _ => meets_pure (.refl _)) fun _ => ?_
    exact (meets_log _ _ _).bind fun _ _ => hsingle rfl

theorem meets_prose (r : Renderer) : ∀ f : List Xml.Node, IsProse f →
    (r.nodes .normal f).Meets r.Propagates fun g => Alike (shownAll g) (r.spoken f)
  | [], _ => by
    rw [Renderer.nodes, spoken]
    exact meets_pure (.refl _)
  | n :: rest, h => by
    rw [Renderer.nodes, spoken]
    refine (meets_proseNode r n h.head).bind fun first hfirst => ?_
    refine (meets_prose r rest h.tail).bind fun others hothers => meets_pure ?_
    rw [Document.shownAll_append]
    exact hfirst.append hothers

end

/-- Plain rendering of prose never fails, and normal rendering fails only with an error of a source
or a path. What they come to is the same line. -/
theorem plainText_render_prose (r : Renderer) (e : Xml.Node) (h : IsProse e.content) :
    (r.render .plain (some e)).Meets (fun _ => False) fun f =>
      (r.render .normal (some e)).Meets r.Propagates fun g =>
        Document.plainText g = Document.plainText f := by
  refine (r.meets_render_plain e).weaken fun f hf => ?_
  refine (r.meets_prose e.content h).bind fun inner hinner => meets_pure ?_
  rw [hf, Document.plainText_normalize, Document.plainText, hinner.flat_eq]

/-- A walk told in a paragraph, which has another in it, and in words right before and after it. -/
def stroll : Xml.Node :=
  .element (.plain "summary") [] [
    .text "Walk",
    .element (.plain "para") [] [
      .text "to\n  the ", .element (.plain "c") [] [.text "sea"],
      .element (.plain "para") [] [.element (.plain "paramref") [(.plain "name", "home")] []]],
    .text "again"]

theorem plainText_render_prose_stroll :
    IsProse stroll.content ∧ (bare.render .plain (some stroll)).Meets (fun _ => False) fun f =>
      (bare.render .normal (some stroll)).Meets bare.Propagates fun g =>
        Document.plainText g = Document.plainText f := by
  have hprose : IsProse stroll.content := by
    unfold IsProse
    decide
  exact ⟨hprose, plainText_render_prose bare stroll hprose⟩

example : ((bare.render .normal (some stroll)).value.toOption.map Document.plainText) =
    some "Walk to the sea home again" := by cbv

end Renderer
end ApiDoc
