import ApiDoc.Proofs.SummaryBudget

/-!
# Parts of pages

An answer comes to something or it fails (`Answer.meets_self`), so a page that is put together from
parts is written unless one of its parts cannot be. Sorting by a text keeps the order of what has the
same one (`filter_sortedBy`). Whatever documentation says, what is rendered of it has no headings
(`headings_of_sectionBlocks`): the headings of a page are those that it builds itself.
-/

namespace ApiDoc

open Document (Node Page headings headings_append headings_blocksOf headings_cons headings_nil)

/-! ## Sorting by a text -/

section SortedBy

variable {α : Type} {key : α → String} {l : List α}

theorem pairwise_sortedBy :
    (l.mergeSort fun a b => key a ≤ key b).Pairwise fun a b => key a ≤ key b := by
  refine (List.pairwise_mergeSort (fun a b c hab hbc => ?_) (fun a b => ?_) l).imp of_decide_eq_true
  · exact decide_eq_true (le_trans (of_decide_eq_true hab) (of_decide_eq_true hbc))
  · simpa using le_total (key a) (key b)

/-- The sort is stable: what has one key stays in its order. -/
theorem filter_sortedBy (k : String) :
    ((l.mergeSort fun a b => key a ≤ key b).filter fun a => key a = k) =
      l.filter fun a => key a = k := by
  have hsame : (l.filter fun a => key a = k).Pairwise fun a b => decide (key a ≤ key b) = true := by
    refine List.pairwise_of_forall_mem_list fun a ha b hb => decide_eq_true (le_of_eq ?_)
    rw [of_decide_eq_true (List.mem_filter.1 ha).2, of_decide_eq_true (List.mem_filter.1 hb).2]
  -- what has one key is sorted already, so it is found in the sorted list as it stands
  have hsub : (l.filter fun a => key a = k).Sublist (l.mergeSort fun a b => key a ≤ key b) := by
    refine List.sublist_mergeSort (fun a b c hab hbc => ?_) (fun a b => ?_) hsame
      List.filter_sublist
    · exact decide_eq_true (le_trans (of_decide_eq_true hab) (of_decide_eq_true hbc))
    · simpa using le_total (key a) (key b)
  have hkept := hsub.filter fun a => decide (key a = k)
  simp only [List.filter_filter, Bool.and_self] at hkept
  exact (hkept.eq_of_length ((List.mergeSort_perm l _).filter _).length_eq.symm).symm

end SortedBy

/-- Texts in order without repetitions are strictly ascending. -/
theorem pairwise_lt_of_le {l : List String} (hsorted : l.Pairwise (· ≤ ·)) (hdistinct : l.Nodup) :
    l.Pairwise (· < ·) :=
  (hsorted.and hdistinct).imp fun h => lt_of_le_of_ne h.1 h.2

/-! ## Parts in sequence -/

section Parts

variable {α β γ : Type} {key : β → α} {blocks : β → List γ} {shown : α → Bool} {P : β → Prop}
  {keys : List α} {parts : List (List γ)}

/-- What is there for each key, for those of them that are shown, is there for all keys. -/
theorem exists_shown (h : List.Forall₂ (fun k part => ∃ bs : List β, part = bs.flatMap blocks ∧
      bs.map key = [k].filter shown ∧ ∀ b ∈ bs, P b) keys parts) :
    ∃ bs : List β, parts.flatten = bs.flatMap blocks ∧ bs.map key = keys.filter shown ∧
      ∀ b ∈ bs, P b := by
  induction h with
  | nil => exact ⟨[], rfl, rfl, List.forall_mem_nil _⟩
  | @cons k _ keys _ hpart _ ih =>
    obtain ⟨first, rfl, hkey, hfirst⟩ := hpart
    obtain ⟨bs, hblocks, hkeys, hbs⟩ := ih
    refine ⟨first ++ bs, ?_, ?_, List.forall_mem_append.2 ⟨hfirst, hbs⟩⟩
    · rw [List.flatten_cons, hblocks, List.flatMap_append]
    · rw [List.map_append, hkey, hkeys, ← List.filter_append, List.singleton_append]

theorem exists_each
    (h : List.Forall₂ (fun k part => ∃ b, key b = k ∧ part = blocks b ∧ P b) keys parts) :
    ∃ bs : List β, bs.map key = keys ∧ parts.flatten = bs.flatMap blocks ∧ ∀ b ∈ bs, P b := by
  have hshown : List.Forall₂ (fun k part => ∃ bs : List β, part = bs.flatMap blocks ∧
      bs.map key = [k].filter (fun _ => true) ∧ ∀ b ∈ bs, P b) keys parts := by
    refine h.imp ?_
    rintro _ _ ⟨b, rfl, rfl, hb⟩
    exact ⟨[b], (List.flatMap_singleton ..).symm, rfl, List.forall_mem_singleton.2 hb⟩
  obtain ⟨bs, hblocks, hkeys, hbs⟩ := exists_shown hshown
  exact ⟨bs, hkeys.trans (List.filter_true _), hblocks, hbs⟩

end Parts

/-! ## Rows of tables -/

namespace Document

/-- The rows of all tables among the blocks of a page. -/
def rowsOf (blocks : List Node) : List (List (List Node)) :=
  blocks.flatMap fun
    | .table _ rows => rows
    | _ => []

@[simp] theorem rowsOf_nil : rowsOf [] = [] := rfl

@[simp] theorem rowsOf_append (blocks blocks' : List Node) :
    rowsOf (blocks ++ blocks') = rowsOf blocks ++ rowsOf blocks' :=
  List.flatMap_append

theorem rowsOf_flatMap {α : Type} (f : α → List Node) (l : List α) :
    rowsOf (l.flatMap f) = l.flatMap fun x => rowsOf (f x) :=
  List.flatMap_assoc

end Document

/-! ## Answers -/

namespace Answer

variable {α : Type} {a : Answer α} {e : Error}

/-- The answer can fail with the error: with some journal it does. -/
def Fails (a : Answer α) (e : Error) : Prop := ∃ j j', a.result j = (.error e, j')

/-- An answer comes to nothing but what it can come to, and fails with nothing but what it can fail
with. -/
theorem meets_self (a : Answer α) : a.Meets a.Fails a.Comes := by
  intro j
  cases h : a.result j with
  | mk r j' =>
    cases r with
    | ok x => exact .ok ⟨j, j', h⟩
    | error e => exact .error ⟨j, j', h⟩

end Answer

namespace Renderer

open Answer

variable {r : Renderer} {s : Symbol} {t : TypeSymbol} {m : MemberSymbol} {n : Node}
  {blocks : List Node}

/-! ## Cells and rows -/

theorem shown_of_typeCell {ref : TypeRef} (h : (r.typeCell ref).Comes n) :
    n.shown = ref.displayName := by
  unfold typeCell at h
  split at h
  next => exact shown_of_nameCell h
  next =>
    obtain rfl := h.eq
    rfl

theorem shown_of_memberCell {text : Option String} (h : (r.memberCell m text).Comes n) :
    n.shown = text.getD m.displayName := shown_of_nameCell h

/-- The row of a type shows its name and its summary. -/
def DescribesType (r : Renderer) (t : TypeSymbol) (cells : List (List Node)) : Prop :=
  ∃ name summary, cells = [[name], [.text summary]] ∧ name.shown = t.decl.ref.displayName ∧
    (r.typeCell t.decl.ref).Comes name ∧ (r.summaryText (.type t)).Comes summary

theorem describesType {cells : List (List Node)} (h : (r.typeRow t).Comes cells) :
    r.DescribesType t cells := by
  obtain ⟨name, summary, rfl, hname, hsummary⟩ := comes_typeRow h
  exact ⟨name, summary, rfl, shown_of_typeCell hname, hname, hsummary⟩

/-- The row of a member shows its name or signature, its type, and its summary. -/
def DescribesMember (r : Renderer) (m : MemberSymbol) (cells : List (List Node)) : Prop :=
  ∃ name type summary, cells = [[name], [type], [.text summary]] ∧
    name.shown = (r.shownName m).getD m.displayName ∧
    (r.memberCell m (r.shownName m)).Comes name ∧
    type.shown = (shownType m.decl).displayName ∧ (r.summaryText (.member m)).Comes summary

theorem describesMember {cells : List (List Node)} (h : (r.memberRow m).Comes cells) :
    r.DescribesMember m cells := by
  obtain ⟨name, type, summary, rfl, hname, htype, hsummary⟩ := comes_memberRow h
  exact ⟨name, type, summary, rfl, shown_of_memberCell hname, hname, shown_of_typeCell htype, hsummary⟩

/-- Every page begins with the heading of its unit and a quote. -/
theorem meets_header (unit : String) (framework : Option String) (fails : Error → Prop) :
    (unitHeader unit framework).Meets fails fun blocks =>
      ∃ cells, blocks = [.heading 1 [.text unit], .quote cells] :=
  (meets_link unit _).bind fun _ _ => meets_pure ⟨_, rfl⟩

/-! ## Headings -/

theorem headings_of_render {mode : Markup.Mode} {e : Option Xml.Node} {f : List Node}
    (h : (r.render mode e).Comes f) : headings f = [] := h.meets (r.traced_render mode e) |>.headings

theorem headings_of_sectionBlocks {tag : String} (h : (r.sectionBlocks s tag).Comes blocks) :
    headings blocks = [] := by
  obtain ⟨entry, -, h⟩ := h.bind
  obtain ⟨f, hf, h⟩ := h.bind
  obtain rfl := h.eq
  rw [headings_blocksOf, headings_of_render hf]

theorem headings_of_paragraphs (h : (r.paragraphs s).Comes blocks) : headings blocks = [] := by
  obtain ⟨remarks, hremarks, h⟩ := h.bind
  obtain ⟨examples, hexamples, h⟩ := h.bind
  obtain rfl := h.eq
  rw [headings_append, headings_of_sectionBlocks hremarks, headings_of_sectionBlocks hexamples,
    List.append_nil]

theorem headings_badges (r : Renderer) (attributes : List String) :
    headings (r.badges attributes) = [] := by
  simp only [badges]
  split <;> rfl

theorem headings_of_parameterSummary (h : (r.parameterSummary m).Comes blocks) :
    headings blocks = [] := by
  have htable : ∀ {entry parameters f},
      (r.parameterTable entry parameters).Comes f → headings f = [] := by
    intro entry parameters f hf
    unfold parameterTable at hf
    split at hf
    · obtain rfl := hf.eq
      rfl
    · obtain ⟨rows, -, hf⟩ := hf.bind
      obtain rfl := hf.eq
      rfl
  have hreturns : ∀ {entry type f}, (r.returnQuote entry type).Comes f → headings f = [] := by
    intro entry type f hf
    obtain ⟨cell, -, hf⟩ := hf.bind
    obtain ⟨text, -, hf⟩ := hf.bind
    obtain rfl := hf.eq
    rfl
  obtain ⟨entry, -, h⟩ := h.bind
  obtain ⟨table, ht, h⟩ := h.bind
  split at h
  · obtain ⟨returns, hr, h⟩ := h.bind
    obtain rfl := h.eq
    rw [headings_append, htable ht, hreturns hr, List.append_nil]
  · obtain ⟨returns, hr, h⟩ := h.bind
    obtain rfl := h.eq
    obtain rfl := hr.eq
    rw [headings_append, htable ht, headings_nil, List.append_nil]

/-- The section of a callable: one heading with its signature, and its declaration below it. -/
def CallableSection (r : Renderer) (m : MemberSymbol) (blocks : List Node) : Prop :=
  ∃ below, blocks = .heading 3 [.text m.compactSignature] :: below ∧ headings below = [] ∧
    .codeBlock m.declaration r.settings.render.codeLanguage ∈ below

theorem callableSection_of_comes (h : (r.callableSection m).Comes blocks) :
    r.CallableSection m blocks := by
  obtain ⟨summary, hsummary, h⟩ := h.bind
  obtain ⟨parameters, hparameters, h⟩ := h.bind
  obtain ⟨more, hmore, h⟩ := h.bind
  obtain rfl := h.eq
  refine ⟨summary ++ [r.codeLine m.declaration] ++ r.badges m.decl.declared.attributes
    ++ parameters ++ more, by simp, ?_, by simp [codeLine]⟩
  have hcode : headings [r.codeLine m.declaration] = [] := rfl
  simp only [headings_append, headings_of_sectionBlocks hsummary, hcode, headings_badges,
    headings_of_parameterSummary hparameters, headings_of_paragraphs hmore, List.append_nil]

end Renderer

end ApiDoc
