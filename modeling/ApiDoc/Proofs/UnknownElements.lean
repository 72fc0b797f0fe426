import ApiDoc.Proofs.Spoken
import Mathlib.Algebra.BigOperators.Group.Multiset.Basic
import Mathlib.Algebra.Order.Group.Multiset

/-!
# Elements that are not recognized

An element without a meaning (`Renderer.isUnknown`) is written out where it is rendered, and a warning
is logged. Which elements that happens to depends on how rendering comes to the nodes around them
(`Renderer.Visit`), and so does how often: plain rendering looks for the items of a list at any depth,
and what an item says holds the lists in it once more, so all in such a list is come to twice as often.
`Renderer.reached` gives the elements, each of them once (`Renderer.apart`), with the number of lists
around it that stand in what an item says.
-/

namespace ApiDoc

namespace Renderer

open Markup Xml.Node

variable {r : Renderer} {e : Xml.Node}

/-! ## Elements without a meaning -/

/-- The elements that have a meaning whatever the settings are. -/
def meaningful : List String :=
  containers ++ ["para", "code", "c", "paramref", "typeparamref", "see", "seealso", "list", "br"]

/-- An element without a meaning here. -/
def isUnknown (r : Renderer) (e : Xml.Node) : Bool :=
  e.isElement && !meaningful.contains e.tag && !r.isMarker e.tag

theorem node_unknown (h : r.isUnknown e = true) (mode : Mode) : r.node mode e = unknown e := by
  cases e with
  | text s => cases h
  | element name attributes content =>
    simp only [isUnknown, meaningful, Bool.and_eq_true, Bool.not_eq_true', List.contains_append,
      Bool.or_eq_false_iff, List.contains_cons, List.contains_nil, beq_eq_false_iff_ne, ne_eq] at h
    have hcontainer : (Xml.Node.element name attributes content).tag ∉ containers := by
      simpa using h.1.2.1
    rw [Renderer.node]
    simp [h, hcontainer]

theorem meaningful_of_container (h : containers.contains e.tag = true) :
    meaningful.contains e.tag = true := by
  rw [meaningful, List.contains_append, h, Bool.true_or]

theorem not_isUnknown (r : Renderer) (h : meaningful.contains e.tag = true) : r.isUnknown e = false := by
  rw [isUnknown, h]
  simp

/-! ## Ways to an element -/

/-- How rendering comes to nodes. -/
inductive Visit where
  /-- In normal rendering. -/
  | normal
  /-- In plain rendering: as what is said, in search of items, or both. `depth` of the lists around the
  nodes stand in what an item says. -/
  | plain (depth : Nat) (said searched : Bool)
  /-- As the content of a list of bullets. -/
  | bullets
  /-- As the content of a table, in search of its header. -/
  | header
  /-- As the content of a table, for its rows. -/
  | rows
  /-- In search of the first element with a tag, whose content is then rendered. -/
  | first (mode : Mode) (tag : String)

/-- The nodes are rendered. -/
def Visit.ofMode : Mode → Visit
  | .normal => .normal
  | .plain => .plain 0 true false

/-- The elements that rendering writes out since they are not recognized, each with its depth: the
number of lists around it that stand in what an item says. -/
def reached (r : Renderer) : Visit → List Xml.Node → List (Nat × Xml.Node)
  | _, [] => []
  | visit, .text _ :: rest => reached r visit rest
  | visit, .element name attributes content :: rest =>
    let e : Xml.Node := .element name attributes content
    match visit with
    | .normal =>
      (if containers.contains e.tag || e.tag = "para" then reached r .normal content
        else if e.tag = "list" then
          if e.attribute? "type" = some "table" then
            reached r .header content ++ reached r .rows content
          else reached r .bullets content
        else if r.isUnknown e then [(0, e)] else []) ++ reached r .normal rest
    | .plain depth said searched =>
      (if said && r.isUnknown e then [(depth, e)] else []) ++
        (if e.hasTag "item" && searched then reached r (.plain depth true true) content
          else if containers.contains e.tag || e.tag = "para" then
            reached r (.plain depth said searched) content
          else if e.tag = "list" then
            if said && searched then reached r (.plain (depth + 1) false true) content
            else reached r (.plain depth false (said || searched)) content
          else reached r (.plain depth false searched) content) ++
        reached r (.plain depth said searched) rest
    | .bullets =>
      (if e.hasTag "item" then reached r .normal content else []) ++ reached r .bullets rest
    | .header =>
      if e.hasTag "listheader" then
        reached r (.first .plain "term") content ++ reached r (.first .plain "description") content
      else reached r .header rest
    | .rows =>
      (if e.hasTag "item" then
        reached r (.first .normal "term") content ++ reached r (.first .normal "description") content
        else []) ++ reached r .rows rest
    | .first mode tag =>
      if e.hasTag tag then reached r (.ofMode mode) content else reached r (.first mode tag) rest

/-- What is logged of an element that is not recognized. -/
def warned (e : Xml.Node) : Log.Record :=
  { level := .warning, event := "unrecognized_markup_tag", fields := [("tag", .text e.tag)] }

/-- The warnings about elements, `2 ^ depth` of each. -/
def tally (items : List (Nat × Xml.Node)) : Multiset Log.Record :=
  (items.map fun x => 2 ^ x.1 • {warned x.2}).sum

@[simp] theorem tally_nil : tally [] = 0 := rfl

@[simp] theorem tally_append (items items' : List (Nat × Xml.Node)) :
    tally (items ++ items') = tally items + tally items' := by
  rw [tally, List.map_append, List.sum_append, tally, tally]

@[simp] theorem tally_singleton (depth : Nat) (e : Xml.Node) :
    tally [(depth, e)] = 2 ^ depth • {warned e} := by
  rw [tally, List.map_singleton, List.sum_singleton]

/-- There is nothing to write out among texts. -/
theorem reached_texts (r : Renderer) (visit : Visit) {f : List Xml.Node}
    (h : f.any Xml.Node.isElement = false) : r.reached visit f = [] := by
  induction f with
  | nil => rw [reached]
  | cons n f ih =>
    obtain ⟨hn, hf⟩ := (by simpa [List.any_cons] using h : n.isElement = false ∧ _)
    cases n with
    | text s =>
      rw [reached]
      exact ih (by simpa using hf)
    | element name attributes content => cases hn

theorem reached_cons (r : Renderer) (mode : Mode) (n : Xml.Node) (f : List Xml.Node) :
    r.reached (.ofMode mode) (n :: f) =
      r.reached (.ofMode mode) [n] ++ r.reached (.ofMode mode) f := by
  cases n with
  | text s =>
    rw [reached, r.reached_texts (f := [.text s]) _ rfl]
    rfl
  | element name attributes content =>
    cases mode with
    | normal => rw [Visit.ofMode, reached, reached, reached, List.append_nil]
    | plain => rw [Visit.ofMode, reached, reached, reached, List.append_nil]

/-- What is said and what is found as items is warned of apart, and as often as the depth asks for. -/
theorem exists_tally_plain (r : Renderer) (f : List Xml.Node) :
    ∃ said' searched' : Multiset Log.Record, ∀ depth said searched,
      tally (r.reached (.plain depth said searched) f) =
        2 ^ depth • ((if said then said' else 0) + if searched then searched' else 0) := by
  induction f using contentInduction with
  | nil => exact ⟨0, 0, by simp [reached]⟩
  | text s rest ih => simpa only [reached] using ih
  | element name attributes content rest ihcontent ih =>
    obtain ⟨said₁, searched₁, hcontent⟩ := ihcontent
    obtain ⟨said₂, searched₂, hrest⟩ := ih
    simp only [reached, tally_append, hrest]
    generalize Xml.Node.element name attributes content = e
    have hown : ∀ (depth : Nat) (said : Bool),
        tally (if said && r.isUnknown e then [(depth, e)] else []) =
          2 ^ depth • if said then tally (if r.isUnknown e then [(0, e)] else []) else 0 := by
      intro depth said
      cases said <;> cases r.isUnknown e <;> simp
    simp only [hown]
    generalize tally (if r.isUnknown e then [(0, e)] else []) = own
    by_cases hitem : e.hasTag "item" = true
    · have htag : e.tag = "item" := by simpa using (Bool.and_eq_true_iff.1 hitem).2
      refine ⟨own + said₂, said₁ + searched₁ + searched₂, fun depth said searched => ?_⟩
      cases said <;> cases searched <;> simp [hitem, htag, containers, hcontent, smul_add, add_assoc,
        add_left_comm]
    by_cases hopen : containers.contains e.tag || e.tag = "para"
    · refine ⟨own + said₁ + said₂, searched₁ + searched₂, fun depth said searched => ?_⟩
      simp only [hitem, hopen, Bool.false_and, Bool.false_eq_true, if_true, if_false, hcontent]
      cases said <;> cases searched <;> simp [smul_add, add_assoc, add_left_comm]
    by_cases hlist : e.tag = "list"
    · refine ⟨own + searched₁ + said₂, searched₁ + searched₂, fun depth said searched => ?_⟩
      simp only [hitem, hopen, Bool.false_and, Bool.false_eq_true, if_false]
      simp only [hlist, if_true]
      cases said <;> cases searched <;> simp [hcontent, pow_succ, smul_add, two_nsmul,
        mul_nsmul, add_assoc, add_left_comm]
    · refine ⟨own + said₂, searched₁ + searched₂, fun depth said searched => ?_⟩
      simp only [hitem, hopen, hlist, Bool.false_and, Bool.false_eq_true, if_false, hcontent]
      cases said <;> cases searched <;> simp [smul_add, add_assoc, add_left_comm]

theorem tally_both (r : Renderer) (f : List Xml.Node) : tally (r.reached (.plain 0 true true) f) =
    tally (r.reached (.plain 0 true false) f) + tally (r.reached (.plain 0 false true) f) := by
  obtain ⟨said, searched, h⟩ := r.exists_tally_plain f
  simp [h]

theorem tally_neither (r : Renderer) (f : List Xml.Node) :
    tally (r.reached (.plain 0 false false) f) = 0 := by
  obtain ⟨said, searched, h⟩ := r.exists_tally_plain f
  simp [h]

/-! ### Warnings by tags -/

theorem tally_open (mode : Mode) (h : containers.contains e.tag = true ∨ e.tag = "para") :
    tally (r.reached (.ofMode mode) [e]) = tally (r.reached (.ofMode mode) e.content) := by
  have hmeaningful : meaningful.contains e.tag = true :=
    h.elim meaningful_of_container fun hpara => by rw [hpara]; decide
  have hopen : (containers.contains e.tag || decide (e.tag = "para")) = true := by simpa using h
  cases e with
  | text s => exact absurd hmeaningful (show ¬ meaningful.contains "" = true by decide)
  | element name attributes content =>
    cases mode with
    | normal =>
      rw [Visit.ofMode, reached, if_pos hopen, reached, List.append_nil]
      rfl
    | plain =>
      rw [Visit.ofMode, reached, r.not_isUnknown hmeaningful, hopen, reached, List.append_nil]
      simp only [Bool.and_false, Bool.false_eq_true, if_false, if_true, List.nil_append]
      rfl

theorem tally_list_plain (h : e.tag = "list") : tally (r.reached (.ofMode .plain) [e]) =
    tally (r.reached (.plain 0 false true) e.content) := by
  obtain ⟨name, attributes, content, rfl⟩ := exists_element h (by decide)
  rw [Visit.ofMode, reached, r.not_isUnknown (by rw [h]; decide), h, reached, List.append_nil]
  simp only [Bool.and_false, Bool.false_eq_true, if_false, List.nil_append]
  rfl

theorem tally_list_normal (h : e.tag = "list") : tally (r.reached (.ofMode .normal) [e]) =
    if e.attribute? "type" = some "table" then
      tally (r.reached .header e.content) + tally (r.reached .rows e.content)
    else tally (r.reached .bullets e.content) := by
  obtain ⟨name, attributes, content, rfl⟩ := exists_element h (by decide)
  rw [Visit.ofMode, reached, h, reached, List.append_nil, ← tally_append,
    ← apply_ite tally (_ = some "table")]
  rfl

theorem tally_other (mode : Mode) (hcontainer : ¬ containers.contains e.tag = true)
    (hpara : e.tag ≠ "para") (hlist : e.tag ≠ "list") :
    tally (r.reached (.ofMode mode) [e]) = if r.isUnknown e then {warned e} else 0 := by
  have hone : tally (if r.isUnknown e then [(0, e)] else []) =
      if r.isUnknown e then {warned e} else 0 := by
    rw [apply_ite tally, tally_singleton, pow_zero, one_nsmul, tally_nil]
  rw [← hone]
  cases e with
  | text s =>
    rw [r.reached_texts (f := [.text s]) _ rfl]
    rfl
  | element name attributes content =>
    cases mode with
    | normal =>
      rw [Visit.ofMode, reached, reached, List.append_nil]
      simp only [hcontainer, hpara, hlist, decide_false, Bool.or_false, Bool.false_eq_true, if_false]
    | plain =>
      rw [Visit.ofMode, reached, reached, List.append_nil, tally_append]
      simp only [hcontainer, hpara, hlist, decide_false, Bool.or_false, Bool.false_eq_true, if_false,
        Bool.and_false, Bool.true_and, tally_neither, add_zero]

/-! ## The elements one by one -/

theorem isUnknown_of_mem_reached (r : Renderer) (visit : Visit) (f : List Xml.Node) :
    ∀ x ∈ r.reached visit f, r.isUnknown x.2 = true := by
  induction f using contentInduction generalizing visit with
  | nil => rw [reached]; exact nofun
  | text s rest ih => rw [reached]; exact ih _
  | element name attributes content rest ihcontent ih =>
    cases visit with
    | normal =>
      rw [reached]
      refine List.forall_mem_append.2 ⟨?_, ih _⟩
      split_ifs with hopen hlist htable hunknown
      · exact ihcontent _
      · exact List.forall_mem_append.2 ⟨ihcontent _, ihcontent _⟩
      · exact ihcontent _
      · exact List.forall_mem_singleton.2 hunknown
      · exact nofun
    | plain depth said searched =>
      rw [reached]
      refine List.forall_mem_append.2 ⟨List.forall_mem_append.2 ⟨?_, ?_⟩, ih _⟩
      · split_ifs with hunknown
        · exact List.forall_mem_singleton.2 (Bool.and_eq_true_iff.1 hunknown).2
        · exact nofun
      · split_ifs
        all_goals exact ihcontent _
    | bullets =>
      rw [reached]
      refine List.forall_mem_append.2 ⟨?_, ih _⟩
      split_ifs
      · exact ihcontent _
      · exact nofun
    | header =>
      rw [reached]
      split_ifs
      · exact List.forall_mem_append.2 ⟨ihcontent _, ihcontent _⟩
      · exact ih _
    | rows =>
      rw [reached]
      refine List.forall_mem_append.2 ⟨?_, ih _⟩
      split_ifs
      · exact List.forall_mem_append.2 ⟨ihcontent _, ihcontent _⟩
      · exact nofun
    | first mode tag =>
      rw [reached]
      split_ifs
      · exact ihcontent _
      · exact ih _

/-- The elements that a visit comes to are elements of their own, and so are those of two visits that
look for different ones. -/
structure Apart (r : Renderer) (f : List Xml.Node) : Prop where
  one : ∀ visit, ((r.reached visit f).map Prod.snd).Subperm (elementsOf f)
  firsts : ∀ mode tag tag', tag ≠ tag' →
    ((r.reached (.first mode tag) f ++ r.reached (.first mode tag') f).map Prod.snd).Subperm (elementsOf f)
  table : ((r.reached .header f ++ r.reached .rows f).map Prod.snd).Subperm (elementsOf f)

theorem hasTag_ne {tag tag' : String} (hne : tag ≠ tag') (h : e.hasTag tag = true) :
    e.hasTag tag' = false := by
  rw [hasTag, Bool.and_eq_true, beq_iff_eq] at h
  rw [hasTag, h.2, beq_eq_false_iff_ne.2 hne, Bool.and_false]

namespace Apart

variable {name : Xml.Name} {attributes : Xml.Attributes} {content rest : List Xml.Node}

theorem nil (r : Renderer) : r.Apart [] := by
  constructor
  · intro visit
    rw [reached]
    exact List.nil_subperm
  · intro mode tag tag' _
    rw [reached, reached]
    exact List.nil_subperm
  · rw [reached, reached]
    exact List.nil_subperm

theorem text (h : r.Apart rest) (s : String) : r.Apart (.text s :: rest) := by
  constructor
  · intro visit
    rw [reached]
    exact h.one visit
  · intro mode tag tag' hne
    rw [reached, reached]
    exact h.firsts mode tag tag' hne
  · rw [reached, reached]
    exact h.table

/-- Elements in what an element contains are elements in it. -/
theorem subperm_elements {l : List Xml.Node} (h : l.Subperm (elementsOf content)) :
    l.Subperm (elements (.element name attributes content)) := by
  rw [elements]
  exact h.trans (List.sublist_cons_self _ _).subperm

theorem subperm_elementsOf_cons {l : List Xml.Node} (h : l.Subperm (elementsOf rest)) (n : Xml.Node) :
    l.Subperm (elementsOf (n :: rest)) := by
  rw [elementsOf]
  exact h.trans (List.sublist_append_right _ _).subperm

/-- The term and the description of an item hold different elements of it. -/
theorem pair (h : r.Apart content) (mode : Mode) : ((r.reached (.first mode "term") content ++
    r.reached (.first mode "description") content).map Prod.snd).Subperm
      (elements (.element name attributes content)) :=
  subperm_elements (h.firsts mode _ _ (by decide))

theorem one_element (hcontent : r.Apart content) (hrest : r.Apart rest) (visit : Visit) :
    ((r.reached visit (.element name attributes content :: rest)).map Prod.snd).Subperm
      (elementsOf (.element name attributes content :: rest)) := by
  cases visit with
  | normal =>
    rw [reached, List.map_append, elementsOf]
    refine List.Subperm.append ?_ (hrest.one _)
    split_ifs
    · exact subperm_elements (hcontent.one _)
    · exact subperm_elements hcontent.table
    · exact subperm_elements (hcontent.one _)
    · rw [elements]
      exact (List.singleton_sublist.2 List.mem_cons_self).subperm
    · exact List.nil_subperm
  | plain depth said searched =>
    rw [reached, List.map_append, elementsOf, elements, List.map_append]
    refine List.Subperm.append (?_ : List.Subperm _ ([_] ++ elementsOf content)) (hrest.one _)
    refine List.Subperm.append ?_ ?_
    · split_ifs
      · exact List.Subperm.refl _
      · exact List.nil_subperm
    · split_ifs
      all_goals exact hcontent.one _
  | bullets =>
    rw [reached, List.map_append, elementsOf]
    refine List.Subperm.append ?_ (hrest.one _)
    split_ifs
    · exact subperm_elements (hcontent.one _)
    · exact List.nil_subperm
  | header =>
    rw [reached]
    split_ifs
    · rw [elementsOf]
      exact (hcontent.pair .plain).trans (List.sublist_append_left _ _).subperm
    · exact subperm_elementsOf_cons (hrest.one _) _
  | rows =>
    rw [reached, List.map_append, elementsOf]
    refine List.Subperm.append ?_ (hrest.one _)
    split_ifs
    · exact hcontent.pair .normal
    · exact List.nil_subperm
  | first mode tag =>
    rw [reached]
    split_ifs
    · rw [elementsOf]
      exact (subperm_elements (hcontent.one _)).trans (List.sublist_append_left _ _).subperm
    · exact subperm_elementsOf_cons (hrest.one _) _

theorem firsts_element (hcontent : r.Apart content) (hrest : r.Apart rest) (mode : Mode)
    {tag tag' : String} (hne : tag ≠ tag') :
    ((r.reached (.first mode tag) (.element name attributes content :: rest) ++
      r.reached (.first mode tag') (.element name attributes content :: rest)).map Prod.snd).Subperm
        (elementsOf (.element name attributes content :: rest)) := by
  rw [reached, reached, List.map_append]
  by_cases htag : (Xml.Node.element name attributes content).hasTag tag = true
  · rw [if_pos htag, if_neg (by simp [hasTag_ne hne htag]), elementsOf]
    exact (subperm_elements (hcontent.one _)).append (hrest.one _)
  · rw [if_neg htag]
    split
    · rw [elementsOf]
      exact List.perm_append_comm.subperm.trans ((subperm_elements (hcontent.one _)).append (hrest.one _))
    · rw [← List.map_append]
      exact subperm_elementsOf_cons (hrest.firsts mode tag tag' hne) _

theorem table_element (hcontent : r.Apart content) (hrest : r.Apart rest) :
    ((r.reached .header (.element name attributes content :: rest) ++
      r.reached .rows (.element name attributes content :: rest)).map Prod.snd).Subperm
        (elementsOf (.element name attributes content :: rest)) := by
  rw [reached, reached]
  by_cases hheader : (Xml.Node.element name attributes content).hasTag "listheader" = true
  · have hitem : (Xml.Node.element name attributes content).hasTag "item" = false :=
      hasTag_ne (by decide) hheader
    rw [if_pos hheader, hitem, if_neg Bool.false_ne_true, List.nil_append, List.map_append, elementsOf]
    exact (hcontent.pair .plain).append (hrest.one _)
  · rw [if_neg hheader]
    split
    · -- the elements of this item come before those of the header, which is still to be found
      refine ((List.perm_append_comm_assoc _ _ _).map Prod.snd).subperm.trans ?_
      rw [List.map_append, elementsOf]
      exact (hcontent.pair .normal).append hrest.table
    · exact subperm_elementsOf_cons hrest.table _

end Apart

theorem apart (r : Renderer) (f : List Xml.Node) : r.Apart f := by
  induction f using contentInduction with
  | nil => exact .nil r
  | text s rest ih => exact ih.text s
  | element name attributes content rest ihcontent ih =>
    exact ⟨ihcontent.one_element ih, fun mode _ _ hne => ihcontent.firsts_element ih mode hne,
      ihcontent.table_element ih⟩

end Renderer
end ApiDoc
