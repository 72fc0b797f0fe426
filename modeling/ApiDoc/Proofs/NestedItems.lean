import Mathlib
import ApiDoc.Proofs.Boundaries

/-!
# Items within items

A list says its items at any depth, in document order, and each item says the lists in it once more.
So an item is said twice as often for each item around it that says the list it is in
(`Renderer.itemDepths`): what an item says of its own (`Renderer.ownWords`) stands `2 ^ depth` times
in the line of an element (`Renderer.occurrences_renderText`).
-/

namespace ApiDoc

namespace Text

/-- How often a character stands in a text. -/
def occurrences (c : Char) (s : String) : Nat := s.toList.count c

@[simp] theorem occurrences_empty (c : Char) : occurrences c "" = 0 := rfl

@[simp] theorem occurrences_append (c : Char) (s s' : String) :
    occurrences c (s ++ s') = occurrences c s + occurrences c s' := by
  rw [occurrences, String.toList_append, List.count_append, occurrences, occurrences]

variable {c : Char}

theorem occurrences_space (hc : isBlank c = false) : occurrences c " " = 0 := by
  refine List.count_eq_zero.2 fun h => ?_
  have hmem : c ∈ [' '] := h
  rw [List.mem_singleton.1 hmem, isBlank_space] at hc
  cases hc

theorem occurrences_withoutBlanks (hc : isBlank c = false) (s : String) :
    (withoutBlanks s).count c = occurrences c s :=
  List.count_filter (by simp [hc])

theorem occurrences_flat (hc : isBlank c = false) (s : String) :
    occurrences c (flat s) = occurrences c s := by
  rw [← occurrences_withoutBlanks hc, withoutBlanks_flat, occurrences_withoutBlanks hc]

end Text

namespace Renderer

open Answer Markup Xml.Node Text

variable {r : Renderer} {b e : Xml.Node} {content before after : List Xml.Node} {c : Char}

/-! ## Surroundings -/

theorem Edge.spoken {edge : List Xml.Node} (h : Edge e.tag edge) (r : Renderer) :
    r.spokenNode e = r.spoken edge ++ r.spoken e.content ++ r.spoken edge := by
  generalize htag : e.tag = tag at h
  cases h with
  | container h =>
    rw [r.spokenNode_container (htag ▸ h), Renderer.spoken, String.empty_append, String.append_empty]
  | para =>
    have hspace : r.spoken [.text " "] = " " := by
      rw [Renderer.spoken, Renderer.spoken, spokenNode]
      rfl
    rw [r.spokenNode_para htag, hspace]

/-- What stands before an element, what it says, and what stands after it. -/
theorem Lies.spoken (h : Lies b content before after) (r : Renderer) :
    r.spoken content = r.spoken before ++ r.spokenNode b ++ r.spoken after := by
  induction h with
  | here before after hb => rw [spoken_append, Renderer.spoken, String.append_assoc]
  | within front back hedge hlies ih =>
    rw [spoken_append, Renderer.spoken, hedge.spoken r, ih]
    simp only [spoken_append, String.append_assoc]

/-! ## Items and their depths -/

mutual

/-- What a node says of its own, the lists in it left out. -/
def ownNode (r : Renderer) : Xml.Node → String
  | .text s => Text.collapse s
  | .element name attributes content =>
    let e : Xml.Node := .element name attributes content
    if containers.contains e.tag then ownWords r content
    else if e.tag = "para" then " " ++ ownWords r content ++ " "
    else if e.tag = "list" then ""
    else r.spokenNode e

def ownWords (r : Renderer) : List Xml.Node → String
  | [] => ""
  | n :: rest => ownNode r n ++ ownWords r rest

end

/-- The items among the elements of nodes, each with its depth: the number of items around it whose
content, as it is rendered, holds the list that it is in. `depth` is that of an item right here. With
`inItem`, the nodes are rendered content of the nearest item around them, which then counts for the
items of a list that stands here. -/
def itemDepths (depth : Nat) (inItem : Bool) : List Xml.Node → List (Nat × Xml.Node)
  | [] => []
  | .text _ :: rest => itemDepths depth inItem rest
  | .element name attributes content :: rest =>
    let e : Xml.Node := .element name attributes content
    (if e.hasTag "item" then (depth, e) :: itemDepths depth true content
      else if containers.contains e.tag || e.tag = "para" then itemDepths depth inItem content
      else if e.tag = "list" && inItem then itemDepths (depth + 1) false content
      else itemDepths depth false content) ++
    itemDepths depth inItem rest

/-- Each item is counted once, in document order. -/
theorem itemDepths_map_snd (f : List Xml.Node) (depth : Nat) (inItem : Bool) :
    (itemDepths depth inItem f).map Prod.snd = itemsOf f := by
  induction f using contentInduction generalizing depth inItem with
  | nil =>
    rw [itemDepths]
    rfl
  | text s rest ih =>
    rw [itemDepths, ih, itemsOf_cons]
    rfl
  | element name attributes content rest ihcontent ih =>
    rw [itemDepths, List.map_append, ih, itemsOf_cons]
    refine congrArg (· ++ itemsOf rest) ?_
    split
    · rw [List.map_cons, ihcontent]
      rfl
    · split
      · exact ihcontent _ _
      · split
        · exact ihcontent _ _
        · exact ihcontent _ _

theorem itemDepths_succ (f : List Xml.Node) (depth : Nat) (inItem : Bool) :
    itemDepths (depth + 1) inItem f = (itemDepths depth inItem f).map fun x => (x.1 + 1, x.2) := by
  induction f using contentInduction generalizing depth inItem with
  | nil =>
    rw [itemDepths, itemDepths]
    rfl
  | text s rest ih => rw [itemDepths, itemDepths, ih]
  | element name attributes content rest ihcontent ih =>
    rw [itemDepths, itemDepths, List.map_append, ih]
    refine congrArg (· ++ _) ?_
    split
    · rw [List.map_cons, ihcontent]
    · split
      · exact ihcontent _ _
      · split
        · exact ihcontent _ _
        · exact ihcontent _ _

/-! ## How often items are said -/

/-- How often a character stands in what items say of their own, each `2 ^ depth` times. -/
def weigh (r : Renderer) (c : Char) (items : List (Nat × Xml.Node)) : Nat :=
  (items.map fun x => 2 ^ x.1 * occurrences c (r.ownWords x.2.content)).sum

@[simp] theorem weigh_cons (x : Nat × Xml.Node) (items : List (Nat × Xml.Node)) :
    r.weigh c (x :: items) =
      2 ^ x.1 * occurrences c (r.ownWords x.2.content) + r.weigh c items := by
  rw [weigh, List.map_cons, List.sum_cons, weigh]

@[simp] theorem weigh_append (items items' : List (Nat × Xml.Node)) :
    r.weigh c (items ++ items') = r.weigh c items + r.weigh c items' := by
  rw [weigh, List.map_append, List.sum_append, weigh, weigh]

theorem weigh_itemDepths_succ (f : List Xml.Node) (depth : Nat) (inItem : Bool) :
    r.weigh c (itemDepths (depth + 1) inItem f) = 2 * r.weigh c (itemDepths depth inItem f) := by
  rw [itemDepths_succ]
  induction itemDepths depth inItem f with
  | nil => rfl
  | cons x items ih =>
    rw [List.map_cons, weigh_cons, weigh_cons, ih, Nat.mul_add, Nat.pow_succ, Nat.mul_comm _ 2,
      Nat.mul_assoc]

theorem ownNode_container (r : Renderer) (h : containers.contains e.tag = true) :
    r.ownNode e = r.ownWords e.content := by
  obtain ⟨name, attributes, content, rfl⟩ := exists_container h
  rw [ownNode]
  exact if_pos h

theorem ownNode_para (r : Renderer) (h : e.tag = "para") :
    r.ownNode e = " " ++ r.ownWords e.content ++ " " := by
  obtain ⟨name, attributes, content, rfl⟩ := exists_element h (by decide)
  rw [ownNode, h]
  rfl

theorem ownNode_list (r : Renderer) (h : e.tag = "list") : r.ownNode e = "" := by
  obtain ⟨name, attributes, content, rfl⟩ := exists_element h (by decide)
  rw [ownNode, h]
  rfl

/-- All that an element says is its own if it is not said as what it contains. -/
theorem ownNode_eq_spokenNode (r : Renderer) (hcontainer : ¬ containers.contains e.tag = true)
    (hpara : e.tag ≠ "para") (hlist : e.tag ≠ "list") : r.ownNode e = r.spokenNode e := by
  cases e with
  | text s => rw [ownNode, spokenNode]
  | element name attributes content =>
    rw [ownNode, if_neg hcontainer, if_neg hpara, if_neg hlist]

/-- What the items of nodes say of their own makes up what the items say. If the nodes are the content
of an item, their own words and those of their items make up what the items and the nodes say. -/
theorem weigh_itemDepths (r : Renderer) (hc : isBlank c = false) (f : List Xml.Node) :
    r.weigh c (itemDepths 0 false f) = occurrences c (r.spokenItems f) ∧
      r.weigh c (itemDepths 0 true f) + occurrences c (r.ownWords f) =
        occurrences c (r.spokenItems f) + occurrences c (r.spoken f) := by
  induction f using contentInduction with
  | nil =>
    rw [itemDepths, itemDepths, spokenItems, spoken, ownWords]
    exact ⟨rfl, rfl⟩
  | text s rest ih =>
    obtain ⟨hitems, hall⟩ := ih
    rw [itemDepths, itemDepths, spokenItems, spoken, ownWords, spokenNode, ownNode,
      occurrences_append, occurrences_append]
    refine ⟨hitems, ?_⟩
    omega
  | element name attributes content rest ihcontent ih =>
    obtain ⟨hcontent, hwithin⟩ := ihcontent
    obtain ⟨hitems, hall⟩ := ih
    have hspace := occurrences_space hc
    rw [itemDepths, itemDepths, spokenItems, spoken, ownWords]
    simp only [occurrences_append, weigh_append]
    generalize he : Xml.Node.element name attributes content = e
    have hinner : content = e.content := he ▸ rfl
    have hself : e.isElement = true := he ▸ rfl
    by_cases hitem : e.hasTag "item" = true
    · -- the item here, with what it says of its own
      have htag : e.tag = "item" := by
        simpa [hasTag, hself] using hitem
      have hown : r.ownNode e = r.spokenNode e :=
        r.ownNode_eq_spokenNode (by rw [htag]; decide) (by rw [htag]; decide) (by rw [htag]; decide)
      simp only [if_pos hitem, weigh_cons, occurrences_append, hown, ← hinner]
      omega
    rw [if_neg hitem, if_neg hitem, if_neg hitem, occurrences_empty]
    by_cases hcontainer : containers.contains e.tag = true
    · simp only [hcontainer, Bool.true_or, if_true, r.ownNode_container hcontainer,
        r.spokenNode_container hcontainer, ← hinner]
      omega
    by_cases hpara : e.tag = "para"
    · simp only [hpara, decide_true, Bool.or_true, if_true, r.ownNode_para hpara,
        r.spokenNode_para hpara, ← hinner, occurrences_append]
      omega
    have hopen : ¬ (containers.contains e.tag || decide (e.tag = "para")) = true := by
      rw [Bool.or_eq_true, decide_eq_true_eq]
      exact not_or.2 ⟨hcontainer, hpara⟩
    rw [if_neg hopen, if_neg hopen]
    by_cases hlist : e.tag = "list"
    · -- the items of the list are said by the item as well
      simp only [hlist, decide_true, Bool.and_true, Bool.and_false, Bool.false_eq_true, if_true,
        if_false, weigh_itemDepths_succ, r.ownNode_list hlist, r.spokenNode_list hlist, ← hinner,
        occurrences_empty]
      omega
    · simp only [hlist, decide_false, Bool.false_and, Bool.false_eq_true, if_false,
        r.ownNode_eq_spokenNode hcontainer hpara hlist]
      omega

/-- Plain rendering never fails. Around a list the line of an element says what stands before and
after it, and of the list what each item at any depth says, in document order. Since an item says the
lists in it once more, what an item says of its own stands there `2 ^ depth` times: once if no item
around it says the list that it is in, and else more than once. -/
theorem occurrences_renderText (r : Renderer) (h : Lies b e.content before after)
    (hb : b.tag = "list") :
    ∃ line, (r.renderText (some e) none).Meets (fun _ => False) (fun s => s = line) ∧
      line = flat (r.spoken before ++
        eachAfterSpace ((itemsOf b.content).map fun i => r.spoken i.content) ++ r.spoken after) ∧
      (itemDepths 0 false b.content).map Prod.snd = itemsOf b.content ∧
      ∀ c, isBlank c = false → occurrences c line = occurrences c (r.spoken before) +
        ((itemDepths 0 false b.content).map fun x =>
          2 ^ x.1 * occurrences c (r.ownWords x.2.content)).sum + occurrences c (r.spoken after) := by
  have hspoken : r.spoken e.content = r.spoken before ++ r.spokenItems b.content ++ r.spoken after := by
    rw [h.spoken r, r.spokenNode_list hb]
  refine ⟨flat (r.spoken e.content), ?_, ?_, itemDepths_map_snd _ _ _, fun c hc => ?_⟩
  · exact (r.meets_render_plain e).bind fun f hf => meets_pure hf
  · rw [hspoken, spokenItems_eq]
  · rw [occurrences_flat hc, hspoken, occurrences_append, occurrences_append,
      ← (r.weigh_itemDepths hc b.content).1, weigh]

/-- An item, with the lists in it. -/
def choice (words : String) (lists : List Xml.Node) : Xml.Node :=
  .element (.plain "item") [] (.text words :: lists)

/-- A list whose item has a list in it. -/
def choices : Xml.Node :=
  .element (.plain "list") [] [choice "one" [.element (.plain "list") [] [choice "two" []]]]

def offer : Xml.Node := .element (.plain "summary") [] [.text "Pick", choices]

/-- The item within the item is said twice. -/
theorem occurrences_renderText_offer :
    (bare.renderText (some offer) none).Meets (fun _ => False) (fun s => s = "Pick one two two") ∧
      (itemDepths 0 false choices.content).map Prod.fst = [0, 1] ∧
      ∀ c, isBlank c = false → occurrences c "Pick one two two" =
        occurrences c "Pick" + (occurrences c "one" + 2 * occurrences c "two") := by
  have hlies : Lies choices offer.content [.text "Pick"] [] := .here [.text "Pick"] [] rfl
  obtain ⟨line, hmeets, hline, -, hcount⟩ := occurrences_renderText bare hlies rfl
  have hsaid : line = "Pick one two two" := hline.trans (by cbv)
  subst hsaid
  refine ⟨hmeets, by cbv, fun c hc => ?_⟩
  have hdepths : itemDepths 0 false choices.content =
      [(0, choice "one" [.element (.plain "list") [] [choice "two" []]]), (1, choice "two" [])] := by
    cbv
  have hone : bare.ownWords (choice "one" [.element (.plain "list") [] [choice "two" []]]).content =
      "one" := by cbv
  have htwo : bare.ownWords (choice "two" []).content = "two" := by cbv
  have hbefore : bare.spoken [.text "Pick"] = "Pick" := by cbv
  have hafter : bare.spoken [] = "" := by cbv
  rw [hcount c hc, hdepths, hbefore, hafter]
  simp only [List.map_cons, List.map_nil, List.sum_cons, List.sum_nil, hone, htwo, occurrences_empty]
  omega

end Renderer
end ApiDoc
