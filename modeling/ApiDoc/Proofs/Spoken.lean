import ApiDoc.Proofs.MarkupSources
import ApiDoc.Proofs.PlainText

/-!
# The words of markup

What markup says, as plain rendering shows it (`Renderer.spoken`): the text of each element, with the
blanks that plain rendering puts around paragraphs and before items. Plain rendering never fails, and
it shows these words (`Renderer.meets_spoken`), whatever journal it starts with.
-/

namespace ApiDoc

open Document (Node Fragment shownAll)

namespace Xml.Node

/-- What has a tag is an element. -/
theorem exists_element {e : Node} {tag : String} (h : e.tag = tag) (hne : tag ≠ "") :
    ∃ name attributes content, e = .element name attributes content := by
  cases e with
  | text s => exact absurd h.symm hne
  | element name attributes content => exact ⟨name, attributes, content, rfl⟩

theorem exists_container {e : Node} (h : Markup.containers.contains e.tag = true) :
    ∃ name attributes content, e = .element name attributes content := by
  refine exists_element rfl fun hempty => ?_
  rw [hempty] at h
  exact absurd h (by decide)

/-- Induction on nodes and what is in them. -/
theorem contentInduction {motive : List Node → Prop} (nil : motive [])
    (text : ∀ s rest, motive rest → motive (.text s :: rest))
    (element : ∀ name attributes content rest, motive content → motive rest →
      motive (.element name attributes content :: rest)) (f : List Node) : motive f :=
  @Node.rec_1 (fun n => ∀ rest, motive rest → motive (n :: rest)) motive
    (fun s rest h => text s rest h)
    (fun name attributes content hcontent rest h => element name attributes content rest hcontent h)
    nil (fun _ rest hn h => hn rest h) f

/-- The items among the elements of nodes, at any depth. -/
def itemsOf (f : List Node) : List Node := (elementsOf f).filter (·.hasTag "item")

theorem itemsOf_cons (n : Node) (f : List Node) : itemsOf (n :: f) =
    (if n.hasTag "item" then [n] else []) ++ itemsOf n.content ++ itemsOf f := by
  cases n with
  | text s => rw [itemsOf, elementsOf, elements]; rfl
  | element name attributes content =>
    rw [itemsOf, elementsOf, elements, List.filter_append, List.filter_cons]
    split <;> rfl

end Xml.Node

namespace Renderer

open Answer Markup Xml.Node

variable {r : Renderer} {e : Xml.Node}

/-- A renderer that knows no symbols. -/
def bare : Renderer := { catalog := { units := [] }, hierarchy := {}, outcomes := [] }

/-! ## Words -/

/-- What a `see` or `seealso` element shows, be it a link or not. -/
def referenceText (r : Renderer) (e : Xml.Node) : String :=
  let value (label : String) := (e.attribute? label).getD ""
  let inner := Text.flat e.innerText
  if value "langword" ≠ "" then value "langword"
  else if value "href" ≠ "" then orElse inner (value "href")
  else
    let key := value "cref"
    match if key.startsWith unresolvedMark then none else r.findSymbol key with
    | none => orElse inner (withoutMark key)
    | some s => orElse inner (r.referenceName s)

mutual

/-- The words of a node, with the blanks around them. -/
def spokenNode (r : Renderer) : Xml.Node → String
  | .text s => Text.collapse s
  | .element name attributes content =>
    let e : Xml.Node := .element name attributes content
    let tag := e.tag
    if containers.contains tag then spoken r content
    else if tag = "para" then " " ++ spoken r content ++ " "
    else if tag = "code" then Text.collapse e.innerText
    else if tag = "c" then Text.flat e.innerText
    else if tag = "paramref" || tag = "typeparamref" then (e.attribute? "name").getD ""
    else if tag = "see" || tag = "seealso" then r.referenceText e
    else if tag = "list" then spokenItems r content
    else if tag = "br" then " "
    else if r.isMarker tag then ""
    else Text.collapse (Xml.write e)

def spoken (r : Renderer) : List Xml.Node → String
  | [] => ""
  | n :: rest => spokenNode r n ++ spoken r rest

/-- The words of the items at any depth, each item after a blank. -/
def spokenItems (r : Renderer) : List Xml.Node → String
  | [] => ""
  | .text _ :: rest => spokenItems r rest
  | .element name attributes content :: rest =>
    (if (Xml.Node.element name attributes content).hasTag "item" then " " ++ spoken r content else "") ++
      spokenItems r content ++ spokenItems r rest

end

@[simp] theorem spoken_append (r : Renderer) (f g : List Xml.Node) :
    r.spoken (f ++ g) = r.spoken f ++ r.spoken g := by
  induction f with
  | nil => rw [List.nil_append, spoken, String.empty_append]
  | cons n f ih => rw [List.cons_append, spoken, spoken, ih, String.append_assoc]

theorem spokenNode_container (r : Renderer) (h : containers.contains e.tag = true) :
    r.spokenNode e = r.spoken e.content := by
  obtain ⟨name, attributes, content, rfl⟩ := exists_container h
  rw [spokenNode]
  exact if_pos h

theorem spokenNode_para (r : Renderer) (h : e.tag = "para") :
    r.spokenNode e = " " ++ r.spoken e.content ++ " " := by
  obtain ⟨name, attributes, content, rfl⟩ := exists_element h (by decide)
  rw [spokenNode, h]
  rfl

theorem spokenNode_list (r : Renderer) (h : e.tag = "list") :
    r.spokenNode e = r.spokenItems e.content := by
  obtain ⟨name, attributes, content, rfl⟩ := exists_element h (by decide)
  rw [spokenNode, h]
  rfl

/-- The items of a list come in document order, each with all that it says. -/
theorem spokenItems_eq (r : Renderer) (f : List Xml.Node) :
    r.spokenItems f = Text.eachAfterSpace ((itemsOf f).map fun e => r.spoken e.content) := by
  induction f using contentInduction with
  | nil =>
    rw [spokenItems]
    rfl
  | text s rest ih =>
    rw [spokenItems, ih, itemsOf_cons]
    rfl
  | element name attributes content rest ihcontent ih =>
    rw [spokenItems, ihcontent, ih, itemsOf_cons]
    simp only [List.map_append, Text.eachAfterSpace_append]
    split
    · rw [List.map_singleton, Text.eachAfterSpace, Text.eachAfterSpace, String.append_empty]
      rfl
    · rfl

/-! ## References -/

@[simp] theorem shown_codeOr (mode : Mode) (s : String) : (codeOr mode s).shown = s := by
  cases mode <;> rfl

/-- An error that the source of a unit or the path of a symbol comes to. -/
def Propagates (r : Renderer) (e : Error) : Prop :=
  (∃ o ∈ r.outcomes, o.2 = .error e) ∨ ∃ s, r.paths s = .error e

theorem meets_isIndexed_propagates (r : Renderer) (unit : Option String) :
    (r.isIndexed unit).Meets r.Propagates fun _ => True := by
  have hcontents : (r.contents unit).Meets r.Propagates fun _ => True := by
    unfold Context.contents
    split
    · exact meets_pure trivial
    · split
      · exact meets_pure trivial
      next outcome ho =>
        refine (meets_record _).bind fun _ _ => ?_
        refine (meets_ofExcept_self fun e he => ?_).bind fun _ _ => meets_pure trivial
        exact .inl ⟨_, mem_of_lookup ho, he⟩
  exact hcontents.bind fun _ _ => meets_pure trivial

/-- A reference shows the same in both modes. It fails only where a link is wanted. -/
theorem meets_referenceText (r : Renderer) (mode : Mode) (e : Xml.Node) :
    (r.see mode e).Meets (fun er => mode = .normal ∧ r.Propagates er)
      fun n => n.shown = r.referenceText e := by
  simp only [see, referenceText]
  split
  · exact meets_pure (shown_codeOr mode _)
  split
  · refine Meets.ite (fun _ => meets_pure rfl) fun _ => (meets_link _ _).weaken ?_
    rintro n ⟨index, rfl⟩
    rfl
  · simp only [reference]
    generalize (if ((e.attribute? "cref").getD "").startsWith unresolvedMark = true then none
      else r.findSymbol ((e.attribute? "cref").getD "")) = symbol
    cases symbol with
    | none => exact (meets_log _ _ _).bind fun _ _ => meets_pure (shown_codeOr mode _)
    | some s =>
      refine Meets.ite (fun _ => meets_pure rfl) fun hmode => ?_
      obtain rfl := Mode.eq_normal hmode
      refine ((r.meets_isIndexed_propagates _).mono (fun _ he => ⟨rfl, he⟩) fun _ => id).bind
        fun indexed _ => Meets.ite (fun _ => ?_) fun _ => meets_pure rfl
      refine (meets_ofExcept_self fun e he => ⟨rfl, .inr ⟨s, he⟩⟩).bind fun path _ =>
        (meets_link _ path).weaken ?_
      rintro n ⟨index, rfl⟩
      rfl

/-! ## Plain rendering -/

/-- What is rendered in either case shows what is said in that case. -/
theorem meets_ite_shown {α β : Type} {fails : Error → Prop} {R : α → β → Prop} {shows : Fragment → α}
    {p : Prop} [Decidable p] {a b : Answer Fragment} {s t : β}
    (ha : p → a.Meets fails fun f => R (shows f) s) (hb : ¬p → b.Meets fails fun f => R (shows f) t) :
    (if p then a else b).Meets fails fun f => R (shows f) (if p then s else t) := by
  refine Meets.ite (fun h => ?_) fun h => ?_
  · rw [if_pos h]
    exact ha h
  · rw [if_neg h]
    exact hb h

mutual

theorem meets_spokenNode (r : Renderer) : ∀ n : Xml.Node,
    (r.node .plain n).Meets (fun _ => False) fun f => shownAll f = r.spokenNode n
  | .text s => by
    rw [Renderer.node, spokenNode]
    exact meets_pure (Document.shownAll_singleton _)
  | .element name attributes content => by
    have hcontent := meets_spoken r content
    have hsingle : ∀ {n : Node} {s : String}, n.shown = s →
        (pure [n] : Answer Fragment).Meets (fun _ => False) fun f => shownAll f = s :=
      fun hn => meets_pure ((Document.shownAll_singleton _).trans hn)
    rw [Renderer.node, spokenNode]
    refine meets_ite_shown (fun _ => hcontent) fun _ => ?_
    refine meets_ite_shown (fun _ => Meets.ite (fun _ => ?_) fun h => absurd rfl h) fun _ => ?_
    · refine hcontent.bind fun inner hinner => meets_pure ?_
      rw [List.cons_append, shownAll, Document.shownAll_append, hinner, Document.shownAll_singleton]
      exact (String.append_assoc ..).symm
    refine meets_ite_shown (fun _ => hsingle rfl) fun _ => ?_
    refine meets_ite_shown (fun _ => hsingle rfl) fun _ => ?_
    refine meets_ite_shown (fun _ => hsingle rfl) fun _ => ?_
    refine meets_ite_shown (fun _ => ?_) fun _ => ?_
    · refine ((r.meets_referenceText .plain _).mono (fun _ h => nomatch h.1) fun _ => id).bind ?_
      exact fun n hn => hsingle hn
    refine meets_ite_shown (fun _ => meets_spokenItems r content) fun _ => ?_
    refine meets_ite_shown (fun _ => hsingle rfl) fun _ => ?_
    refine meets_ite_shown (fun _ => meets_pure rfl) fun _ => ?_
    exact (meets_log _ _ _).bind fun _ _ => hsingle rfl

theorem meets_spoken (r : Renderer) : ∀ f : List Xml.Node,
    (r.nodes .plain f).Meets (fun _ => False) fun g => shownAll g = r.spoken f
  | [] => by
    rw [Renderer.nodes]
    exact meets_pure (by rw [spoken, shownAll])
  | n :: rest => by
    rw [Renderer.nodes, spoken]
    refine (meets_spokenNode r n).bind fun first hfirst => ?_
    refine (meets_spoken r rest).bind fun others hothers => meets_pure ?_
    rw [Document.shownAll_append, hfirst, hothers]

theorem meets_spokenItems (r : Renderer) : ∀ f : List Xml.Node,
    (r.itemsBelow f).Meets (fun _ => False) fun g => shownAll g = r.spokenItems f
  | [] => by
    rw [Renderer.itemsBelow]
    exact meets_pure (by rw [spokenItems, shownAll])
  | .text s :: rest => by
    rw [Renderer.itemsBelow, spokenItems]
    exact meets_spokenItems r rest
  | .element name attributes content :: rest => by
    have hbelow := meets_spokenItems r content
    have hothers := meets_spokenItems r rest
    have hmore : ∀ {s : String} (own : Fragment), shownAll own = s → (do
        let below ← r.itemsBelow content
        let others ← r.itemsBelow rest
        pure (own ++ below ++ others)).Meets (fun _ => False) fun g =>
          shownAll g = s ++ r.spokenItems content ++ r.spokenItems rest :=
      fun own hown => hbelow.bind fun below hbelow => hothers.bind fun others hothers =>
        meets_pure (by rw [Document.shownAll_append, Document.shownAll_append, hown, hbelow, hothers])
    rw [Renderer.itemsBelow, spokenItems]
    split
    · refine (meets_spoken r content).bind fun inner hinner => Meets.bind (meets_pure ?_) hmore
      rw [shownAll, hinner]
      rfl
    · have hnone : (pure [] : Answer Fragment).Meets (fun _ => False) fun own => shownAll own = "" :=
        meets_pure rfl
      exact hnone.bind hmore

end

/-- Plain rendering of an element gives what its content says. -/
theorem meets_render_plain (r : Renderer) (e : Xml.Node) :
    (r.render .plain (some e)).Meets (fun _ => False)
      fun f => Document.plainText f = Text.flat (r.spoken e.content) := by
  refine (r.meets_spoken e.content).bind fun inner hinner => meets_pure ?_
  rw [Document.plainText_normalize, Document.plainText, hinner]

end Renderer
end ApiDoc
