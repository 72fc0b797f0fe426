import ApiDoc.Proofs.Letters
import ApiDoc.Proofs.NestedItems
import ApiDoc.Proofs.PlainRendering
import ApiDoc.Proofs.Registration
import ApiDoc.Proofs.UnknownElements
import ApiDoc.Proofs.WrittenMarkup

/-!
# Markup that is not recognized

An element without a meaning is written out as one text, and its tail follows (`Renderer.WritesOut`).
Nothing in it is looked at, so all that it leaves in the journal is a warning. How often an element is
warned of in a rendering is how often rendering comes to it (`Renderer.warns_render`), and that is not
always once: plain rendering comes to a list within an item in what the item says, and again in search
of items. `Session.askWith_render_unknown` puts this together for a session, whose sources stay as they
are.
-/

namespace ApiDoc

open Document (Node Fragment)

/-- What is in nodes without namespaces is without namespaces. -/
theorem Xml.HasPlainNames.of_mem {f : List Xml.Node} (h : Xml.HasPlainNames f) {e : Xml.Node}
    (he : e ∈ Xml.Node.elementsOf f) : Xml.HasPlainNames [e] := by
  intro e' he'
  rw [Xml.Node.elementsOf, Xml.Node.elementsOf, List.append_nil] at he'
  exact h e' (Xml.Node.elementsOf_trans f he he')

/-- The record of an element that is not recognized. -/
def Log.Record.isUnrecognized (r : Log.Record) : Bool := r.event = "unrecognized_markup_tag"

/-- What has been logged of elements that are not recognized, the latest first. -/
def Journal.unrecognized (j : Journal) : List Log.Record := j.records.filter Log.Record.isUnrecognized

/-! ## Warnings -/

namespace Answer

variable {α β : Type} {a : Answer α} {f : α → Answer β} {new new' : Multiset Log.Record}

/-- Unless the answer fails, these are its warnings of elements that are not recognized, in any order. -/
def Warns (a : Answer α) (new : Multiset Log.Record) : Prop :=
  ∀ j x j', a.result j = (.ok x, j') → (j'.unrecognized : Multiset Log.Record) = j.unrecognized + new

theorem warns_pure (x : α) : (pure x : Answer α).Warns 0 := by
  intro j y j' h
  cases h
  exact (add_zero _).symm

theorem Warns.bind (ha : a.Warns new) (hf : ∀ x, (f x).Warns new') : (a >>= f).Warns (new + new') := by
  intro j y j' h
  obtain ⟨x, j₁, hx, hy⟩ := result_bind_eq_ok.1 h
  rw [hf x j₁ y j' hy, ha j x j₁ hx, add_assoc]

theorem Warns.bind_silent (ha : a.Warns 0) (hf : ∀ x, (f x).Warns new) : (a >>= f).Warns new := by
  have h := ha.bind hf
  rwa [zero_add] at h

theorem Warns.map (ha : a.Warns new) (g : α → β) : (a >>= fun x => pure (g x)).Warns new := by
  have h := ha.bind fun x => warns_pure (g x)
  rwa [add_zero] at h

theorem Notes.warns (h : a.Notes fun e => ∀ r ∈ e.record?, r.isUnrecognized = false) : a.Warns 0 := by
  intro j x j' hx
  obtain ⟨entries, hnone, hj⟩ := h j
  rw [hx] at hj
  obtain rfl : j' = _ := hj
  have hfilter : (entries.filterMap JournalEntry.record?).filter Log.Record.isUnrecognized = [] := by
    refine List.filter_eq_nil_iff.2 fun r hr => ?_
    obtain ⟨e, he, her⟩ := List.mem_filterMap.1 hr
    rw [hnone e he r her]
    exact Bool.false_ne_true
  rw [add_zero, Journal.unrecognized, Journal.unrecognized, Journal.records, List.filterMap_append,
    List.filter_append, hfilter, List.nil_append]
  rfl

theorem Quiet.warns (h : a.Quiet) : a.Warns 0 :=
  Notes.warns <| h.mono fun e he r hr => by
    rw [he] at hr
    cases hr

theorem warns_ofExcept (r : Except Error α) : (ofExcept r).Warns 0 := Quiet.warns (notes_ofExcept r)

theorem warns_log {event : String} (h : event ≠ "unrecognized_markup_tag") (level : Log.Level)
    (fields : List (String × Data)) : (log level event fields).Warns 0 := by
  refine Notes.warns (notes_record fun r hr => ?_)
  cases hr
  exact decide_eq_false h

theorem warns_link (s target : String) : (link s target).Warns 0 := by
  intro j x j' h
  cases h
  exact (add_zero _).symm

end Answer

namespace Renderer

open Answer Markup Xml.Node

variable {r : Renderer} {e : Xml.Node} {mode : Mode}

theorem result_unknown (e : Xml.Node) (j : Journal) : (unknown e).result j =
    (.ok [.text (Text.collapse (Xml.write e))],
      { j with entries := .logged (warned e) :: j.entries }) := rfl

theorem warns_unknown (e : Xml.Node) : (unknown e).Warns {warned e} := by
  intro j x j' h
  rw [result_unknown] at h
  cases h
  have hcons : Journal.unrecognized { j with entries := .logged (warned e) :: j.entries } =
      warned e :: j.unrecognized := rfl
  rw [hcons, ← Multiset.cons_coe, add_comm, Multiset.singleton_add]

theorem warns_inTurn {a b : Answer Fragment} {new new' : Multiset Log.Record} (ha : a.Warns new)
    (hb : b.Warns new') : (inTurn a b).Warns (new + new') := ha.bind fun _ => hb.map _

/-! ## Elements that are recognized -/

theorem warns_reference (r : Renderer) (mode : Mode) (key inner : String) :
    (r.reference mode key inner).Warns 0 := by
  simp only [reference]
  generalize (if key.startsWith unresolvedMark then none else r.findSymbol key) = symbol
  cases symbol with
  | none => exact (warns_log (by decide) _ _).map _
  | some s =>
    simp only
    split
    · exact warns_pure _
    · refine (Quiet.warns (r.quiet_isIndexed _)).bind_silent fun indexed => ?_
      split
      · exact (warns_ofExcept _).bind_silent fun path => warns_link _ _
      · exact warns_pure _

theorem warns_see (r : Renderer) (mode : Mode) (e : Xml.Node) : (r.see mode e).Warns 0 := by
  simp only [see]
  split
  · exact warns_pure _
  · split
    · split
      · exact warns_pure _
      · exact warns_link _ _
    · exact r.warns_reference mode _ _

/-- Rendering warns of an element at most if it is not recognized or rendered as what it contains. -/
theorem warns_node_other (hcontainer : ¬ containers.contains e.tag = true) (hpara : e.tag ≠ "para")
    (hlist : e.tag ≠ "list") (hunknown : ¬ r.isUnknown e = true) : (r.node mode e).Warns 0 := by
  cases e with
  | text s =>
    rw [Renderer.node]
    exact warns_pure _
  | element name attributes content =>
    rw [Renderer.node, if_neg hcontainer, if_neg hpara, if_neg hlist]
    split_ifs with hcode hc hparam hsee hbr hbr hmarker
    · exact warns_pure _
    · exact warns_pure _
    · exact warns_pure _
    · exact (r.warns_see mode _).map _
    · exact warns_pure _
    · exact warns_pure _
    · exact warns_pure _
    · refine absurd ?_ hunknown
      simp_all [isUnknown, meaningful, isElement]

/-! ## Warnings of rendering -/

mutual

theorem warns_node (r : Renderer) (mode : Mode) : ∀ n : Xml.Node,
    (r.node mode n).Warns (tally (r.reached (.ofMode mode) [n]))
  | .text s => by
    rw [Renderer.node, r.reached_texts (f := [.text s]) _ rfl]
    exact warns_pure _
  | .element name attributes content => by
    have hnodes := warns_nodes r mode content
    have hbelow := warns_itemsBelow r content
    have hitems := warns_listItems r content
    have hrows := warns_tableRows r content
    have hheads := warns_tableHead r content
    generalize he : Xml.Node.element name attributes content = e
    have hcontent : e.content = content := he ▸ rfl
    by_cases hcontainer : containers.contains e.tag = true
    · rw [tally_open mode (.inl hcontainer), r.node_container mode hcontainer, hcontent]
      exact hnodes
    by_cases hpara : e.tag = "para"
    · rw [tally_open mode (.inr hpara), r.node_para mode hpara, hcontent]
      split
      · exact hnodes.map _
      · split
        · exact hnodes.map _
        next htexts =>
          rw [r.reached_texts _ (Bool.eq_false_iff.2 htexts)]
          exact warns_pure _
    by_cases hlist : e.tag = "list"
    · rw [r.node_list mode hlist, hcontent]
      cases mode with
      | plain =>
        rw [tally_list_plain hlist, hcontent]
        exact hbelow
      | normal =>
        rw [tally_list_normal hlist, hcontent, if_neg (by decide)]
        split
        · exact hheads.bind fun _ => hrows.map _
        · exact hitems.map _
    · rw [tally_other mode hcontainer hpara hlist]
      split
      next hunknown =>
        rw [r.node_unknown hunknown]
        exact warns_unknown e
      next hunknown => exact warns_node_other hcontainer hpara hlist hunknown

theorem warns_nodes (r : Renderer) (mode : Mode) : ∀ f : List Xml.Node,
    (r.nodes mode f).Warns (tally (r.reached (.ofMode mode) f))
  | [] => by
    rw [Renderer.nodes, reached]
    exact warns_pure _
  | n :: rest => by
    rw [nodes_cons, reached_cons, tally_append]
    exact warns_inTurn (warns_node r mode n) (warns_nodes r mode rest)

theorem warns_itemsBelow (r : Renderer) : ∀ f : List Xml.Node,
    (r.itemsBelow f).Warns (tally (r.reached (.plain 0 false true) f))
  | [] => by
    rw [itemsBelow, reached]
    exact warns_pure _
  | .text _ :: rest => by
    rw [itemsBelow, reached]
    exact warns_itemsBelow r rest
  | .element name attributes content :: rest => by
    have hsaid : (r.nodes .plain content).Warns _ := warns_nodes r .plain content
    have hbelow := warns_itemsBelow r content
    have hrest := warns_itemsBelow r rest
    rw [itemsBelow, reached, tally_append]
    simp only [Bool.false_and, Bool.false_eq_true, if_false, List.nil_append, Bool.and_true,
      Bool.false_or, ite_self]
    -- what an item says and the items in it, or the items alone
    split
    · rw [tally_both, add_assoc]
      exact hsaid.bind fun _ => hbelow.bind fun _ => hrest.map _
    · exact hbelow.bind fun _ => hrest.map _

theorem warns_first (r : Renderer) (mode : Mode) (tag : String) : ∀ f : List Xml.Node,
    (r.firstTagged mode tag f).Warns (tally (r.reached (.first mode tag) f))
  | [] => by
    rw [firstTagged, reached]
    exact warns_pure _
  | .text _ :: rest => by
    rw [firstTagged, reached]
    exact warns_first r mode tag rest
  | .element name attributes content :: rest => by
    rw [firstTagged, reached]
    split
    · exact (warns_nodes r mode content).map _
    · exact warns_first r mode tag rest

theorem warns_listItems (r : Renderer) : ∀ f : List Xml.Node,
    (r.listItems f).Warns (tally (r.reached .bullets f))
  | [] => by
    rw [listItems, reached]
    exact warns_pure _
  | .text _ :: rest => by
    rw [listItems, reached]
    exact warns_listItems r rest
  | .element name attributes content :: rest => by
    have hnodes : (r.nodes .normal content).Warns _ := warns_nodes r .normal content
    rw [listItems, reached]
    split
    · rw [tally_append]
      exact hnodes.bind fun _ => (warns_listItems r rest).map _
    · exact warns_listItems r rest

theorem warns_tableHead (r : Renderer) : ∀ f : List Xml.Node,
    (r.tableHead f).Warns (tally (r.reached .header f))
  | [] => by
    rw [tableHead, reached]
    exact warns_pure _
  | .text _ :: rest => by
    rw [tableHead, reached]
    exact warns_tableHead r rest
  | .element name attributes content :: rest => by
    rw [tableHead, reached]
    split
    · rw [tally_append]
      exact (warns_first r .plain "term" content).bind fun _ =>
        (warns_first r .plain "description" content).map _
    · exact warns_tableHead r rest

theorem warns_tableRows (r : Renderer) : ∀ f : List Xml.Node,
    (r.tableRows f).Warns (tally (r.reached .rows f))
  | [] => by
    rw [tableRows, reached]
    exact warns_pure _
  | .text _ :: rest => by
    rw [tableRows, reached]
    exact warns_tableRows r rest
  | .element name attributes content :: rest => by
    rw [tableRows, reached]
    split
    · rw [tally_append, tally_append, add_assoc]
      exact (warns_first r .normal "term" content).bind fun _ =>
        (warns_first r .normal "description" content).bind fun _ => (warns_tableRows r rest).map _
    · exact warns_tableRows r rest

end

theorem warns_render (r : Renderer) (mode : Mode) (e : Xml.Node) :
    (r.render mode (some e)).Warns (tally (r.reached (.ofMode mode) e.content)) :=
  (r.warns_nodes mode e.content).map _

theorem meets_render_propagates (r : Renderer) (mode : Mode) (e : Xml.Node) :
    (r.render mode (some e)).Meets (fun er => mode = .normal ∧ r.Propagates er) fun _ => True := by
  cases mode with
  | normal =>
    have h : (r.render .normal (some e)).Meets r.Propagates fun _ => True :=
      (r.meets_letters e.content).bind fun _ _ => meets_pure trivial
    exact h.mono (fun _ he => ⟨rfl, he⟩) fun _ => id
  | plain => exact (r.meets_render_plain e).mono (fun _ => False.elim) fun _ _ => trivial

/-! ## One element -/

/-- What becomes of an element that is not recognized, wherever its neighbours are rendered. -/
structure WritesOut (r : Renderer) (e : Xml.Node) : Prop where
  /-- Without tags and escapes, what is written is the text of the element up to blanks. -/
  text : Text.Alike (Xml.bareText (Text.collapse (Xml.write e))) e.innerText
  /-- It comes to one text, and its tail to the next one, between what comes before and after them.
  All that is left in the journal is a warning. -/
  place : ∀ (mode : Mode) (before : List Xml.Node) (tail : Option String) (after : List Xml.Node)
    (j j' : Journal) (f : Fragment),
    (r.nodes mode (before ++ e :: (tail.toList.map .text ++ after))).result j = (.ok f, j') ↔
      ∃ front j₁ back, (r.nodes mode before).result j = (.ok front, j₁) ∧
        (r.nodes mode after).result { j₁ with entries := .logged (warned e) :: j₁.entries } =
          (.ok back, j') ∧
        f = front ++ .text (Text.collapse (Xml.write e)) ::
          (tail.toList.map (fun s => .text (Text.collapse s)) ++ back)

theorem writesOut (h : r.isUnknown e = true) (hnames : Xml.HasPlainNames [e]) : r.WritesOut e where
  text := Xml.alike_bareText hnames
  place mode before tail after j j' f := by
    simp only [nodes_append, nodes_cons, node_unknown h, nodes_texts, result_inTurn]
    constructor
    · rintro ⟨front, _, j₁, hfront, ⟨_, _, _, hwritten, htail, rfl⟩, rfl⟩
      obtain ⟨_, back, _, htexts, hback, rfl⟩ := htail
      cases hwritten
      cases htexts
      exact ⟨front, j₁, back, hfront, hback, rfl⟩
    · rintro ⟨front, j₁, back, hfront, hback, rfl⟩
      exact ⟨front, _, j₁, hfront, ⟨_, _, _, rfl, ⟨_, back, _, rfl, hback, rfl⟩, rfl⟩, rfl⟩

end Renderer

/-! ## Sessions -/

namespace Session

open Renderer

theorem isUnrecognized_report (unit : String) (c : Contents) :
    (Index.report unit c).isUnrecognized = false := by
  rcases c with _ | ⟨_ | _⟩ | _ <;> exact decide_eq_false (by simp [Index.report])

theorem filter_settle (i : Index) : i.settle.2.2.filter Log.Record.isUnrecognized = [] := by
  unfold Index.settle
  split
  · rfl
  · simp only
    split
    · rw [List.filter_singleton, isUnrecognized_report]
      rfl
    · rfl

theorem filter_settleUnit (unit : String) (l : List Index) :
    (settleUnit unit l).2.filter Log.Record.isUnrecognized = [] := by
  induction l with
  | nil => rfl
  | cons i l ih =>
    rw [settleUnit]
    split
    · exact filter_settle i
    · exact ih

/-- Indices that are settled do not add to the warnings. -/
theorem filter_foldl_absorb (entries : List JournalEntry) (s : Session) (log : List Log.Record) :
    (entries.foldl absorb (s, log)).2.filter Log.Record.isUnrecognized =
      (log ++ entries.filterMap JournalEntry.record?).filter Log.Record.isUnrecognized := by
  induction entries generalizing s log with
  | nil => rw [List.foldl_nil, List.filterMap_nil, List.append_nil]
  | cons e entries ih =>
    rw [List.foldl_cons]
    cases e with
    | logged r =>
      rw [absorb, ih, List.append_assoc]
      rfl
    | consulted unit =>
      rw [absorb, ih, List.filter_append, List.filter_append, filter_settleUnit, List.append_nil,
        ← List.filter_append]
      rfl
    | dispatched interface arguments table =>
      simp only [absorb]
      split <;> exact ih _ _

theorem askWith_unrecognized {α : Type} (s : Session) {links : Document.LinkTable}
    (question : Context → Answer α) {x : Except Error α} {j : Journal}
    (hx : (question s.context).result { links } = (x, j)) : (s.askWith links question).result = x ∧
      (s.askWith links question).log.filter Log.Record.isUnrecognized = j.unrecognized.reverse := by
  have hlog := filter_foldl_absorb j.entries.reverse s []
  rw [List.nil_append, List.filterMap_reverse, List.filter_reverse] at hlog
  simp only [askWith, hx, true_and]
  exact hlog

/-- Markup that is not recognized is written out, in both modes: each element that has no meaning comes
to one text, which is its own text once tags and escapes are gone, with its tail after it, and nothing
in it is looked at. No source changes by that. As to the warnings, an element that rendering comes to is
warned of once if no list around it stands in what an item says, and else `2 ^ depth` times. -/
theorem askWith_render_unknown (s : Session) (links : Document.LinkTable) (current : Option TypeSymbol)
    (mode : Markup.Mode) {part : Xml.Node} (h : Xml.HasPlainNames part.content) :
    let renderer : Context → Renderer := fun ctx => { ctx with current }
    let r := renderer s.context
    let found := r.reached (.ofMode mode) part.content
    let reply := s.askWith links fun ctx => (renderer ctx).render mode (some part)
    (∀ e ∈ Xml.Node.elementsOf part.content, r.isUnknown e = true → r.WritesOut e) ∧
      (∀ x ∈ found, r.isUnknown x.2 = true) ∧
      (found.map Prod.snd).Subperm (Xml.Node.elementsOf part.content) ∧
      Ends (fun er => mode = .normal ∧ r.Propagates er)
        (fun _ => (reply.log.filter Log.Record.isUnrecognized : Multiset Log.Record) =
          (found.map fun x => 2 ^ x.1 • {warned x.2}).sum) reply.result ∧
      List.Forall₂ (fun i i' => i'.unit = i.unit ∧ i'.source = i.source ∧
        ∀ c, i.contents = some c → i' = i) s.registry reply.session.registry := by
  intro renderer r found reply
  refine ⟨fun e he hunknown => writesOut hunknown (h.of_mem he),
    r.isUnknown_of_mem_reached _ _, (r.apart _).one _, ?_, ?_⟩
  · have hends := r.meets_render_propagates mode part { links }
    have hwarns := r.warns_render mode part { links }
    cases hx : (r.render mode (some part)).result { links } with
    | mk x j =>
      obtain ⟨hresult, hlog⟩ := s.askWith_unrecognized
        (fun ctx => (renderer ctx).render mode (some part)) hx
      rw [hx] at hends
      rw [hresult, hlog, Multiset.coe_reverse]
      cases hends with
      | ok _ => exact .ok ((hwarns _ j hx).trans (zero_add _))
      | error he => exact .error he
  · refine (laterAll_foldl_absorb _ _).1.imp fun i i' hlater => ?_
    exact ⟨hlater.unit_eq, hlater.source_eq, fun c hc => hlater.eq_of_contents hc⟩

/-! ### A list within an item -/

/-- A session without units. -/
def vacant : Session :=
  { catalog := { units := [] }, hierarchy := {}, registry := [], settings := .usual, paths := bare.paths }

def hint : Xml.Node := .element (.plain "blink") [] [.text "two"]

/-- A list whose item has a list in it, with an element that is not recognized. -/
def hints : Xml.Node :=
  .element (.plain "summary") [] [.element (.plain "list") [] [choice "one"
    [.element (.plain "list") [] [.element (.plain "item") [] [hint, .text " three"]]]]]

/-- The list within the item is come to twice in plain rendering only. -/
example : bare.reached (.ofMode .plain) hints.content = [(1, hint)] ∧
    bare.reached (.ofMode .normal) hints.content = [(0, hint)] := ⟨by cbv, by cbv⟩

theorem hasPlainNames_hints : Xml.HasPlainNames hints.content := by
  have hlist : (Xml.Name.plain "list").IsPlain := ⟨rfl, by cbv⟩
  have hitem : (Xml.Name.plain "item").IsPlain := ⟨rfl, by cbv⟩
  have hblink : (Xml.Name.plain "blink").IsPlain := ⟨rfl, by cbv⟩
  simp [Xml.HasPlainNames, hints, choice, hint, Xml.Node.content, Xml.Node.elementsOf, Xml.Node.elements,
    Xml.Node.HasPlainTag, hlist, hitem, hblink]

/-- One element is warned of twice, since the list around it stands in what an item says. -/
theorem askWith_render_unknown_hints :
    Xml.HasPlainNames hints.content ∧
      let reply := vacant.askWith .empty fun ctx => ({ ctx with } : Renderer).render .plain (some hints)
      Ends (fun _ => False) (fun _ => (reply.log.filter Log.Record.isUnrecognized : Multiset Log.Record) =
        2 • {warned hint}) reply.result := by
  refine ⟨hasPlainNames_hints, ?_⟩
  obtain ⟨-, -, -, hends, -⟩ := askWith_render_unknown vacant .empty none .plain hasPlainNames_hints
  refine hends.mono (fun e he => absurd he.1 (by decide)) fun _ hwarns => hwarns.trans ?_
  have hfound : ({ vacant.context with } : Renderer).reached (.ofMode .plain) hints.content =
      [(1, hint)] := by cbv
  rw [hfound, List.map_singleton, List.sum_singleton]
  rfl

/-- There is one such element, which is written out twice with its tail. -/
theorem askWith_renderText_hints :
    (Xml.Node.elementsOf hints.content).filter (·.hasTag "blink") = [hint] ∧
      vacant.askWith .empty (fun ctx => ({ ctx with } : Renderer).renderText (some hints) none) =
        { result := .ok "one <blink>two</blink> three <blink>two</blink> three"
          session := vacant, log := [warned hint, warned hint] } := by
  let r : Renderer := { vacant.context with }
  let found : Document.Fragment :=
    [.text " ", .text "one", .text " ", .text "<blink>two</blink>", .text " three", .text " ",
      .text "<blink>two</blink>", .text " three"]
  have hnodes : (r.nodes .plain hints.content).result {} =
      (.ok found, { entries := [.logged (warned hint), .logged (warned hint)] }) := by cbv
  have hline : (r.renderText (some hints) none).result {} =
      (.ok (Document.plainText (Document.normalize found)),
        { entries := [.logged (warned hint), .logged (warned hint)] }) :=
    Answer.result_bind_eq_ok.2 ⟨_, _, Answer.result_bind_eq_ok.2 ⟨found, _, hnodes, rfl⟩, rfl⟩
  have hshown : Document.plainText (Document.normalize found) =
      "one <blink>two</blink> three <blink>two</blink> three" := by
    rw [Document.plainText_normalize]
    cbv
  rw [hshown] at hline
  exact ⟨by cbv, @askWith_of_logs _ (fun ctx => ({ ctx with } : Renderer).renderText (some hints) none)
    vacant (r.logs_renderText (some hints) none) _ _ _ hline⟩

end Session
end ApiDoc
