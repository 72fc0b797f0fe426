import ApiDoc.Proofs.MemberGroups

/-!
# What pages are built from

A block of a page is rendered documentation of a symbol that the page shows, or one that the page
builds itself: a heading, a declaration, a list, a line or quote of cells, or a table with a row for
each of its items (`Renderer.Written`, `Renderer.Tabulates`). This is said of every page that can be
written (`Context.Composes.written`), and every page of a unit is one of those
(`Context.composes_of_unitPages`).
-/

namespace ApiDoc

open Document (Node Page)

/-- What holds of the items of a list and of a separator holds of the list with separators. -/
theorem forall_mem_intersperse {α : Type} {p : α → Prop} {separator : α} {l : List α}
    (hseparator : p separator) (h : ∀ x ∈ l, p x) : ∀ x ∈ l.intersperse separator, p x := by
  induction l with
  | nil => exact h
  | cons x l ih =>
    obtain ⟨hx, hl⟩ := List.forall_mem_cons.1 h
    cases l with
    | nil => exact List.forall_mem_singleton.2 hx
    | cons x' l =>
      rw [List.intersperse_cons_cons]
      exact List.forall_mem_cons.2 ⟨hx, List.forall_mem_cons.2 ⟨hseparator, ih hl⟩⟩

namespace Answer

variable {α β : Type} {a : Answer α} {f : α → Answer β} {x : α} {y : β} {fails : Error → Prop}
  {post : α → Prop}

/-! ## What an answer can come to -/

/-- The answer can come to the result: with some journal it does. -/
def Comes (a : Answer α) (x : α) : Prop := ∃ j j', a.result j = (.ok x, j')

theorem Comes.meets (hx : a.Comes x) (h : a.Meets fails post) : post x := by
  obtain ⟨j, j', hj⟩ := hx
  exact (ends_iff.1 (h j)).1 x (congrArg Prod.fst hj)

/-- An answer comes to nothing but what it can come to. -/
theorem Meets.comes (h : a.Meets fails post) : a.Meets fails a.Comes := by
  intro j
  have hj := h j
  cases ha : a.result j with
  | mk r j' =>
    rw [ha] at hj
    cases hj with
    | ok _ => exact .ok ⟨j, j', ha⟩
    | error he => exact .error he

theorem Comes.eq {x' : α} (h : (pure x : Answer α).Comes x') : x = x' := by
  obtain ⟨j, j', hj⟩ := h
  cases hj
  rfl

theorem Comes.ok {r : Except Error α} (h : (ofExcept r).Comes x) : r = .ok x := by
  obtain ⟨j, j', hj⟩ := h
  exact congrArg Prod.fst hj

theorem not_comes_throw {e : Error} : ¬ (throw e : Answer α).Comes x := by
  rintro ⟨j, j', hj⟩
  cases hj

theorem Comes.bind (h : (a >>= f).Comes y) : ∃ x, a.Comes x ∧ (f x).Comes y := by
  obtain ⟨j, j', hj⟩ := h
  obtain ⟨x, j₁, hx, hy⟩ := result_bind_eq_ok.1 hj
  exact ⟨x, ⟨j, j₁, hx⟩, ⟨j₁, j', hy⟩⟩

theorem Comes.link {s target : String} {n : Node} (h : (link s target).Comes n) :
    ∃ index, n = .link s target index := by
  have hlink : (Answer.link s target).Meets (fun _ => False)
      fun n => ∃ index, n = .link s target index := meets_link s target
  exact h.meets hlink

theorem Comes.each {items : List α} {ys : List β} (h : (each f items).Comes ys) :
    List.Forall₂ (fun x y => (f x).Comes y) items ys := by
  induction items generalizing ys with
  | nil =>
    obtain rfl := h.eq
    exact .nil
  | cons x items ih =>
    obtain ⟨y, hy, h⟩ := h.bind
    obtain ⟨more, hmore, h⟩ := h.bind
    obtain rfl := h.eq
    exact .cons hy (ih hmore)

theorem Comes.concatEach {f : α → Answer (List β)} {items : List α} {ys : List β}
    (h : (concatEach f items).Comes ys) :
    ∃ lists, ys = lists.flatten ∧ List.Forall₂ (fun x l => (f x).Comes l) items lists := by
  obtain ⟨lists, hlists, h⟩ := h.bind
  exact ⟨lists, h.eq.symm, hlists.each⟩

theorem Comes.page {title : String} {body : Answer (List Node)} {p : Page}
    (h : (page title body).Comes p) : body.Comes p.blocks := by
  obtain ⟨j, j', hj⟩ := h
  rw [result_page] at hj
  split at hj
  next blocks j₁ hresult =>
    cases hj
    exact ⟨_, _, hresult⟩
  next => cases hj

end Answer

namespace Renderer

open Answer

variable {r : Renderer} {unit : String} {shows : Symbol → Prop} {s : Symbol} {t : TypeSymbol}
  {m : MemberSymbol} {blocks : List Node}

/-! ## Cells and rows -/

/-- A cell that a page makes itself: one without a link, a link to the contents page of its unit, or
a name that is a link if the unit of its symbol is indexed. -/
inductive Cell (r : Renderer) (unit : String) : Node → Prop
  | plain {n : Node} : n.isInline = true → n.links = [] → Cell r unit n
  | contents (shown : String) (index : Nat) : Cell r unit (.link shown (unitPath unit) index)
  | name {name : String} {s : Symbol} {n : Node} : r.catalog.Declares s →
    (r.nameCell name s).Comes n → Cell r unit n

/-- The row of a parameter, with what the entry of its member says of it. -/
def parameterRow (r : Renderer) (entry : Option Xml.Node) (p : Parameter) :
    Answer (List (List Node)) := do
  let type ← r.typeCell p.type
  let text ← r.renderText (Entry.parameter? entry p.name) (some r.settings.render.summaryBudget)
  pure (row [.text p.name, type, .text text])

/-- The row of a value of an enumeration. -/
def valueRow (r : Renderer) (m : MemberSymbol) : Answer (List (List Node)) := do
  let entry ← r.resolve (.member m)
  let text ← r.renderText (Entry.sectionOf? entry "summary") none
  pure (row [.text m.decl.name, .text text])

theorem comes_summaryText {text : String} (h : (r.summaryText s).Comes text) :
    ∃ entry, (r.resolve s).Comes entry ∧
      (r.renderText (Entry.sectionOf? entry "summary")
        (some r.settings.render.summaryBudget)).Comes text := h.bind

theorem comes_typeRow {line : List (List Node)} (h : (r.typeRow t).Comes line) :
    ∃ name text, line = row [name, .text text] ∧ (r.typeCell t.decl.ref).Comes name ∧
      (r.summaryText (.type t)).Comes text := by
  obtain ⟨name, hname, h⟩ := h.bind
  obtain ⟨text, htext, h⟩ := h.bind
  exact ⟨name, text, h.eq.symm, hname, htext⟩

theorem comes_valueRow {line : List (List Node)} (h : (r.valueRow m).Comes line) :
    ∃ entry text, line = row [.text m.decl.name, .text text] ∧
      (r.resolve (.member m)).Comes entry ∧
      (r.renderText (Entry.sectionOf? entry "summary") none).Comes text := by
  obtain ⟨entry, hentry, h⟩ := h.bind
  obtain ⟨text, htext, h⟩ := h.bind
  exact ⟨entry, text, h.eq.symm, hentry, htext⟩

theorem comes_parameterRow {entry : Option Xml.Node} {p : Parameter} {line : List (List Node)}
    (h : (r.parameterRow entry p).Comes line) :
    ∃ type text, line = row [.text p.name, type, .text text] ∧ (r.typeCell p.type).Comes type ∧
      (r.renderText (Entry.parameter? entry p.name)
        (some r.settings.render.summaryBudget)).Comes text := by
  obtain ⟨type, htype, h⟩ := h.bind
  obtain ⟨text, htext, h⟩ := h.bind
  exact ⟨type, text, h.eq.symm, htype, htext⟩

theorem comes_memberRow {line : List (List Node)} (h : (r.memberRow m).Comes line) :
    ∃ name type text, line = row [name, type, .text text] ∧
      (r.memberCell m (r.shownName m)).Comes name ∧ (r.typeCell (shownType m.decl)).Comes type ∧
      (r.summaryText (.member m)).Comes text := by
  obtain ⟨name, hname, h⟩ := h.bind
  obtain ⟨type, htype, h⟩ := h.bind
  obtain ⟨text, htext, h⟩ := h.bind
  exact ⟨name, type, text, h.eq.symm, hname, htype, htext⟩

/-- The kinds of tables that pages build. -/
inductive TableKind where
  | types | values | parameters
  | members (kind : MemberKind)

/-- The heads of a table of a kind. What is said of an item stands in the last column. -/
def TableKind.heads : TableKind → List String
  | .types | .values => ["Name", "Summary"]
  | .parameters => ["Name", "Type", "Summary"]
  | .members kind => ["Name", (tableTitles kind).2, "Summary"]

/-- The rows of a table that a page builds, one for each of its items. -/
inductive Tabulates (r : Renderer) : TableKind → List (List (List Node)) → Prop
  | types {types : List TypeSymbol} {rows : List (List (List Node))} :
    List.Forall₂ (fun t row => (r.typeRow t).Comes row) types rows → Tabulates r .types rows
  | values {t : TypeSymbol} {rows : List (List (List Node))} :
    List.Forall₂ (fun m row => (r.valueRow m).Comes row) (t.visible r.settings.render .field) rows →
    Tabulates r .values rows
  | parameters {m : MemberSymbol} {entry : Option Xml.Node} {rows : List (List (List Node))} :
    (r.resolve (.member m)).Comes entry →
    List.Forall₂ (fun p row => (r.parameterRow entry p).Comes row) m.decl.parameters rows →
    Tabulates r .parameters rows
  | members {t : TypeSymbol} {kind : MemberKind} {static : Bool} {rows : List (List (List Node))} :
    t ∈ r.catalog.types →
    List.Forall₂ (fun m row => (r.memberRow m).Comes row) (r.partition t kind static) rows →
    Tabulates r (.members kind) rows

/-- A block of a page: documentation of a symbol that the page shows, or what the page builds. -/
inductive Written (r : Renderer) (unit : String) (shows : Symbol → Prop) : Node → Prop
  | documentation {s : Symbol} {tag : String} {f : List Node} {n : Node} : shows s →
    (r.sectionBlocks s tag).Comes f → n ∈ f → Written r unit shows n
  | heading (level : Nat) (title : String) : Written r unit shows (.heading level [.text title])
  | declaration (declaration : String) : Written r unit shows (r.codeLine declaration)
  | divider : Written r unit shows .divider
  | list (names : List String) : Written r unit shows (.bullets (names.map ([.text ·])))
  | line {cells : List Node} : (∀ n ∈ cells, r.Cell unit n) → Written r unit shows (.paragraph cells)
  | quote {cells : List Node} : (∀ n ∈ cells, r.Cell unit n) → Written r unit shows (.quote cells)
  | table {kind : TableKind} {rows : List (List (List Node))} : r.Tabulates kind rows →
    Written r unit shows (.table kind.heads rows)

theorem Cell.text (s : String) : r.Cell unit (.text s) := .plain rfl rfl

theorem Cell.bold (s : String) : r.Cell unit (.bold s) := .plain rfl rfl

theorem cell_of_typeCell (hr : r.WellBuilt) {ref : TypeRef} {n : Node}
    (h : (r.typeCell ref).Comes n) : r.Cell unit n := by
  unfold typeCell at h
  split at h
  next t ht =>
    have hfind : r.findType ref = some t := by
      split at ht
      · cases ht
      · exact ht
    exact .name (r.declares_of_findType hr hfind) h
  next =>
    obtain rfl := h.eq
    exact .plain rfl rfl

theorem cell_of_memberCell (ht : t ∈ r.catalog.types) (hm : m ∈ t.members) {text : Option String}
    {n : Node} (h : (r.memberCell m text).Comes n) : r.Cell unit n :=
  .name ⟨t, ht, List.mem_cons_of_mem _ (List.mem_map_of_mem hm)⟩ h

theorem written_commaList {cells : List Node} (h : ∀ n ∈ cells, r.Cell unit n) :
    r.Written unit shows (commaList cells) :=
  .line (forall_mem_intersperse (.text _) h)

/-! ## Parts -/

/-- Blocks of a page. -/
def AllWritten (r : Renderer) (unit : String) (shows : Symbol → Prop) (blocks : List Node) : Prop :=
  ∀ n ∈ blocks, r.Written unit shows n

namespace AllWritten

variable {blocks' : List Node}

theorem nil : r.AllWritten unit shows [] := fun _ h => nomatch h

theorem single {n : Node} (h : r.Written unit shows n) : r.AllWritten unit shows [n] :=
  List.forall_mem_singleton.2 h

theorem append (h : r.AllWritten unit shows blocks) (h' : r.AllWritten unit shows blocks') :
    r.AllWritten unit shows (blocks ++ blocks') := List.forall_mem_append.2 ⟨h, h'⟩

theorem cons {n : Node} (hn : r.Written unit shows n) (h : r.AllWritten unit shows blocks) :
    r.AllWritten unit shows (n :: blocks) := List.forall_mem_cons.2 ⟨hn, h⟩

/-- Parts that are written one after the other. -/
theorem parts {α : Type} {part : α → Answer (List Node)} {items : List α}
    (h : (concatEach part items).Comes blocks)
    (hpart : ∀ x ∈ items, ∀ f, (part x).Comes f → r.AllWritten unit shows f) :
    r.AllWritten unit shows blocks := by
  obtain ⟨lists, rfl, hlists⟩ := h.concatEach
  intro n hn
  obtain ⟨f, hf, hn⟩ := List.mem_flatten.1 hn
  obtain ⟨x, hx, hcomes⟩ := exists_of_mem_right hlists hf
  exact hpart x hx f hcomes n hn

end AllWritten

theorem written_sectionBlocks (unit : String) {tag : String} (hs : shows s)
    (h : (r.sectionBlocks s tag).Comes blocks) : r.AllWritten unit shows blocks := fun _ hn => .documentation hs h hn

theorem written_paragraphs (hs : shows s) (h : (r.paragraphs s).Comes blocks) :
    r.AllWritten unit shows blocks := by
  obtain ⟨remarks, hremarks, h⟩ := h.bind
  obtain ⟨examples, hexamples, h⟩ := h.bind
  obtain rfl := h.eq
  exact (written_sectionBlocks unit hs hremarks).append (written_sectionBlocks unit hs hexamples)

theorem written_badges (r : Renderer) (attributes : List String) :
    r.AllWritten unit shows (r.badges attributes) := by
  simp only [badges]
  split
  · exact .nil
  · refine .single (.line fun n hn => ?_)
    obtain ⟨name, -, rfl⟩ := List.mem_map.1 hn
    exact .plain rfl rfl

/-! ## Members -/

theorem written_parameterTable {entry : Option Xml.Node} (he : (r.resolve (.member m)).Comes entry)
    (h : (r.parameterTable entry m.decl.parameters).Comes blocks) :
    r.AllWritten unit shows blocks := by
  unfold parameterTable at h
  split at h
  · obtain rfl := h.eq
    exact .nil
  · obtain ⟨rows, hrows, h⟩ := h.bind
    obtain rfl := h.eq
    exact .single (.table (.parameters he hrows.each))

theorem written_returnQuote (hr : r.WellBuilt) {entry : Option Xml.Node} {type : TypeRef}
    (h : (r.returnQuote entry type).Comes blocks) : r.AllWritten unit shows blocks := by
  obtain ⟨cell, hcell, h⟩ := h.bind
  obtain ⟨text, -, h⟩ := h.bind
  obtain rfl := h.eq
  refine .single (.quote (List.forall_mem_append.2 ⟨?_, ?_⟩))
  · exact List.forall_mem_cons.2 ⟨.bold _, List.forall_mem_cons.2 ⟨.text _,
      List.forall_mem_singleton.2 (cell_of_typeCell hr hcell)⟩⟩
  · split
    · exact fun n hn => nomatch hn
    · exact List.forall_mem_singleton.2 (.text _)

theorem written_parameterSummary (hr : r.WellBuilt) (h : (r.parameterSummary m).Comes blocks) :
    r.AllWritten unit shows blocks := by
  obtain ⟨entry, hentry, h⟩ := h.bind
  obtain ⟨table, htable, h⟩ := h.bind
  split at h
  · obtain ⟨returns, hreturns, h⟩ := h.bind
    obtain rfl := h.eq
    exact (written_parameterTable hentry htable).append (written_returnQuote hr hreturns)
  · obtain ⟨returns, hreturns, h⟩ := h.bind
    obtain rfl := h.eq
    obtain rfl := hreturns.eq
    exact (written_parameterTable hentry htable).append .nil

theorem written_callableSection (hr : r.WellBuilt) (hm : shows (.member m))
    (h : (r.callableSection m).Comes blocks) : r.AllWritten unit shows blocks := by
  obtain ⟨summary, hsummary, h⟩ := h.bind
  obtain ⟨parameters, hparameters, h⟩ := h.bind
  obtain ⟨more, hmore, h⟩ := h.bind
  obtain rfl := h.eq
  have hhead := (AllWritten.single (.heading 3 m.compactSignature)).append
    (written_sectionBlocks unit hm hsummary)
  have hdeclared := (hhead.append (.single (.declaration m.declaration))).append
    (written_badges r m.decl.declared.attributes)
  exact (hdeclared.append (written_parameterSummary hr hparameters)).append
    (written_paragraphs hm hmore)

theorem written_memberSection (hr : r.WellBuilt) (hm : shows (.member m))
    (h : (r.memberSection m).Comes blocks) : r.AllWritten unit shows blocks := by
  obtain ⟨address, owner, decl⟩ := m
  cases decl with
  | method d => exact written_callableSection hr hm h
  | constructor c => exact written_callableSection hr hm h
  | field f =>
    obtain ⟨summary, hsummary, h⟩ := h.bind
    obtain ⟨more, hmore, h⟩ := h.bind
    obtain rfl := h.eq
    have hhead := (AllWritten.single (.heading 4 f.name)).append
      (written_sectionBlocks unit hm hsummary)
    exact ((hhead.append (.single (.declaration _))).append (written_badges r _)).append
      (written_paragraphs hm hmore)
  | property p =>
    obtain ⟨summary, hsummary, h⟩ := h.bind
    have hrest : ∀ returns : List Node, r.AllWritten unit shows returns → (do
        let more ← r.paragraphs (.member ⟨address, owner, .property p⟩)
        pure ([Node.heading 3 [.text (MemberSymbol.displayName ⟨address, owner, .property p⟩)]] ++
          summary ++ [r.codeLine (MemberSymbol.declaration ⟨address, owner, .property p⟩)] ++
          returns ++ r.badges p.attributes ++ more)).Comes blocks →
        r.AllWritten unit shows blocks := by
      intro returns hreturns h
      obtain ⟨more, hmore, h⟩ := h.bind
      obtain rfl := h.eq
      have hhead := (AllWritten.single
        (.heading 3 (MemberSymbol.displayName ⟨address, owner, .property p⟩))).append
        (written_sectionBlocks unit hm hsummary)
      exact (((hhead.append (.single (.declaration _))).append hreturns).append
        (written_badges r _)).append (written_paragraphs hm hmore)
    change (if p.getter.isSome then _ else _ : Answer (List Node)).Comes blocks at h
    split at h
    · obtain ⟨cell, hcell, h⟩ := h.bind
      refine hrest _ (.single (.quote ?_)) h
      exact List.forall_mem_cons.2 ⟨.bold _, List.forall_mem_cons.2 ⟨.text _,
        List.forall_mem_singleton.2 (cell_of_typeCell hr hcell)⟩⟩
    · exact hrest _ .nil h
  | event e =>
    obtain ⟨summary, hsummary, h⟩ := h.bind
    obtain ⟨more, hmore, h⟩ := h.bind
    obtain rfl := h.eq
    have hhead := (AllWritten.single (.heading 4 e.name)).append
      (written_sectionBlocks unit hm hsummary)
    have htype : r.Written unit shows (.paragraph [.text "Type: ", .code e.handler.displayName]) :=
      .line (List.forall_mem_cons.2 ⟨.text _, List.forall_mem_singleton.2 (.plain rfl rfl)⟩)
    exact (((hhead.append (.single (.declaration _))).append (written_badges r _)).append
      (.single htype)).append (written_paragraphs hm hmore)
  | unclassified d => exact absurd h not_comes_throw
  | unclassifiedCallable c => exact absurd h not_comes_throw

theorem written_dividedSections (hr : r.WellBuilt) {members : List MemberSymbol}
    (hmembers : ∀ m ∈ members, shows (.member m))
    (h : (Context.dividedSections r members).Comes blocks) : r.AllWritten unit shows blocks := by
  obtain ⟨sections, hsections, h⟩ := h.bind
  obtain rfl := h.eq
  have hall : ∀ f ∈ sections, r.AllWritten unit shows f := by
    intro f hf
    obtain ⟨m, hm, hsection⟩ := exists_of_mem_right hsections.each hf
    exact written_memberSection hr (hmembers m hm) hsection
  intro n hn
  obtain ⟨f, hf, hn⟩ := List.mem_flatten.1 hn
  exact forall_mem_intersperse (.single .divider) hall f hf n hn

/-! ## Types -/

theorem written_nameList (ht : t ∈ r.catalog.types) {title : String} {members : List MemberSymbol}
    (hmembers : ∀ m ∈ members, m ∈ t.members) (h : (r.nameList title members).Comes blocks) :
    r.AllWritten unit shows blocks := by
  unfold nameList at h
  split at h
  · obtain rfl := h.eq
    exact .nil
  · obtain ⟨cells, hcells, h⟩ := h.bind
    obtain rfl := h.eq
    refine .cons (.heading 3 title) (.single (written_commaList fun n hn => ?_))
    obtain ⟨m, hm, hcell⟩ := exists_of_mem_right hcells.each hn
    exact cell_of_memberCell ht (hmembers m (mem_of_mem_distinctByName hm)) hcell

theorem written_memberTables (ht : t ∈ r.catalog.types) {kind : MemberKind}
    (h : (r.memberTables t kind).Comes blocks) : r.AllWritten unit shows blocks := by
  have htable : ∀ {static : Bool} {f : List Node}, (do
      let rows ← each r.memberRow (r.partition t kind static)
      pure [Node.table ["Name", (tableTitles kind).2, "Summary"] rows]).Comes f →
      r.AllWritten unit shows f := by
    intro static f hf
    obtain ⟨rows, hrows, hf⟩ := hf.bind
    obtain rfl := hf.eq
    exact .single (.table (.members ht hrows.each))
  simp only [memberTables] at h
  cases hi : (r.partition t kind false).isEmpty with
  | true =>
    cases hs : (r.partition t kind true).isEmpty with
    | true =>
      simp only [hi, hs, Bool.and_self, ↓reduceIte] at h
      obtain rfl := h.eq
      exact .nil
    | false =>
      simp only [hi, hs, Bool.and_false, Bool.false_eq_true, ↓reduceIte] at h
      obtain ⟨first, hfirst, h⟩ := h.bind
      obtain ⟨table, hstatic, h⟩ := h.bind
      obtain ⟨second, hsecond, h⟩ := h.bind
      obtain rfl := h.eq
      obtain rfl := hfirst.eq
      obtain rfl := hsecond.eq
      exact .cons (.heading 2 _) (htable hstatic)
  | false =>
    cases hs : (r.partition t kind true).isEmpty with
    | true =>
      simp only [hi, hs, Bool.false_and, Bool.false_eq_true, ↓reduceIte] at h
      obtain ⟨table, hinstance, h⟩ := h.bind
      obtain ⟨first, hfirst, h⟩ := h.bind
      obtain ⟨second, hsecond, h⟩ := h.bind
      obtain rfl := h.eq
      obtain rfl := hfirst.eq
      obtain rfl := hsecond.eq
      exact (AllWritten.cons (.heading 2 _) (.cons (.heading 4 _) (htable hinstance))).append .nil
    | false =>
      simp only [hi, hs, Bool.false_and, Bool.false_eq_true, ↓reduceIte] at h
      obtain ⟨table, hinstance, h⟩ := h.bind
      obtain ⟨first, hfirst, h⟩ := h.bind
      obtain ⟨table', hstatic, h⟩ := h.bind
      obtain ⟨second, hsecond, h⟩ := h.bind
      obtain rfl := h.eq
      obtain rfl := hfirst.eq
      obtain rfl := hsecond.eq
      exact (AllWritten.cons (.heading 2 _) (.cons (.heading 4 _) (htable hinstance))).append
        (.cons (.heading 4 _) (htable hstatic))

theorem written_inheritsList (hr : r.WellBuilt) (h : (r.inheritsList t).Comes blocks) :
    r.AllWritten unit shows blocks := by
  unfold inheritsList at h
  split at h
  · obtain rfl := h.eq
    exact .nil
  · obtain ⟨cells, hcells, h⟩ := h.bind
    obtain rfl := h.eq
    refine .cons (.heading 3 _) (.single (written_commaList fun n hn => ?_))
    obtain ⟨ref, -, hcell⟩ := exists_of_mem_right hcells.each hn
    exact cell_of_typeCell hr hcell

theorem written_constructorSections (hr : r.WellBuilt)
    (hconstructors : ∀ m ∈ r.constructors t, shows (.member m))
    (h : (r.constructorSections t).Comes blocks) : r.AllWritten unit shows blocks := by
  simp only [constructorSections] at h
  split at h
  · obtain rfl := h.eq
    exact .nil
  · obtain ⟨sections, hsections, h⟩ := h.bind
    obtain rfl := h.eq
    refine .cons (.heading 2 _) (.parts hsections fun m hm f hf => ?_)
    exact written_callableSection hr (hconstructors m hm) hf

theorem written_enumBody (h : (r.enumBody t).Comes blocks) : r.AllWritten unit shows blocks := by
  obtain ⟨rows, hrows, h⟩ := h.bind
  obtain rfl := h.eq
  exact .single (.table (.values hrows.each))

theorem written_objectBody (hr : r.WellBuilt) (ht : t ∈ r.catalog.types)
    (hshown : ∀ m ∈ r.constructors t, shows (.member m)) (h : (r.objectBody t).Comes blocks) :
    r.AllWritten unit shows blocks := by
  obtain ⟨inherits, hinherits, h⟩ := h.bind
  obtain ⟨lists, hlists, h⟩ := h.bind
  obtain ⟨constructors, hconstructors, h⟩ := h.bind
  obtain ⟨tables, htables, h⟩ := h.bind
  obtain rfl := h.eq
  refine (((written_inheritsList hr hinherits).append ?_).append
    (written_constructorSections hr hshown hconstructors)).append ?_
  · exact .parts hlists fun list hlist f hf => written_nameList ht (mem_members_of_nameLists hlist) hf
  · exact .parts htables fun kind _ f hf => written_memberTables ht hf

theorem written_typeBody (hr : r.WellBuilt) (ht : t ∈ r.catalog.types)
    (hshown : ∀ m ∈ r.constructors t, shows (.member m)) (h : (r.typeBody t).Comes blocks) :
    r.AllWritten unit shows blocks := by
  unfold typeBody at h
  split at h
  · exact written_enumBody h
  · obtain rfl := h.eq
    exact .nil
  · exact written_objectBody hr ht hshown h

/-! ## Units -/

theorem written_references (r : Renderer) (u : MetadataUnit) :
    r.AllWritten unit shows (references u) := by
  unfold references
  split
  · exact .nil
  · exact .cons (.heading 2 _) (.single (.list u.references))

theorem written_categoryTable {types : List TypeSymbol} {category : TypeCategory}
    (h : (r.categoryTable types category).Comes blocks) : r.AllWritten unit shows blocks := by
  simp only [categoryTable] at h
  split at h
  · obtain rfl := h.eq
    exact .nil
  · obtain ⟨rows, hrows, h⟩ := h.bind
    obtain rfl := h.eq
    exact .cons (.heading 3 _) (.single (.table (.types hrows.each)))

theorem written_namespaceTables {types : List TypeSymbol} {space : String}
    (h : (r.namespaceTables types space).Comes blocks) : r.AllWritten unit shows blocks := by
  obtain ⟨tables, htables, h⟩ := h.bind
  obtain rfl := h.eq
  exact .cons (.heading 2 _) (.parts htables fun category _ f hf => written_categoryTable hf)

theorem written_unitHeader {framework : Option String}
    (h : (unitHeader unit framework).Comes blocks) : r.AllWritten unit shows blocks := by
  obtain ⟨link, hlink, h⟩ := h.bind
  obtain rfl := h.eq
  obtain ⟨index, rfl⟩ := hlink.link
  refine .cons (.heading 1 _) (.single (.quote fun n hn => ?_))
  simp only [List.mem_cons, List.not_mem_nil, or_false] at hn
  rcases hn with rfl | rfl | rfl | rfl | rfl | rfl
  · exact .bold _
  · exact .text _
  · exact .plain rfl rfl
  · exact .bold _
  · exact .text _
  · exact .contents _ _

end Renderer

/-! ## Pages -/

namespace Context

open Answer

variable {ctx : Context} {u : UnitSymbol} {t : TypeSymbol} {p : Page}

/-- The answers that write the pages of a unit, each with the type whose page it is for and the
symbols whose documentation stands on it: the contents page, which has none, the page of a type with
its visible constructors, and that of members of one type. -/
inductive Composes (ctx : Context) (u : UnitSymbol) :
    Answer Page → Option TypeSymbol → (Symbol → Prop) → Prop
  | contents : Composes ctx u (ctx.unitPage u) none fun _ => False
  | type {t : TypeSymbol} : t ∈ u.types →
    Composes ctx u (ctx.typePage t) t fun s =>
      s = .type t ∨ ∃ m ∈ Renderer.constructors { ctx with } t, s = .member m
  | members {t : TypeSymbol} {group : List MemberSymbol} : t ∈ u.types →
    (∀ m ∈ group, m ∈ t.members) →
    Composes ctx u (ctx.memberPage (group.map .member)) t fun s => ∃ m ∈ group, s = .member m

theorem written_unitPage {shows : Symbol → Prop}
    (h : (ctx.unitPage u).Comes p) : Renderer.AllWritten { ctx with } u.name shows p.blocks := by
  obtain ⟨header, hheader, h⟩ := h.page.bind
  obtain ⟨tables, htables, h⟩ := h.bind
  rw [← h.eq]
  refine ((Renderer.written_unitHeader hheader).append
    (Renderer.written_references _ u.decl)).append ?_
  exact .parts htables fun space _ f hf => Renderer.written_namespaceTables hf

theorem written_typePage (hctx : ctx.WellBuilt) (ht : t ∈ ctx.catalog.types)
    (hunit : t.unit = some u.name) {shows : Symbol → Prop} (hshows : shows (.type t))
    (hshown : ∀ m ∈ Renderer.constructors { ctx with } t, shows (.member m))
    (h : (ctx.typePage t).Comes p) :
    Renderer.AllWritten { ctx with current := some t } u.name shows p.blocks := by
  obtain ⟨header, hheader, h⟩ := h.page.bind
  obtain ⟨space, hspace, h⟩ := h.bind
  obtain ⟨summary, hsummary, h⟩ := h.bind
  obtain ⟨more, hmore, h⟩ := h.bind
  obtain ⟨body, hbody, h⟩ := h.bind
  rw [← h.eq]
  rw [hunit, Option.getD_some] at hheader hspace
  obtain ⟨index, rfl⟩ := hspace.link
  refine (((((Renderer.written_unitHeader hheader).append (.cons (.heading 2 _) (.single ?_))).append
    (Renderer.written_sectionBlocks u.name hshows hsummary)).append (.single (.declaration _))).append
    (Renderer.written_badges _ _)).append (Renderer.written_paragraphs hshows hmore) |>.append
    (Renderer.written_typeBody hctx ht hshown hbody)
  exact .quote (List.forall_mem_cons.2 ⟨.bold _, List.forall_mem_cons.2 ⟨.text _,
    List.forall_mem_singleton.2 (.contents _ _)⟩⟩)

theorem written_ownedPage (hctx : ctx.WellBuilt) (hunit : t.unit = some u.name)
    {shows : Symbol → Prop} {kind : String} {first : MemberSymbol} {others : List MemberSymbol}
    (hmembers : ∀ m ∈ first :: others, shows (.member m))
    (h : (ctx.ownedPage t kind first others).Comes p) :
    Renderer.AllWritten { ctx with current := some t } u.name shows p.blocks := by
  obtain ⟨header, hheader, h⟩ := h.page.bind
  obtain ⟨space, hspace, h⟩ := h.bind
  obtain ⟨declaring, hdeclaring, h⟩ := h.bind
  obtain ⟨sections, hsections, h⟩ := h.bind
  rw [← h.eq]
  rw [hunit, Option.getD_some] at hheader hspace
  obtain ⟨index, rfl⟩ := hspace.link
  refine ((Renderer.written_unitHeader hheader).append (.cons (.heading 2 _) (.single ?_))).append
    (Renderer.written_dividedSections hctx hmembers hsections)
  refine .quote fun n hn => ?_
  simp only [List.mem_cons, List.not_mem_nil, or_false] at hn
  rcases hn with rfl | rfl | rfl | rfl | rfl | rfl | rfl
  · exact .bold _
  · exact .text _
  · exact .contents _ _
  · exact .plain rfl rfl
  · exact .bold _
  · exact .text _
  · exact Renderer.cell_of_typeCell hctx hdeclaring

/-- A page of members that have an owner is the page of their owner. -/
theorem exists_ownedPage {group : List MemberSymbol} (hgroup : ∀ m ∈ group, m.owner = some t)
    (h : (ctx.memberPage (group.map .member)).Comes p) : ∃ kind first others,
      group = first :: others ∧ (ctx.ownedPage t kind first others).Comes p := by
  cases group with
  | nil => exact absurd h not_comes_throw
  | cons first rest =>
    obtain ⟨hfirst, hrest⟩ := List.forall_mem_cons.1 hgroup
    rw [List.map_cons, memberPage, each_asMember] at h
    obtain ⟨first', hfirst', h⟩ := h.bind
    obtain rfl := hfirst'.eq
    split at h
    next => exact absurd h not_comes_throw
    next owner howner =>
      obtain rfl := Option.some.inj (hfirst.symm.trans howner)
      obtain ⟨others, hothers, h⟩ := h.bind
      obtain rfl := hothers.eq
      split at h
      · split at h
        next kind _ => exact ⟨_, _, _, rfl, h⟩
        next => exact absurd h not_comes_throw
      · exact absurd h not_comes_throw

/-- The blocks of a page are documentation of what it shows, or what it builds. -/
theorem Composes.written (hctx : ctx.WellBuilt) (hu : u ∈ ctx.catalog.unitSymbols) {a : Answer Page}
    {current : Option TypeSymbol} {shows : Symbol → Prop} (ha : ctx.Composes u a current shows)
    (h : a.Comes p) : Renderer.AllWritten { ctx with current } u.name shows p.blocks := by
  cases ha with
  | contents => exact written_unitPage h
  | @type t ht =>
    have hunit := u.unit_of_mem_types ht
    have htype : t ∈ ctx.catalog.types := List.mem_flatMap.2 ⟨u, hu, ht⟩
    exact written_typePage hctx htype hunit (.inl rfl) (fun m hm => .inr ⟨m, hm, rfl⟩) h
  | @members t group ht hgroup =>
    have howner : ∀ m ∈ group, m.owner = some t :=
      fun m hm => TypeSymbol.owner_of_mem_members (hgroup m hm)
    obtain ⟨kind, first, others, rfl, hpage⟩ := exists_ownedPage howner h
    exact written_ownedPage hctx (u.unit_of_mem_types ht) (fun m hm => ⟨m, hm, rfl⟩) hpage

/-- The pages of a unit are among those that can be written once its framework is taken down. -/
theorem composes_of_unitPages {pages : List (String × Page)} (h : (ctx.unitPages u).Comes pages) :
    ∀ d ∈ pages, ∃ a current shows, (ctx.withFramework u.decl).Composes u a current shows ∧
      a.Comes d.2 := by
  obtain ⟨contents, hcontents, h⟩ := h.bind
  obtain ⟨typePages, htypePages, h⟩ := h.bind
  obtain ⟨-, -, h⟩ := h.bind
  obtain rfl := h.eq
  obtain ⟨lists, rfl, hlists⟩ := htypePages.concatEach
  refine List.forall_mem_cons.2 ⟨⟨_, _, _, .contents, hcontents⟩, fun d hd => ?_⟩
  obtain ⟨list, hlist, hd⟩ := List.mem_flatten.1 hd
  obtain ⟨t, ht, hcomes⟩ := exists_of_mem_right hlists hlist
  have ht : t ∈ u.types := List.mem_of_mem_filter ht
  obtain ⟨path, -, hcomes⟩ := hcomes.bind
  obtain ⟨page, hpage, hcomes⟩ := hcomes.bind
  split at hcomes
  · rw [← hcomes.eq] at hd
    rw [List.mem_singleton.1 hd]
    exact ⟨_, _, _, .type ht, hpage⟩
  · obtain ⟨groups, hgroups, hcomes⟩ := hcomes.bind
    obtain ⟨members, hmembers, hcomes⟩ := hcomes.bind
    obtain rfl := hcomes.eq
    rcases List.mem_cons.1 hd with rfl | hd
    · exact ⟨_, _, _, .type ht, hpage⟩
    · obtain ⟨⟨path, group⟩, hgroup, hgroupPage⟩ := exists_of_mem_right hmembers.each hd
      obtain ⟨page, hpage, hgroupPage⟩ := hgroupPage.bind
      rw [← hgroupPage.eq]
      exact ⟨_, _, _, .members ht fun m hm => mem_members_of_memberGroups hgroups.ok hgroup hm, hpage⟩

end Context

end ApiDoc
