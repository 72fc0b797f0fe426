import ApiDoc.Proofs.Agreement

/-!
# What answers meet

An answer `Meets` a contract if, whatever journal it starts with, it fails with no error but those
that the contract allows, and what it comes to meets its condition. Looking up entries, finding
candidates and searching them can fail in many ways, but not for want of an owner: an error is
harmless (`Error.isGrouping`), or the source of a unit raised it (`Context.MayRaise`). What they
come to is read from documentation (`Context.Sources`, `meets_resolve`).
-/

namespace ApiDoc

/-! ## Contracts -/

/-- A result that meets a condition, or an error that is allowed. -/
inductive Ends {α : Type} (fails : Error → Prop) (post : α → Prop) : Except Error α → Prop
  | ok {x : α} : post x → Ends fails post (.ok x)
  | error {e : Error} : fails e → Ends fails post (.error e)

section Ends

variable {α β : Type} {fails : Error → Prop} {post post' : α → Prop} {after : β → Prop}
  {r : Except Error α} {f : α → Except Error β}

theorem ends_iff : Ends fails post r ↔
    (∀ x, r = .ok x → post x) ∧ ∀ e, r = .error e → fails e := by
  constructor
  · intro h
    cases h with
    | ok hx => exact ⟨fun x hr => Except.ok.inj hr ▸ hx, fun e hr => nomatch hr⟩
    | error he => exact ⟨fun x hr => (nomatch hr), fun e hr => Except.error.inj hr ▸ he⟩
  · rintro ⟨hok, herror⟩
    cases r with
    | ok x => exact .ok (hok x rfl)
    | error e => exact .error (herror e rfl)

theorem Ends.mono {fails' : Error → Prop} (h : Ends fails post r) (hfails : ∀ e, fails e → fails' e)
    (hpost : ∀ x, post x → post' x) : Ends fails' post' r := by
  cases h with
  | ok hx => exact .ok (hpost _ hx)
  | error he => exact .error (hfails _ he)

theorem Ends.bind (hr : Ends fails post r) (hf : ∀ x, post x → Ends fails after (f x)) :
    Ends fails after (r >>= f) := by
  cases hr with
  | ok hx => exact hf _ hx
  | error he => exact .error he

theorem ends_mapM {l : List α} (hf : ∀ x ∈ l, Ends fails after (f x)) :
    Ends fails (fun ys => ∀ y ∈ ys, after y) (l.mapM f) := by
  induction l with
  | nil => exact .ok fun y hy => nomatch hy
  | cons x l ih =>
    obtain ⟨hx, hl⟩ := List.forall_mem_cons.1 hf
    rw [List.mapM_cons]
    exact hx.bind fun y hy => (ih hl).bind fun ys hys => .ok (List.forall_mem_cons.2 ⟨hy, hys⟩)

end Ends

namespace Answer

variable {α β : Type} {fails : Error → Prop} {post post' : α → Prop} {after : β → Prop}
  {a : Answer α} {f : α → Answer β}

/-- Whatever journal the answer starts with, it ends as a contract says. -/
def Meets (fails : Error → Prop) (post : α → Prop) (a : Answer α) : Prop :=
  ∀ j, Ends fails post (a.result j).1

theorem meets_pure {x : α} (h : post x) : (pure x : Answer α).Meets fails post := fun _ => .ok h

theorem meets_throw {e : Error} (h : fails e) : (throw e : Answer α).Meets fails post :=
  fun _ => .error h

theorem meets_ofExcept {r : Except Error α} (h : Ends fails post r) :
    (ofExcept r).Meets fails post := fun _ => h

theorem meets_ofExcept_self {r : Except Error α} (h : ∀ e, r = .error e → fails e) :
    (ofExcept r).Meets fails fun x => r = .ok x :=
  meets_ofExcept (ends_iff.2 ⟨fun _ hx => hx, h⟩)

theorem meets_record (e : JournalEntry) : (record e).Meets fails fun _ => True :=
  fun _ => .ok trivial

theorem meets_log (level : Log.Level) (event : String) (fields : List (String × Data)) :
    (log level event fields).Meets fails fun _ => True := meets_record _

theorem meets_link (s target : String) :
    (link s target).Meets fails fun n => ∃ index, n = .link s target index :=
  fun _ => .ok ⟨_, rfl⟩

theorem Steady.meets (ha : a.Steady) (h : Ends fails post a.value) : a.Meets fails post := by
  intro j
  rw [ha j]
  exact h

theorem Meets.mono {fails' : Error → Prop} (h : a.Meets fails post)
    (hfails : ∀ e, fails e → fails' e) (hpost : ∀ x, post x → post' x) : a.Meets fails' post' :=
  fun j => (h j).mono hfails hpost

theorem Meets.weaken (h : a.Meets fails post) (hpost : ∀ x, post x → post' x) :
    a.Meets fails post' := h.mono (fun _ => id) hpost

theorem Meets.bind (ha : a.Meets fails post) (hf : ∀ x, post x → (f x).Meets fails after) :
    (a >>= f).Meets fails after := by
  intro j
  have hj := ha j
  rw [result_bind]
  cases h : a.result j with
  | mk r j' =>
    rw [h] at hj
    cases hj with
    | ok hx => exact hf _ hx j'
    | error he => exact .error he

theorem Meets.ite {p : Prop} [Decidable p] {b : Answer α} (ha : p → a.Meets fails post)
    (hb : ¬p → b.Meets fails post) : (if p then a else b).Meets fails post := by
  by_cases h : p
  · simpa only [if_pos h] using ha h
  · simpa only [if_neg h] using hb h

/-- The result for each item meets the condition on that item. -/
theorem Meets.each {related : α → β → Prop} {items : List α}
    (hf : ∀ x ∈ items, (f x).Meets fails (related x)) :
    (each f items).Meets fails fun ys => List.Forall₂ related items ys := by
  induction items with
  | nil => exact meets_pure .nil
  | cons x items ih =>
    obtain ⟨hx, hitems⟩ := List.forall_mem_cons.1 hf
    exact hx.bind fun y hy => (ih hitems).bind fun ys hys => meets_pure (.cons hy hys)

theorem Meets.concatEach {f : α → Answer (List β)} {related : α → List β → Prop} {items : List α}
    (hf : ∀ x ∈ items, (f x).Meets fails (related x)) :
    (concatEach f items).Meets fails fun ys => ∃ lists, ys = lists.flatten ∧
      List.Forall₂ related items lists :=
  (Meets.each hf).bind fun lists hlists => meets_pure ⟨lists, rfl, hlists⟩

theorem Meets.page {title : String} {body : Answer (List Document.Node)}
    {blocks : List Document.Node → Prop} (h : body.Meets fails blocks) :
    (page title body).Meets fails fun p => p.title = title ∧ blocks p.blocks := by
  intro j
  have hj := h { j with links := .empty }
  rw [result_page]
  cases hb : body.result { j with links := .empty } with
  | mk r j' =>
    rw [hb] at hj
    cases hj with
    | ok hx => exact .ok ⟨rfl, hx⟩
    | error he => exact .error he

end Answer

/-! ## Harmless errors -/

namespace Error

/-- The errors that say that members were put together that do not belong together. -/
def isGrouping : Error → Bool
  | .unexpected .. | .detachedMember _ | .mixedMembers .. => true
  | _ => false

end Error

/-- A result that is no such error. -/
abbrev Harmless {α : Type} (r : Except Error α) : Prop :=
  Ends (fun e => e.isGrouping = false) (fun _ => True) r

namespace TypeRef

mutual

theorem harmless_key (inParameters : Bool) :
    ∀ r : TypeRef, Harmless (r.key inParameters)
  | ⟨shape, name, space, declaring, arguments, element, rank, position, methodLevel⟩ => by
    have helement := harmless_elementKey inParameters shape element
    have hkeys := harmless_keys true arguments
    cases shape with
    | byRef =>
      rw [key]
      exact helement.bind fun _ _ => .ok trivial
    | array | pointer =>
      rw [key]
      exact helement
    | parameter =>
      rw [key]
      exact .ok trivial
    | named =>
      simp only [key]
      split
      · exact hkeys.bind fun _ _ => .ok trivial
      · exact .ok trivial
    | other label =>
      rw [key]
      exact .error rfl

theorem harmless_elementKey (inParameters : Bool) (shape : TypeShape) :
    ∀ o : Option TypeRef, Harmless (elementKey inParameters shape o)
  | some r => by
    rw [elementKey]
    exact harmless_key inParameters r
  | none => by
    rw [elementKey]
    exact .error rfl

theorem harmless_keys (inParameters : Bool) :
    ∀ l : List TypeRef, Harmless (keys inParameters l)
  | [] => by
    rw [keys]
    exact .ok trivial
  | r :: rest => by
    rw [keys]
    exact (harmless_key inParameters r).bind fun _ _ =>
      (harmless_keys inParameters rest).bind fun _ _ => .ok trivial

end

theorem harmless_argumentAt (arguments : List TypeRef) (position : Int) :
    Harmless (argumentAt arguments position) := by
  simp only [argumentAt]
  generalize (if position < 0 then position + ↑arguments.length else position) = index
  split
  · exact .error rfl
  · split
    · exact .ok trivial
    · exact .error rfl

mutual

theorem harmless_substitute (arguments : List TypeRef) :
    ∀ r : TypeRef, Harmless (r.substitute arguments)
  | ⟨shape, name, space, declaring, own, element, rank, position, methodLevel⟩ => by
    have hall := harmless_substituteAll arguments own
    have helement := harmless_substitute? arguments element
    simp only [substitute]
    split
    · exact .ok trivial
    · split
      · split
        · exact harmless_argumentAt _ _
        · exact .ok trivial
      · exact hall.bind fun _ _ => .ok trivial
      · exact helement.bind fun _ _ => .ok trivial

theorem harmless_substituteAll (arguments : List TypeRef) :
    ∀ l : List TypeRef, Harmless (substituteAll arguments l)
  | [] => by
    rw [substituteAll]
    exact .ok trivial
  | r :: rest => by
    rw [substituteAll]
    exact (harmless_substitute arguments r).bind fun _ _ =>
      (harmless_substituteAll arguments rest).bind fun _ _ => .ok trivial

theorem harmless_substitute? (arguments : List TypeRef) :
    ∀ o : Option TypeRef, Harmless (substitute? arguments o)
  | none => by
    rw [substitute?]
    exact .ok trivial
  | some r => by
    rw [substitute?]
    exact (harmless_substitute arguments r).bind fun _ _ => .ok trivial

end

end TypeRef

theorem harmless_parameterList (arguments : List TypeRef) (parameters : List Parameter) :
    Harmless (parameterList arguments parameters) := by
  have hkeys : ∀ p ∈ parameters,
      Harmless (p.type.substitute arguments >>= fun type => type.key true) :=
    fun p _ => (p.type.harmless_substitute arguments).bind fun type _ => type.harmless_key true
  exact (ends_mapM hkeys).bind fun keys _ => .ok trivial

theorem Method.harmless_signature (m : Method) (arguments : List TypeRef) :
    Harmless (m.signature arguments) :=
  (harmless_parameterList arguments m.parameters).bind fun _ _ => .ok trivial

theorem Member.harmless_signature (m : Member) (arguments : List TypeRef) :
    Harmless (m.signature arguments) := by
  cases m with
  | method m => exact m.harmless_signature arguments
  | constructor c => exact (harmless_parameterList _ _).bind fun _ _ => .ok trivial
  | unclassifiedCallable c => exact (harmless_parameterList _ _).bind fun _ _ => .ok trivial
  | field | property | event | unclassified => exact .error rfl

/-- What has an owner does not lack one when its key is formed. -/
theorem MemberSymbol.harmless_documentationKey {m : MemberSymbol} {t : TypeSymbol}
    (ho : m.owner = some t) : Harmless m.documentationKey := by
  obtain ⟨address, owner, decl⟩ := m
  cases ho
  have howner : Harmless (ownerKey ⟨address, some t, decl⟩) :=
    t.decl.ref.harmless_key false
  have hplain : ∀ letter, Harmless (plainIdentifier ⟨address, some t, decl⟩ letter) :=
    fun letter => howner.bind fun _ _ => .ok trivial
  have hcallable : ∀ name parameters,
      Harmless (callableIdentifier ⟨address, some t, decl⟩ name parameters) :=
    fun name parameters => howner.bind fun _ _ =>
      (harmless_parameterList [] parameters).bind fun _ _ => .ok trivial
  cases decl with
  | method d => exact hcallable _ _
  | constructor c => exact hcallable _ _
  | field f => exact hplain _
  | property p => exact hplain _
  | event e => exact (hplain _).bind fun _ _ => .ok trivial
  | unclassified d => exact .error rfl
  | unclassifiedCallable c => exact .error rfl

/-- A type has its own key, a member stands on a type, and so does what takes a parameter. -/
def Symbol.Owned : Symbol → Prop
  | .type _ => True
  | .member m => ∃ t, m.owner = some t
  | .parameter p => ∀ m, p.member = some m → ∃ t, m.owner = some t

theorem Symbol.Owned.harmless_documentationKey {s : Symbol} (h : s.Owned) :
    Harmless s.documentationKey := by
  cases s with
  | type t => exact (t.decl.ref.harmless_key false).bind fun _ _ => .ok trivial
  | member m =>
    obtain ⟨t, ho⟩ := h
    exact MemberSymbol.harmless_documentationKey ho
  | parameter p => exact .error rfl

theorem Catalog.Inherits.exists_owner {c : Catalog} {m : MemberSymbol} (h : c.Inherits m) :
    ∃ t, m.owner = some t := by
  cases h with
  | @method t a ht ha => exact ⟨t, TypeSymbol.owner_of_mem_callables (a := a) ha⟩
  | @property t p ht hp =>
    exact ⟨t, TypeSymbol.owner_of_mem_members (TypeSymbol.mem_properties.1 hp)⟩

/-- No source complains about how members were put together. -/
theorem Source.harmless_read (source : Source) : Harmless source.read := by
  have hraw : ∀ source : Source, Harmless source.readRaw := by
    intro source
    unfold readRaw
    split
    case h_2 | h_3 => split <;> first | exact .ok trivial | exact .error rfl
    all_goals first | exact .ok trivial | exact .error rfl
  unfold read
  split
  · exact hraw _
  · exact .ok trivial
  · exact .error rfl
  · exact hraw _

/-! ## Elements of trees -/

namespace Xml.Node

theorem mem_elementsOf {e : Node} {f : List Node} :
    e ∈ elementsOf f ↔ ∃ n ∈ f, e ∈ n.elements := by
  induction f with
  | nil => simp [elementsOf]
  | cons n f ih => simp [elementsOf, ih]

theorem mem_elements_of_content {e n : Node} (h : e ∈ elementsOf n.content) : e ∈ n.elements := by
  cases n with
  | text s => cases h
  | element name attributes content =>
    rw [elements]
    exact List.mem_cons_of_mem _ h

mutual

/-- The elements below an element of a tree are in the tree. -/
theorem elements_trans : ∀ (n : Node) {e e' : Node}, e ∈ n.elements → e' ∈ e.elements →
    e' ∈ n.elements
  | .text s, e, e', he, he' => by
    rw [elements] at he
    cases he
  | .element name attributes content, e, e', he, he' => by
    rw [elements] at he
    rcases List.mem_cons.1 he with rfl | he
    · exact he'
    · exact mem_elements_of_content (elementsOf_trans content he he')

theorem elementsOf_trans : ∀ (f : List Node) {e e' : Node}, e ∈ elementsOf f → e' ∈ e.elements →
    e' ∈ elementsOf f
  | [], e, e', he, he' => by cases he
  | n :: rest, e, e', he, he' => by
    rw [elementsOf] at he ⊢
    rcases List.mem_append.1 he with he | he
    · exact List.mem_append_left _ (elements_trans n he he')
    · exact List.mem_append_right _ (elementsOf_trans rest he he')

end

end Xml.Node

namespace Context

open Answer

variable {ctx : Context} {s : Symbol} {m : MemberSymbol} {fails : Error → Prop}

/-! ## Interfaces -/

theorem harmless_newInterfaces (known : List String) (refs : List TypeRef) :
    Harmless (newInterfaces known refs) := by
  induction refs generalizing known with
  | nil => exact .ok trivial
  | cons ref refs ih =>
    refine (ref.harmless_key true).bind fun key _ => ?_
    split
    · exact ih known
    · exact (ih _).bind fun _ _ => .ok trivial

theorem harmless_gatherInterfaces (ctx : Context) (unseen : List TypeSymbol) (known : List String)
    (pending : List TypeSymbol) : Harmless (ctx.gatherInterfaces unseen known pending) := by
  induction unseen, known, pending using gatherInterfaces.induct ctx with
  | case1 unseen known =>
    rw [gatherInterfaces]
    exact .ok trivial
  | case2 unseen known t pending h ih =>
    rw [gatherInterfaces, dif_pos h]
    exact (harmless_newInterfaces known _).bind fun found _ =>
      (ih found.1 found.2).bind fun _ _ => .ok trivial
  | case3 unseen known t pending h ih =>
    rw [gatherInterfaces, dif_neg h]
    exact ih

theorem harmless_dispatchEntries (arguments : List TypeRef) (l : List MethodSymbol) :
    Harmless (dispatchEntries arguments l) := by
  induction l with
  | nil => exact .ok trivial
  | cons m l ih =>
    exact (m.decl.harmless_signature arguments).bind fun _ _ => ih.bind fun _ _ => .ok trivial

/-! ## Entries -/

/-- What can go wrong when symbols are asked about: nothing is wrong with how members were put
together, unless a source or the paths say so. -/
def MayRaise (ctx : Context) (e : Error) : Prop :=
  e.isGrouping = false ∨ (∃ o ∈ ctx.outcomes, o.2 = .error e) ∨ ∃ s, ctx.paths s = .error e

theorem MayRaise.ofHarmless {α : Type} {r : Except Error α} (h : Harmless r) :
    (ofExcept r).Meets ctx.MayRaise fun _ => True :=
  meets_ofExcept (h.mono (fun _ => .inl) fun _ => id)

/-- An element that is found in the documentation of some unit. -/
def Documents (ctx : Context) (e : Xml.Node) : Prop :=
  ∃ o ∈ ctx.outcomes, ∃ c, o.2 = .ok c ∧ ∃ entry ∈ c.entries, e ∈ entry.2.elements

/-- What has been found is read from the documentation of some unit. -/
def Sources (ctx : Context) (found : Option Xml.Node) : Prop :=
  ∀ n, found = some n → ∀ e ∈ n.elements, ctx.Documents e

theorem sources_none : ctx.Sources none := fun _ h => nomatch h

theorem meets_contents (ctx : Context) (unit : Option String) :
    (ctx.contents unit).Meets ctx.MayRaise fun found =>
      ∀ u c, found = some (u, c) → ∃ o ∈ ctx.outcomes, o.2 = .ok c := by
  unfold contents
  split
  · exact meets_pure fun u c h => nomatch h
  · split
    · exact meets_pure fun u c h => nomatch h
    next outcome ho =>
      have hmem := mem_of_lookup ho
      refine (meets_record _).bind fun _ _ => ?_
      have hfails : ∀ e, outcome = .error e → ctx.MayRaise e :=
        fun e he => .inr (.inl ⟨_, hmem, he⟩)
      refine (meets_ofExcept_self hfails).bind fun c hc => meets_pure fun u c' h => ⟨_, hmem, ?_⟩
      cases h
      exact hc

theorem meets_isIndexed (ctx : Context) (unit : Option String) :
    (ctx.isIndexed unit).Meets ctx.MayRaise fun indexed =>
      (ctx.isIndexed unit).value = .ok indexed := by
  have hsteady : (ctx.isIndexed unit).Steady :=
    (ctx.steady_contents unit).bind fun _ => steady_pure _
  have hfails : (ctx.isIndexed unit).Meets ctx.MayRaise fun _ => True :=
    (ctx.meets_contents unit).bind fun _ _ => meets_pure trivial
  refine hsteady.meets (ends_iff.2 ⟨fun _ h => h, fun e he => ?_⟩)
  exact (ends_iff.1 (hfails {})).2 e he

theorem meets_demand (strict : Bool) (unit : String) (c : Contents) :
    (ofExcept (Index.demand strict unit c)).Meets ctx.MayRaise fun c' => c' = c := by
  unfold Index.demand
  split
  · split
    · exact meets_throw (.inl rfl)
    · exact meets_pure rfl
  · exact meets_pure rfl

theorem meets_lookUp (strict : Bool) (hs : s.Owned) :
    (ctx.lookUp strict s).Meets ctx.MayRaise ctx.Sources := by
  unfold lookUp
  refine Meets.ite (fun _ => ?_) fun _ => meets_pure sources_none
  refine (MayRaise.ofHarmless hs.harmless_documentationKey).bind fun key _ => ?_
  refine (ctx.meets_contents s.unit).bind fun found hfound => ?_
  split
  · exact meets_pure sources_none
  next unit c =>
    obtain ⟨o, ho, hc⟩ := hfound unit c rfl
    refine (meets_demand strict unit c).bind fun c' hc' => meets_pure ?_
    cases hc'
    exact fun n hn e he => ⟨o, ho, c, hc, (key, n), mem_of_lookup hn, he⟩

theorem sources_parameter? {entry : Option Xml.Node} (h : ctx.Sources entry) (name : String) :
    ctx.Sources (Entry.parameter? entry name) := by
  intro e he
  obtain ⟨n, hn, hfind⟩ := Option.bind_eq_some_iff.1 he
  have hmem : e ∈ n.elements := List.mem_of_mem_filter (List.mem_of_find?_eq_some hfind)
  exact fun e' he' => h n hn e' (Xml.Node.elements_trans n hmem he')

theorem sources_sectionOf? {entry : Option Xml.Node} (h : ctx.Sources entry) (tag : String) :
    ctx.Sources (Entry.sectionOf? entry tag) := by
  intro e he
  obtain ⟨n, hn, hfind⟩ := Option.bind_eq_some_iff.1 he
  refine fun e' he' => h n hn e' (Xml.Node.mem_elements_of_content ?_)
  exact Xml.Node.mem_elementsOf.2 ⟨e, List.mem_of_find?_eq_some hfind, he'⟩

theorem meets_entryWith (strict : Bool) (hs : s.Owned) :
    (ctx.entryWith strict s).Meets ctx.MayRaise ctx.Sources := by
  unfold entryWith
  split
  next p =>
    split
    · exact meets_pure sources_none
    next m hm =>
      refine (meets_lookUp strict (s := .member m) (hs m hm)).bind fun entry hentry => ?_
      exact meets_pure (sources_parameter? hentry _)
  · exact meets_lookUp strict hs

/-! ## Candidates -/

theorem meets_dispatch (ctx : Context) (ref : TypeRef) :
    (ctx.dispatch ref).Meets ctx.MayRaise fun _ => True := by
  unfold dispatch
  split
  · exact meets_pure trivial
  · split
    · exact meets_pure trivial
    · exact (MayRaise.ofHarmless (harmless_dispatchEntries _ _)).bind fun table _ =>
        (meets_record _).bind fun _ _ => meets_pure trivial

theorem meets_implementedBy (ctx : Context) (self : Address) (signature : String)
    (refs : List TypeRef) :
    (ctx.implementedBy self signature refs).Meets ctx.MayRaise fun _ => True := by
  induction refs with
  | nil => exact meets_pure trivial
  | cons ref refs ih =>
    exact (ctx.meets_dispatch ref).bind fun _ _ => ih.bind fun _ _ => meets_pure trivial

theorem meets_interfaceMethods (ctx : Context) (m : MemberSymbol) :
    (ctx.interfaceMethods m).Meets ctx.MayRaise fun _ => True := by
  unfold interfaceMethods
  split
  · exact meets_pure trivial
  · refine (MayRaise.ofHarmless (m.decl.harmless_signature [])).bind fun signature _ => ?_
    refine (MayRaise.ofHarmless (ctx.harmless_gatherInterfaces _ _ _)).bind fun refs _ => ?_
    exact ctx.meets_implementedBy _ _ _

theorem meets_methodSources (ctx : Context) (m : MethodSymbol) :
    (ctx.methodSources m).Meets ctx.MayRaise fun _ => True := by
  simp only [methodSources]
  split
  · exact ctx.meets_interfaceMethods _
  · exact meets_pure trivial

theorem meets_propertySources (ctx : Context) (p : PropertySymbol) :
    (ctx.propertySources p).Meets ctx.MayRaise fun _ => True := by
  unfold propertySources
  split
  · exact meets_pure trivial
  · exact (ctx.meets_methodSources _).bind fun _ _ => meets_pure trivial

/-- The candidates of a member are declared on types. -/
theorem meets_candidates (hctx : ctx.WellBuilt) (m : MemberSymbol) :
    (ctx.candidates m).Meets ctx.MayRaise fun next => ∀ c ∈ next, ctx.catalog.Inherits c := by
  have hfails : (ctx.candidates m).Meets ctx.MayRaise fun _ => True := by
    unfold candidates
    split
    · exact (ctx.meets_methodSources _).bind fun _ _ => meets_pure trivial
    · exact (ctx.meets_propertySources _).bind fun _ _ => meets_pure trivial
    · exact meets_pure trivial
  refine (ctx.steady_candidates m).meets (ends_iff.2 ⟨fun next hn c hc => ?_, fun e he => ?_⟩)
  · exact inherits_of_mem_candidates hctx hn hc
  · exact (ends_iff.1 (hfails {})).2 e he

/-! ## Resolution -/

theorem meets_search (hctx : ctx.WellBuilt) (marker : String) (fresh : List String) (cyclic : Bool)
    (pending : List (MemberSymbol × List String))
    (hpending : ∀ p ∈ pending, ctx.catalog.Inherits p.1) :
    (ctx.search marker fresh cyclic pending).Meets ctx.MayRaise fun ending =>
      ctx.Sources ending.node? := by
  have hnext : ∀ {next : List MemberSymbol} {way : List String}
      {rest : List (MemberSymbol × List String)}, (∀ c ∈ next, ctx.catalog.Inherits c) →
      (∀ p ∈ rest, ctx.catalog.Inherits p.1) →
      ∀ p ∈ next.map (·, way) ++ rest, ctx.catalog.Inherits p.1 := by
    intro next way rest hn hrest p hp
    rcases List.mem_append.1 hp with hp | hp
    · obtain ⟨c, hc, rfl⟩ := List.mem_map.1 hp
      exact hn c hc
    · exact hrest p hp
  induction fresh, cyclic, pending using search.induct with
  | case1 =>
    rw [search]
    exact meets_pure sources_none
  | case2 fresh cyclic candidate way pending ih₁ ih₂ ih₃ =>
    obtain ⟨hcandidate, hrest⟩ := List.forall_mem_cons.1 hpending
    have howned : (Symbol.member candidate).Owned := hcandidate.exists_owner
    rw [search]
    refine (MayRaise.ofHarmless howned.harmless_documentationKey).bind fun key _ => ?_
    split
    · exact ih₁ hrest
    · split
      next h =>
        refine (meets_entryWith false howned).bind fun found hfound => ?_
        split
        · split
          · exact (meets_candidates hctx _).bind fun next hn => ih₂ key h next (hnext hn hrest)
          · exact meets_pure hfound
        · exact (meets_candidates hctx _).bind fun next hn => ih₂ key h next (hnext hn hrest)
      · exact ih₃ hrest

theorem meets_inherited (hctx : ctx.WellBuilt) (m : MemberSymbol) (key : String) :
    (ctx.inherited m key).Meets ctx.MayRaise ctx.Sources := by
  refine (meets_candidates hctx m).bind fun next hn => ?_
  refine (meets_search hctx _ _ _ _ fun p hp => ?_).bind fun ending hending => ?_
  · obtain ⟨c, hc, rfl⟩ := List.mem_map.1 hp
    exact hn c hc
  · cases ending with
    | found node source => exact (meets_log _ _ _).bind fun _ _ => meets_pure hending
    | exhausted cyclic => exact (meets_log _ _ _).bind fun _ _ => meets_pure sources_none

theorem meets_resolveDirect (hctx : ctx.WellBuilt) (hs : s.Owned) :
    (ctx.resolveDirect s).Meets ctx.MayRaise ctx.Sources := by
  refine (meets_entryWith _ hs).bind fun own hown => ?_
  refine Meets.ite (fun _ => meets_pure hown) fun _ => ?_
  refine (MayRaise.ofHarmless hs.harmless_documentationKey).bind fun key _ => ?_
  have hkeep : ∀ fields, (Answer.log .warning "inheritdoc_unsupported_kind" fields >>= fun _ =>
      (pure own : Answer _)).Meets ctx.MayRaise ctx.Sources :=
    fun fields => (meets_log _ _ _).bind fun _ _ => meets_pure hown
  split
  · split
    · exact meets_inherited hctx _ _
    · exact meets_inherited hctx _ _
    · exact hkeep _
  · exact hkeep _

theorem meets_resolve (hctx : ctx.WellBuilt) (hs : s.Owned) :
    (ctx.resolve s).Meets ctx.MayRaise ctx.Sources := by
  unfold resolve
  split
  next p =>
    split
    · exact meets_pure sources_none
    next m hm =>
      refine (meets_resolveDirect hctx (s := .member m) (hs m hm)).bind fun entry hentry => ?_
      exact meets_pure (sources_parameter? hentry _)
  · exact meets_resolveDirect hctx hs

end Context

end ApiDoc
