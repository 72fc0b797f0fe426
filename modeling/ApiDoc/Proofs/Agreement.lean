import ApiDoc.Proofs.Journal
import ApiDoc.Proofs.Renumbering
import Mathlib.Data.Option.Basic

/-!
# Contexts that give the same answers

Two answers run in `Parallel` if, asked with journals that hold the same links, they come to related
results and leave journals that hold the same links again. What they enter besides is of a `sound`
kind. Two contexts correspond if one gives the answers of the other with the units numbered anew,
apart from what a journal may hide: the dispatch tables that have been built, and the reasons for
which a source has no entries. Then all that is asked about symbols runs in parallel, up to the
entries that the search for inherited documentation comes to (`Corresponds.resolve`). `spared` says
of a unit that even strict questions get the same answer. Contexts over the same metadata `Agrees`,
and then they correspond with every unit keeping its number (`Agrees.corresponds`).
-/

namespace ApiDoc

/-! ## Parallel answers -/

/-- Two journals with the same links, and with sound entries only. -/
structure Journal.Parallel (sound : JournalEntry → Prop) (j j' : Journal) : Prop where
  links : j.links = j'.links
  left : ∀ e ∈ j.entries, sound e
  right : ∀ e ∈ j'.entries, sound e

/-- Two results that are related, or one error. -/
inductive Results {α : Type} (R : α → α → Prop) : Except Error α → Except Error α → Prop
  | ok {x x' : α} : R x x' → Results R (.ok x) (.ok x')
  | error (e : Error) : Results R (.error e) (.error e)

theorem Results.refl {α : Type} {R : α → α → Prop} (hR : ∀ x, R x x) (r : Except Error α) :
    Results R r r := by
  cases r with
  | ok x => exact .ok (hR x)
  | error e => exact .error e

theorem results_eq_iff {α : Type} {r r' : Except Error α} : Results Eq r r' ↔ r = r' := by
  constructor
  · rintro (rfl | _) <;> rfl
  · rintro rfl
    exact Results.refl (fun _ => rfl) r

namespace Answer

variable {α β : Type} {sound : JournalEntry → Prop} {R : α → α → Prop} {S : β → β → Prop}
  {a a' : Answer α} {f f' : α → Answer β}

/-- The two answers come to related results and leave the same links. -/
def Parallel (sound : JournalEntry → Prop) (R : α → α → Prop) (a a' : Answer α) : Prop :=
  ∀ j j', j.Parallel sound j' → Results R (a.result j).1 (a'.result j').1 ∧
    (a.result j).2.Parallel sound (a'.result j').2

/-- The two answers come to the same. -/
abbrev Same (sound : JournalEntry → Prop) (a a' : Answer α) : Prop := Parallel sound Eq a a'

theorem parallel_pure {x x' : α} (h : R x x') : Parallel sound R (pure x) (pure x') :=
  fun _ _ hj => ⟨.ok h, hj⟩

theorem parallel_flip_eq_iff : Parallel sound (fun x x' => x' = x) a a' ↔ Same sound a a' := by
  have hflip : (fun x x' : α => x' = x) = Eq := by
    funext x x'
    exact propext eq_comm
  rw [hflip]

theorem same_pure (x : α) : Same sound (pure x) (pure x) := parallel_pure rfl

theorem parallel_ofExcept {r r' : Except Error α} (h : Results R r r') :
    Parallel sound R (ofExcept r) (ofExcept r') :=
  fun _ _ hj => ⟨h, hj⟩

theorem same_ofExcept (r : Except Error α) : Same sound (ofExcept r) (ofExcept r) :=
  parallel_ofExcept (results_eq_iff.2 rfl)

theorem parallel_throw (e : Error) : Parallel sound R (throw e) (throw e) :=
  fun _ _ hj => ⟨.error e, hj⟩

theorem same_record {e : JournalEntry} (he : sound e) : Same sound (record e) (record e) :=
  fun _ _ hj => ⟨.ok rfl, hj.links, List.forall_mem_cons.2 ⟨he, hj.left⟩,
    List.forall_mem_cons.2 ⟨he, hj.right⟩⟩

theorem same_link (s target : String) : Same sound (link s target) (link s target) := by
  intro j j' hj
  have hlink : j.links.link s target = j'.links.link s target := by rw [hj.links]
  refine ⟨?_, ?_, hj.left, hj.right⟩
  · exact results_eq_iff.2 (congrArg (fun l : Document.Node × _ => Except.ok l.1) hlink)
  · exact congrArg Prod.snd hlink

theorem Parallel.bind (ha : Parallel sound R a a')
    (hf : ∀ x x', R x x' → Parallel sound S (f x) (f' x')) :
    Parallel sound S (a >>= f) (a' >>= f') := by
  intro j j' hj
  obtain ⟨hresult, hjournal⟩ := ha j j' hj
  rw [result_bind, result_bind]
  cases h : a.result j with
  | mk r j₁ =>
    cases h' : a'.result j' with
    | mk r' j₁' =>
      rw [h, h'] at hresult hjournal
      cases hresult with
      | ok hx => exact hf _ _ hx _ _ hjournal
      | error e => exact ⟨.error e, hjournal⟩

theorem Same.bind (ha : Same sound a a') (hf : ∀ x, Parallel sound S (f x) (f' x)) :
    Parallel sound S (a >>= f) (a' >>= f') := by
  refine Parallel.bind ha fun x x' hx => ?_
  cases hx
  exact hf x

theorem Same.ite {p : Prop} [Decidable p] {b b' : Answer α} (ha : p → Same sound a a')
    (hb : ¬p → Same sound b b') : Same sound (if p then a else b) (if p then a' else b') := by
  by_cases h : p
  · simpa only [if_pos h] using ha h
  · simpa only [if_neg h] using hb h

/-- Steady answers that come to related results and make no links. -/
theorem parallel_of_steady (ha : a.Steady) (ha' : a'.Steady)
    (hvalue : Results R a.value a'.value) (hn : a.Notes sound) (hn' : a'.Notes sound) :
    Parallel sound R a a' := by
  intro j j' hj
  obtain ⟨entries, hsound, hentries⟩ := hn j
  obtain ⟨entries', hsound', hentries'⟩ := hn' j'
  refine ⟨?_, ?_⟩
  · rw [ha j, ha' j']
    exact hvalue
  · rw [hentries, hentries']
    exact ⟨hj.links, List.forall_mem_append.2 ⟨hsound, hj.left⟩,
      List.forall_mem_append.2 ⟨hsound', hj.right⟩⟩

theorem Same.each_map {γ : Type} {f : α → Answer β} {f' : γ → Answer β} {g : α → γ}
    {items : List α} (hf : ∀ x ∈ items, Same sound (f x) (f' (g x))) :
    Same sound (each f items) (each f' (items.map g)) := by
  induction items with
  | nil => exact same_pure _
  | cons x items ih =>
    obtain ⟨hx, hitems⟩ := List.forall_mem_cons.1 hf
    exact Same.bind hx fun y => Same.bind (ih hitems) fun ys => same_pure _

theorem Same.each {items : List α} (hf : ∀ x ∈ items, Same sound (f x) (f' x)) :
    Same sound (each f items) (each f' items) := by
  simpa using Same.each_map (g := id) hf

theorem Same.concatEach_map {γ : Type} {f : α → Answer (List β)} {f' : γ → Answer (List β)}
    {g : α → γ} {items : List α} (hf : ∀ x ∈ items, Same sound (f x) (f' (g x))) :
    Same sound (concatEach f items) (concatEach f' (items.map g)) :=
  Same.bind (Same.each_map hf) fun _ => same_pure _

theorem Same.concatEach {f f' : α → Answer (List β)} {items : List α}
    (hf : ∀ x ∈ items, Same sound (f x) (f' x)) :
    Same sound (concatEach f items) (concatEach f' items) :=
  Same.bind (Same.each hf) fun _ => same_pure _

theorem Same.page {body body' : Answer (List Document.Node)} (h : Same sound body body')
    (title : String) : Same sound (page title body) (page title body') := by
  intro j j' hj
  obtain ⟨hresult, hjournal⟩ :=
    h { j with links := .empty } { j' with links := .empty } ⟨rfl, hj.left, hj.right⟩
  rw [result_page, result_page]
  cases hb : body.result { j with links := .empty } with
  | mk r j₁ =>
    cases hb' : body'.result { j' with links := .empty } with
    | mk r' j₁' =>
      rw [hb, hb'] at hresult hjournal
      cases hresult with
      | ok hblocks =>
        obtain rfl := hblocks
        refine ⟨results_eq_iff.2 ?_, hj.links, hjournal.left, hjournal.right⟩
        have hlinks : j₁.links = j₁'.links := hjournal.links
        simp only [hlinks]
      | error e => exact ⟨.error e, hjournal⟩

end Answer

/-! ## Corresponding contexts -/

/-- The two contents are the same, or neither has entries. `strict` says that they are the same. -/
structure Contents.Agree (strict : Prop) (c c' : Contents) : Prop where
  alike : c = c' ∨ (c.isReady = false ∧ c'.isReady = false)
  same : strict → c = c'

namespace Contents.Agree

variable {strict : Prop} {c c' : Contents}

theorem refl (c : Contents) : c.Agree strict c := ⟨.inl rfl, fun _ => rfl⟩

theorem isReady_eq (h : c.Agree strict c') : c.isReady = c'.isReady := by
  rcases h.alike with rfl | ⟨hc, hc'⟩
  · rfl
  · rw [hc, hc']

theorem entries_eq (h : c.Agree strict c') : c.entries = c'.entries := by
  have hblank : ∀ c : Contents, c.isReady = false → c.entries = [] := by
    intro c hc
    cases c <;> simp_all [Contents.isReady, Contents.entries]
  rcases h.alike with rfl | ⟨hc, hc'⟩
  · rfl
  · rw [hblank c hc, hblank c' hc']

theorem find?_eq (h : c.Agree strict c') (key : String) : c.find? key = c'.find? key := by
  rw [Contents.find?, Contents.find?, h.entries_eq]

/-- What is demanded of the contents agrees, if strict questions get the same answer. -/
theorem demand {b : Bool} (h : c.Agree strict c') (hb : b = true → strict) (unit : String) :
    Results (Contents.Agree strict) (Index.demand b unit c) (Index.demand b unit c') := by
  cases b with
  | false => cases c <;> cases c' <;> exact .ok h
  | true =>
    obtain rfl := h.same (hb rfl)
    exact Results.refl (fun c => refl c) _

end Contents.Agree

namespace Context

open Answer

/-- The second context gives the answers of the first one with the units numbered anew, and what the
two enter in a journal is sound. For a unit that is `spared`, that goes for strict questions as
well. -/
structure Corresponds (σ : Equiv.Perm Nat) (sound : JournalEntry → Prop)
    (spared : Option String → Prop) (ctx ctx' : Context) : Prop where
  types : ∀ t, t ∈ ctx'.catalog.types ↔ t ∈ ctx.catalog.types.map (TypeSymbol.renumber σ)
  findType : ∀ ref, ctx'.findType ref = (ctx.findType ref).map (TypeSymbol.renumber σ)
  findSymbol : ∀ key, ctx'.findSymbol key = (ctx.findSymbol key).map (Symbol.renumber σ)
  method? : ∀ a,
    ctx'.catalog.method? (a.renumber σ) = (ctx.catalog.method? a).map (Placed.renumber σ)
  overrideRoot : ∀ m, ctx'.overrideRoot (m.renumber σ) = (ctx.overrideRoot m).renumber σ
  settings : ctx'.settings = ctx.settings
  paths : ∀ s, ctx'.paths (s.renumber σ) = ctx.paths s
  outcomes : ∀ unit, Option.Rel (Results (Contents.Agree
    (spared (some unit) ∧ ctx.settings.documentation.failOnMalformed = true)))
    (ctx.outcomes.lookup unit) (ctx'.outcomes.lookup unit)
  logged : ∀ r, sound (.logged r)
  consulted : ∀ unit, sound (.consulted unit)
  dispatch : ∀ ref, Parallel sound
    (fun table table' => table' = table.map fun e => (e.1, e.2.renumber σ))
    (ctx.dispatch ref) (ctx'.dispatch ref)

theorem mem_memberKeys_iff {ctx : Context} {key : String} :
    key ∈ ctx.memberKeys ↔ ∃ t ∈ ctx.catalog.types, ∃ m ∈ t.members,
      m.documentationKey = .ok key ∨
        ∃ a ∈ m.accessors, (MethodSymbol.toMember a).documentationKey = .ok key := by
  have hok : ∀ {r : Except Error String}, r.toOption = some key ↔ r = .ok key := by
    intro r
    cases r <;> simp [Except.toOption]
  simp only [memberKeys, List.mem_filterMap, List.mem_append, List.mem_flatMap, List.mem_map, hok]
  grind

/-- What two contexts have found of a unit. -/
def Found (strict : Prop) (found found' : Option (String × Contents)) : Prop :=
  Option.Rel (fun f f' => f.1 = f'.1 ∧ Contents.Agree strict f.2 f'.2) found found'

namespace Corresponds

variable {σ : Equiv.Perm Nat} {sound : JournalEntry → Prop} {spared : Option String → Prop}
  {ctx ctx' : Context} {s : Symbol}

theorem same_log (h : Corresponds σ sound spared ctx ctx') (level : Log.Level) (event : String)
    (fields : List (String × Data)) :
    Same sound (log level event fields) (log level event fields) := same_record (h.logged _)

/-! ## Interfaces and keys -/

theorem allInterfaces (h : Corresponds σ sound spared ctx ctx') (t : TypeSymbol) :
    ctx'.allInterfaces (t.renumber σ) = ctx.allInterfaces t :=
  allInterfaces_renumber h.findType (Hierarchy.sameUnseen_of_mem h.types) t

theorem mem_memberKeys (h : Corresponds σ sound spared ctx ctx') (key : String) :
    key ∈ ctx'.memberKeys ↔ key ∈ ctx.memberKeys := by
  simp [mem_memberKeys_iff, h.types]

/-! ## Entries -/

theorem contents (h : Corresponds σ sound spared ctx ctx') (unit : Option String) :
    Parallel sound (Found (spared unit ∧ ctx.settings.documentation.failOnMalformed = true))
      (ctx.contents unit) (ctx'.contents unit) := by
  cases unit with
  | none => exact parallel_pure .none
  | some unit =>
    have hlookup := h.outcomes unit
    simp only [Context.contents]
    generalize ctx.outcomes.lookup unit = o, ctx'.outcomes.lookup unit = o' at hlookup ⊢
    cases hlookup with
    | none => exact parallel_pure .none
    | some ho =>
      refine Same.bind (same_record (h.consulted _)) fun _ => ?_
      refine Parallel.bind (parallel_ofExcept ho) fun c c' hc => ?_
      exact parallel_pure (.some ⟨rfl, hc⟩)

theorem hasIndex (h : Corresponds σ sound spared ctx ctx') (unit : Option String) :
    ctx'.hasIndex unit = ctx.hasIndex unit := by
  cases unit with
  | none => rfl
  | some unit =>
    have hlookup := h.outcomes unit
    simp only [Context.hasIndex, Option.any_some]
    generalize ctx.outcomes.lookup unit = o, ctx'.outcomes.lookup unit = o' at hlookup ⊢
    cases hlookup <;> rfl

theorem isIndexed (h : Corresponds σ sound spared ctx ctx') (unit : Option String) :
    Same sound (ctx.isIndexed unit) (ctx'.isIndexed unit) := by
  refine Parallel.bind (h.contents unit) fun found found' hfound => parallel_pure ?_
  cases hfound with
  | none => rfl
  | some hf => exact hf.2.isReady_eq

theorem lookUp (h : Corresponds σ sound spared ctx ctx') (strict : Bool)
    (hstrict : strict = true →
      spared s.unit ∧ ctx.settings.documentation.failOnMalformed = true) :
    Same sound (ctx.lookUp strict s) (ctx'.lookUp strict (s.renumber σ)) := by
  unfold Context.lookUp
  rw [Symbol.renumber_unit, Symbol.renumber_documentationKey, h.hasIndex]
  split
  · refine Same.bind (same_ofExcept _) fun key => ?_
    refine Parallel.bind (h.contents s.unit) fun found found' hfound => ?_
    cases hfound with
    | none => exact same_pure _
    | @some f f' hf =>
      obtain ⟨unit, c⟩ := f
      obtain ⟨_, c'⟩ := f'
      obtain ⟨rfl, hc⟩ := hf
      refine Parallel.bind (parallel_ofExcept (hc.demand hstrict unit)) fun c c' hc => ?_
      exact parallel_pure (hc.find?_eq key)
  · exact same_pure _

theorem entryWith (h : Corresponds σ sound spared ctx ctx') (strict : Bool)
    (hstrict : strict = true →
      spared s.unit ∧ ctx.settings.documentation.failOnMalformed = true) :
    Same sound (ctx.entryWith strict s) (ctx'.entryWith strict (s.renumber σ)) := by
  cases s with
  | parameter p =>
    simp only [Context.entryWith, Symbol.renumber, ParameterSymbol.renumber]
    cases hm : p.member with
    | none => exact same_pure _
    | some m =>
      have hunit : (Symbol.parameter p).unit = (Symbol.member m).unit := by simp [Symbol.unit, hm]
      refine Same.bind (h.lookUp (s := .member m) strict fun hs => ?_) fun entry => same_pure _
      exact hunit ▸ hstrict hs
  | type t => exact h.lookUp strict hstrict
  | member m => exact h.lookUp strict hstrict

theorem entry (h : Corresponds σ sound spared ctx ctx') (hs : spared s.unit) :
    Same sound (ctx.entry s) (ctx'.entry (s.renumber σ)) := by
  rw [Context.entry, Context.entry, h.settings]
  exact h.entryWith _ fun hstrict => ⟨hs, hstrict⟩

theorem foreignEntry (h : Corresponds σ sound spared ctx ctx') (s : Symbol) :
    Same sound (ctx.foreignEntry s) (ctx'.foreignEntry (s.renumber σ)) :=
  h.entryWith false fun hstrict => nomatch hstrict

/-! ## Candidates -/

/-- The method under a signature, in a table that is numbered anew. -/
theorem bind_method? (h : Corresponds σ sound spared ctx ctx') (table : DispatchTable)
    (signature : String) :
    ((table.map fun e => (e.1, e.2.renumber σ)).lookup signature).bind ctx'.catalog.method? =
      ((table.lookup signature).bind ctx.catalog.method?).map (Placed.renumber σ) := by
  have hlookup : (table.map fun e => (e.1, e.2.renumber σ)).lookup signature =
      (table.lookup signature).map (Address.renumber σ) := by
    induction table with
    | nil => rfl
    | cons e table ih =>
      rw [List.map_cons, List.lookup_cons, List.lookup_cons, ih]
      cases signature == e.1 <;> rfl
  rw [hlookup, Option.bind_map, Option.map_bind]
  exact congrArg _ (funext h.method?)

/-- The two answers come to the same members, the second one to those that are numbered anew. -/
def Renumbered {α : Type} (σ : Equiv.Perm Nat) (ms ms' : List (Placed α)) : Prop :=
  ms' = ms.map (Placed.renumber σ)

@[simp] theorem renumbered_refl {α : Type} :
    Renumbered (α := α) (Equiv.refl Nat) = fun ms ms' => ms' = ms := by
  funext ms ms'
  simp [Renumbered]

theorem implementedBy (h : Corresponds σ sound spared ctx ctx') (self : Address)
    (signature : String) (refs : List TypeRef) :
    Parallel sound (Renumbered σ) (ctx.implementedBy self signature refs)
      (ctx'.implementedBy (self.renumber σ) signature refs) := by
  induction refs with
  | nil => exact parallel_pure rfl
  | cons ref refs ih =>
    refine Parallel.bind (h.dispatch ref) fun table _ htable => ?_
    refine Parallel.bind ih fun more _ hmore => parallel_pure ?_
    rw [htable, hmore, h.bind_method?]
    cases (table.lookup signature).bind ctx.catalog.method? with
    | none => simp [Renumbered]
    | some m => by_cases hm : m.address = self <;> simp [Renumbered, Option.filter, hm]

theorem interfaceMethods (h : Corresponds σ sound spared ctx ctx') (m : MemberSymbol) :
    Parallel sound (Renumbered σ) (ctx.interfaceMethods m)
      (ctx'.interfaceMethods (m.renumber σ)) := by
  unfold Context.interfaceMethods
  cases ho : m.owner with
  | none =>
    simp only [Placed.renumber_owner, ho, Option.map_none]
    exact parallel_pure rfl
  | some owner =>
    simp only [Placed.renumber_owner, ho, Option.map_some, Placed.renumber_decl, h.allInterfaces]
    refine Same.bind (same_ofExcept _) fun signature => ?_
    exact Same.bind (same_ofExcept _) fun interfaces => h.implementedBy _ _ _

theorem methodSources (h : Corresponds σ sound spared ctx ctx') (m : MethodSymbol) :
    Parallel sound (Renumbered σ) (ctx.methodSources m) (ctx'.methodSources (m.renumber σ)) := by
  simp only [Context.methodSources, h.overrideRoot, Placed.renumber_address, Address.renumber_inj]
  split
  · exact h.interfaceMethods _
  · exact parallel_pure rfl

theorem propertySources (h : Corresponds σ sound spared ctx ctx') (p : PropertySymbol) :
    Parallel sound (Renumbered σ) (ctx.propertySources p)
      (ctx'.propertySources (p.renumber σ)) := by
  simp only [Context.propertySources, PropertySymbol.renumber_toMember,
    MemberSymbol.renumber_accessors]
  cases p.toMember.accessors with
  | nil => exact parallel_pure rfl
  | cons accessor _ =>
    refine Parallel.bind (h.methodSources accessor) fun sources sources' hsources =>
      parallel_pure ?_
    have hproperties : sources'.filterMap (sourceProperty? p.decl.name) =
        (sources.filterMap (sourceProperty? p.decl.name)).map (Placed.renumber σ) := by
      rw [hsources, List.filterMap_map, List.map_filterMap]
      exact congrArg (List.filterMap · sources) (funext (renumber_sourceProperty? _))
    rw [Placed.renumber_decl, hproperties, List.filter_map]
    simp [Renumbered, Function.comp_def]

theorem candidates (h : Corresponds σ sound spared ctx ctx') (m : MemberSymbol) :
    Parallel sound (Renumbered σ) (ctx.candidates m) (ctx'.candidates (m.renumber σ)) := by
  obtain ⟨address, owner, decl⟩ := m
  cases decl with
  | method d =>
    refine Parallel.bind (h.methodSources _) fun sources _ hsources => parallel_pure ?_
    subst hsources
    simp [Renumbered, Function.comp_def]
  | property p =>
    refine Parallel.bind (h.propertySources _) fun sources _ hsources => parallel_pure ?_
    subst hsources
    simp [Renumbered, Function.comp_def]
  | _ => exact parallel_pure rfl

/-! ## Resolution -/

/-- The search sees of the keys that are left only which they are, so their order does not show. -/
theorem search (h : Corresponds σ sound spared ctx ctx') (marker : String)
    {fresh fresh' : List String} (hfresh : ∀ key, key ∈ fresh' ↔ key ∈ fresh) (cyclic : Bool)
    (pending : List (MemberSymbol × List String)) :
    Same sound (ctx.search marker fresh cyclic pending)
      (ctx'.search marker fresh' cyclic (pending.map fun c => (c.1.renumber σ, c.2))) := by
  induction fresh, cyclic, pending using Context.search.induct generalizing fresh' with
  | case1 =>
    rw [List.map_nil, Context.search, Context.search]
    exact same_pure _
  | case2 fresh cyclic candidate way pending ih₁ ih₂ ih₃ =>
    rw [List.map_cons, Context.search, Context.search, MemberSymbol.renumber_documentationKey]
    refine Same.bind (same_ofExcept _) fun key => ?_
    split
    · exact ih₁ hfresh
    by_cases hmem : key ∈ fresh
    · have hnext : Same sound
          (ctx.candidates candidate >>= fun next =>
            ctx.search marker (entering fresh key) cyclic (next.map (·, way ++ [key]) ++ pending))
          (ctx'.candidates (candidate.renumber σ) >>= fun next =>
            ctx'.search marker (entering fresh' key) cyclic (next.map (·, way ++ [key]) ++
              pending.map fun c => (c.1.renumber σ, c.2))) := by
        refine Parallel.bind (h.candidates candidate) fun next _ hnext => ?_
        subst hnext
        have hleft : ∀ key', key' ∈ entering fresh' key ↔ key' ∈ entering fresh key := by
          simp [entering, hfresh]
        simpa [Function.comp_def] using ih₂ key hmem next hleft
      rw [dif_pos hmem, dif_pos ((hfresh key).2 hmem)]
      refine Same.bind (h.foreignEntry _) fun found => ?_
      split
      · split
        · exact hnext
        · exact same_pure _
      · exact hnext
    · rw [dif_neg hmem, dif_neg (hmem ∘ (hfresh key).1)]
      exact ih₃ hfresh

theorem inherited (h : Corresponds σ sound spared ctx ctx') (m : MemberSymbol) (key : String) :
    Same sound (ctx.inherited m key) (ctx'.inherited (m.renumber σ) key) := by
  unfold Context.inherited
  rw [h.settings]
  refine Parallel.bind (h.candidates m) fun next _ hnext => ?_
  have hleft : ∀ key', key' ∈ entering ctx'.memberKeys key ↔
      key' ∈ entering ctx.memberKeys key := by
    simp [entering, h.mem_memberKeys]
  have hsearch := h.search ctx.settings.documentation.deferTag hleft false (next.map (·, [key]))
  rw [List.map_map] at hsearch
  rw [hnext, List.map_map]
  refine Same.bind hsearch fun ending => ?_
  split
  · exact Same.bind (h.same_log _ _ _) fun _ => same_pure _
  · exact Same.bind (h.same_log _ _ _) fun _ => same_pure _

theorem resolveDirect (h : Corresponds σ sound spared ctx ctx') (hs : spared s.unit) :
    Same sound (ctx.resolveDirect s) (ctx'.resolveDirect (s.renumber σ)) := by
  unfold Context.resolveDirect
  rw [h.settings, Symbol.renumber_documentationKey, Symbol.renumber_kindLabel?]
  refine Same.bind (h.entry hs) fun own => ?_
  split
  · exact same_pure _
  · refine Same.bind (same_ofExcept _) fun key => ?_
    have hkeep : ∀ fields, Same sound
        (log .warning "inheritdoc_unsupported_kind" fields >>= fun _ => pure own)
        (log .warning "inheritdoc_unsupported_kind" fields >>= fun _ => pure own) :=
      fun fields => Same.bind (h.same_log _ _ _) fun _ => same_pure _
    cases s with
    | type t => exact hkeep _
    | parameter p => exact hkeep _
    | member m =>
      obtain ⟨address, owner, decl⟩ := m
      cases decl with
      | method d => exact h.inherited _ _
      | property p => exact h.inherited _ _
      | _ => exact hkeep _

/-- Resolving a symbol of a unit that is spared comes to the same entry. -/
theorem resolve (h : Corresponds σ sound spared ctx ctx') (hs : spared s.unit) :
    Same sound (ctx.resolve s) (ctx'.resolve (s.renumber σ)) := by
  cases s with
  | parameter p =>
    simp only [Context.resolve, Symbol.renumber, ParameterSymbol.renumber]
    cases hm : p.member with
    | none => exact same_pure _
    | some m =>
      have hunit : (Symbol.parameter p).unit = (Symbol.member m).unit := by simp [Symbol.unit, hm]
      exact Same.bind (h.resolveDirect (s := .member m) (hunit ▸ hs)) fun entry => same_pure _
  | type t => exact h.resolveDirect hs
  | member m => exact h.resolveDirect hs

end Corresponds

/-! ## Agreeing contexts -/

/-- The two contexts give the same answers, and what they enter in a journal is sound. For a unit
that is `spared`, that goes for strict questions as well. -/
structure Agrees (sound : JournalEntry → Prop) (spared : Option String → Prop)
    (ctx ctx' : Context) :
    Prop where
  types : ctx.catalog.types = ctx'.catalog.types
  symbol? : ctx.catalog.symbol? = ctx'.catalog.symbol?
  hierarchy : ctx.hierarchy = ctx'.hierarchy
  settings : ctx.settings = ctx'.settings
  paths : ctx.paths = ctx'.paths
  framework : ∀ unit, ctx.frameworks.lookup unit = ctx'.frameworks.lookup unit
  outcomes : List.Forall₂ (fun o o' => o.1 = o'.1 ∧ Results (Contents.Agree
    (spared (some o.1) ∧ ctx.settings.documentation.failOnMalformed = true)) o.2 o'.2)
    ctx.outcomes ctx'.outcomes
  logged : ∀ r, sound (.logged r)
  consulted : ∀ unit, sound (.consulted unit)
  dispatch : ∀ ref, Same sound (ctx.dispatch ref) (ctx'.dispatch ref)

namespace Agrees

variable {sound : JournalEntry → Prop} {spared : Option String → Prop} {ctx ctx' : Context}

theorem type? (h : Agrees sound spared ctx ctx') (a : Address) :
    ctx.catalog.type? a = ctx'.catalog.type? a := by
  rw [Catalog.type?, Catalog.type?, h.symbol?]

theorem method? (h : Agrees sound spared ctx ctx') (a : Address) :
    ctx.catalog.method? a = ctx'.catalog.method? a := by
  rw [Catalog.method?, Catalog.method?, h.symbol?]

theorem findType (h : Agrees sound spared ctx ctx') : ctx.findType = ctx'.findType := by
  funext ref
  simp only [Context.findType, Hierarchy.findType, h.hierarchy, h.type?]

theorem overrideRoot (h : Agrees sound spared ctx ctx') (m : MethodSymbol) :
    ctx.overrideRoot m = ctx'.overrideRoot m := by
  have hmethod : ctx.catalog.method? = ctx'.catalog.method? := funext h.method?
  rw [Context.overrideRoot, Context.overrideRoot, h.hierarchy, hmethod]

/-- Entries that are related under the same names are related when they are looked up. -/
theorem rel_lookup {β : Type} {R : String → β → β → Prop} {l l' : List (String × β)}
    (h : List.Forall₂ (fun e e' => e.1 = e'.1 ∧ R e.1 e.2 e'.2) l l') (name : String) :
    Option.Rel (R name) (l.lookup name) (l'.lookup name) := by
  induction h with
  | nil => exact .none
  | @cons e e' l l' he _ ih =>
    obtain ⟨name', x⟩ := e
    obtain ⟨_, x'⟩ := e'
    obtain ⟨rfl, hx⟩ := he
    rw [List.lookup_cons, List.lookup_cons]
    cases hname : name == name' with
    | true =>
      obtain rfl := eq_of_beq hname
      exact .some hx
    | false => exact ih

/-- Contexts that agree correspond with every unit keeping its number. -/
theorem corresponds (h : Agrees sound spared ctx ctx') :
    Corresponds (Equiv.refl Nat) sound spared ctx ctx' where
  types t := by simp [h.types]
  findType ref := by simp [h.findType]
  findSymbol key := by simp [Context.findSymbol, h.hierarchy, h.symbol?]
  method? a := by simp [h.method?]
  overrideRoot m := by simp [h.overrideRoot]
  settings := h.settings.symm
  paths s := by simp [h.paths]
  outcomes unit := rel_lookup (R := fun unit => Results (Contents.Agree
    (spared (some unit) ∧ ctx.settings.documentation.failOnMalformed = true))) h.outcomes unit
  logged := h.logged
  consulted := h.consulted
  dispatch ref := by simpa using parallel_flip_eq_iff.2 (h.dispatch ref)

theorem entryByKey (h : Agrees sound spared ctx ctx') (key : String) :
    Same sound (ctx.entryByKey key) (ctx'.entryByKey key) := by
  unfold Context.entryByKey
  have houtcomes := h.outcomes
  generalize ctx.outcomes = l, ctx'.outcomes = l' at houtcomes
  induction houtcomes with
  | nil => exact same_pure _
  | @cons o o' l l' ho _ ih =>
    obtain ⟨unit, r⟩ := o
    obtain ⟨_, r'⟩ := o'
    obtain ⟨rfl, -⟩ := ho
    refine Parallel.bind (h.corresponds.contents (some unit)) fun found found' hfound => ?_
    cases hfound with
    | none => exact ih
    | some hf =>
      simp only [hf.2.find?_eq key]
      split
      · exact same_pure _
      · exact ih

end Agrees

end Context

end ApiDoc
