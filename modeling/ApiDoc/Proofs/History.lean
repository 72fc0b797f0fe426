import Mathlib
import ApiDoc.Proofs.Candidates
import ApiDoc.Proofs.Question

/-!
# Histories of sessions

What a session keeps between questions does not show in its answers. Each question only settles
indices, takes over dispatch tables that are those of their interfaces, and takes down frameworks
that were known (`perform_later`), so the session after any history is `Later` than the one it began
with. Two sessions whose contexts agree still do so after any two histories (`Agrees.of_later`), and
so they reply alike (`Agrees.perform`). Hence a session replies as a fresh one does, and an index
that has been settled stays as it is (`perform_after`).
-/

namespace ApiDoc

open Relation

/-! ## Indices -/

namespace Index

variable {i i' : Index} {c : Contents}

theorem settle_of_contents (h : i.contents = some c) : i.settle = (.ok c, i, []) := by
  simp only [settle, h]

theorem unit_settle (i : Index) : i.settle.2.1.unit = i.unit := by
  cases hc : i.contents with
  | some c => rw [settle_of_contents hc]
  | none => cases ho : i.outcome <;> simp [settle, hc, ho]

theorem outcome_settle (i : Index) : i.settle.2.1.outcome = i.outcome := by
  cases hc : i.contents with
  | some c => rw [settle_of_contents hc]
  | none => cases ho : i.outcome <;> simp [settle, hc, ho]

/-- The contents of the index, if it has any yet, are what comes of its source. -/
def Faithful (i : Index) : Prop := ∀ c, i.contents = some c → i.outcome = .ok c

/-- Settling a faithful index comes to what comes of its source. -/
theorem Faithful.settle_eq (h : i.Faithful) : i.settle.1 = i.outcome := by
  cases hc : i.contents with
  | some c => rw [settle_of_contents hc, h c hc]
  | none => cases ho : i.outcome <;> simp [settle, hc, ho]

theorem Faithful.settle (h : i.Faithful) : i.settle.2.1.Faithful := by
  intro c hc
  rw [outcome_settle]
  cases hi : i.contents with
  | some c' =>
    rw [settle_of_contents hi] at hc
    exact h c hc
  | none => cases ho : i.outcome <;> simp_all [Index.settle]

/-- The index after it has been settled any number of times. -/
abbrev Later : Index → Index → Prop := ReflTransGen fun i i' => i' = i.settle.2.1

theorem later_settle (i : Index) : i.Later i.settle.2.1 := .single rfl

theorem Later.unit_eq (h : i.Later i') : i'.unit = i.unit := by
  induction h with
  | refl => rfl
  | tail _ hstep ih => rw [hstep, unit_settle, ih]

theorem Later.outcome_eq (h : i.Later i') : i'.outcome = i.outcome := by
  induction h with
  | refl => rfl
  | tail _ hstep ih => rw [hstep, outcome_settle, ih]

theorem Later.faithful (h : i.Later i') (hi : i.Faithful) : i'.Faithful := by
  induction h with
  | refl => exact hi
  | tail _ hstep ih =>
    rw [hstep]
    exact ih.settle

/-- An index that has been settled never changes again. -/
theorem Later.eq_of_contents (h : i.Later i') (hc : i.contents = some c) : i' = i := by
  induction h with
  | refl => rfl
  | tail _ hstep ih => rw [hstep, ih, settle_of_contents hc]

/-! ### Registries -/

variable {l l' l'' : List Index}

/-- Every index of a registry after it has been settled any number of times. -/
abbrev LaterAll : List Index → List Index → Prop := List.Forall₂ Later

theorem laterAll_refl (l : List Index) : LaterAll l l := List.forall₂_same.2 fun _ _ => .refl

theorem LaterAll.trans (h : LaterAll l l') (h' : LaterAll l' l'') : LaterAll l l'' := by
  induction h generalizing l'' with
  | nil => exact h'
  | cons hi _ ih =>
    cases h' with
    | cons hi' h' => exact .cons (hi.trans hi') (ih h')

theorem LaterAll.units_eq (h : LaterAll l l') : l'.map Index.unit = l.map Index.unit := by
  induction h with
  | nil => rfl
  | cons hi _ ih => rw [List.map_cons, List.map_cons, hi.unit_eq, ih]

theorem LaterAll.faithful (h : LaterAll l l') (hl : ∀ i ∈ l, i.Faithful) :
    ∀ i ∈ l', i.Faithful := by
  induction h with
  | nil => exact hl
  | cons hi _ ih =>
    obtain ⟨hfirst, hrest⟩ := List.forall_mem_cons.1 hl
    exact List.forall_mem_cons.2 ⟨hi.faithful hfirst, ih hrest⟩

/-- What comes of the sources of faithful indices, as settling them tells it. -/
theorem LaterAll.outcomes_eq (h : LaterAll l l') (hl : ∀ i ∈ l, i.Faithful) :
    l'.map (fun i => (i.unit, i.settle.1)) = l.map fun i => (i.unit, i.settle.1) := by
  induction h with
  | nil => rfl
  | cons hi _ ih =>
    obtain ⟨hfirst, hrest⟩ := List.forall_mem_cons.1 hl
    rw [List.map_cons, List.map_cons, ih hrest, hi.unit_eq, (hi.faithful hfirst).settle_eq,
      hfirst.settle_eq, hi.outcome_eq]

theorem LaterAll.getElem?_eq (h : LaterAll l l') {n : Nat} (hi : l[n]? = some i)
    (hc : i.contents = some c) : l'[n]? = some i := by
  induction h generalizing n with
  | nil => exact hi
  | cons hfirst _ ih =>
    cases n with
    | zero =>
      cases hi
      exact congrArg some (hfirst.eq_of_contents hc)
    | succ n => exact ih hi

end Index

/-! ## Sound journals -/

/-- The entry, if it is a dispatch table, is that of an interface among the types. -/
def JournalEntry.Sound (types : List TypeSymbol) : JournalEntry → Prop
  | .dispatched interface arguments table => ∃ t ∈ types, t.address = interface ∧
    Context.dispatchEntries arguments t.callables = .ok table
  | _ => True

namespace Context

open Answer

variable {ctx ctx' : Context}

theorem notes_dispatch (hctx : ctx.WellBuilt) (ref : TypeRef) :
    (ctx.dispatch ref).Notes (JournalEntry.Sound ctx.catalog.types) := by
  unfold dispatch
  split
  · exact notes_pure _
  next t hf =>
    split
    · exact notes_pure _
    · intro j
      cases htable : dispatchEntries ref.arguments t.callables with
      | error e => exact ⟨[], by simp, rfl⟩
      | ok table =>
        refine ⟨[.dispatched t.address ref.arguments table], ?_, rfl⟩
        exact List.forall_mem_singleton.2 ⟨t, hctx.mem_of_findType hf, rfl, htable⟩

/-- Well-built contexts over the same types dispatch alike, whatever tables they hold. -/
theorem WellBuilt.same_dispatch (hctx : ctx.WellBuilt) (hctx' : ctx'.WellBuilt)
    (htypes : ctx.catalog.types = ctx'.catalog.types) (hfind : ctx.findType = ctx'.findType)
    (ref : TypeRef) :
    Same (JournalEntry.Sound ctx.catalog.types) (ctx.dispatch ref) (ctx'.dispatch ref) := by
  refine parallel_of_steady (ctx.steady_dispatch ref) (ctx'.steady_dispatch ref)
    (results_eq_iff.2 ?_) (notes_dispatch hctx ref) (htypes ▸ notes_dispatch hctx' ref)
  rw [value_dispatch hctx, value_dispatch hctx', hfind]

end Context

/-! ## Sessions -/

namespace Session

variable {s s' s'' : Session}

/-- What holds of every session that has been created and asked. -/
structure Sound (s : Session) : Prop where
  wellBuilt : s.context.WellBuilt
  distinct : (s.registry.map Index.unit).Nodup
  faithful : ∀ i ∈ s.registry, i.Faithful
  framework : ∀ name u, s.catalog.unit? name = some u →
    s.frameworks.lookup name = some u.decl.framework

/-- The second session is the first one after some questions. -/
structure Later (s s' : Session) : Prop where
  catalog : s'.catalog = s.catalog
  hierarchy : s'.hierarchy = s.hierarchy
  settings : s'.settings = s.settings
  paths : s'.paths = s.paths
  registry : Index.LaterAll s.registry s'.registry
  framework : ∀ name, s'.frameworks.lookup name = s.frameworks.lookup name
  dispatches : ∀ e ∈ s'.dispatches, e ∈ s.dispatches ∨
    (JournalEntry.dispatched e.1.1 e.1.2 e.2).Sound s.catalog.types

theorem later_refl (s : Session) : s.Later s where
  catalog := rfl
  hierarchy := rfl
  settings := rfl
  paths := rfl
  registry := Index.laterAll_refl _
  framework _ := rfl
  dispatches _ he := .inl he

theorem Later.trans (h : s.Later s') (h' : s'.Later s'') : s.Later s'' where
  catalog := h'.catalog.trans h.catalog
  hierarchy := h'.hierarchy.trans h.hierarchy
  settings := h'.settings.trans h.settings
  paths := h'.paths.trans h.paths
  registry := h.registry.trans h'.registry
  framework name := (h'.framework name).trans (h.framework name)
  dispatches e he := by
    rcases h'.dispatches e he with he | he
    · exact h.dispatches e he
    · exact .inr (h.catalog ▸ he)

/-- Questions keep a session sound. -/
theorem Later.sound (h : s.Later s') (hs : s.Sound) : s'.Sound where
  wellBuilt := by
    refine ⟨?_, fun e he => ?_⟩
    · have hbuild := hs.wellBuilt.hierarchy
      simp only [context, h.catalog, h.hierarchy] at hbuild ⊢
      exact hbuild
    · have hcatalog : s'.context.catalog = s.context.catalog := h.catalog
      rw [hcatalog]
      rcases h.dispatches e he with he | he
      · exact hs.wellBuilt.dispatches e he
      · exact he
  distinct := h.registry.units_eq ▸ hs.distinct
  faithful := h.registry.faithful hs.faithful
  framework name u hu := by
    rw [h.framework]
    exact hs.framework name u (h.catalog ▸ hu)

/-! ## Agreeing sessions -/

/-- The contexts of the sessions agree, and their units differ in their sources at most. -/
structure Agrees (spared : Option String → Prop) (s s' : Session) : Prop where
  context : Context.Agrees (JournalEntry.Sound s.catalog.types) spared s.context s'.context
  unit? : ∀ name, Option.Rel (fun u u' => ∃ source, u' = u.documentedBy source)
    (s.catalog.unit? name) (s'.catalog.unit? name)

variable {spared : Option String → Prop} {t t' : Session} {α : Type}

theorem Later.findType_eq (h : s.Later t) : t.context.findType = s.context.findType := by
  funext ref
  simp only [Context.findType, Session.context, h.catalog, h.hierarchy]

/-- Sessions that agree still do so after some questions to each. -/
theorem Agrees.of_later (h : Agrees spared s s') (hs : s.Sound) (hs' : s'.Sound)
    (ht : s.Later t) (ht' : s'.Later t') : Agrees spared t t' where
  context := by
    have htypes : t.context.catalog.types = t'.context.catalog.types := by
      simpa only [Session.context, ht.catalog, ht'.catalog] using h.context.types
    exact {
      types := htypes
      symbol? := by
        simpa only [Session.context, ht.catalog, ht'.catalog] using h.context.symbol?
      hierarchy := by
        simpa only [Session.context, ht.hierarchy, ht'.hierarchy] using h.context.hierarchy
      settings := by
        simpa only [Session.context, ht.settings, ht'.settings] using h.context.settings
      paths := by simpa only [Session.context, ht.paths, ht'.paths] using h.context.paths
      framework := fun name => by
        simpa only [Session.context, ht.framework, ht'.framework] using h.context.framework name
      outcomes := by
        simpa only [Session.context, ht.settings, ht.registry.outcomes_eq hs.faithful,
          ht'.registry.outcomes_eq hs'.faithful] using h.context.outcomes
      logged := fun _ => trivial
      consulted := fun _ => trivial
      dispatch := (ht.sound hs).wellBuilt.same_dispatch (ht'.sound hs').wellBuilt htypes (by
        rw [ht.findType_eq, ht'.findType_eq, h.context.findType]) }
  unit? name := by
    rw [ht.catalog, ht'.catalog]
    exact h.unit? name

/-- A sound session agrees with itself. -/
theorem Sound.agrees (hs : s.Sound) (spared : Option String → Prop) : Agrees spared s s where
  context := {
    types := rfl
    symbol? := rfl
    hierarchy := rfl
    settings := rfl
    paths := rfl
    framework := fun _ => rfl
    outcomes := List.forall₂_same.2 fun o _ => ⟨rfl, Results.refl Contents.Agree.refl o.2⟩
    logged := fun _ => trivial
    consulted := fun _ => trivial
    dispatch := hs.wellBuilt.same_dispatch hs.wellBuilt rfl rfl }
  unit? name := by
    cases s.catalog.unit? name with
    | none => exact .none
    | some u => exact .some ⟨u.decl.documentation, rfl⟩

/-! ## Asking -/

theorem parallel_start (sound : JournalEntry → Prop) :
    Journal.Parallel sound { links := .empty } { links := .empty } :=
  ⟨rfl, by simp, by simp⟩

theorem laterAll_settleUnit (unit : String) (l : List Index) :
    Index.LaterAll l (settleUnit unit l).1 := by
  induction l with
  | nil => exact .nil
  | cons i l ih =>
    unfold settleUnit
    split
    · exact .cons i.later_settle (Index.laterAll_refl l)
    · exact .cons .refl ih

theorem later_absorb {e : JournalEntry} (he : e.Sound s.catalog.types) (log : List Log.Record) :
    s.Later (absorb (s, log) e).1 := by
  cases e with
  | logged r => exact later_refl s
  | consulted unit =>
    exact { later_refl s with registry := laterAll_settleUnit unit s.registry }
  | dispatched interface arguments table =>
    simp only [absorb]
    split
    · exact later_refl s
    · refine { later_refl s with dispatches := fun e hmem => ?_ }
      rcases List.mem_append.1 hmem with hmem | hmem
      · exact .inl hmem
      · cases List.mem_singleton.1 hmem
        exact .inr he

/-- What sound entries leave in a session does not show. -/
theorem later_foldl_absorb {entries : List JournalEntry}
    (h : ∀ e ∈ entries, e.Sound s.catalog.types) (log : List Log.Record) :
    s.Later (entries.foldl absorb (s, log)).1 := by
  induction entries generalizing s log with
  | nil => exact later_refl s
  | cons e entries ih =>
    obtain ⟨he, hrest⟩ := List.forall_mem_cons.1 h
    have hstep := later_absorb he log
    cases ha : absorb (s, log) e with
    | mk s₁ log₁ =>
      rw [ha] at hstep
      rw [List.foldl_cons, ha]
      exact hstep.trans (ih (hstep.catalog ▸ hrest) log₁)

theorem later_ask {question : Context → Answer α}
    (h : Answer.Same (JournalEntry.Sound s.catalog.types) (question s.context)
      (question s.context)) : s.Later (s.ask question).session := by
  obtain ⟨-, hjournal⟩ := h _ _ (parallel_start _)
  refine later_foldl_absorb (fun e he => ?_) []
  exact hjournal.left e (List.mem_reverse.1 he)

theorem ask_eq {question question' : Context → Answer α} {sound : JournalEntry → Prop}
    (h : Answer.Same sound (question s.context) (question' s'.context)) :
    (s.ask question).result = (s'.ask question').result ∧
      (s.ask question).links = (s'.ask question').links := by
  obtain ⟨hresult, hjournal⟩ := h _ _ (parallel_start _)
  exact ⟨results_eq_iff.1 hresult, hjournal.links⟩

/-! ## Questions to indices -/

theorem laterAll_askIndex (hdistinct : (s.registry.map Index.unit).Nodup) (unit : String)
    (q : Index.Question) (strict : Bool) :
    Index.LaterAll s.registry (s.askIndex unit (q.put strict)).session.registry := by
  unfold askIndex
  cases hi : s.registry.find? fun i => i.unit = unit with
  | none => exact Index.laterAll_refl _
  | some i =>
    have hmem : i ∈ s.registry := List.mem_of_find?_eq_some hi
    have hunit : i.unit = unit := by simpa using List.find?_some hi
    refine List.forall₂_map_right_iff.2 (List.forall₂_same.2 fun j hj => ?_)
    split
    next hjunit =>
      -- no other index has the name of the unit
      obtain rfl := List.inj_on_of_nodup_map hdistinct hj hmem (hjunit.trans hunit.symm)
      rw [q.put_eq]
      exact j.later_settle
    next => exact .refl

theorem later_askIndex (hs : s.Sound) (unit : String) (q : Index.Question) (strict : Bool) :
    s.Later (s.askIndex unit (q.put strict)).session := by
  have hregistry := laterAll_askIndex hs.distinct unit q strict
  unfold askIndex at hregistry ⊢
  split
  · exact later_refl s
  next hi =>
    rw [hi] at hregistry
    exact { later_refl s with registry := hregistry }

theorem lookup_outcomes (s : Session) (unit : String) : s.context.outcomes.lookup unit =
    (s.registry.find? fun i => i.unit = unit).map fun i => i.settle.1 := by
  simp only [context]
  induction s.registry with
  | nil => rfl
  | cons i l ih =>
    rw [List.map_cons, List.lookup_cons, List.find?_cons]
    by_cases hunit : i.unit = unit
    · simp [hunit]
    · rw [beq_false_of_ne (Ne.symm hunit), decide_eq_false hunit]
      exact ih

/-- In contexts that correspond, the indices of a unit answer alike. -/
theorem askIndex_eq {σ : Equiv.Perm Nat} {sound : JournalEntry → Prop}
    (h : Context.Corresponds σ sound spared s.context s'.context) (unit : String)
    (q : Index.Question) (hq : q.isStrict = true → spared (some unit)) :
    (s.askIndex unit (q.put s.settings.documentation.failOnMalformed)).result =
      (s'.askIndex unit (q.put s'.settings.documentation.failOnMalformed)).result := by
  have hsettings : s'.settings = s.settings := h.settings
  have hlookup := h.outcomes unit
  rw [lookup_outcomes, lookup_outcomes] at hlookup
  unfold Session.askIndex
  cases hi : s.registry.find? fun i => i.unit = unit with
  | none =>
    cases hi' : s'.registry.find? fun i => i.unit = unit with
    | none => rfl
    | some i' =>
      rw [hi, hi'] at hlookup
      cases hlookup
  | some i =>
    cases hi' : s'.registry.find? fun i => i.unit = unit with
    | none =>
      rw [hi, hi'] at hlookup
      cases hlookup
    | some i' =>
      have hunit : i.unit = unit := by simpa using List.find?_some hi
      have hunit' : i'.unit = unit := by simpa using List.find?_some hi'
      rw [hi, hi', Option.map_some, Option.map_some] at hlookup
      obtain ⟨hresults⟩ := hlookup
      simp only [q.put_eq, Index.ask, hunit, hunit', hsettings]
      generalize i.settle.1 = r, i'.settle.1 = r' at hresults ⊢
      cases hresults with
      | error e => rfl
      | ok hc =>
        have hread := Index.Question.read_eq hc (fun hs hstrict => ⟨hq hs, hstrict⟩) unit
        exact congrArg (Except.map some) hread

/-! ## Performing -/

theorem name_of_unit? {c : Catalog} {name : String} {u : UnitSymbol}
    (h : c.unit? name = some u) : u.name = name := by
  simpa using List.find?_some h

theorem later_withFramework (hs : s.Sound) {name : String} {u : UnitSymbol}
    (hu : s.catalog.unit? name = some u) : s.Later (s.withFramework u) := by
  refine { later_refl s with framework := fun name' => ?_ }
  simp only [withFramework, List.lookup_cons, name_of_unit? hu]
  split
  next hname =>
    rw [eq_of_beq hname]
    exact (hs.framework name u hu).symm
  next => rfl

theorem later_onUnit (hs : s.Sound) (name : String) {pages : Context → UnitSymbol → Answer α}
    (hpages : ∀ (t : Session) (u : UnitSymbol), t.Sound →
      Answer.Same (JournalEntry.Sound t.catalog.types) (pages t.context u) (pages t.context u)) :
    s.Later (s.onUnit name fun u => (s.withFramework u).ask fun ctx => pages ctx u).session := by
  unfold onUnit
  cases hu : s.catalog.unit? name with
  | none => exact later_refl s
  | some u =>
    have hstep := later_withFramework hs hu
    exact hstep.trans (later_ask (hpages _ u (hstep.sound hs)))

/-- A question leaves nothing in a session but what a later question does not see. -/
theorem perform_later (hs : s.Sound) (q : Question) : s.Later (s.perform q).session := by
  cases q with
  | context q =>
    have hspares := q.spares_of_forall (fun _ => trivial)
    exact later_ask ((hs.agrees fun _ => True).context.answer q hspares)
  | index unit q => exact later_askIndex hs unit q _
  | unitPage name =>
    exact later_onUnit hs name fun t u ht => (ht.agrees fun _ => True).context.unitPage trivial _
  | unitPages name =>
    exact later_onUnit hs name fun t u ht => (ht.agrees fun _ => True).context.unitPages trivial _

theorem later_after (hs : s.Sound) (history : List Question) : s.Later (s.after history) := by
  induction history generalizing s with
  | nil => exact later_refl s
  | cons q history ih =>
    have hstep := perform_later hs q
    rw [after_cons]
    exact hstep.trans (ih (hstep.sound hs))

theorem links_askIndex (s : Session) (unit : String)
    (question : Index → Except Error α × Index × List Log.Record) :
    (s.askIndex unit question).links = .empty := by
  unfold askIndex
  split <;> rfl

/-- Sessions whose units of a name are related reply alike, if the pages of related units are the
same. -/
theorem onUnit_eq (sound : JournalEntry → Prop) {R : UnitSymbol → UnitSymbol → Prop} {name : String}
    (hrel : Option.Rel R (s.catalog.unit? name) (s'.catalog.unit? name))
    {pages : Context → UnitSymbol → Answer α}
    (hpages : ∀ u u', u.name = name → R u u' → Answer.Same sound
      (pages (s.withFramework u).context u) (pages (s'.withFramework u').context u')) :
    (s.onUnit name fun u => (s.withFramework u).ask fun ctx => pages ctx u).result =
      (s'.onUnit name fun u => (s'.withFramework u).ask fun ctx => pages ctx u).result ∧
    (s.onUnit name fun u => (s.withFramework u).ask fun ctx => pages ctx u).links =
      (s'.onUnit name fun u => (s'.withFramework u).ask fun ctx => pages ctx u).links := by
  unfold Session.onUnit
  cases hu : s.catalog.unit? name with
  | none =>
    rw [hu] at hrel
    generalize s'.catalog.unit? name = u' at hrel ⊢
    cases hrel
    exact ⟨rfl, rfl⟩
  | some u =>
    rw [hu] at hrel
    generalize s'.catalog.unit? name = u' at hrel ⊢
    obtain ⟨hu'⟩ := hrel
    exact ask_eq (hpages u _ (name_of_unit? hu) hu')

/-- Sessions that agree reply alike to what spares the units where they may differ. -/
theorem Agrees.perform (h : Agrees spared s s') (q : Question) (hq : q.Spares spared) :
    (s.perform q).result = (s'.perform q).result ∧ (s.perform q).links = (s'.perform q).links := by
  cases q with
  | context q => exact ask_eq (h.context.answer q hq)
  | index unit q =>
    refine ⟨askIndex_eq h.context.corresponds unit q hq, ?_⟩
    exact (links_askIndex _ _ _).trans (links_askIndex _ _ _).symm
  | unitPage name =>
    refine onUnit_eq (JournalEntry.Sound s.catalog.types) (h.unit? name) fun u _ hu ⟨source, hu'⟩ => ?_
    subst hu'
    exact (h.context.withFramework u source).unitPage (hu ▸ hq) source
  | unitPages name =>
    refine onUnit_eq (JournalEntry.Sound s.catalog.types) (h.unit? name) fun u _ hu ⟨source, hu'⟩ => ?_
    subst hu'
    exact (h.context.withFramework u source).unitPages (hu ▸ hq) source

/-! ## Created sessions -/

variable {c : Catalog} {settings : Settings} {paths : Symbol → Except Error String}
  {old old' : List Index} {log log' : List Log.Record}

theorem foldl_registered (units : List MetadataUnit) (l : List Index)
    (hnames : (units.map MetadataUnit.name).Nodup)
    (hnew : ∀ u ∈ units, ∀ i ∈ l, i.unit ≠ u.name) :
    units.foldl registered l = l ++ units.map fun u => Index.ofSource u.name u.documentation := by
  induction units generalizing l with
  | nil => simp
  | cons u units ih =>
    obtain ⟨hu, hnames⟩ := List.nodup_cons.1 hnames
    obtain ⟨hfirst, hrest⟩ := List.forall_mem_cons.1 hnew
    have hfree : (l.any fun i => i.unit = u.name) = false := by simpa using hfirst
    rw [List.foldl_cons, registered, hfree, if_neg (by simp), ih _ hnames]
    · simp
    · intro u' hu' i hi
      rcases List.mem_append.1 hi with hi | hi
      · exact hrest u' hu' i hi
      · cases List.mem_singleton.1 hi
        exact fun hname => hu (List.mem_map.2 ⟨u', hu', hname.symm⟩)

/-- The registry of a new session: an index that has not been asked for each unit. -/
theorem freshRegistry_eq (hnames : (c.units.map MetadataUnit.name).Nodup) (old : List Index) :
    freshRegistry c old = c.units.map fun u =>
      { Index.ofSource u.name u.documentation with fetches := fetchesOf old u.name } := by
  rw [freshRegistry, foldl_registered _ _ hnames (by simp), List.nil_append, List.map_map]
  rfl

theorem create_sound (hnames : (c.units.map MetadataUnit.name).Nodup)
    (h : create c settings paths old = .ok (s, log)) : s.Sound := by
  have hwellBuilt := create_wellBuilt h
  obtain ⟨hierarchy, hb, h⟩ := bind_eq_ok.1 h
  cases h
  refine ⟨hwellBuilt, ?_, ?_, ?_⟩
  · simp only [freshRegistry_eq hnames, List.map_map]
    exact hnames
  · intro i hi c hc
    simp only [freshRegistry_eq hnames] at hi
    obtain ⟨u, -, rfl⟩ := List.mem_map.1 hi
    cases hc
  · intro name u hu
    have hkeys : (c.units.map fun u => (u.name, u.framework)).reverse.map Prod.fst =
        (c.units.map MetadataUnit.name).reverse := by
      rw [List.map_reverse, List.map_map]
      rfl
    refine lookup_of_mem (hkeys ▸ List.nodup_reverse.2 hnames) (List.mem_reverse.2 ?_)
    refine List.mem_map.2 ⟨u.decl, ?_, ?_⟩
    · have hmem := List.mem_of_find?_eq_some hu
      simp only [Catalog.unitSymbols, List.mem_map, Prod.exists] at hmem
      obtain ⟨unit, n, hn, rfl⟩ := hmem
      exact List.mem_of_getElem? (List.mem_zipIdx_iff_getElem?.1 hn)
    · rw [← name_of_unit? hu]
      rfl

/-- The context of a new session knows what comes of the source of each unit. -/
theorem outcomes_create (hnames : (c.units.map MetadataUnit.name).Nodup)
    (h : create c settings paths old = .ok (s, log)) :
    s.context.outcomes = c.units.map fun u => (u.name, u.documentation.read) := by
  obtain ⟨hierarchy, hb, h⟩ := bind_eq_ok.1 h
  cases h
  simp only [context, freshRegistry_eq hnames, List.map_map]
  refine List.map_congr_left fun u _ => ?_
  have hfaithful : Index.Faithful
      { Index.ofSource u.name u.documentation with fetches := fetchesOf old u.name } :=
    fun c hc => nomatch hc
  exact Prod.ext rfl hfaithful.settle_eq

/-- What earlier indices counted does not show in the context of a new session. -/
theorem context_create (hnames : (c.units.map MetadataUnit.name).Nodup)
    (h : create c settings paths old = .ok (s, log))
    (h' : create c settings paths old' = .ok (s', log')) : s'.context = s.context := by
  have houtcomes : s'.context.outcomes = s.context.outcomes :=
    (outcomes_create hnames h').trans (outcomes_create hnames h).symm
  obtain ⟨hierarchy, hb, h⟩ := bind_eq_ok.1 h
  obtain ⟨_, hb', h'⟩ := bind_eq_ok.1 h'
  cases hb.symm.trans hb'
  cases h
  cases h'
  simpa only [context, Context.mk.injEq, true_and, and_true] using houtcomes

/-- A session replies after any history as a fresh one does, with the same links, and an index that
has been settled stays as it is. -/
theorem perform_after (hnames : (c.units.map MetadataUnit.name).Nodup)
    (h : create c settings paths old = .ok (s, log))
    (h' : create c settings paths old' = .ok (s', log')) (history : List Question) (q : Question) :
    ((s.after history).perform q).result = (s'.perform q).result ∧
      ((s.after history).perform q).links = (s'.perform q).links ∧
      ∀ (later : List Question) (n : Nat) (i : Index) (c : Contents),
        (s.after history).registry[n]? = some i → i.contents = some c →
          (s.after (history ++ later)).registry[n]? = some i := by
  have hs := create_sound hnames h
  have hs' := create_sound hnames h'
  have hhistory := later_after hs history
  have hcontext : s'.context = s.context := context_create hnames h h'
  have hcatalog : s'.catalog = s.catalog := congrArg Context.catalog hcontext
  have hcreated : Agrees (fun _ => True) s s' := by
    refine ⟨?_, fun name => ?_⟩
    · rw [hcontext]
      exact (hs.agrees _).context
    · rw [hcatalog]
      exact (hs.agrees fun _ => True).unit? name
  have hagrees := hcreated.of_later hs hs' hhistory (later_refl s')
  obtain ⟨hresult, hlinks⟩ := hagrees.perform q (q.spares_of_forall fun _ => trivial)
  refine ⟨hresult, hlinks, fun later n i c hi hc => ?_⟩
  have hlater := later_after (hhistory.sound hs) later
  rw [after_append]
  exact hlater.registry.getElem?_eq hi hc

/-- A documented delegate, and a unit whose source ends too early. -/
def diaryCatalog : Catalog :=
  let entry : Xml.Node :=
    .element (.plain "member") [(.plain "name", "T:Zoo.Walk")] [.element (.plain "summary") [] []]
  { units := [
      { name := "Zoo"
        types := [{ ref := .named "Zoo" "Walk" [] none, category := .delegateType }]
        documentation := .element (.element (.plain "doc") [] [entry]) },
      { name := "Attic"
        types := [{ ref := .named "Attic" "Box" [] none }]
        documentation := .text "<doc>" }] }

/-- The keys of a unit, after a page has been written and the other source has been asked. -/
theorem perform_after_diary : ∃ s log,
    create diaryCatalog .usual (fun s => .ok s.path) [] = .ok (s, log) ∧
      ((s.after [.unitPage "Attic", .index "Attic" .keys, .unitPage "Zoo"]).perform
        (.index "Zoo" .keys)).result = .ok (some ["T:Zoo.Walk"]) := by
  have hbuild : ∃ hierarchy, Hierarchy.build diaryCatalog = .ok hierarchy := ⟨_, by cbv⟩
  obtain ⟨hierarchy, hb⟩ := hbuild
  have hcreate : create diaryCatalog .usual (fun s => .ok s.path) [] = .ok _ :=
    bind_eq_ok.2 ⟨hierarchy, hb, rfl⟩
  refine ⟨_, _, hcreate, ?_⟩
  rw [(perform_after (by decide) hcreate hcreate _ _).1]
  rw [Session.perform, askIndex]
  rfl

end Session

end ApiDoc
