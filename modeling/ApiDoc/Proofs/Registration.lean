import Mathlib
import ApiDoc.Proofs.IndexContents

/-!
# Registered units

A registry holds one index for each name, that of the first unit which was registered under it, in the
order of registration (`Session.Serves`). A question settles indices, a unit whose name is taken adds
nothing, and a refreshed session starts over with the units that there are: so this is kept by every
event (`Session.serves_on`), and it holds whatever has happened to a session
(`Session.serves_afterEvents`). The entry of a key is then that of the first index that contains it
(`Session.index_contents`).
-/

namespace ApiDoc

open Xml (Node)

/-! ## Units by their names -/

/-- The first unit of each name. -/
def firstUnits : List MetadataUnit → List MetadataUnit
  | [] => []
  | u :: rest => u :: (firstUnits rest).filter fun v => v.name ≠ u.name

variable {u v : MetadataUnit} {units : List MetadataUnit} {i : Index} {l l' : List Index}

theorem exists_mem_firstUnits (hu : u ∈ units) : ∃ v ∈ firstUnits units, v.name = u.name := by
  induction units with
  | nil => cases hu
  | cons w units ih =>
    rw [firstUnits]
    by_cases hname : u.name = w.name
    · exact ⟨w, List.mem_cons_self, hname.symm⟩
    · have hrest := (List.mem_cons.1 hu).resolve_left fun h => hname (congrArg _ h)
      obtain ⟨v, hv, hvu⟩ := ih hrest
      refine ⟨v, List.mem_cons_of_mem w (List.mem_filter.2 ⟨hv, ?_⟩), hvu⟩
      simpa [hvu] using hname

theorem mem_of_mem_firstUnits (hu : u ∈ firstUnits units) : u ∈ units := by
  induction units with
  | nil => exact hu
  | cons w units ih =>
    rcases List.mem_cons.1 hu with rfl | hu
    · exact List.mem_cons_self
    · exact List.mem_cons_of_mem w (ih (List.mem_of_mem_filter hu))

theorem nodup_firstUnits (units : List MetadataUnit) :
    ((firstUnits units).map MetadataUnit.name).Nodup := by
  induction units with
  | nil => exact List.nodup_nil
  | cons u units ih =>
    rw [firstUnits, List.map_cons, List.nodup_cons]
    refine ⟨fun hmem => ?_, ih.sublist (List.filter_sublist.map _)⟩
    obtain ⟨v, hv, hname⟩ := List.mem_map.1 hmem
    simpa [hname] using (List.mem_filter.1 hv).2

/-- Another unit counts if it is the first of its name. -/
theorem firstUnits_concat (units : List MetadataUnit) (u : MetadataUnit) :
    firstUnits (units ++ [u]) =
      if units.any fun v => v.name = u.name then firstUnits units else firstUnits units ++ [u] := by
  induction units with
  | nil => rfl
  | cons w units ih =>
    rw [List.cons_append, firstUnits, ih, firstUnits, List.any_cons]
    by_cases hrest : (units.any fun v => v.name = u.name) = true
    · rw [hrest, Bool.or_true, if_pos rfl, if_pos rfl]
    · rw [Bool.eq_false_iff.2 hrest, Bool.or_false, if_neg Bool.false_ne_true, List.filter_append]
      by_cases hname : w.name = u.name
      · simp [hname]
      · simp [hname, Ne.symm hname]

/-! ## Indices of units -/

/-- The index of a unit, in whatever state. -/
structure Index.Serves (i : Index) (u : MetadataUnit) : Prop where
  unit : i.unit = u.name
  source : i.source = u.documentation
  faithful : i.Faithful

namespace Index

theorem source_settle (i : Index) : i.settle.2.1.source = i.source := by
  cases hc : i.contents with
  | some c => rw [settle_of_contents hc]
  | none => cases ho : i.outcome <;> simp [settle, hc, ho]

theorem Later.source_eq {i' : Index} (h : i.Later i') : i'.source = i.source := by
  induction h with
  | refl => rfl
  | tail _ hstep ih => rw [hstep, source_settle, ih]

theorem Serves.later {i' : Index} (h : i.Serves u) (hlater : i.Later i') : i'.Serves u where
  unit := hlater.unit_eq.trans h.unit
  source := hlater.source_eq.trans h.source
  faithful := hlater.faithful h.faithful

theorem serves_ofSource (u : MetadataUnit) (fetches : Nat) :
    Serves { ofSource u.name u.documentation with fetches } u :=
  ⟨rfl, rfl, fun _ hc => nomatch hc⟩

theorem LaterAll.serves (h : LaterAll l l') (hl : List.Forall₂ Serves l units) :
    List.Forall₂ Serves l' units := by
  induction h generalizing units with
  | nil => exact hl
  | cons hlater _ ih =>
    cases hl with
    | cons hserves hrest => exact .cons (hserves.later hlater) (ih hrest)

end Index

open Index (Serves LaterAll)

theorem map_unit_of_serves (h : List.Forall₂ Index.Serves l units) :
    l.map Index.unit = units.map MetadataUnit.name := by
  induction h with
  | nil => rfl
  | cons hserves _ ih => rw [List.map_cons, List.map_cons, hserves.unit, ih]

namespace Session

/-! ## Events -/

/-- What can happen to a session. -/
inductive Event where
  | asked (q : Question)
  | registered (u : MetadataUnit)
  | refreshed

/-- The session after an event. -/
def on (s : Session) : Event → Session
  | .asked q => (s.perform q).session
  | .registered u => (s.register u).session
  | .refreshed => s.refresh.session

/-- The session after events, one after the other. -/
def afterEvents (s : Session) (events : List Event) : Session := events.foldl on s

/-- The registry holds an index of the first unit of each name, in the order of registration. -/
def Serves (s : Session) : Prop := List.Forall₂ Index.Serves s.registry (firstUnits s.catalog.units)

variable {s : Session} {e : Event} {α : Type} {key : String} {n : Node}

theorem Serves.distinct (h : s.Serves) : (s.registry.map Index.unit).Nodup := by
  rw [map_unit_of_serves h]
  exact nodup_firstUnits _

theorem any_unit_of_serves (h : List.Forall₂ Index.Serves l (firstUnits units)) (name : String) :
    (l.any fun i => i.unit = name) = units.any fun v => v.name = name := by
  have hunits : (l.any fun i => i.unit = name) = (l.map Index.unit).any (· = name) := by
    rw [List.any_map]
    rfl
  rw [hunits, map_unit_of_serves h, Bool.eq_iff_iff]
  simp only [List.any_map, List.any_eq_true, Function.comp_apply, decide_eq_true_eq]
  constructor
  · rintro ⟨v, hv, hname⟩
    exact ⟨v, mem_of_mem_firstUnits hv, hname⟩
  · rintro ⟨v, hv, hname⟩
    obtain ⟨w, hw, hwv⟩ := exists_mem_firstUnits hv
    exact ⟨w, hw, hwv.trans hname⟩

/-- Registering a unit adds its index if the unit is the first of its name. -/
theorem serves_registered (h : List.Forall₂ Index.Serves l (firstUnits units)) (u : MetadataUnit) :
    List.Forall₂ Index.Serves (registered l u) (firstUnits (units ++ [u])) := by
  rw [registered, firstUnits_concat, any_unit_of_serves h]
  split
  · exact h
  · exact List.rel_append h (.cons (Index.serves_ofSource u 0) .nil)

theorem serves_foldl_registered (h : List.Forall₂ Index.Serves l (firstUnits units))
    (later : List MetadataUnit) :
    List.Forall₂ Index.Serves (later.foldl registered l) (firstUnits (units ++ later)) := by
  induction later generalizing l units with
  | nil => simpa using h
  | cons u later ih =>
    have hstep := ih (serves_registered h u)
    rwa [List.append_assoc, List.singleton_append] at hstep

/-- A new registry serves the units of the catalog. -/
theorem serves_freshRegistry (c : Catalog) (old : List Index) :
    List.Forall₂ Index.Serves (freshRegistry c old) (firstUnits c.units) := by
  have hnone : List.Forall₂ Index.Serves [] (firstUnits []) := .nil
  rw [freshRegistry, List.forall₂_map_left_iff]
  exact (serves_foldl_registered hnone c.units).imp fun i u hserves =>
    ⟨hserves.unit, hserves.source, hserves.faithful⟩

theorem serves_create {c : Catalog} {settings : Settings} {paths : Symbol → Except Error String}
    {old : List Index} {log : List Log.Record} (h : create c settings paths old = .ok (s, log)) :
    s.Serves := by
  obtain ⟨hierarchy, -, h⟩ := bind_eq_ok.1 h
  cases h
  exact serves_freshRegistry c old

/-! ### Questions -/

theorem laterAll_absorb (log : List Log.Record) (e : JournalEntry) :
    LaterAll s.registry (absorb (s, log) e).1.registry ∧
      (absorb (s, log) e).1.catalog = s.catalog := by
  cases e with
  | logged r => exact ⟨Index.laterAll_refl _, rfl⟩
  | consulted unit => exact ⟨laterAll_settleUnit unit s.registry, rfl⟩
  | dispatched interface arguments table =>
    simp only [absorb]
    split <;> exact ⟨Index.laterAll_refl _, rfl⟩

/-- Whatever an answer leaves in the journal settles indices at most. -/
theorem laterAll_foldl_absorb (entries : List JournalEntry) (log : List Log.Record) :
    LaterAll s.registry (entries.foldl absorb (s, log)).1.registry ∧
      (entries.foldl absorb (s, log)).1.catalog = s.catalog := by
  induction entries generalizing s log with
  | nil => exact ⟨Index.laterAll_refl _, rfl⟩
  | cons e entries ih =>
    obtain ⟨hregistry, hcatalog⟩ := laterAll_absorb (s := s) log e
    rw [List.foldl_cons]
    cases ha : absorb (s, log) e with
    | mk s₁ log₁ =>
      rw [ha] at hregistry hcatalog
      obtain ⟨hregistry', hcatalog'⟩ := ih (s := s₁) log₁
      exact ⟨hregistry.trans hregistry', hcatalog'.trans hcatalog⟩

theorem Serves.of_laterAll {s' : Session} (h : s.Serves)
    (hlater : LaterAll s.registry s'.registry ∧ s'.catalog = s.catalog) : s'.Serves := by
  rw [Session.Serves, hlater.2]
  exact hlater.1.serves h

theorem Serves.ask (h : s.Serves) (question : Context → Answer α) : (s.ask question).session.Serves :=
  h.of_laterAll (laterAll_foldl_absorb _ _)

theorem Serves.onUnit (h : s.Serves) (name : String) (question : UnitSymbol → Context → Answer α) :
    (s.onUnit name fun u => (s.withFramework u).ask (question u)).session.Serves := by
  unfold Session.onUnit
  split
  next u _ => exact Serves.ask (s := s.withFramework u) h _
  next => exact h

theorem Serves.askIndex (h : s.Serves) (unit : String) (q : Index.Question) (strict : Bool) :
    (s.askIndex unit (q.put strict)).session.Serves := by
  refine h.of_laterAll ⟨laterAll_askIndex h.distinct unit q strict, ?_⟩
  unfold Session.askIndex
  split <;> rfl

/-- Every event keeps the registry as it should be. -/
theorem serves_on (h : s.Serves) (e : Event) : (s.on e).Serves := by
  cases e with
  | asked q =>
    cases q with
    | context q => exact h.ask _
    | index unit q => exact h.askIndex unit q _
    | unitPage name => exact h.onUnit name fun u ctx => ctx.unitPage u
    | unitPages name => exact h.onUnit name fun u ctx => ctx.unitPages u
  | registered u => exact serves_registered h u
  | refreshed =>
    simp only [on, refresh]
    split
    next hcreate => exact serves_create hcreate
    next => exact h

theorem serves_afterEvents (h : s.Serves) (events : List Event) : (s.afterEvents events).Serves := by
  induction events generalizing s with
  | nil => exact h
  | cons e events ih => exact ih (serves_on h e)

/-! ## Entries by their keys -/

/-- The first of some results that is not nothing. -/
def firstFound : List (Except Error (Option α)) → Except Error (Option α)
  | [] => .ok none
  | .ok none :: rest => firstFound rest
  | found :: _ => found

theorem firstFound_eq_some_iff {results : List (Except Error (Option α))} {x : α} :
    firstFound results = .ok (some x) ↔
      ∃ before after, results = before ++ .ok (some x) :: after ∧ ∀ r ∈ before, r = .ok none := by
  induction results with
  | nil => simp [firstFound]
  | cons r results ih =>
    have hhead : ∀ found : Except Error (Option α), found ≠ .ok none →
        ((∃ before after, found :: results = before ++ .ok (some x) :: after ∧
          ∀ r ∈ before, r = .ok none) ↔ found = .ok (some x)) := by
      intro found hfound
      constructor
      · rintro ⟨_ | ⟨r, before⟩, after, heq, hbefore⟩
        · exact (List.cons.inj heq).1
        · exact absurd ((List.cons.inj heq).1.trans (hbefore r List.mem_cons_self)) hfound
      · rintro rfl
        exact ⟨[], results, rfl, nofun⟩
    match r with
    | .ok none =>
      rw [firstFound, ih]
      constructor
      · rintro ⟨before, after, rfl, hbefore⟩
        exact ⟨.ok none :: before, after, rfl, List.forall_mem_cons.2 ⟨rfl, hbefore⟩⟩
      · rintro ⟨_ | ⟨r, before⟩, after, heq, hbefore⟩
        · cases heq
        · exact ⟨before, after, (List.cons.inj heq).2, (List.forall_mem_cons.1 hbefore).2⟩
    | .ok (some y) =>
      rw [hhead (.ok (some y)) nofun]
      rfl
    | .error e =>
      rw [hhead (.error e) nofun]
      rfl

theorem firstFound_eq_none_iff {results : List (Except Error (Option α))} :
    firstFound results = .ok none ↔ ∀ r ∈ results, r = .ok none := by
  induction results with
  | nil => simp [firstFound]
  | cons r results ih =>
    rw [List.forall_mem_cons]
    match r with
    | .ok none =>
      rw [firstFound, ih]
      exact (and_iff_right rfl).symm
    | .ok (some y) => exact ⟨nofun, fun h => nomatch h.1⟩
    | .error e => exact ⟨nofun, fun h => nomatch h.1⟩

theorem yields_search {ctx : Context} (hdistinct : (ctx.outcomes.map Prod.fst).Nodup) (key : String)
    {outcomes : List (String × Except Error Contents)} (hsub : outcomes ⊆ ctx.outcomes) :
    (Context.entryByKey.search ctx key outcomes).Yields
      (firstFound (outcomes.map fun o => o.2.map (·.find? key))) := by
  induction outcomes with
  | nil => exact Answer.yields_pure none
  | cons o outcomes ih =>
    obtain ⟨unit, outcome⟩ := o
    obtain ⟨ho, hrest⟩ := List.cons_subset.1 hsub
    have hvalue := ctx.value_contents unit
    rw [lookup_of_mem hdistinct ho] at hvalue
    rw [Context.entryByKey.search, List.map_cons]
    cases outcome with
    | error e => exact Answer.Yields.bind_error ((ctx.steady_contents _).yields_iff.2 hvalue)
    | ok c =>
      refine Answer.Yields.bind_ok ((ctx.steady_contents _).yields_iff.2 hvalue) ?_
      simp only [Except.map]
      cases c.find? key with
      | none => exact ih hrest
      | some n => exact Answer.yields_pure (some n)

/-- What is found by a key is what the first index finds that finds anything. -/
theorem result_entryByKey (h : s.Serves) (key : String) :
    (s.ask fun ctx => ctx.entryByKey key).result =
      firstFound (s.registry.map fun i => (i.find key).1) := by
  have hdistinct : (s.context.outcomes.map Prod.fst).Nodup := by
    rw [context, List.map_map]
    exact h.distinct
  have hvalue := (yields_search hdistinct key (List.Subset.refl _)).value_eq
  rw [context, List.map_map] at hvalue
  exact hvalue

theorem find_eq_ok_none_iff : (i.find key).1 = .ok none ↔ (i.contains key).1 = .ok false := by
  change i.settle.1.bind (fun c => .ok (c.find? key)) = .ok none ↔
    i.settle.1.bind (fun c => .ok (c.find? key).isSome) = .ok false
  cases i.settle.1 with
  | error e => exact ⟨nofun, nofun⟩
  | ok c =>
    simp only [Except.bind, Except.ok.injEq]
    cases c.find? key <;> simp

/-- Whatever has happened to a session, its registry holds the index of the first unit of each name,
in the order of registration, and an index over a well-formed source answers from the tree of the
source. A key leads to the entry in the first index that contains it, and to nothing if none does. A
unit whose name is taken changes no index, and no entry that a key leads to. -/
theorem index_contents {c : Catalog} {settings : Settings} {paths : Symbol → Except Error String}
    {old : List Index} {log : List Log.Record} (h : create c settings paths old = .ok (s, log))
    (events : List Event) :
    let t := s.afterEvents events
    List.Forall₂ Index.Serves t.registry (firstUnits t.catalog.units) ∧
    (∀ i ∈ t.registry, ∀ root, i.source.Provides root → ∃ keys, i.Describes root keys) ∧
    (∀ key n, (t.ask fun ctx => ctx.entryByKey key).result = .ok (some n) ↔
      ∃ before i after, t.registry = before ++ i :: after ∧
        (∀ j ∈ before, (j.contains key).1 = .ok false) ∧ (i.find key).1 = .ok (some n)) ∧
    (∀ key, (t.ask fun ctx => ctx.entryByKey key).result = .ok none ↔
      ∀ i ∈ t.registry, (i.contains key).1 = .ok false) ∧
    ∀ u, (∃ v ∈ t.catalog.units, v.name = u.name) →
      (t.register u).session.registry = t.registry ∧
      ∀ key, ((t.register u).session.ask fun ctx => ctx.entryByKey key).result =
        (t.ask fun ctx => ctx.entryByKey key).result := by
  intro t
  have ht : t.Serves := serves_afterEvents (serves_create h) events
  refine ⟨ht, fun i hi root hroot => ?_, fun key n => ?_, fun key => ?_, fun u ⟨v, hv, hname⟩ => ?_⟩
  · obtain ⟨v, -, hserves⟩ := exists_of_mem_left ht hi
    exact ⟨_, hserves.faithful.describes hroot⟩
  · rw [result_entryByKey ht, firstFound_eq_some_iff]
    constructor
    · rintro ⟨found, rest, heq, hnone⟩
      obtain ⟨before, tail, hsplit, rfl, htail⟩ := List.map_eq_append_iff.1 heq
      obtain ⟨i, after, rfl, hi, -⟩ := List.map_eq_cons_iff.1 htail
      refine ⟨before, i, after, hsplit, fun j hj => ?_, hi⟩
      exact find_eq_ok_none_iff.1 (hnone _ (List.mem_map_of_mem hj))
    · rintro ⟨before, i, after, hsplit, hbefore, hi⟩
      rw [hsplit, List.map_append, List.map_cons, hi]
      refine ⟨_, _, rfl, fun r hr => ?_⟩
      obtain ⟨j, hj, rfl⟩ := List.mem_map.1 hr
      exact find_eq_ok_none_iff.2 (hbefore j hj)
  · rw [result_entryByKey ht, firstFound_eq_none_iff, List.forall_mem_map]
    exact forall₂_congr fun i _ => find_eq_ok_none_iff
  · have hused : (t.registry.any fun i => i.unit = u.name) = true := by
      rw [any_unit_of_serves ht, List.any_eq_true]
      exact ⟨v, hv, by simpa using hname⟩
    have hregistry : (t.register u).session.registry = t.registry := if_pos hused
    refine ⟨hregistry, fun key => ?_⟩
    have hu : (t.register u).session.Serves := serves_on ht (.registered u)
    rw [result_entryByKey hu, result_entryByKey ht, hregistry]

/-- An entry with some words. -/
def loftEntry (key words : String) : Node :=
  .element (.plain "member") [(.plain "name", key)] [.text words]

/-- Two units that document one type. The first has an entry for it twice, once within the other. -/
def loftCatalog : Catalog :=
  { units := [
      { name := "Attic"
        documentation := .element (.element (.plain "doc") [] [
          .element (.plain "member") [(.plain "name", "T:Box")] [loftEntry "T:Box" "Inner"]]) },
      { name := "Zoo"
        documentation := .fetched (.element (.element (.plain "doc") [] [
          loftEntry "T:Box" "Box", loftEntry "T:Walk" "Walk"])) }] }

/-- The second unit is asked before anything is sought by its key; then its name is used again. -/
theorem index_contents_loft : ∃ s log,
    create loftCatalog .usual (fun s => .ok s.path) [] = .ok (s, log) ∧
      let t := s.afterEvents [.asked (.index "Zoo" .keys), .registered { name := "Zoo" }]
      (t.ask fun ctx => ctx.entryByKey "T:Walk").result = .ok (some (loftEntry "T:Walk" "Walk")) ∧
      (t.ask fun ctx => ctx.entryByKey "T:Box").result =
        .ok (some (.element (.plain "member") [(.plain "name", "T:Box")] [loftEntry "T:Box" "Inner"])) ∧
      (t.register { name := "Attic" }).session.registry = t.registry := by
  have hbuild : ∃ hierarchy, Hierarchy.build loftCatalog = .ok hierarchy := ⟨_, by cbv⟩
  obtain ⟨hierarchy, hb⟩ := hbuild
  have hcreate : create loftCatalog .usual (fun s => .ok s.path) [] = .ok _ :=
    bind_eq_ok.2 ⟨hierarchy, hb, rfl⟩
  obtain ⟨-, -, hfound, -, hused⟩ := index_contents hcreate
    [.asked (.index "Zoo" .keys), .registered { name := "Zoo" }]
  refine ⟨_, _, hcreate, ?_, ?_, ?_⟩
  · refine (hfound _ _).2 ⟨[_], _, [], rfl, fun j hj => ?_, rfl⟩
    rw [List.mem_singleton.1 hj]
    rfl
  · exact (hfound _ _).2 ⟨[], _, [_], rfl, fun _ hj => absurd hj List.not_mem_nil, rfl⟩
  · exact (hused { name := "Attic" } ⟨_, List.mem_cons_self, rfl⟩).1

end Session

end ApiDoc
