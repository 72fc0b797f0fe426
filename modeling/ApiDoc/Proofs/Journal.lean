import ApiDoc.Proofs.SearchOrder

/-!
# What answers leave in the journal

An answer `Notes` entries of a kind if all it does to a journal is to enter some of that kind.
Everything that is asked about metadata and documentation does no more than that, so it makes no
links (`Notes.links_eq`). Looking up entries, finding candidates and searching them is `Quiet`: it
logs nothing. Only resolving ends with a record of how the search came out (`notes_resolve`).
-/

namespace ApiDoc

/-- The record of an entry that logs one. -/
def JournalEntry.record? : JournalEntry → Option Log.Record
  | .logged r => some r
  | _ => none

/-- What has been logged, the latest first. -/
def Journal.records (j : Journal) : List Log.Record := j.entries.filterMap JournalEntry.record?

namespace Answer

variable {α β : Type} {a : Answer α} {f : α → Answer β} {allowed : JournalEntry → Prop}

/-- All that the answer does to a journal is to enter what is allowed. -/
def Notes (allowed : JournalEntry → Prop) (a : Answer α) : Prop :=
  ∀ j, ∃ entries, (∀ e ∈ entries, allowed e) ∧
    (a.result j).2 = { j with entries := entries ++ j.entries }

/-- The answer logs nothing and makes no links. -/
abbrev Quiet (a : Answer α) : Prop := a.Notes fun e => e.record? = none

/-- All that the answer does to a journal is to log. -/
abbrev Logs (a : Answer α) : Prop := a.Notes fun e => e.record?.isSome = true

theorem Notes.links_eq (h : a.Notes allowed) (j : Journal) : (a.result j).2.links = j.links := by
  obtain ⟨entries, -, he⟩ := h j
  rw [he]

theorem Notes.mono {allowed' : JournalEntry → Prop} (h : a.Notes allowed)
    (himp : ∀ e, allowed e → allowed' e) : a.Notes allowed' := by
  intro j
  obtain ⟨entries, hall, he⟩ := h j
  exact ⟨entries, fun e hmem => himp e (hall e hmem), he⟩

theorem Quiet.records_eq (h : a.Quiet) (j : Journal) : (a.result j).2.records = j.records := by
  obtain ⟨entries, hall, he⟩ := h j
  have hnone : entries.filterMap JournalEntry.record? = [] := List.filterMap_eq_nil_iff.2 hall
  rw [he, Journal.records, List.filterMap_append, hnone, List.nil_append]
  rfl

/-! ## Composition -/

theorem notes_pure (x : α) : (pure x : Answer α).Notes allowed :=
  fun _ => ⟨[], by simp, rfl⟩

theorem notes_ofExcept (r : Except Error α) : (ofExcept r).Notes allowed :=
  fun _ => ⟨[], by simp, rfl⟩

theorem notes_record {e : JournalEntry} (he : allowed e) : (record e).Notes allowed :=
  fun _ => ⟨[e], by simpa using he, rfl⟩

theorem notes_log (level : Log.Level) (event : String) (fields : List (String × Data)) :
    (log level event fields).Notes fun _ => True := notes_record trivial

theorem logs_log (level : Log.Level) (event : String) (fields : List (String × Data)) :
    (log level event fields).Logs := notes_record rfl

theorem quiet_consulted (unit : String) : (record (.consulted unit)).Quiet := notes_record rfl

theorem quiet_dispatched (interface : Address) (arguments : List TypeRef) (table : DispatchTable) :
    (record (.dispatched interface arguments table)).Quiet := notes_record rfl

theorem Notes.bind (ha : a.Notes allowed) (hf : ∀ x, (f x).Notes allowed) :
    (a >>= f).Notes allowed := by
  intro j
  obtain ⟨first, hfirst, hj⟩ := ha j
  rw [result_bind]
  cases h : a.result j with
  | mk r j' =>
    rw [h] at hj
    cases r with
    | error e => exact ⟨first, hfirst, hj⟩
    | ok x =>
      obtain ⟨second, hsecond, hj'⟩ := hf x j'
      refine ⟨second ++ first, List.forall_mem_append.2 ⟨hsecond, hfirst⟩, ?_⟩
      simp only at hj hj' ⊢
      rw [hj', hj, List.append_assoc]

theorem result_bind_eq_ok {y : β} {j j' : Journal} : (a >>= f).result j = (.ok y, j') ↔
    ∃ x j₁, a.result j = (.ok x, j₁) ∧ (f x).result j₁ = (.ok y, j') := by
  rw [result_bind]
  cases a.result j with
  | mk r j₁ => cases r <;> simp

/-- A page is written with a link table of its own. -/
theorem result_page (title : String) (body : Answer (List Document.Node)) (j : Journal) :
    (page title body).result j = match body.result { j with links := .empty } with
      | (.ok blocks, j') =>
        (.ok { title, blocks, links := j'.links }, { j' with links := j.links })
      | (.error e, j') => (.error e, j') := by
  have hpage : (page title body).result j = (body >>= fun blocks => do
      let links := (← get).links
      modify fun j' => { j' with links := j.links }
      pure ({ title, blocks, links } : Document.Page)).result { j with links := .empty } := rfl
  rw [hpage, result_bind]
  cases body.result { j with links := .empty } with
  | mk r j' => cases r <;> rfl

/-- A quiet answer hands what it comes to on to the next, with what has been logged as it was. -/
theorem Quiet.exists_result_bind {x : α} (hquiet : a.Quiet) (ha : a.Yields (.ok x))
    (f : α → Answer β) (j : Journal) :
    ∃ j', j'.records = j.records ∧ (a >>= f).result j = (f x).result j' := by
  refine ⟨(a.result j).2, hquiet.records_eq j, ?_⟩
  have hj := ha j
  rw [result_bind]
  cases h : a.result j with
  | mk r j' =>
    rw [h] at hj
    cases hj
    rfl

end Answer

namespace Context

open Answer

variable {ctx : Context}

/-! ## Entries -/

theorem quiet_contents (ctx : Context) (unit : Option String) : (ctx.contents unit).Quiet := by
  unfold contents
  split
  · exact notes_pure _
  · split
    · exact notes_pure _
    · exact (quiet_consulted _).bind fun _ => (notes_ofExcept _).bind fun _ => notes_pure _

theorem quiet_isIndexed (ctx : Context) (unit : Option String) : (ctx.isIndexed unit).Quiet :=
  (ctx.quiet_contents unit).bind fun _ => notes_pure _

theorem quiet_lookUp (ctx : Context) (strict : Bool) (s : Symbol) :
    (ctx.lookUp strict s).Quiet := by
  unfold lookUp
  split
  · refine (notes_ofExcept _).bind fun key => (ctx.quiet_contents _).bind fun found => ?_
    split
    · exact notes_pure _
    · exact (notes_ofExcept _).bind fun _ => notes_pure _
  · exact notes_pure _

theorem quiet_entryWith (ctx : Context) (strict : Bool) (s : Symbol) :
    (ctx.entryWith strict s).Quiet := by
  unfold entryWith
  split
  · split
    · exact notes_pure _
    · exact (ctx.quiet_lookUp _ _).bind fun _ => notes_pure _
  · exact ctx.quiet_lookUp _ _

/-! ## Candidates -/

theorem quiet_dispatch (ctx : Context) (ref : TypeRef) : (ctx.dispatch ref).Quiet := by
  unfold dispatch
  split
  · exact notes_pure _
  · split
    · exact notes_pure _
    · exact (notes_ofExcept _).bind fun _ => (quiet_dispatched _ _ _).bind fun _ => notes_pure _

theorem quiet_implementedBy (ctx : Context) (self : Address) (signature : String)
    (refs : List TypeRef) : (ctx.implementedBy self signature refs).Quiet := by
  induction refs with
  | nil => exact notes_pure _
  | cons ref refs ih => exact (ctx.quiet_dispatch ref).bind fun _ => ih.bind fun _ => notes_pure _

theorem quiet_interfaceMethods (ctx : Context) (m : MemberSymbol) :
    (ctx.interfaceMethods m).Quiet := by
  unfold interfaceMethods
  split
  · exact notes_pure _
  · exact (notes_ofExcept _).bind fun _ => (notes_ofExcept _).bind fun _ =>
      ctx.quiet_implementedBy _ _ _

theorem quiet_methodSources (ctx : Context) (m : MethodSymbol) : (ctx.methodSources m).Quiet := by
  simp only [methodSources]
  split
  · exact ctx.quiet_interfaceMethods _
  · exact notes_pure _

theorem quiet_propertySources (ctx : Context) (p : PropertySymbol) :
    (ctx.propertySources p).Quiet := by
  unfold propertySources
  split
  · exact notes_pure _
  · exact (ctx.quiet_methodSources _).bind fun _ => notes_pure _

theorem quiet_candidates (ctx : Context) (m : MemberSymbol) : (ctx.candidates m).Quiet := by
  unfold candidates
  split
  · exact (ctx.quiet_methodSources _).bind fun _ => notes_pure _
  · exact (ctx.quiet_propertySources _).bind fun _ => notes_pure _
  · exact notes_pure _

/-! ## Resolution -/

theorem quiet_search (ctx : Context) (marker : String) (fresh : List String) (cyclic : Bool)
    (pending : List (MemberSymbol × List String)) :
    (ctx.search marker fresh cyclic pending).Quiet := by
  induction fresh, cyclic, pending using search.induct with
  | case1 =>
    rw [search]
    exact notes_pure _
  | case2 fresh cyclic candidate way pending ih₁ ih₂ ih₃ =>
    rw [search]
    refine (notes_ofExcept _).bind fun key => ?_
    split
    · exact ih₁
    · split
      next h =>
        refine (ctx.quiet_entryWith _ _).bind fun found => ?_
        split
        · split
          · exact (ctx.quiet_candidates _).bind fun next => ih₂ key h next
          · exact notes_pure _
        · exact (ctx.quiet_candidates _).bind fun next => ih₂ key h next
      · exact ih₃

theorem notes_inherited (ctx : Context) (m : MemberSymbol) (key : String) :
    (ctx.inherited m key).Notes fun _ => True := by
  refine ((ctx.quiet_candidates m).mono fun _ _ => trivial).bind fun next => ?_
  refine ((ctx.quiet_search _ _ _ _).mono fun _ _ => trivial).bind fun ending => ?_
  split <;> exact (notes_log _ _ _).bind fun _ => notes_pure _

theorem notes_resolveDirect (ctx : Context) (s : Symbol) :
    (ctx.resolveDirect s).Notes fun _ => True := by
  have hkeep : ∀ (r : Log.Record) (own : Option Xml.Node),
      (record (.logged r) >>= fun _ => (pure own : Answer _)).Notes fun _ => True :=
    fun r own => (notes_record trivial).bind fun _ => notes_pure _
  refine ((ctx.quiet_entryWith _ _).mono fun _ _ => trivial).bind fun own => ?_
  split
  · exact notes_pure _
  · refine (notes_ofExcept _).bind fun key => ?_
    split
    · split
      · exact ctx.notes_inherited _ _
      · exact ctx.notes_inherited _ _
      · exact hkeep _ _
    · exact hkeep _ _

theorem notes_resolve (ctx : Context) (s : Symbol) : (ctx.resolve s).Notes fun _ => True := by
  unfold resolve
  split
  · split
    · exact notes_pure _
    · exact (ctx.notes_resolveDirect _).bind fun _ => notes_pure _
  · exact ctx.notes_resolveDirect _

end Context

end ApiDoc
