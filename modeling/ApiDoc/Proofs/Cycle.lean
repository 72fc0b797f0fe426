import ApiDoc.Proofs.Journal
import ApiDoc.Proofs.Resolution

/-!
# Cycles of candidates

A search that finds nothing has met every symbol that can be reached, and it reports a cycle exactly
if there is one. Each key on the way to a pending candidate is that of a symbol which leads to it
(`Searched.exists_cycle`), so a candidate met on its own way lies on a cycle. Conversely, a symbol
that has been entered is `Grounded`, with no endless way from it, as soon as the candidates still
pending below it are (`Suspended`); once nothing is pending and no cycle was met, all are. So the
one record that resolving leaves tells whether the graph has a cycle
(`record_of_resolve_eq_none`).
-/

namespace ApiDoc.Context

open Answer Relation

variable {ctx : Context} {m s : MemberSymbol} {key : String} {way fresh entered : List String}
  {cyclic : Bool} {pending : List (MemberSymbol × List String)} {ending : Ending}
  {own : Option Xml.Node}

/-! ## Runs of the search -/

/-- A run of the search for an entry that does not defer, from the first pending candidate on. -/
inductive Searched (ctx : Context) :
    List String → Bool → List (MemberSymbol × List String) → Ending → Prop
  | nil {fresh : List String} {cyclic : Bool} : Searched ctx fresh cyclic [] (.exhausted cyclic)
  | again {m : MemberSymbol} {key : String} {way fresh : List String} {cyclic : Bool}
      {pending : List (MemberSymbol × List String)} {ending : Ending} :
    m.documentationKey = .ok key → key ∈ way → Searched ctx fresh true pending ending →
    Searched ctx fresh cyclic ((m, way) :: pending) ending
  | seen {m : MemberSymbol} {key : String} {way fresh : List String} {cyclic : Bool}
      {pending : List (MemberSymbol × List String)} {ending : Ending} :
    m.documentationKey = .ok key → key ∉ way → key ∉ fresh →
    Searched ctx fresh cyclic pending ending →
    Searched ctx fresh cyclic ((m, way) :: pending) ending
  | leaf {m : MemberSymbol} {key : String} {way fresh : List String} {cyclic : Bool}
      {pending : List (MemberSymbol × List String)} {node : Xml.Node} :
    ctx.content? m = some node → Searched ctx fresh cyclic ((m, way) :: pending) (.found node key)
  | inner {m : MemberSymbol} {key : String} {way fresh : List String} {cyclic : Bool}
      {next : List MemberSymbol} {pending : List (MemberSymbol × List String)} {ending : Ending} :
    m.documentationKey = .ok key → key ∉ way → key ∈ fresh → (ctx.candidates m).value = .ok next →
    Searched ctx (entering fresh key) cyclic (next.map (·, way ++ [key]) ++ pending) ending →
    Searched ctx fresh cyclic ((m, way) :: pending) ending

/-- A search that comes to an end is a run. -/
theorem searched_of_search
    (h : (ctx.search ctx.settings.documentation.deferTag fresh cyclic pending).value = .ok ending) :
    Searched ctx fresh cyclic pending ending := by
  induction fresh, cyclic, pending using search.induct with
  | case1 =>
    rw [value_search_nil] at h
    cases h
    exact .nil
  | case2 fresh cyclic m way pending ih₁ ih₂ ih₃ =>
    cases hk : m.documentationKey with
    | error e =>
      rw [search, hk] at h
      cases h
    | ok key =>
      by_cases hway : key ∈ way
      · exact .again hk hway (ih₁ ((value_search_again hk hway).symm.trans h))
      by_cases hmem : key ∈ fresh
      case neg =>
        exact .seen hk hway hmem (ih₃ ((value_search_seen hk hway hmem).symm.trans h))
      cases hc : ctx.content? m with
      | some node =>
        rw [value_search_leaf hk hway hmem hc] at h
        cases h
        exact .leaf hc
      | none =>
        cases hfound : (ctx.foreignEntry (.member m)).value with
        | error e =>
          rw [value_search_unread hk hway hmem hfound] at h
          cases h
        | ok found =>
          rw [value_search_inner hk hway hmem hfound hc] at h
          obtain ⟨next, hn, h⟩ := bind_eq_ok.1 h
          exact .inner hk hway hmem hn (ih₂ key hmem next h)

/-- A cycle that has been met is not forgotten. -/
theorem Searched.cyclic_le (h : Searched ctx fresh cyclic pending ending) {cyclic' : Bool}
    (hend : ending = .exhausted cyclic') (hc : cyclic = true) : cyclic' = true := by
  induction h with
  | nil =>
    cases hend
    exact hc
  | again _ _ _ ih => exact ih hend rfl
  | seen _ _ _ _ ih => exact ih hend hc
  | leaf => cases hend
  | inner _ _ _ _ _ ih => exact ih hend hc

/-- Keys tell the symbols apart that can be reached. -/
def DistinctKeys (ctx : Context) (s : MemberSymbol) : Prop :=
  ∀ m m', ctx.Reaches s m → ctx.Reaches s m' →
    ∀ key, m.documentationKey = .ok key → m'.documentationKey = .ok key → m = m'

/-! ## A cycle that is reported -/

/-- What is pending can be reached, and each key on the way to it is that of a symbol from which the
way leads on to it. -/
def Led (ctx : Context) (s : MemberSymbol) (e : MemberSymbol × List String) : Prop :=
  ctx.Reaches s e.1 ∧ ∀ key ∈ e.2, ∃ m, ctx.Reaches s m ∧ m.documentationKey = .ok key ∧
    TransGen ctx.Leads m e.1

theorem Led.next {m' : MemberSymbol} (h : ctx.Led s (m, way)) (hk : m.documentationKey = .ok key)
    (hl : ctx.Leads m m') : ctx.Led s (m', way ++ [key]) := by
  obtain ⟨hm, hway⟩ := h
  refine ⟨hm.tail hl, fun k hmem => ?_⟩
  rcases List.mem_append.1 hmem with hmem | hmem
  · obtain ⟨m₀, hm₀, hk₀, hlead⟩ := hway k hmem
    exact ⟨m₀, hm₀, hk₀, hlead.tail hl⟩
  · cases List.mem_singleton.1 hmem
    exact ⟨m, hm, hk, .single hl⟩

/-- A cycle is reported only where there is one. -/
theorem Searched.exists_cycle (h : Searched ctx fresh cyclic pending ending)
    (hend : ending = .exhausted true) (hcyclic : cyclic = false)
    (hled : ∀ e ∈ pending, ctx.Led s e) (hinj : ctx.DistinctKeys s) :
    ∃ m, ctx.Reaches s m ∧ TransGen ctx.Leads m m := by
  induction h with
  | nil =>
    rw [hcyclic] at hend
    cases hend
  | @again m key way _ _ _ _ hk hway _ _ =>
    obtain ⟨hm, hway'⟩ := hled _ List.mem_cons_self
    obtain ⟨m₀, hm₀, hk₀, hlead⟩ := hway' key hway
    obtain rfl := hinj m₀ m hm₀ hm key hk₀ hk
    exact ⟨m₀, hm, hlead⟩
  | seen _ _ _ _ ih => exact ih hend hcyclic fun e he => hled e (List.mem_cons_of_mem _ he)
  | leaf => cases hend
  | @inner m key way _ _ next pending _ hk _ _ hn _ ih =>
    refine ih hend hcyclic (List.forall_mem_append.2 ⟨?_, fun e he =>
      hled e (List.mem_cons_of_mem _ he)⟩)
    intro e he
    obtain ⟨m', hm', rfl⟩ := List.mem_map.1 he
    exact (hled _ List.mem_cons_self).next hk ⟨next, hn, hm'⟩

/-! ## A cycle that is there -/

/-- Every way from the symbol along candidates comes to an end. -/
def Grounded (ctx : Context) : MemberSymbol → Prop := Acc fun m' m => ctx.Leads m m'

theorem Grounded.of_reaches (h : ctx.Grounded s) (hm : ctx.Reaches s m) : ctx.Grounded m := by
  induction hm with
  | refl => exact h
  | tail _ hl ih => exact ih.inv hl

theorem Grounded.not_cycle (h : ctx.Grounded m) : ¬ TransGen ctx.Leads m m := by
  induction h with
  | intro m _ ih =>
    intro hcycle
    obtain ⟨m', hl, hback⟩ := TransGen.head'_iff.1 hcycle
    exact ih m' hl (TransGen.tail' hback hl)

/-- The state of a search that has met no cycle: a symbol that has been entered is grounded as soon
as the candidates are that are pending below it, and the ways to them are nested. -/
structure Suspended (ctx : Context) (s : MemberSymbol) (entered : List String)
    (pending : List (MemberSymbol × List String)) : Prop where
  reaches : ∀ e ∈ pending, ctx.Reaches s e.1
  nested : pending.Pairwise fun e e' => e'.2 ⊆ e.2
  grounded : ∀ m key, ctx.Reaches s m → m.documentationKey = .ok key → key ∈ entered →
    (∀ e ∈ pending, key ∈ e.2 → ctx.Grounded e.1) → ctx.Grounded m

namespace Suspended

/-- A candidate entered before and not on its own way has nothing pending below it. -/
theorem seen (h : ctx.Suspended s entered ((m, way) :: pending)) (hk : m.documentationKey = .ok key)
    (hway : key ∉ way) (hentered : key ∈ entered) : ctx.Suspended s entered pending := by
  obtain ⟨hnested, hpairs⟩ := List.pairwise_cons.1 h.nested
  have hm : ctx.Grounded m := by
    refine h.grounded m key (h.reaches _ List.mem_cons_self) hk hentered fun e he hmem => ?_
    rcases List.mem_cons.1 he with rfl | he
    · exact absurd hmem hway
    · exact absurd (hnested e he hmem) hway
  refine ⟨fun e he => h.reaches e (List.mem_cons_of_mem _ he), hpairs,
    fun u k hu hku hmem hall => ?_⟩
  refine h.grounded u k hu hku hmem fun e he hke => ?_
  rcases List.mem_cons.1 he with rfl | he
  · exact hm
  · exact hall e he hke

/-- The candidates of a candidate that is entered are pending below all that is on the way to it,
and below itself. -/
theorem enter {next : List MemberSymbol} (h : ctx.Suspended s entered ((m, way) :: pending))
    (hk : m.documentationKey = .ok key) (hn : (ctx.candidates m).value = .ok next)
    (hinj : ctx.DistinctKeys s) :
    ctx.Suspended s (key :: entered) (next.map (·, way ++ [key]) ++ pending) := by
  obtain ⟨hnested, hpairs⟩ := List.pairwise_cons.1 h.nested
  have hreach := h.reaches _ List.mem_cons_self
  have hnext : ∀ e ∈ next.map (·, way ++ [key]), e.2 = way ++ [key] ∧ ctx.Leads m e.1 := by
    intro e he
    obtain ⟨m', hm', rfl⟩ := List.mem_map.1 he
    exact ⟨rfl, next, hn, hm'⟩
  refine ⟨List.forall_mem_append.2 ⟨fun e he => hreach.tail (hnext e he).2, fun e he =>
    h.reaches e (List.mem_cons_of_mem _ he)⟩, ?_, fun u k hu hku hmem hall => ?_⟩
  · refine List.pairwise_append.2 ⟨?_, hpairs, fun e he e' he' => ?_⟩
    · exact List.pairwise_map.2 (List.pairwise_of_forall fun _ _ => List.Subset.refl _)
    · rw [(hnext e he).1]
      exact fun k hk' => List.mem_append_left _ (hnested e' he' hk')
  -- with its candidates grounded, the candidate itself is
  have hm : k ∈ way ++ [key] → ctx.Grounded m := by
    intro hkway
    refine Acc.intro m fun m' hl => ?_
    obtain ⟨next', hn', hm'⟩ := hl
    cases hn.symm.trans hn'
    exact hall (m', way ++ [key]) (List.mem_append_left _ (List.mem_map.2 ⟨m', hm', rfl⟩)) hkway
  rcases List.mem_cons.1 hmem with rfl | hmem
  · obtain rfl := hinj u m hu hreach _ hku hk
    exact hm (by simp)
  · refine h.grounded u k hu hku hmem fun e he hke => ?_
    rcases List.mem_cons.1 he with rfl | he
    · exact hm (List.mem_append_left _ hke)
    · exact hall e (List.mem_append_right _ he) hke

end Suspended

/-- A search that reports no cycle and finds nothing leaves all grounded that it has entered. -/
theorem Searched.grounded (h : Searched ctx fresh cyclic pending ending)
    (hend : ending = .exhausted false) (hsuspended : ctx.Suspended s entered pending)
    (hinj : ctx.DistinctKeys s)
    (hfresh : ∀ m k, ctx.Reaches s m → m.documentationKey = .ok k → (k ∈ fresh ↔ k ∉ entered))
    (hm : ctx.Reaches s m) (hk : m.documentationKey = .ok key) (hkey : key ∈ entered) :
    ctx.Grounded m := by
  induction h generalizing entered with
  | nil => exact hsuspended.grounded m key hm hk hkey (by simp)
  | again _ _ hrun _ =>
    have htrue := hrun.cyclic_le hend rfl
    cases htrue
  | @seen m' key' _ _ _ _ _ hk' hway hmem _ ih =>
    have hreach := hsuspended.reaches _ List.mem_cons_self
    have hentered : key' ∈ entered := by
      by_contra hnot
      exact hmem ((hfresh m' key' hreach hk').2 hnot)
    exact ih hend (hsuspended.seen hk' hway hentered) hfresh hkey
  | leaf => cases hend
  | @inner m' key' _ fresh _ next _ _ hk' hway hmem hn _ ih =>
    have hfresh' : ∀ m k, ctx.Reaches s m → m.documentationKey = .ok k →
        (k ∈ entering fresh key' ↔ k ∉ key' :: entered) := by
      intro u k hu hku
      simp [entering, hfresh u k hu hku, and_comm]
    exact ih hend (hsuspended.enter hk' hn hinj) hfresh' (List.mem_cons_of_mem _ hkey)

/-! ## The record of a resolution -/

theorem Reaches.eq_or_inherits (hctx : ctx.WellBuilt) (h : ctx.Reaches s m) :
    m = s ∨ ctx.catalog.Inherits m := by
  cases h with
  | refl => exact .inl rfl
  | tail _ hl =>
    obtain ⟨next, hn, hm⟩ := hl
    exact .inr (inherits_of_mem_candidates hctx hn hm)

theorem distinctKeys (hctx : ctx.WellBuilt)
    (hs : ctx.catalog.symbol? s.address = some (.member s))
    (hkeys : ∀ m m' key, ctx.Reaches s m → ctx.Reaches s m' → m.documentationKey = .ok key →
      m'.documentationKey = .ok key → m.address = m'.address) : ctx.DistinctKeys s := by
  intro m m' hm hm' key hk hk'
  have hplace : ∀ {m}, ctx.Reaches s m → ctx.catalog.symbol? m.address = some (.member m) := by
    intro m hm
    rcases hm.eq_or_inherits hctx with rfl | hi
    · exact hs
    · exact hi.symbol?
  have hsame := hkeys m m' key hm hm' hk hk'
  exact Symbol.member.inj (Option.some.inj ((hplace hm).symm.trans (hsame ▸ hplace hm')))

/-- A search from the candidates of a symbol that finds nothing reports a cycle exactly if one can
be reached from the symbol. -/
theorem Searched.cyclic_iff {next : List MemberSymbol} {cyclic : Bool} (hctx : ctx.WellBuilt)
    (hk : s.documentationKey = .ok key) (hn : (ctx.candidates s).value = .ok next)
    (hinj : ctx.DistinctKeys s)
    (h : Searched ctx (entering ctx.memberKeys key) false (next.map (·, [key]))
      (.exhausted cyclic)) :
    cyclic = true ↔ ∃ m, ctx.Reaches s m ∧ TransGen ctx.Leads m m := by
  have hnext : ∀ e ∈ next.map (·, [key]), e.2 = [key] ∧ ctx.Leads s e.1 := by
    intro e he
    obtain ⟨m', hm', rfl⟩ := List.mem_map.1 he
    exact ⟨rfl, next, hn, hm'⟩
  constructor
  · rintro rfl
    refine h.exists_cycle rfl rfl (fun e he => ?_) hinj
    obtain ⟨hway, hl⟩ := hnext e he
    refine ⟨.single hl, fun k hmem => ?_⟩
    rw [hway, List.mem_singleton] at hmem
    exact ⟨s, .refl, hmem ▸ hk, .single hl⟩
  · rintro ⟨m, hm, hcycle⟩
    by_contra hfalse
    have hend : Ending.exhausted cyclic = .exhausted false :=
      congrArg Ending.exhausted (Bool.eq_false_of_not_eq_true hfalse)
    -- at first only the symbol itself is entered, and all its candidates are pending below it
    have hsuspended : ctx.Suspended s [key] (next.map (·, [key])) := by
      refine ⟨fun e he => .single (hnext e he).2, ?_, fun u k hu hku hmem hall => ?_⟩
      · exact List.pairwise_map.2 (List.pairwise_of_forall fun _ _ => List.Subset.refl _)
      · rw [List.mem_singleton] at hmem
        obtain rfl := hinj u s hu .refl k hku (hmem ▸ hk)
        refine Acc.intro u fun m' hl => ?_
        obtain ⟨next', hn', hm'⟩ := hl
        cases hn.symm.trans hn'
        exact hall (m', [key]) (List.mem_map.2 ⟨m', hm', rfl⟩) (hmem ▸ List.mem_singleton_self _)
    have hfresh : ∀ m k, ctx.Reaches s m → m.documentationKey = .ok k →
        (k ∈ entering ctx.memberKeys key ↔ k ∉ [key]) := by
      intro u k hu hku
      rcases hu.eq_or_inherits hctx with rfl | hi
      · cases hk.symm.trans hku
        simp [entering]
      · exact mem_entering hi hku
    have hgrounded : ctx.Grounded s :=
      h.grounded hend hsuspended hinj hfresh .refl hk (List.mem_singleton_self _)
    exact (hgrounded.of_reaches hm).not_cycle hcycle

/-- What is logged when nothing was found. -/
def failureRecord (key : String) (cyclic : Bool) : Log.Record :=
  { level := .warning, event := if cyclic then "inheritdoc_cycle" else "inheritdoc_unresolved"
    fields := [("key", .text key)] }

/-- What a deferring method or property inherits is what it comes to, and leaves the same log. -/
theorem exists_result_resolve (hkind : s.decl.kind? = some .method ∨ s.decl.kind? = some .property)
    (hown : (ctx.entry (.member s)).value = .ok own)
    (hdefer : Entry.isDeferred own ctx.settings.documentation.deferTag = true)
    (hk : s.documentationKey = .ok key) (j : Journal) :
    ∃ j', j'.records = j.records ∧
      (ctx.resolve (.member s)).result j = (ctx.inherited s key).result j' := by
  have hentry : (ctx.entry (.member s)).Yields (.ok own) :=
    (ctx.steady_entryWith _ _).yields_iff.2 hown
  obtain ⟨j', hj', hresult⟩ :=
    Quiet.exists_result_bind (ctx.quiet_entryWith _ (.member s)) hentry _ j
  refine ⟨j', hj', Eq.trans hresult ?_⟩
  simp only [hdefer, Bool.not_true, Bool.false_eq_true, ↓reduceIte]
  have hkey : (Symbol.member s).documentationKey = .ok key := hk
  rw [hkey, ofExcept_ok_bind]
  obtain ⟨address, owner, decl⟩ := s
  cases decl <;> simp only [Member.kind?, Option.some.injEq, reduceCtorEq, or_self] at hkind <;> rfl

/-- A search that finds nothing is what inheriting leaves a record of. -/
theorem records_inherited {next : List MemberSymbol} (hn : (ctx.candidates s).value = .ok next)
    (hsearch : (ctx.search ctx.settings.documentation.deferTag (entering ctx.memberKeys key) false
      (next.map (·, [key]))).value = .ok (.exhausted cyclic)) (j : Journal) :
    ((ctx.inherited s key).result j).2.records = failureRecord key cyclic :: j.records := by
  obtain ⟨j₁, hj₁, hresult⟩ := (ctx.quiet_candidates s).exists_result_bind
    ((ctx.steady_candidates s).yields_iff.2 hn) _ j
  obtain ⟨j₂, hj₂, hresult'⟩ := (ctx.quiet_search _ _ _ _).exists_result_bind
    ((ctx.steady_search _ _ _ _).yields_iff.2 hsearch) _ j₁
  rw [inherited, hresult, hresult', ← hj₁, ← hj₂]
  rfl

/-- Resolving to nothing is a search that found nothing, and one record of that. -/
theorem exists_searched_of_resolve_eq_none
    (hkind : s.decl.kind? = some .method ∨ s.decl.kind? = some .property)
    (hown : (ctx.entry (.member s)).value = .ok own)
    (hdefer : Entry.isDeferred own ctx.settings.documentation.deferTag = true)
    (hnone : (ctx.resolve (.member s)).value = .ok none) :
    ∃ key next cyclic, s.documentationKey = .ok key ∧ (ctx.candidates s).value = .ok next ∧
      Searched ctx (entering ctx.memberKeys key) false (next.map (·, [key])) (.exhausted cyclic) ∧
      ∀ j, ((ctx.resolve (.member s)).result j).2.records =
        failureRecord key cyclic :: j.records := by
  rw [(yields_resolve hkind hown hdefer).value_eq] at hnone
  obtain ⟨key, hk, hnone⟩ := bind_eq_ok.1 hnone
  obtain ⟨next, hn, hnone⟩ := bind_eq_ok.1 hnone
  obtain ⟨ending, hsearch, hending⟩ := map_eq_ok.1 hnone
  cases ending with
  | found node source => cases hending
  | exhausted cyclic =>
  refine ⟨key, next, cyclic, hk, hn, searched_of_search hsearch, fun j => ?_⟩
  obtain ⟨j', hj', hresult⟩ := exists_result_resolve hkind hown hdefer hk j
  rw [hresult, records_inherited hn hsearch, hj']

/-- A method or property that defers and comes to nothing leaves one record, a warning: of a cycle
exactly if the candidates that can be reached from it form one, and otherwise of nothing found. -/
theorem record_of_resolve_eq_none (hctx : ctx.WellBuilt)
    (hs : ctx.catalog.symbol? s.address = some (.member s))
    (hkind : s.decl.kind? = some .method ∨ s.decl.kind? = some .property)
    (hown : (ctx.entry (.member s)).value = .ok own)
    (hdefer : Entry.isDeferred own ctx.settings.documentation.deferTag = true)
    (hkeys : ∀ m m' key, ctx.Reaches s m → ctx.Reaches s m' → m.documentationKey = .ok key →
      m'.documentationKey = .ok key → m.address = m'.address)
    (hnone : (ctx.resolve (.member s)).value = .ok none) :
    ∃ key event, s.documentationKey = .ok key ∧
      (∀ j, ((ctx.resolve (.member s)).result j).2.records =
        { level := .warning, event, fields := [("key", .text key)] } :: j.records) ∧
      (event = "inheritdoc_cycle" ∨ event = "inheritdoc_unresolved") ∧
      (event = "inheritdoc_cycle" ↔ ∃ m, ctx.Reaches s m ∧ TransGen ctx.Leads m m) := by
  obtain ⟨key, next, cyclic, hk, hn, hsearched, hrecord⟩ :=
    exists_searched_of_resolve_eq_none hkind hown hdefer hnone
  have hcyclic := hsearched.cyclic_iff hctx hk hn (distinctKeys hctx hs hkeys)
  refine ⟨key, _, hk, hrecord, ?_, ?_⟩
  · cases cyclic <;> simp
  · rw [← hcyclic]
    cases cyclic <;> simp

/-- A shelf and two interfaces that extend each other, all of which can put. -/
def ringCatalog : Catalog :=
  let put : Member := .method { name := "Put" }
  { units := [
      { name := "Zoo"
        types := [
          { ref := .named "Zoo" "IPut" [] none, category := .interfaceType, members := [put]
            interfaces := [.named "Zoo" "IShelf" [] none] },
          { ref := .named "Zoo" "IShelf" [] none, category := .interfaceType, members := [put]
            interfaces := [.named "Zoo" "IPut" [] none] },
          { ref := .named "Zoo" "Shelf" [] none, members := [put]
            interfaces := [.named "Zoo" "IPut" [] none] }] }] }

/-- An entry that only defers. -/
def ringEntry : Xml.Node := .element (.plain "member") [] [.element (.plain "inheritdoc") [] []]

def ring : Context :=
  { catalog := ringCatalog
    hierarchy := (Hierarchy.build ringCatalog).toOption.getD {}
    outcomes := [("Zoo", .ok (.ready [("M:Zoo.Shelf.Put", ringEntry)] 0))] }

/-- The method that a type of the ring declares. -/
def ringMethod (type : Nat) : MemberSymbol :=
  { address := ⟨.declared 0 type, [.member 0]⟩, owner := ringCatalog.types[type]?
    decl := .method { name := "Put" } }

theorem record_of_resolve_eq_none_ring :
    ((ring.resolve (.member (ringMethod 2))).result {}).2.records =
      [{ level := .warning, event := "inheritdoc_cycle"
         fields := [("key", .text "M:Zoo.Shelf.Put")] }] := by
  have hkey0 : (ringMethod 0).documentationKey = .ok "M:Zoo.IPut.Put" := by cbv
  have hkey1 : (ringMethod 1).documentationKey = .ok "M:Zoo.IShelf.Put" := by cbv
  have hkey2 : (ringMethod 2).documentationKey = .ok "M:Zoo.Shelf.Put" := by cbv
  have hnext0 : (ring.candidates (ringMethod 0)).value = .ok [ringMethod 1] := by cbv
  have hnext1 : (ring.candidates (ringMethod 1)).value = .ok [ringMethod 0] := by cbv
  have hnext2 : (ring.candidates (ringMethod 2)).value = .ok [ringMethod 0, ringMethod 1] := by cbv
  have hfound0 : (ring.foreignEntry (.member (ringMethod 0))).value = .ok none := by cbv
  have hfound1 : (ring.foreignEntry (.member (ringMethod 1))).value = .ok none := by cbv
  have hown : (ring.entry (.member (ringMethod 2))).value = .ok (some ringEntry) := by cbv
  have hfresh : entering ring.memberKeys "M:Zoo.Shelf.Put" =
      ["M:Zoo.IPut.Put", "M:Zoo.IShelf.Put"] := by cbv
  have hreach : ∀ m, ring.Reaches (ringMethod 2) m →
      m = ringMethod 2 ∨ m = ringMethod 0 ∨ m = ringMethod 1 := by
    intro m hm
    induction hm with
    | refl => exact .inl rfl
    | tail _ hl ih =>
      obtain ⟨next, hn, hm⟩ := hl
      rcases ih with rfl | rfl | rfl <;> simp_all
  have hnone : (ring.resolve (.member (ringMethod 2))).value = .ok none := by
    rw [(yields_resolve (.inl rfl) hown (by cbv)).value_eq, hkey2, hnext2]
    refine map_eq_ok.2 ⟨.exhausted true, ?_, rfl⟩
    rw [hfresh]
    -- the first interface leads to the second, and that one back to the first
    refine (value_search_inner hkey0 (by decide) (by decide) hfound0 (by cbv)).trans ?_
    rw [hnext0]
    refine (value_search_inner hkey1 (by decide) (by decide) hfound1 (by cbv)).trans ?_
    rw [hnext1]
    refine (value_search_again hkey0 (by decide)).trans ?_
    refine (value_search_seen hkey1 (by decide) (by decide)).trans ?_
    exact value_search_nil
  have hctx : ring.WellBuilt := ⟨by cbv, by simp [ring]⟩
  have hplace : ring.catalog.symbol? (ringMethod 2).address = some (.member (ringMethod 2)) := by
    cbv
  obtain ⟨key, event, hk, hrecords, -, hevent⟩ :=
    record_of_resolve_eq_none hctx hplace (.inl rfl) hown (by cbv) (by
      intro m m' key hm hm' hk hk'
      rcases hreach m hm with rfl | rfl | rfl <;> rcases hreach m' hm' with rfl | rfl | rfl <;>
        simp_all) hnone
  have h01 : ring.Leads (ringMethod 0) (ringMethod 1) := ⟨_, hnext0, by simp⟩
  have h10 : ring.Leads (ringMethod 1) (ringMethod 0) := ⟨_, hnext1, by simp⟩
  have h20 : ring.Leads (ringMethod 2) (ringMethod 0) := ⟨_, hnext2, by simp⟩
  cases hkey2.symm.trans hk
  obtain rfl := hevent.2 ⟨ringMethod 0, .single h20, .tail (.single h01) h10⟩
  exact hrecords {}

end ApiDoc.Context
