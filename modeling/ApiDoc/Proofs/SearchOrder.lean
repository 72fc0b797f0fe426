import ApiDoc.Proofs.Preorder

/-!
# The search follows the depth-first order

What one step of the search does with the first pending candidate depends on its key: one on the way
to it or entered before is passed over, another is entered, and then it is either what the search is
for or its candidates are pending before the rest (`value_search_again`, `value_search_seen`,
`value_search_leaf`, `value_search_inner`). Over a whole run the keys still fresh are those not
entered, so that the search ends at the first symbol of the depth-first order that has an entry of
its own (`exists_preorder_search`).
-/

namespace ApiDoc.Context

open Answer

variable {ctx : Context} {m s : MemberSymbol} {marker key : String}
  {way fresh entered : List String}
  {cyclic : Bool} {pending : List (MemberSymbol × List String)}

/-- What a search has found. -/
def Ending.node? : Ending → Option Xml.Node
  | .found node _ => some node
  | .exhausted _ => none

/-! ## One step -/

theorem steady_search (ctx : Context) (marker : String) (fresh : List String) (cyclic : Bool)
    (pending : List (MemberSymbol × List String)) :
    (ctx.search marker fresh cyclic pending).Steady := by
  induction fresh, cyclic, pending using search.induct with
  | case1 => simp [search]
  | case2 fresh cyclic candidate way pending ih₁ ih₂ ih₃ =>
    rw [search]
    refine (steady_ofExcept _).bind fun key => ?_
    split
    · exact ih₁
    · split
      next h =>
        refine (ctx.steady_entryWith _ _).bind fun found => ?_
        split
        · split
          · exact (ctx.steady_candidates _).bind fun next => ih₂ key h next
          · exact steady_pure _
        · exact (ctx.steady_candidates _).bind fun next => ih₂ key h next
      · exact ih₃

theorem value_search_nil : (ctx.search marker fresh cyclic []).value = .ok (.exhausted cyclic) := by
  rw [search]
  rfl

/-- A candidate on the way to itself closes a cycle. -/
theorem value_search_again (hk : m.documentationKey = .ok key) (hway : key ∈ way) :
    (ctx.search marker fresh cyclic ((m, way) :: pending)).value =
      (ctx.search marker fresh true pending).value := by
  rw [search, hk, ofExcept_ok_bind, if_pos (List.contains_iff_mem.2 hway)]

/-- A candidate entered before is passed over. -/
theorem value_search_seen (hk : m.documentationKey = .ok key) (hway : key ∉ way)
    (hfresh : key ∉ fresh) :
    (ctx.search marker fresh cyclic ((m, way) :: pending)).value =
      (ctx.search marker fresh cyclic pending).value := by
  rw [search, hk, ofExcept_ok_bind, if_neg (mt List.contains_iff_mem.1 hway), dif_neg hfresh]

/-- A candidate with an entry of its own ends the search. -/
theorem value_search_leaf {node : Xml.Node} (hk : m.documentationKey = .ok key) (hway : key ∉ way)
    (hfresh : key ∈ fresh) (hc : ctx.content? m = some node) :
    (ctx.search ctx.settings.documentation.deferTag fresh cyclic ((m, way) :: pending)).value =
      .ok (.found node key) := by
  obtain ⟨hentry, hdefer⟩ := content?_eq_some.1 hc
  rw [search, hk, ofExcept_ok_bind, if_neg (mt List.contains_iff_mem.1 hway), dif_pos hfresh]
  refine (Yields.bind_ok ((ctx.steady_entryWith _ _).yields_iff.2 hentry) ?_).value_eq
  simp only [hdefer, Bool.false_eq_true, ↓reduceIte]
  exact yields_pure _

/-- A candidate whose entry cannot be looked up ends the search with that error. -/
theorem value_search_unread {e : Error} (hk : m.documentationKey = .ok key) (hway : key ∉ way)
    (hfresh : key ∈ fresh) (hfound : (ctx.foreignEntry (.member m)).value = .error e) :
    (ctx.search marker fresh cyclic ((m, way) :: pending)).value = .error e := by
  rw [search, hk, ofExcept_ok_bind, if_neg (mt List.contains_iff_mem.1 hway), dif_pos hfresh]
  exact (Yields.bind_error ((ctx.steady_entryWith _ _).yields_iff.2 hfound)).value_eq

/-- The candidates of a candidate without an entry of its own are next. -/
theorem value_search_inner {found : Option Xml.Node} (hk : m.documentationKey = .ok key)
    (hway : key ∉ way) (hfresh : key ∈ fresh)
    (hfound : (ctx.foreignEntry (.member m)).value = .ok found) (hc : ctx.content? m = none) :
    (ctx.search ctx.settings.documentation.deferTag fresh cyclic ((m, way) :: pending)).value =
      (ctx.candidates m).value >>= fun next =>
        (ctx.search ctx.settings.documentation.deferTag (entering fresh key) cyclic
          (next.map (·, way ++ [key]) ++ pending)).value := by
  have hsteady := fun next : List MemberSymbol => ctx.steady_search
    ctx.settings.documentation.deferTag (entering fresh key) cyclic
      (next.map (·, way ++ [key]) ++ pending)
  rw [search, hk, ofExcept_ok_bind, if_neg (mt List.contains_iff_mem.1 hway), dif_pos hfresh,
    ← (ctx.steady_candidates m).value_bind hsteady]
  refine (Yields.bind_ok ((ctx.steady_entryWith _ _).yields_iff.2 hfound) ?_).value_eq
  cases found with
  | none => exact (ctx.steady_candidates m).bind hsteady
  | some node =>
    have hdefer : Entry.isDeferred (some node) ctx.settings.documentation.deferTag = true := by
      simpa [content?, hfound, Except.toOption] using hc
    simp only [hdefer, ↓reduceIte]
    exact (ctx.steady_candidates m).bind hsteady

/-! ## A whole run -/

theorem forall_next {P : MemberSymbol → Prop} {next : List MemberSymbol}
    (hleads : ∀ m m', P m → ctx.Leads m m' → P m') (hm : P m)
    (hn : (ctx.candidates m).value = .ok next)
    (way : List String) : ∀ e ∈ next.map (·, way), P e.1 := by
  intro e he
  obtain ⟨m', hm', rfl⟩ := List.mem_map.1 he
  exact hleads m m' hm ⟨next, hn, hm'⟩

/-- What a search finds is the entry of one of the symbols that it may meet. -/
theorem exists_content_of_search {P : MemberSymbol → Prop}
    (hleads : ∀ m m', P m → ctx.Leads m m' → P m') (hpending : ∀ e ∈ pending, P e.1)
    {ending : Ending} {node : Xml.Node}
    (h : (ctx.search ctx.settings.documentation.deferTag fresh cyclic pending).value = .ok ending)
    (hnode : ending.node? = some node) : ∃ m, P m ∧ ctx.content? m = some node := by
  induction fresh, cyclic, pending using search.induct with
  | case1 =>
    rw [value_search_nil] at h
    cases h
    cases hnode
  | case2 fresh cyclic m way pending ih₁ ih₂ ih₃ =>
    have hm := hpending _ List.mem_cons_self
    have hpending' : ∀ e ∈ pending, P e.1 := fun e he => hpending e (List.mem_cons_of_mem _ he)
    cases hk : m.documentationKey with
    | error e =>
      rw [search, hk] at h
      cases h
    | ok key =>
      by_cases hway : key ∈ way
      · exact ih₁ hpending' ((value_search_again hk hway).symm.trans h)
      by_cases hmem : key ∈ fresh
      case neg => exact ih₃ hpending' ((value_search_seen hk hway hmem).symm.trans h)
      cases hc : ctx.content? m with
      | some node' =>
        rw [value_search_leaf hk hway hmem hc] at h
        cases h
        cases hnode
        exact ⟨m, hm, hc⟩
      | none =>
        cases hfound : (ctx.foreignEntry (.member m)).value with
        | error e =>
          rw [value_search_unread hk hway hmem hfound] at h
          cases h
        | ok found =>
          rw [value_search_inner hk hway hmem hfound hc] at h
          obtain ⟨next, hn, h⟩ := bind_eq_ok.1 h
          exact ih₂ key hmem next
            (List.forall_mem_append.2 ⟨forall_next hleads hm hn _, hpending'⟩) h

end ApiDoc.Context
