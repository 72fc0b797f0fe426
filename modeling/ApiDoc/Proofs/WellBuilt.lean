import ApiDoc.Session
import ApiDoc.Proofs.OverrideChain
import ApiDoc.Proofs.Place

/-!
# Well-built contexts

A context is well built if its hierarchy is that of its catalog and each dispatch table it holds is
that of its interface. A session starts with such a context (`Session.create_wellBuilt`). What a
well-built context knows of a symbol comes from its catalog: the types it finds are types of the
catalog (`mem_of_findType`), and the override root of a method is the last of its override chain, if
it overrides anything (`exists_overrideChain`, `overrideRoot_of_not_override`).
-/

namespace ApiDoc

theorem mem_of_lookup {α β : Type} [BEq α] [LawfulBEq α] {l : List (α × β)} {a : α} {b : β}
    (h : l.lookup a = some b) : (a, b) ∈ l := by
  obtain ⟨l₁, l₂, rfl, -⟩ := List.lookup_eq_some_iff.1 h
  simp

namespace Hierarchy

variable {c : Catalog} {h : Hierarchy} {t : TypeSymbol}

/-- The methods that override something. -/
def overrides (c : Catalog) : List MethodSymbol :=
  (c.types.flatMap TypeSymbol.callables).filter fun m => m.decl.isOverride

theorem mem_overrides {m : MethodSymbol} :
    m ∈ overrides c ↔ ∃ t ∈ c.types, m ∈ t.callables ∧ m.decl.isOverride = true := by
  simp only [overrides, List.mem_filter, List.mem_flatMap]
  grind

/-- The tables of a hierarchy: every type by its full name, and the override root of each method
that overrides something. -/
theorem build_eq_ok (hb : build c = .ok h) :
    h.types = c.types.map (fun t => (t.decl.ref.fullName, t.address)) ∧
    (∀ m ∈ overrides c, ∃ root, overrideRootOf (h.findType c) c.types m = .ok root) ∧
    ∀ a b, (a, b) ∈ h.roots ↔ ∃ m ∈ overrides c, ∃ root,
      overrideRootOf (h.findType c) c.types m = .ok root ∧ a = m.address ∧ b = root.address := by
  obtain ⟨keys, -, hb⟩ := bind_eq_ok.1 hb
  obtain ⟨roots, hroots, hb⟩ := bind_eq_ok.1 hb
  cases hb
  refine ⟨rfl, fun m hm => ?_, fun a b => ?_⟩
  · obtain ⟨_, he⟩ := exists_of_mapM hroots hm
    obtain ⟨root, hroot, -⟩ := bind_eq_ok.1 he
    exact ⟨root, hroot⟩
  · rw [mem_mapM hroots]
    refine exists_congr fun m => and_congr_right fun _ => bind_eq_ok.trans ?_
    exact exists_congr fun root => and_congr Iff.rfl (by simp [eq_comm])

theorem mem_of_findType_of_types
    (htypes : h.types = c.types.map fun t => (t.decl.ref.fullName, t.address)) {ref : TypeRef}
    (hf : h.findType c ref = some t) : t ∈ c.types := by
  simp only [findType, Option.bind_eq_bind, Option.bind_eq_some_iff] at hf
  obtain ⟨named, -, address, hl, ht⟩ := hf
  rw [htypes] at hl
  obtain ⟨t', ht', he⟩ := List.mem_map.1 (mem_of_lookup hl)
  simp only [Prod.mk.injEq] at he
  rw [← he.2, Catalog.type?_type ht'] at ht
  cases ht
  exact ht'

theorem mem_of_findType (hb : build c = .ok h) {ref : TypeRef} (hf : h.findType c ref = some t) :
    t ∈ c.types :=
  mem_of_findType_of_types (build_eq_ok hb).1 hf

end Hierarchy

namespace Context

/-- The hierarchy is that of the catalog, and the dispatch tables are those of the interfaces. -/
structure WellBuilt (ctx : Context) : Prop where
  hierarchy : Hierarchy.build ctx.catalog = .ok ctx.hierarchy
  dispatches : ∀ e ∈ ctx.dispatches, ∃ t ∈ ctx.catalog.types, t.address = e.1.1 ∧
    dispatchEntries e.1.2 t.callables = .ok e.2

/-- The context of a catalog of which nothing has been asked yet. -/
def ofCatalog (catalog : Catalog) : Context :=
  { catalog
    hierarchy := (Hierarchy.build catalog).toOption.getD {}
    outcomes := [] }

theorem wellBuilt_ofCatalog {c : Catalog} (h : (Hierarchy.build c).toOption.isSome = true) :
    (ofCatalog c).WellBuilt where
  hierarchy := by
    cases hb : Hierarchy.build c with
    | error e => simp [hb, Except.toOption] at h
    | ok hierarchy => simp [ofCatalog, hb, Except.toOption]
  dispatches := by simp [ofCatalog]

namespace WellBuilt

variable {ctx : Context} {t : TypeSymbol} {m r : MethodSymbol}

theorem mem_of_findType (hctx : ctx.WellBuilt) {ref : TypeRef} (hf : ctx.findType ref = some t) :
    t ∈ ctx.catalog.types :=
  Hierarchy.mem_of_findType hctx.hierarchy hf

/-! ## Override roots -/

theorem overrideRootOf_eq_ok (hctx : ctx.WellBuilt) (ho : m.owner = some t)
    (h : Hierarchy.overrideRootOf ctx.findType ctx.catalog.types m = .ok r) :
    ∃ signature chain, m.signature [] = .ok signature ∧
      Hierarchy.OverrideChain ctx.findType signature [t.address] t.decl.base chain ∧
      r = chain.getLastD m := by
  simp only [Hierarchy.overrideRootOf, ho] at h
  obtain ⟨signature, hs, h⟩ := bind_eq_ok.1 h
  refine ⟨signature, ?_⟩
  have hseen : ∀ ref u, ctx.findType ref = some u →
      ((Hierarchy.without ctx.catalog.types t.address).any (fun v => v.address = u.address) = true ↔
        u.address ∉ [t.address]) := by
    intro ref u hu
    have hmem := hctx.mem_of_findType hu
    simp only [Hierarchy.without, List.any_eq_true, List.mem_filter, decide_eq_true_eq, ne_eq,
      List.mem_singleton]
    constructor
    · rintro ⟨v, hv, he⟩
      exact he ▸ hv.2
    · exact fun hne => ⟨u, ⟨hmem, hne⟩, rfl⟩
  obtain ⟨chain, hchain, rfl⟩ := Hierarchy.overridden_eq_ok hseen h
  exact ⟨chain, hs, hchain, rfl⟩

/-- An override root is the method itself, or a method of another type of the catalog. -/
theorem overrideRootOf_cases (hctx : ctx.WellBuilt)
    (h : Hierarchy.overrideRootOf ctx.findType ctx.catalog.types m = .ok r) :
    r = m ∨ ∃ t ∈ ctx.catalog.types, r ∈ t.callables := by
  cases ho : m.owner with
  | none =>
    simp only [Hierarchy.overrideRootOf, ho] at h
    cases h
    exact .inl rfl
  | some t =>
    obtain ⟨signature, chain, -, hchain, rfl⟩ := hctx.overrideRootOf_eq_ok ho h
    cases chain with
    | nil => exact .inl rfl
    | cons a chain =>
      rw [List.getLastD_cons]
      obtain ⟨ref, u, hu, -, hr⟩ := hchain.declared _ List.getLastD_mem_cons
      exact .inr ⟨u, hctx.mem_of_findType hu, hr⟩

theorem method?_overrideRootOf (hctx : ctx.WellBuilt) (ht : t ∈ ctx.catalog.types)
    (hm : m ∈ t.callables)
    (h : Hierarchy.overrideRootOf ctx.findType ctx.catalog.types m = .ok r) :
    ctx.catalog.method? r.address = some r := by
  rcases hctx.overrideRootOf_cases h with rfl | ⟨u, hu, hr⟩
  · exact Catalog.method?_callable ht hm
  · exact Catalog.method?_callable hu hr

/-- The root that the hierarchy holds for an overriding method. -/
theorem overrideRoot_of_override (hctx : ctx.WellBuilt) (ht : t ∈ ctx.catalog.types)
    (hm : m ∈ t.callables) (ho : m.decl.isOverride = true) :
    Hierarchy.overrideRootOf ctx.findType ctx.catalog.types m = .ok (ctx.overrideRoot m) := by
  obtain ⟨-, hok, hroots⟩ := Hierarchy.build_eq_ok hctx.hierarchy
  have hmem := Hierarchy.mem_overrides.2 ⟨t, ht, hm, ho⟩
  obtain ⟨root, hroot⟩ := hok m hmem
  have hentry := (hroots _ _).2 ⟨m, hmem, root, hroot, rfl, rfl⟩
  cases hl : ctx.hierarchy.roots.lookup m.address with
  | none =>
    have := List.lookup_eq_none_iff.1 hl _ hentry
    simp at this
  | some b =>
    obtain ⟨m', hm', root', hroot', ha, rfl⟩ := (hroots _ _).1 (mem_of_lookup hl)
    obtain ⟨t', ht', hmt', -⟩ := Hierarchy.mem_overrides.1 hm'
    obtain rfl := Catalog.method_ext ht hm ht' hmt' ha
    rw [overrideRoot, hl, Option.bind_some, hctx.method?_overrideRootOf ht hm hroot',
      Option.getD_some]
    exact hroot'

/-- A method of the catalog that overrides nothing, whatever it belongs to, is its own root. -/
theorem overrideRoot_of_not_override (hctx : ctx.WellBuilt)
    (hm : ctx.catalog.method? m.address = some m) (ho : m.decl.isOverride = false) :
    ctx.overrideRoot m = m := by
  obtain ⟨-, -, hroots⟩ := Hierarchy.build_eq_ok hctx.hierarchy
  cases hl : ctx.hierarchy.roots.lookup m.address with
  | none => rw [overrideRoot, hl, Option.bind_none, Option.getD_none]
  | some b =>
    obtain ⟨m', hm', -, -, ha, -⟩ := (hroots _ _).1 (mem_of_lookup hl)
    obtain ⟨t', ht', hmt', ho'⟩ := Hierarchy.mem_overrides.1 hm'
    have hsame : m = m' :=
      Option.some.inj (hm.symm.trans (ha ▸ Catalog.method?_callable ht' hmt'))
    rw [← hsame, ho] at ho'
    cases ho'

/-- Whatever method is asked about, its root is the method itself or that of an overriding method of
the catalog. -/
theorem overrideRoot_eq_or_exists (hctx : ctx.WellBuilt) (m : MethodSymbol) :
    ctx.overrideRoot m = m ∨ ∃ t ∈ ctx.catalog.types, ∃ m' ∈ t.callables,
      m'.decl.isOverride = true ∧ ctx.overrideRoot m = ctx.overrideRoot m' := by
  obtain ⟨-, -, hroots⟩ := Hierarchy.build_eq_ok hctx.hierarchy
  cases hl : ctx.hierarchy.roots.lookup m.address with
  | none => exact .inl (by rw [overrideRoot, hl, Option.bind_none, Option.getD_none])
  | some b =>
    obtain ⟨m', hm', root, hroot, ha, rfl⟩ := (hroots _ _).1 (mem_of_lookup hl)
    obtain ⟨t', ht', hmt', ho'⟩ := Hierarchy.mem_overrides.1 hm'
    refine .inr ⟨t', ht', m', hmt', ho', ?_⟩
    rw [overrideRoot, overrideRoot, ← ha, hl, Option.bind_some,
      hctx.method?_overrideRootOf ht' hmt' hroot, Option.getD_some, Option.getD_some]

/-- Whatever method is asked about, its root is the method itself or one of the catalog. -/
theorem overrideRoot_cases (hctx : ctx.WellBuilt) (m : MethodSymbol) :
    ctx.overrideRoot m = m ∨ ∃ t ∈ ctx.catalog.types, ctx.overrideRoot m ∈ t.callables := by
  rcases hctx.overrideRoot_eq_or_exists m with h | ⟨t, ht, m', hm', ho', heq⟩
  · exact .inl h
  · rw [heq]
    rcases hctx.overrideRootOf_cases (hctx.overrideRoot_of_override ht hm' ho') with h | h
    · exact .inr ⟨t, ht, h.symm ▸ hm'⟩
    · exact .inr h

/-- An overriding method has an override chain, and its root is the last method of it. -/
theorem exists_overrideChain (hctx : ctx.WellBuilt) (ht : t ∈ ctx.catalog.types)
    (hm : m ∈ t.callables)
    (ho : m.decl.isOverride = true) : ∃ signature chain, m.signature [] = .ok signature ∧
      Hierarchy.OverrideChain ctx.findType signature [t.address] t.decl.base chain ∧
      ctx.overrideRoot m = chain.getLastD m :=
  hctx.overrideRootOf_eq_ok (TypeSymbol.owner_of_mem_callables hm)
    (hctx.overrideRoot_of_override ht hm ho)

end WellBuilt
end Context

/-! ## Sessions -/

/-- A session starts with a well-built context. -/
theorem Session.create_wellBuilt {c : Catalog} {settings : Settings}
    {paths : Symbol → Except Error String} {old : List Index} {s : Session} {log : List Log.Record}
    (h : create c settings paths old = .ok (s, log)) : s.context.WellBuilt := by
  obtain ⟨hierarchy, hb, h⟩ := bind_eq_ok.1 h
  cases h
  exact ⟨hb, fun e he => nomatch he⟩

end ApiDoc
