import ApiDoc.Resolution
import ApiDoc.Proofs.WellBuilt

/-!
# What candidates are

The questions that the search for inherited documentation asks are steady, so that each comes to a
plain result. The interface members that a member implements are the first matches in its interfaces
(`mem_implementedBy`), whatever dispatch tables have been built before (`value_dispatch`). All
candidates are methods, accessors or properties of the catalog (`inherits_of_mem_candidates`).
-/

namespace ApiDoc

/-! ## Equality of references -/

namespace TypeRef

mutual

theorem same_iff : ∀ r r' : TypeRef, same r r' = true ↔ r = r'
  | ⟨_, _, _, declaring, arguments, element, _, _, _⟩,
    ⟨_, _, _, declaring', arguments', element', _, _, _⟩ => by
    simp only [same, Bool.and_eq_true, beq_iff_eq, same?_iff declaring declaring',
      sameAll_iff arguments arguments', same?_iff element element', mk.injEq]
    grind

theorem sameAll_iff : ∀ l l' : List TypeRef, sameAll l l' = true ↔ l = l'
  | [], [] => by simp [sameAll]
  | [], _ :: _ => by simp [sameAll]
  | _ :: _, [] => by simp [sameAll]
  | r :: l, r' :: l' => by
    simp only [sameAll, Bool.and_eq_true, same_iff r r', sameAll_iff l l', List.cons.injEq]

theorem same?_iff : ∀ o o' : Option TypeRef, same? o o' = true ↔ o = o'
  | none, none => by simp [same?]
  | none, some _ => by simp [same?]
  | some _, none => by simp [same?]
  | some r, some r' => by simp only [same?, same_iff r r', Option.some.injEq]

end

end TypeRef

namespace Context

open Answer

variable {ctx : Context} {m r : MethodSymbol} {t : TypeSymbol} {signature : String} {ref : TypeRef}

/-! ## Dispatch -/

theorem steady_dispatch (ctx : Context) (ref : TypeRef) : (ctx.dispatch ref).Steady := by
  unfold dispatch
  split
  · exact steady_pure _
  · split
    · exact steady_pure _
    · exact (steady_ofExcept _).bind fun _ => (steady_record _).bind fun _ => steady_pure _

/-- A table that has been built is the one that would be built now. -/
theorem value_dispatch (hctx : ctx.WellBuilt) (ref : TypeRef) :
    (ctx.dispatch ref).value = match ctx.findType ref with
      | none => .ok []
      | some t => dispatchEntries ref.arguments t.callables := by
  unfold dispatch
  cases hf : ctx.findType ref with
  | none => rfl
  | some t =>
    have hmem := hctx.mem_of_findType hf
    cases hb : ctx.builtDispatch? t.address ref.arguments with
    | none =>
      simp only [hb]
      rw [(steady_ofExcept _).value_bind fun _ => (steady_record _).bind fun _ => steady_pure _]
      cases h : dispatchEntries ref.arguments t.callables <;> rfl
    | some table =>
      simp only [hb]
      simp only [builtDispatch?, Option.map_eq_some_iff] at hb
      obtain ⟨⟨⟨address, arguments⟩, table'⟩, he, rfl⟩ := hb
      have hk := List.find?_some he
      simp only [Bool.and_eq_true, decide_eq_true_eq, TypeRef.sameAll_iff] at hk
      obtain ⟨rfl, rfl⟩ := hk
      obtain ⟨t', ht', ha, htable⟩ := hctx.dispatches _ (List.mem_of_find?_eq_some he)
      cases Catalog.type_ext hmem ht' ha.symm
      exact htable.symm

/-- The entry of a signature in a dispatch table is that of the first method that has it. -/
theorem lookup_dispatchEntries {arguments : List TypeRef} {l : List MethodSymbol}
    {table : DispatchTable}
    (h : dispatchEntries arguments l = .ok table) (signature : String) :
    ∃ found, Hierarchy.firstWithSignature signature arguments l = .ok found ∧
      table.lookup signature = found.map (·.address) := by
  induction l generalizing table with
  | nil =>
    cases h
    exact ⟨none, rfl, rfl⟩
  | cons m l ih =>
    obtain ⟨s, hs, h⟩ := bind_eq_ok.1 h
    obtain ⟨more, hmore, h⟩ := bind_eq_ok.1 h
    cases h
    by_cases he : s = signature
    · refine ⟨some m, bind_eq_ok.2 ⟨s, hs, if_pos he⟩, ?_⟩
      simp [he]
    · obtain ⟨found, hfound, hlookup⟩ := ih hmore
      refine ⟨found, bind_eq_ok.2 ⟨s, hs, ?_⟩, ?_⟩
      · rw [if_neg he, hfound]
      · rw [List.lookup_cons, beq_false_of_ne (Ne.symm he)]
        exact hlookup

theorem steady_implementedBy (ctx : Context) (self : Address) (signature : String)
    (refs : List TypeRef) :
    (ctx.implementedBy self signature refs).Steady := by
  induction refs with
  | nil => exact steady_pure _
  | cons ref refs ih =>
    exact (ctx.steady_dispatch ref).bind fun _ => ih.bind fun _ => steady_pure _

/-- The method that stands for a signature in a constructed interface: the first that has it. -/
def Matches (ctx : Context) (signature : String) (ref : TypeRef) (m : MethodSymbol) : Prop :=
  ∃ t, ctx.findType ref = some t ∧
    Hierarchy.firstWithSignature signature ref.arguments t.callables = .ok (some m)

theorem Matches.exists_mem (hctx : ctx.WellBuilt) (h : ctx.Matches signature ref m) :
    ∃ t ∈ ctx.catalog.types, m ∈ t.callables := by
  obtain ⟨t, hf, hm⟩ := h
  exact ⟨t, hctx.mem_of_findType hf, Hierarchy.firstWithSignature_mem hm⟩

/-- A match belongs to the definition of its interface. -/
theorem Matches.owner_eq (h : ctx.Matches signature ref m) :
    m.owner = ctx.findType ref := by
  obtain ⟨u, hu, hc⟩ := h
  rw [hu]
  exact TypeSymbol.owner_of_mem_callables (Hierarchy.firstWithSignature_mem hc)

theorem lookup_dispatch (hctx : ctx.WellBuilt) {table : DispatchTable}
    (h : (ctx.dispatch ref).value = .ok table) :
    (table.lookup signature).bind ctx.catalog.method? = some m ↔ ctx.Matches signature ref m := by
  rw [value_dispatch hctx] at h
  cases hf : ctx.findType ref with
  | none =>
    rw [hf] at h
    cases h
    simp [Matches, hf]
  | some t =>
    rw [hf] at h
    obtain ⟨found, hfound, hlookup⟩ := lookup_dispatchEntries h signature
    rw [hlookup, Matches, hf]
    cases found with
    | none => simp [hfound]
    | some m' =>
      have hm' :=
        Catalog.method?_callable (hctx.mem_of_findType hf) (Hierarchy.firstWithSignature_mem hfound)
      simp [hfound, hm']

/-- The methods that implementing the given interfaces amounts to. -/
theorem mem_implementedBy (hctx : ctx.WellBuilt) {self : Address} {refs : List TypeRef}
    {found : List MethodSymbol} (h : (ctx.implementedBy self signature refs).value = .ok found) :
    m ∈ found ↔ m.address ≠ self ∧ ∃ ref ∈ refs, ctx.Matches signature ref m := by
  induction refs generalizing found with
  | nil =>
    cases h
    simp
  | cons ref refs ih =>
    have hrest := ctx.steady_implementedBy self signature refs
    rw [implementedBy,
      (ctx.steady_dispatch ref).value_bind fun _ => hrest.bind fun _ => steady_pure _] at h
    obtain ⟨table, htable, h⟩ := bind_eq_ok.1 h
    rw [hrest.value_bind fun _ => steady_pure _] at h
    obtain ⟨more, hmore, h⟩ := bind_eq_ok.1 h
    cases h
    simp only [List.mem_append, Option.mem_toList, Option.filter_eq_some_iff,
      lookup_dispatch hctx htable, ih hmore, decide_eq_true_eq, List.mem_cons, exists_eq_or_imp]
    grind

/-! ## Interface members -/

theorem steady_interfaceMethods (ctx : Context) (s : MemberSymbol) :
    (ctx.interfaceMethods s).Steady := by
  unfold interfaceMethods
  split
  · exact steady_pure _
  · exact (steady_ofExcept _).bind fun _ => (steady_ofExcept _).bind fun _ =>
      ctx.steady_implementedBy _ _ _

theorem value_interfaceMethods {s : MemberSymbol} (ho : s.owner = some t) :
    (ctx.interfaceMethods s).value = s.decl.signature [] >>= fun signature =>
      ctx.allInterfaces t >>= fun refs => (ctx.implementedBy s.address signature refs).value := by
  have hbind := fun signature refs => ctx.steady_implementedBy s.address signature refs
  simp only [interfaceMethods, ho]
  rw [(steady_ofExcept _).value_bind fun _ => (steady_ofExcept _).bind fun _ => hbind _ _]
  refine congrArg _ (funext fun signature => ?_)
  rw [(steady_ofExcept _).value_bind fun _ => hbind _ _]
  rfl

theorem exists_mem_of_mem_interfaceMethods (hctx : ctx.WellBuilt) {s : MemberSymbol}
    {found : List MethodSymbol} (h : (ctx.interfaceMethods s).value = .ok found) (hm : m ∈ found) :
    ∃ t ∈ ctx.catalog.types, m ∈ t.callables := by
  cases ho : s.owner with
  | none =>
    simp only [interfaceMethods, ho, value_pure, Except.ok.injEq] at h
    subst h
    cases hm
  | some t =>
    rw [value_interfaceMethods ho] at h
    obtain ⟨signature, -, h⟩ := bind_eq_ok.1 h
    obtain ⟨refs, -, h⟩ := bind_eq_ok.1 h
    obtain ⟨-, ref, -, hmatch⟩ := (mem_implementedBy hctx h).1 hm
    exact hmatch.exists_mem hctx

/-! ## Candidates -/

theorem steady_methodSources (ctx : Context) (m : MethodSymbol) : (ctx.methodSources m).Steady := by
  simp only [methodSources]
  split
  · exact ctx.steady_interfaceMethods _
  · exact steady_pure _

theorem exists_mem_of_mem_methodSources (hctx : ctx.WellBuilt) {sources : List MethodSymbol}
    (h : (ctx.methodSources m).value = .ok sources) (hr : r ∈ sources) :
    ∃ t ∈ ctx.catalog.types, r ∈ t.callables := by
  simp only [methodSources] at h
  split at h
  next => exact exists_mem_of_mem_interfaceMethods hctx h hr
  next hne =>
    cases h
    cases List.mem_singleton.1 hr
    rcases hctx.overrideRoot_cases m with he | h
    · exact absurd (congrArg _ he) hne
    · exact h

theorem steady_propertySources (ctx : Context) (p : PropertySymbol) :
    (ctx.propertySources p).Steady := by
  unfold propertySources
  split
  · exact steady_pure _
  · exact (ctx.steady_methodSources _).bind fun _ => steady_pure _

theorem mem_properties_of_sourceProperty? {name : String} {p : PropertySymbol}
    (hr : r ∈ t.callables)
    (h : sourceProperty? name r = some p) : p ∈ t.properties := by
  simp only [sourceProperty?, MethodSymbol.property?, TypeSymbol.owner_of_mem_callables hr,
    Option.bind_some] at h
  cases hn : t.property? name with
  | some q =>
    rw [hn] at h
    cases h
    exact List.mem_of_find?_eq_some hn
  | none =>
    rw [hn] at h
    exact List.mem_of_find?_eq_some h

theorem exists_mem_of_mem_propertySources (hctx : ctx.WellBuilt) {p q : PropertySymbol}
    {sources : List PropertySymbol} (h : (ctx.propertySources p).value = .ok sources)
    (hq : q ∈ sources) :
    ∃ t ∈ ctx.catalog.types, q ∈ t.properties := by
  unfold propertySources at h
  split at h
  next =>
    cases h
    cases hq
  next accessor _ _ =>
    rw [(ctx.steady_methodSources _).value_bind fun _ => steady_pure _] at h
    obtain ⟨methods, hmethods, h⟩ := bind_eq_ok.1 h
    cases h
    obtain ⟨r, hr, hq⟩ := List.mem_filterMap.1 (List.mem_filter.1 hq).1
    obtain ⟨t, ht, hr⟩ := exists_mem_of_mem_methodSources hctx hmethods hr
    exact ⟨t, ht, mem_properties_of_sourceProperty? hr hq⟩

theorem steady_candidates (ctx : Context) (s : MemberSymbol) : (ctx.candidates s).Steady := by
  unfold candidates
  split
  · exact (ctx.steady_methodSources _).bind fun _ => steady_pure _
  · exact (ctx.steady_propertySources _).bind fun _ => steady_pure _
  · exact steady_pure _

theorem value_candidates_method (ctx : Context) (m : MethodSymbol) :
    (ctx.candidates m.toMember).value =
      (ctx.methodSources m).value.map (·.map MethodSymbol.toMember) :=
  (ctx.steady_methodSources m).value_map

theorem value_candidates_property (ctx : Context) (p : PropertySymbol) :
    (ctx.candidates p.toMember).value =
      (ctx.propertySources p).value.map (·.map PropertySymbol.toMember) :=
  (ctx.steady_propertySources p).value_map

/-- Whatever symbol is asked about, its candidates are methods, accessors or properties of the
catalog. -/
theorem inherits_of_mem_candidates (hctx : ctx.WellBuilt) {s s' : MemberSymbol}
    {next : List MemberSymbol}
    (h : (ctx.candidates s).value = .ok next) (hs : s' ∈ next) : ctx.catalog.Inherits s' := by
  unfold candidates at h
  split at h
  · rw [(ctx.steady_methodSources _).value_bind fun _ => steady_pure _] at h
    obtain ⟨sources, hsources, h⟩ := bind_eq_ok.1 h
    cases h
    obtain ⟨r, hr, rfl⟩ := List.mem_map.1 hs
    obtain ⟨t, ht, hr⟩ := exists_mem_of_mem_methodSources hctx hsources hr
    exact .method ht hr
  · rw [(ctx.steady_propertySources _).value_bind fun _ => steady_pure _] at h
    obtain ⟨sources, hsources, h⟩ := bind_eq_ok.1 h
    cases h
    obtain ⟨q, hq, rfl⟩ := List.mem_map.1 hs
    obtain ⟨t, ht, hq⟩ := exists_mem_of_mem_propertySources hctx hsources hq
    exact .property ht hq
  · cases h
    cases hs

/-- The keys that a search may enter are those of everything that can inherit documentation. -/
theorem mem_memberKeys {s : MemberSymbol} {key : String} (hs : ctx.catalog.Inherits s)
    (hk : s.documentationKey = .ok key) : key ∈ ctx.memberKeys := by
  refine List.mem_filterMap.2 ⟨s, ?_, by rw [hk]; rfl⟩
  have hmember : ∀ {t m}, t ∈ ctx.catalog.types → m ∈ t.members →
      m ∈ ctx.catalog.types.flatMap TypeSymbol.members :=
        fun ht hm => List.mem_flatMap.2 ⟨_, ht, hm⟩
  cases hs with
  | method ht ha =>
    rcases TypeSymbol.mem_callables.1 ha with hm | ⟨m, hm, ha⟩
    · exact List.mem_append_left _ (hmember ht hm)
    · exact List.mem_append_right _ <| List.mem_flatMap.2
        ⟨m, hmember ht hm, List.mem_map.2 ⟨_, ha, rfl⟩⟩
  | property ht hp => exact List.mem_append_left _ (hmember ht (TypeSymbol.mem_properties.1 hp))

end Context
end ApiDoc
