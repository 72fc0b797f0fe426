import ApiDoc.Proofs.Agreement
import ApiDoc.Proofs.Candidates
import ApiDoc.Proofs.SymbolTable
import Mathlib.Data.List.Nodup

/-!
# Catalogs with their units in another order

A catalog with the units of another one in a different order holds the same symbols with the units
numbered anew (`Reordered.symbol?`). Its tables have other entries first, but where the full names
of types and the keys of symbols are distinct a lookup does not see which entry comes first. So the
hierarchy can be built if that of the other catalog can (`Reordered.exists_build`), and well-built
contexts over the two correspond (`Reordered.corresponds`).
-/

namespace ApiDoc

variable {σ : Equiv.Perm Nat}

/-! ## Tables with one entry for a key -/

section Tables

variable {κ κ' α α' : Type} [BEq κ] [LawfulBEq κ] [BEq κ'] [LawfulBEq κ']

theorem lookup_eq_some_iff_mem {l : List (κ × α)} {k : κ}
    (hl : ∀ a b, (k, a) ∈ l → (k, b) ∈ l → a = b) {a : α} :
    l.lookup k = some a ↔ (k, a) ∈ l := by
  refine ⟨mem_of_lookup, fun hmem => ?_⟩
  cases hlookup : l.lookup k with
  | none => simpa using List.lookup_eq_none_iff.1 hlookup _ hmem
  | some b => rw [hl a b hmem (mem_of_lookup hlookup)]

/-- Tables with the same entries find the same values, if no key has two. -/
theorem lookup_eq_map_lookup {l : List (κ × α)} {l' : List (κ' × α')} {k : κ} {k' : κ'}
    {g : α → α'} (hl : ∀ a b, (k, a) ∈ l → (k, b) ∈ l → a = b)
    (hmem : ∀ b, (k', b) ∈ l' ↔ ∃ a, (k, a) ∈ l ∧ g a = b) :
    l'.lookup k' = (l.lookup k).map g := by
  have hl' : ∀ a b, (k', a) ∈ l' → (k', b) ∈ l' → a = b := by
    intro a' b' ha' hb'
    obtain ⟨a, ha, rfl⟩ := (hmem a').1 ha'
    obtain ⟨b, hb, rfl⟩ := (hmem b').1 hb'
    rw [hl a b ha hb]
  ext b
  rw [lookup_eq_some_iff_mem hl', hmem, Option.map_eq_some_iff]
  exact exists_congr fun a => and_congr_left' (lookup_eq_some_iff_mem hl).symm

/-- Lists with the same items find the same one, if only one can be found. -/
theorem find?_eq_map_find? {l : List α} {l' : List α'} {p : α → Bool} {p' : α' → Bool} {g : α → α'}
    (hl : ∀ a ∈ l, ∀ b ∈ l, p a = true → p b = true → a = b)
    (hmem : ∀ b, b ∈ l' ↔ b ∈ l.map g) (hp : ∀ a, p' (g a) = p a) :
    l'.find? p' = (l.find? p).map g := by
  cases hfind : l.find? p with
  | none =>
    refine List.find?_eq_none.2 fun b hb => ?_
    obtain ⟨a, ha, rfl⟩ := List.mem_map.1 ((hmem b).1 hb)
    rw [hp]
    exact List.find?_eq_none.1 hfind a ha
  | some a =>
    have ha := List.mem_of_find?_eq_some hfind
    have hpa := List.find?_some hfind
    cases hfind' : l'.find? p' with
    | none =>
      have hnone := List.find?_eq_none.1 hfind' (g a) ((hmem _).2 (List.mem_map_of_mem ha))
      rw [hp] at hnone
      exact absurd hpa hnone
    | some b =>
      obtain ⟨a', ha', rfl⟩ := List.mem_map.1 ((hmem b).1 (List.mem_of_find?_eq_some hfind'))
      have hpa' := List.find?_some hfind'
      rw [hp] at hpa'
      rw [hl a ha a' ha' hpa hpa', Option.map_some]

end Tables

/-! ## Catalogs -/

/-- The second catalog holds the units of the first one at the numbers that `σ` gives them. -/
structure Catalog.Reordered (σ : Equiv.Perm Nat) (c c' : Catalog) : Prop where
  units : ∀ i, c'.units[σ i]? = c.units[i]?
  detached : c'.detached = c.detached

namespace Catalog.Reordered

variable {c c' : Catalog}

theorem mem_unitSymbols (h : Reordered σ c c') (u : UnitSymbol) :
    u ∈ c'.unitSymbols ↔ u ∈ c.unitSymbols.map (UnitSymbol.renumber σ) := by
  have hmem : ∀ (c : Catalog) (u : UnitSymbol),
      u ∈ c.unitSymbols ↔ c.units[u.number]? = some u.decl := by
    intro c u
    simp only [unitSymbols, List.mem_map, Prod.exists, List.mem_zipIdx_iff_getElem?]
    constructor
    · rintro ⟨unit, i, hi, rfl⟩
      exact hi
    · exact fun hi => ⟨u.decl, u.number, hi, rfl⟩
  simp only [List.mem_map, hmem]
  constructor
  · intro hu
    refine ⟨⟨σ.symm u.number, u.decl⟩, ?_, ?_⟩
    · rw [← h.units, Equiv.apply_symm_apply]
      exact hu
    · simp [UnitSymbol.renumber]
  · rintro ⟨u, hu, rfl⟩
    exact (h.units u.number).trans hu

theorem mem_types (h : Reordered σ c c') (t : TypeSymbol) :
    t ∈ c'.types ↔ t ∈ c.types.map (TypeSymbol.renumber σ) := by
  simp only [types, List.mem_flatMap, h.mem_unitSymbols, List.mem_map]
  constructor
  · rintro ⟨_, ⟨u, hu, rfl⟩, ht'⟩
    rw [UnitSymbol.renumber_types] at ht'
    obtain ⟨t, ht, rfl⟩ := List.mem_map.1 ht'
    exact ⟨t, ⟨u, hu, ht⟩, rfl⟩
  · rintro ⟨t, ⟨u, hu, ht⟩, rfl⟩
    refine ⟨_, ⟨u, hu, rfl⟩, ?_⟩
    rw [UnitSymbol.renumber_types]
    exact List.mem_map_of_mem ht

theorem mem_symbols (h : Reordered σ c c') (s : Symbol) :
    s ∈ c'.symbols ↔ s ∈ c.symbols.map (Symbol.renumber σ) := by
  simp only [symbols_eq, List.mem_flatMap, h.mem_types, List.mem_map]
  constructor
  · rintro ⟨_, ⟨t, ht, rfl⟩, hs'⟩
    rw [TypeSymbol.renumber_symbols] at hs'
    obtain ⟨s, hs, rfl⟩ := List.mem_map.1 hs'
    exact ⟨s, ⟨t, ht, hs⟩, rfl⟩
  · rintro ⟨s, ⟨t, ht, hs⟩, rfl⟩
    refine ⟨_, ⟨t, ht, rfl⟩, ?_⟩
    rw [TypeSymbol.renumber_symbols]
    exact List.mem_map_of_mem hs

/-! ### Lookup by address -/

theorem rootSymbol? (h : Reordered σ c c') (root : Root) :
    c'.rootSymbol? (root.renumber σ) = (c.rootSymbol? root).map (Symbol.renumber σ) := by
  cases root with
  | detached i =>
    simp only [Catalog.rootSymbol?, Root.renumber, h.detached]
    cases c.detached[i]? with
    | none => rfl
    | some d => cases d <;> rfl
  | declared u t =>
    have hunit : c'.unitSymbols[σ u]? = c.unitSymbols[u]?.map (UnitSymbol.renumber σ) := by
      simp [unitSymbols, h.units, Function.comp_def, UnitSymbol.renumber]
    simp only [Catalog.rootSymbol?, Root.renumber, hunit]
    cases c.unitSymbols[u]? with
    | none => rfl
    | some unit =>
      cases ht : unit.types[t]? <;> simp [ht, Symbol.renumber]

theorem symbol? (h : Reordered σ c c') (a : Address) :
    c'.symbol? (a.renumber σ) = (c.symbol? a).map (Symbol.renumber σ) := by
  have hpath : ∀ (path : List Step) (s : Option Symbol),
      path.foldl (fun s step => s.bind (·.below? step)) (s.map (Symbol.renumber σ)) =
        (path.foldl (fun s step => s.bind (·.below? step)) s).map (Symbol.renumber σ) := by
    intro path
    induction path with
    | nil => exact fun _ => rfl
    | cons step path ih =>
      intro s
      rw [List.foldl_cons, List.foldl_cons, ← ih]
      cases s with
      | none => rfl
      | some s => simp [Symbol.renumber_below?]
  have hroot : c'.rootSymbol? (a.renumber σ).root =
      (c.rootSymbol? a.root).map (Symbol.renumber σ) := h.rootSymbol? a.root
  rw [Catalog.symbol?, Catalog.symbol?, hroot]
  exact hpath a.path _

theorem type? (h : Reordered σ c c') (a : Address) :
    c'.type? (a.renumber σ) = (c.type? a).map (TypeSymbol.renumber σ) := by
  rw [Catalog.type?, h.symbol?, Catalog.type?]
  cases c.symbol? a with
  | none => rfl
  | some s => cases s <;> rfl

theorem method? (h : Reordered σ c c') (a : Address) :
    c'.method? (a.renumber σ) = (c.method? a).map (Placed.renumber σ) := by
  rw [Catalog.method?, h.symbol?, Catalog.method?]
  cases c.symbol? a with
  | none => rfl
  | some s =>
    cases s with
    | member m => exact m.renumber_method?
    | type t => rfl
    | parameter p => rfl

end Catalog.Reordered

/-! ## Hierarchies -/

theorem Symbol.hasKey_renumber {s : Symbol} {key : String} :
    (s.renumber σ).HasKey key ↔ s.HasKey key := by
  simp [HasKey]

theorem Hierarchy.keysOf_renumber (s : Symbol) :
    keysOf (s.renumber σ) = (keysOf s).map (List.map fun e => (e.1, e.2.renumber σ)) := by
  have hkey := s.renumber_documentationKey (σ := σ)
  rw [keysOf, keysOf, Symbol.renumber_identifier]
  cases s.identifier with
  | error e => rfl
  | ok id =>
    cases s with
    | type t => rfl
    | parameter p => rfl
    | member m =>
      obtain ⟨address, owner, decl⟩ := m
      cases decl with
      | event e =>
        change (((Symbol.member ⟨address, owner, .event e⟩).renumber σ).documentationKey >>= _) = _
        rw [hkey]
        cases (Symbol.member ⟨address, owner, .event e⟩).documentationKey <;> rfl
      | _ => rfl

/-- The table of an interface, in units that are numbered anew. -/
theorem Context.dispatchEntries_map_renumber (arguments : List TypeRef)
    (methods : List MethodSymbol) :
    dispatchEntries arguments (methods.map (Placed.renumber σ)) =
      (dispatchEntries arguments methods).map (List.map fun e => (e.1, e.2.renumber σ)) := by
  induction methods with
  | nil => rfl
  | cons m methods ih =>
    have hsignature : MethodSymbol.signature (m.renumber σ) arguments = m.signature arguments := rfl
    rw [List.map_cons, dispatchEntries, dispatchEntries, hsignature, ih]
    cases m.signature arguments with
    | error e => rfl
    | ok s => cases dispatchEntries arguments methods <;> rfl

namespace Catalog.Reordered

open Hierarchy

variable {c c' : Catalog} {hier hier' : Hierarchy}

theorem mem_overrides (h : Reordered σ c c') (m : MethodSymbol) :
    m ∈ overrides c' ↔ m ∈ (overrides c).map (Placed.renumber σ) := by
  simp only [Hierarchy.mem_overrides, List.mem_map, h.mem_types]
  constructor
  · rintro ⟨_, ⟨t, ht, rfl⟩, hm', ho⟩
    rw [TypeSymbol.renumber_callables] at hm'
    obtain ⟨m, hm, rfl⟩ := List.mem_map.1 hm'
    exact ⟨m, ⟨t, ht, hm, ho⟩, rfl⟩
  · rintro ⟨m, ⟨t, ht, hm, ho⟩, rfl⟩
    refine ⟨_, ⟨t, ht, rfl⟩, ?_, ho⟩
    rw [TypeSymbol.renumber_callables]
    exact List.mem_map_of_mem hm

/-- With distinct full names, a type is found in either order. -/
theorem findType (h : Reordered σ c c')
    (hnames : (c.types.map fun t => t.decl.ref.fullName).Nodup)
    (ht : hier.types = c.types.map fun t => (t.decl.ref.fullName, t.address))
    (ht' : hier'.types = c'.types.map fun t => (t.decl.ref.fullName, t.address)) (ref : TypeRef) :
    hier'.findType c' ref = (hier.findType c ref).map (TypeSymbol.renumber σ) := by
  have hlookup : ∀ name,
      hier'.types.lookup name = (hier.types.lookup name).map (Address.renumber σ) := by
    intro name
    simp only [ht, ht']
    refine lookup_eq_map_lookup (fun a b ha hb => ?_) fun b => ?_
    · simp only [List.mem_map, Prod.mk.injEq] at ha hb
      obtain ⟨t, hmem, rfl, rfl⟩ := ha
      obtain ⟨u, humem, hname, rfl⟩ := hb
      rw [List.inj_on_of_nodup_map hnames hmem humem hname.symm]
    · simp only [List.mem_map, h.mem_types, Prod.mk.injEq]
      constructor
      · rintro ⟨_, ⟨t, hmem, rfl⟩, rfl, rfl⟩
        exact ⟨t.address, ⟨t, hmem, rfl, rfl⟩, rfl⟩
      · rintro ⟨_, ⟨t, hmem, rfl, rfl⟩, rfl⟩
        exact ⟨_, ⟨t, hmem, rfl⟩, rfl, rfl⟩
  simp only [Hierarchy.findType, hlookup]
  cases ref.named? with
  | none => rfl
  | some named =>
    cases hl : hier.types.lookup named.fullName with
    | none => simp [hl]
    | some a => simpa [hl] using h.type? a

/-- The hierarchy can be built in either order. -/
theorem exists_build (h : Reordered σ c c')
    (hnames : (c.types.map fun t => t.decl.ref.fullName).Nodup)
    (hb : Hierarchy.build c = .ok hier) : ∃ hier', Hierarchy.build c' = .ok hier' := by
  obtain ⟨htypes, hok, -⟩ := build_eq_ok hb
  obtain ⟨tables, htables, -⟩ := bind_eq_ok.1 hb
  have hkeys : ∃ tables', (c'.types.flatMap TypeSymbol.symbols).mapM keysOf = .ok tables' := by
    refine exists_mapM fun s' hs' => ?_
    rw [← symbols_eq, h.mem_symbols] at hs'
    obtain ⟨s, hs, rfl⟩ := List.mem_map.1 hs'
    obtain ⟨entries, he⟩ := exists_of_mapM htables (symbols_eq c ▸ hs)
    exact ⟨_, by rw [keysOf_renumber, he]; rfl⟩
  obtain ⟨tables', htables'⟩ := hkeys
  let names : List (String × Address) := c'.types.map fun t => (t.decl.ref.fullName, t.address)
  have hroots : ∃ roots, (overrides c').mapM (fun m => do
      let root ← overrideRootOf
        (Hierarchy.findType { types := names, symbols := tables'.flatten } c') c'.types m
      .ok (m.address, root.address)) = .ok roots := by
    refine exists_mapM fun m' hm' => ?_
    obtain ⟨m, hm, rfl⟩ := List.mem_map.1 ((h.mem_overrides m').1 hm')
    obtain ⟨root, hroot⟩ := hok m hm
    rw [overrideRootOf_renumber (h.findType hnames htypes rfl) (sameUnseen_of_mem h.mem_types),
      hroot]
    exact ⟨_, rfl⟩
  obtain ⟨roots, hroots⟩ := hroots
  exact ⟨_, bind_eq_ok.2 ⟨tables', htables', bind_eq_ok.2 ⟨roots, hroots, rfl⟩⟩⟩

/-- The override root that the hierarchy holds for a method is the same in either order. -/
theorem lookup_roots (h : Reordered σ c c')
    (hnames : (c.types.map fun t => t.decl.ref.fullName).Nodup)
    (hb : Hierarchy.build c = .ok hier) (hb' : Hierarchy.build c' = .ok hier') (a : Address) :
    hier'.roots.lookup (a.renumber σ) = (hier.roots.lookup a).map (Address.renumber σ) := by
  obtain ⟨htypes, -, hroots⟩ := build_eq_ok hb
  obtain ⟨htypes', -, hroots'⟩ := build_eq_ok hb'
  refine lookup_eq_map_lookup (fun b₁ b₂ h₁ h₂ => ?_) fun b => ?_
  · obtain ⟨m, hm, root, hroot, rfl, rfl⟩ := (hroots _ _).1 h₁
    obtain ⟨m', hm', root', hroot', ha, rfl⟩ := (hroots _ _).1 h₂
    obtain ⟨t, ht, hmt, -⟩ := Hierarchy.mem_overrides.1 hm
    obtain ⟨t', ht', hmt', -⟩ := Hierarchy.mem_overrides.1 hm'
    obtain rfl := method_ext ht hmt ht' hmt' ha
    cases hroot.symm.trans hroot'
    rfl
  · have hroot : ∀ m, overrideRootOf (hier'.findType c') c'.types (m.renumber σ) =
        (overrideRootOf (hier.findType c) c.types m).map (Placed.renumber σ) :=
      overrideRootOf_renumber (h.findType hnames htypes htypes') (sameUnseen_of_mem h.mem_types)
    simp only [hroots, hroots', h.mem_overrides, List.mem_map]
    constructor
    · rintro ⟨_, ⟨m, hm, rfl⟩, root', hroot', ha, rfl⟩
      rw [hroot, map_eq_ok] at hroot'
      obtain ⟨root, hroot', rfl⟩ := hroot'
      exact ⟨root.address, ⟨m, hm, root, hroot', Address.renumber_inj.1 ha, rfl⟩, rfl⟩
    · rintro ⟨_, ⟨m, hm, root, hroot', rfl, rfl⟩, rfl⟩
      refine ⟨_, ⟨m, hm, rfl⟩, root.renumber σ, ?_, rfl, rfl⟩
      rw [hroot, hroot']
      rfl

end Catalog.Reordered

/-! ## Contexts -/

namespace Context

open Answer

variable {ctx ctx' : Context}

/-- Well-built contexts over the same units in different orders correspond, if names and keys are
distinct. -/
theorem corresponds_of_reordered (h : Catalog.Reordered σ ctx.catalog ctx'.catalog)
    (hctx : ctx.WellBuilt) (hctx' : ctx'.WellBuilt)
    (hnames : (ctx.catalog.types.map fun t => t.decl.ref.fullName).Nodup)
    (hkeys : ∀ s ∈ ctx.catalog.symbols, ∀ s' ∈ ctx.catalog.symbols, ∀ key,
      s.HasKey key → s'.HasKey key → s = s')
    (hsettings : ctx'.settings = ctx.settings)
    (hpaths : ∀ s, ctx'.paths (s.renumber σ) = ctx.paths s)
    (houtcomes : ∀ unit, ctx'.outcomes.lookup unit = ctx.outcomes.lookup unit)
    (spared : Option String → Prop) :
    Corresponds σ (fun _ => True) spared ctx ctx' := by
  have hfind : ∀ ref, ctx'.findType ref = (ctx.findType ref).map (TypeSymbol.renumber σ) :=
    h.findType hnames (Hierarchy.build_eq_ok hctx.hierarchy).1
      (Hierarchy.build_eq_ok hctx'.hierarchy).1
  exact {
    types := h.mem_types
    findType := hfind
    findSymbol := fun key => by
      rw [findSymbol_eq_find? hctx.hierarchy, findSymbol_eq_find? hctx'.hierarchy]
      refine find?_eq_map_find? (fun s hs s' hs' hkey hkey' => ?_) h.mem_symbols fun s => ?_
      · exact hkeys s hs s' hs' key (of_decide_eq_true hkey) (of_decide_eq_true hkey')
      · exact decide_eq_decide.2 Symbol.hasKey_renumber
    method? := h.method?
    overrideRoot := fun m => by
      rw [overrideRoot, overrideRoot, Placed.renumber_address,
        h.lookup_roots hnames hctx.hierarchy hctx'.hierarchy]
      cases ctx.hierarchy.roots.lookup m.address with
      | none => rfl
      | some a =>
        rw [Option.map_some, Option.bind_some, Option.bind_some, h.method?]
        cases ctx.catalog.method? a <;> rfl
    settings := hsettings
    paths := hpaths
    outcomes := fun unit => by
      rw [houtcomes]
      cases ctx.outcomes.lookup unit with
      | none => exact .none
      | some outcome => exact .some (Results.refl Contents.Agree.refl outcome)
    logged := fun _ => trivial
    consulted := fun _ => trivial
    dispatch := fun ref => by
      refine parallel_of_steady (ctx.steady_dispatch ref) (ctx'.steady_dispatch ref) ?_
        ((ctx.quiet_dispatch ref).mono fun _ _ => trivial)
        ((ctx'.quiet_dispatch ref).mono fun _ _ => trivial)
      rw [value_dispatch hctx, value_dispatch hctx', hfind]
      cases ctx.findType ref with
      | none => exact .ok rfl
      | some t =>
        simp only [Option.map_some, TypeSymbol.renumber_callables, dispatchEntries_map_renumber]
        cases dispatchEntries ref.arguments t.callables with
        | error e => exact .error e
        | ok table => exact .ok rfl }

end Context

end ApiDoc
