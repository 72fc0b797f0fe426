import Mathlib
import ApiDoc.Proofs.Supported

/-!
# Which property is inherited from

The accessor of a property leads to accessors above it. From each of them a property is derived: the
first property of its type with the same simple name, and where there is none the property that the
accessor belongs to (`MethodSymbol.property?_of_mem_accessors`). So the property that the accessor
belongs to is the one inherited from exactly if it is the first of that name or none has it
(`propertySources_of_accessor`).
-/

namespace ApiDoc

/-- The first property of a type that has a simple name. -/
def TypeSymbol.IsFirstNamed (t : TypeSymbol) (name : String) (p : PropertySymbol) : Prop :=
  Text.simpleName p.decl.name = Text.simpleName name ∧
    ∃ before after, t.properties = before ++ p :: after ∧
      ∀ q ∈ before, Text.simpleName q.decl.name ≠ Text.simpleName name

theorem TypeSymbol.property?_eq_some {t : TypeSymbol} {name : String} {p : PropertySymbol} :
    t.property? name = some p ↔ t.IsFirstNamed name p := by
  simp [property?, IsFirstNamed, List.find?_eq_some_iff_append]

theorem TypeSymbol.property?_eq_none {t : TypeSymbol} {name : String} :
    t.property? name = none ↔
      ∀ p ∈ t.properties, Text.simpleName p.decl.name ≠ Text.simpleName name := by
  simp [property?]

/-- An accessor belongs to the property that it stands under. -/
theorem MethodSymbol.property?_of_mem_accessors {c : Catalog} {t : TypeSymbol} {a : MethodSymbol}
    {p : PropertySymbol} (ht : t ∈ c.types) (hp : p ∈ t.properties)
    (ha : a ∈ p.toMember.accessors) : a.property? = some p := by
  have howner : a.owner = some t := by
    rw [MemberSymbol.owner_of_mem_accessors ha]
    exact TypeSymbol.owner_of_mem_members (TypeSymbol.mem_properties.1 hp)
  have hone : ∀ q ∈ t.properties,
      (q.toMember.accessors.any fun b => b.address = a.address) = true → q = p := by
    intro q hq hany
    obtain ⟨b, hb, haddress⟩ := List.any_eq_true.1 hany
    obtain ⟨step, hstep, -⟩ := Symbol.below?_accessor ha
    obtain ⟨step', hstep', -⟩ := Symbol.below?_accessor hb
    have hunder := hstep'.symm.trans ((of_decide_eq_true haddress).trans hstep)
    exact Catalog.property_ext ht hq ht hp (Address.eq_of_under hunder)
  rw [property?, howner, Option.bind_some]
  cases hfind : t.properties.find? fun q => q.toMember.accessors.any fun b =>
      b.address = a.address with
  | none =>
    have hnone := List.find?_eq_none.1 hfind p hp
    exact absurd (List.any_eq_true.2 ⟨a, ha, by simp⟩) hnone
  | some q =>
    have hany := List.find?_some hfind
    rw [hone q (List.mem_of_find?_eq_some hfind) hany]

namespace Context

variable {ctx : Context} {t u : TypeSymbol} {a c : MethodSymbol} {p q : PropertySymbol}

/-- The property that another inherits from by way of a method above its accessor. -/
def inheritedProperty? (p : PropertySymbol) (c : MethodSymbol) : Option PropertySymbol :=
  (sourceProperty? p.decl.name c).filter fun q => q.address ≠ p.address

theorem value_propertySources {rest : List MethodSymbol} (ha : p.toMember.accessors = a :: rest) :
    (ctx.propertySources p).value =
      (ctx.methodSources a).value.map (·.filterMap (inheritedProperty? p)) := by
  have hfilter : ∀ sources : List MethodSymbol,
      (sources.filterMap (sourceProperty? p.decl.name)).filter (fun q => q.address ≠ p.address) =
        sources.filterMap (inheritedProperty? p) := by
    intro sources
    rw [List.filter_filterMap]
    rfl
  simp only [propertySources, ha, hfilter]
  exact (ctx.steady_methodSources a).value_map

/-- From an accessor of a property, the first property of its type that has the simple name asked
for is derived, or the property of the accessor if there is none. -/
theorem inheritedProperty?_of_mem_accessors (hu : u ∈ ctx.catalog.types) (hq : q ∈ u.properties)
    (hc : c ∈ q.toMember.accessors) (hne : q.address ≠ p.address) :
    (∀ r, u.IsFirstNamed p.decl.name r →
      inheritedProperty? p c = if r.address = p.address then none else some r) ∧
    ((∀ r ∈ u.properties, Text.simpleName r.decl.name ≠ Text.simpleName p.decl.name) →
      inheritedProperty? p c = some q) := by
  have howner : c.owner = some u := by
    rw [MemberSymbol.owner_of_mem_accessors hc]
    exact TypeSymbol.owner_of_mem_members (TypeSymbol.mem_properties.1 hq)
  refine ⟨fun r hr => ?_, fun hnone => ?_⟩
  · rw [inheritedProperty?, sourceProperty?, howner, Option.bind_some,
      TypeSymbol.property?_eq_some.2 hr, Option.orElse_some]
    by_cases heq : r.address = p.address <;> simp [heq]
  · rw [inheritedProperty?, sourceProperty?, howner, Option.bind_some,
      TypeSymbol.property?_eq_none.2 hnone, Option.orElse_none,
      MethodSymbol.property?_of_mem_accessors hu hq hc]
    simp [hne]

/-- What a property inherits from is derived, one by one, from what the first of its accessors
overrides or implements. If that is an accessor of another property, then this property is derived
exactly if it is the first of its type that has the simple name of the property, or if none has it.
Where there is a first, that one is derived, unless it is the property itself. -/
theorem propertySources_of_accessor (hctx : ctx.WellBuilt) (ht : t ∈ ctx.catalog.types)
    (hp : p ∈ t.properties) {rest : List MethodSymbol} (ha : p.toMember.accessors = a :: rest) :
    (ctx.catalog.Supported → ∃ cs, (ctx.methodSources a).value = .ok cs) ∧
    ∀ cs, (ctx.methodSources a).value = .ok cs →
      (ctx.propertySources p).value = .ok (cs.filterMap (inheritedProperty? p)) ∧
      ∀ c ∈ cs, ∃ u ∈ ctx.catalog.types, c.owner = some u ∧
        ∀ q ∈ u.properties, c ∈ q.toMember.accessors → q ≠ p →
          (inheritedProperty? p c = some q ↔ u.IsFirstNamed p.decl.name q ∨
            ∀ r ∈ u.properties, Text.simpleName r.decl.name ≠ Text.simpleName p.decl.name) ∧
          ∀ r, u.IsFirstNamed p.decl.name r →
            inheritedProperty? p c = if r.address = p.address then none else some r := by
  have hcallable : a ∈ t.callables := TypeSymbol.mem_callables.2
    (.inr ⟨_, TypeSymbol.mem_properties.1 hp, ha ▸ List.mem_cons_self⟩)
  refine ⟨fun hsup => exists_methodSources hctx hsup ht hcallable, fun cs hcs => ⟨?_, ?_⟩⟩
  · rw [value_propertySources ha, hcs]
    rfl
  intro c hc
  obtain ⟨u, hu, hmem⟩ := exists_mem_of_mem_methodSources hctx hcs hc
  refine ⟨u, hu, TypeSymbol.owner_of_mem_callables hmem, fun q hq hacc hne => ?_⟩
  have haddress : q.address ≠ p.address := fun h => hne (Catalog.property_ext hu hq ht hp h)
  obtain ⟨hfirst, hnone⟩ := inheritedProperty?_of_mem_accessors hu hq hacc haddress
  refine ⟨⟨fun hsome => ?_, ?_⟩, hfirst⟩
  · cases hr : u.property? p.decl.name with
    | none => exact .inr (TypeSymbol.property?_eq_none.1 hr)
    | some r =>
      have hr := TypeSymbol.property?_eq_some.1 hr
      rw [hfirst r hr] at hsome
      split at hsome
      · cases hsome
      · cases hsome
        exact .inl hr
  · rintro (hq | hall)
    · rw [hfirst q hq, if_neg haddress]
    · exact hnone hall

/-- A herd whose members are asked for by number, as an interface wants it, or by name, and a pack
that overrides the latter. -/
def packsCatalog : Catalog :=
  let item (name getter : String) (modifier : String) (key : TypeRef) : Member :=
    .property {
      name
      type := .system "Object"
      getter := some {
        name := getter
        modifiers := ["public", modifier]
        parameters := [{ name := "key", type := key }] }
      indexParameters := [{ name := "key", type := key }] }
  { units := [
      { name := "Zoo"
        types := [
          { ref := .named "Zoo" "Herd" [] none
            members := [
              item "Zoo.IFlock.Item" "Zoo.IFlock.get_Item" "virtual" (.system "Int32"),
              item "Item" "get_Item" "virtual" (.system "String")] },
          { ref := .named "Zoo" "Pack" [] none
            base := some (.named "Zoo" "Herd" [] none)
            members := [item "Item" "get_Item" "override" (.system "String")] }] }] }

def packs : Context := .ofCatalog packsCatalog

def herd : TypeSymbol :=
  packsCatalog.types[0]?.getD ⟨⟨.detached 0, []⟩, none, { ref := .void }⟩

def pack : TypeSymbol :=
  packsCatalog.types[1]?.getD ⟨⟨.detached 0, []⟩, none, { ref := .void }⟩

/-- One of the properties of a type. -/
def itemOf (t : TypeSymbol) (number : Nat) : PropertySymbol :=
  t.properties[number]?.getD ⟨⟨.detached 0, []⟩, none, { name := "", type := .void }⟩

/-- The accessor of a property. -/
def getterOf (p : PropertySymbol) : MethodSymbol :=
  p.toMember.accessors.headD ⟨⟨.detached 0, []⟩, none, { name := "" }⟩

theorem packs_wellBuilt : packs.WellBuilt := wellBuilt_ofCatalog (by cbv)

theorem packs_sources :
    (packs.methodSources (getterOf (itemOf pack 0))).value = .ok [getterOf (itemOf herd 1)] := by
  cbv

/-- By way of the accessor that it overrides, the item of the pack inherits from the item by number
of the herd, and not from the item by name that the accessor belongs to. -/
theorem propertySources_of_accessor_packs :
    (packs.propertySources (itemOf pack 0)).value = .ok [itemOf herd 0] ∧
    getterOf (itemOf herd 1) ∈ (itemOf herd 1).toMember.accessors ∧
    inheritedProperty? (itemOf pack 0) (getterOf (itemOf herd 1)) = some (itemOf herd 0) ∧
    inheritedProperty? (itemOf pack 0) (getterOf (itemOf herd 1)) ≠ some (itemOf herd 1) := by
  have ht : pack ∈ packs.catalog.types := .tail _ (.head _)
  have hp : itemOf pack 0 ∈ pack.properties := .head _
  obtain ⟨hvalue, hall⟩ :=
    (propertySources_of_accessor packs_wellBuilt ht hp rfl).2 _ packs_sources
  obtain ⟨u, hu, howner, hq⟩ := hall _ (.head _)
  obtain rfl : herd = u := Option.some.inj howner
  have hne : itemOf herd 1 ≠ itemOf pack 0 :=
    fun h => absurd (congrArg Placed.address h) (by decide)
  obtain ⟨-, hfirst⟩ := hq (itemOf herd 1) (.tail _ (.head _)) (.head _) hne
  have hnamed : herd.IsFirstNamed (itemOf pack 0).decl.name (itemOf herd 0) :=
    ⟨by decide, [], [itemOf herd 1], rfl, by simp⟩
  have hderived :
      inheritedProperty? (itemOf pack 0) (getterOf (itemOf herd 1)) = some (itemOf herd 0) :=
    (hfirst _ hnamed).trans (if_neg (by decide))
  refine ⟨?_, .head _, hderived, ?_⟩
  · rw [hvalue, List.filterMap_cons_some hderived, List.filterMap_nil]
  · rw [hderived]
    intro h
    exact absurd (congrArg Placed.address (Option.some.inj h)) (by decide)

/-- A property that an accessor above leads to need not be the one that the accessor belongs to:
among properties of one simple name the first is taken. -/
theorem not_forall_inheritedProperty?_eq : ¬ ∀ (ctx : Context) (t u : TypeSymbol)
    (p q : PropertySymbol) (a c : MethodSymbol) (rest cs : List MethodSymbol),
    ctx.WellBuilt → t ∈ ctx.catalog.types → p ∈ t.properties →
    p.toMember.accessors = a :: rest → (ctx.methodSources a).value = .ok cs → c ∈ cs →
    c.owner = some u → q ∈ u.properties → c ∈ q.toMember.accessors → q ≠ p →
    inheritedProperty? p c = some q := by
  intro hall
  have hderived := hall packs pack herd (itemOf pack 0) (itemOf herd 1)
    (getterOf (itemOf pack 0)) (getterOf (itemOf herd 1)) [] _ packs_wellBuilt
    (.tail _ (.head _)) (.head _) rfl packs_sources (.head _) rfl (.tail _ (.head _)) (.head _)
    (fun h => absurd (congrArg Placed.address h) (by decide))
  have hfirst :
      inheritedProperty? (itemOf pack 0) (getterOf (itemOf herd 1)) = some (itemOf herd 0) := by
    cbv
  rw [hfirst] at hderived
  exact absurd (congrArg Placed.address (Option.some.inj hderived)) (by decide)

end Context

end ApiDoc
