import ApiDoc.Metadata.Catalog

/-!
# Every symbol stands at its address

The types of a catalog, their members and the accessors of members are found again at their own
addresses (`symbol?_type`, `symbol?_member`, `symbol?_accessor`), so two of them with one address
are the same symbol. `Catalog.Inherits` holds of those that documentation can be inherited for, and
`Catalog.Declares` of the types and members that identifiers stand for.
-/

namespace ApiDoc

@[simp] theorem Address.under_inj {a : Address} {s s' : Step} :
    a.under s = a.under s' ↔ s = s' := by
  simp [under]

/-- Steps below two addresses come to one address only if the addresses are the same. -/
theorem Address.eq_of_under {a a' : Address} {s s' : Step} (h : a.under s = a'.under s') :
    a = a' := by
  obtain ⟨root, path⟩ := a
  obtain ⟨root', path'⟩ := a'
  simp only [under, mk.injEq] at h
  obtain ⟨rfl, hpath⟩ := h
  rw [List.append_inj_left' hpath rfl]

/-! ## Members and accessors of a type -/

variable {t : TypeSymbol} {m : MemberSymbol} {a : MethodSymbol}

namespace TypeSymbol

theorem mem_members : m ∈ t.members ↔
    ∃ i decl, t.decl.members[i]? = some decl ∧ m = ⟨t.address.under (.member i), some t, decl⟩ := by
  simp only [members, List.mem_map, Prod.exists, List.mem_zipIdx_iff_getElem?]
  constructor
  · rintro ⟨decl, i, hi, rfl⟩
    exact ⟨i, decl, hi, rfl⟩
  · rintro ⟨i, decl, hi, rfl⟩
    exact ⟨decl, i, hi, rfl⟩

theorem owner_of_mem_members (hm : m ∈ t.members) : m.owner = some t := by
  obtain ⟨i, decl, -, rfl⟩ := mem_members.1 hm
  rfl

theorem mem_callables :
    a ∈ t.callables ↔ a.toMember ∈ t.members ∨ ∃ m ∈ t.members, a ∈ m.accessors := by
  simp only [callables, List.mem_flatMap, List.mem_append, Option.mem_toList]
  constructor
  · rintro ⟨⟨address, owner, decl⟩, hm, h | h⟩
    · cases decl <;> simp only [MemberSymbol.method?, Option.some.injEq, reduceCtorEq] at h
      subst h
      exact .inl hm
    · exact .inr ⟨_, hm, h⟩
  · rintro (h | ⟨m, hm, h⟩)
    · exact ⟨_, h, .inl rfl⟩
    · exact ⟨m, hm, .inr h⟩

theorem mem_properties {p : PropertySymbol} : p ∈ t.properties ↔ p.toMember ∈ t.members := by
  simp only [properties, List.mem_filterMap]
  constructor
  · rintro ⟨⟨address, owner, decl⟩, hm, h⟩
    cases decl <;> simp only [MemberSymbol.property?, Option.some.injEq, reduceCtorEq] at h
    subst h
    exact hm
  · exact fun h => ⟨_, h, rfl⟩

end TypeSymbol

theorem MemberSymbol.owner_of_mem_accessors (ha : a ∈ m.accessors) : a.owner = m.owner := by
  obtain ⟨address, owner, decl⟩ := m
  cases decl <;> simp only [accessors, List.mem_append, List.mem_map, List.not_mem_nil] at ha
  case property p => rcases ha with ⟨_, -, rfl⟩ | ⟨_, -, rfl⟩ <;> rfl
  case event e => rcases ha with ⟨_, -, rfl⟩ | ⟨_, -, rfl⟩ <;> rfl

/-- An accessor is the symbol that stands at its step below the member. -/
theorem Symbol.below?_accessor (ha : a ∈ m.accessors) :
    ∃ step, a.address = m.address.under step ∧
      (Symbol.member m).below? step = some (.member a.toMember) := by
  obtain ⟨address, owner, decl⟩ := m
  cases decl <;> simp only [MemberSymbol.accessors, List.mem_append, List.mem_map,
    List.not_mem_nil] at ha
  case property p =>
    obtain ⟨_, _, getter, setter, _⟩ := p
    rcases ha with ⟨d, hd, rfl⟩ | ⟨d, hd, rfl⟩
    · cases Option.mem_toList.1 hd
      exact ⟨.getter, rfl, by simp [below?, MemberSymbol.accessors, MemberSymbol.accessor]⟩
    · cases Option.mem_toList.1 hd
      refine ⟨.setter, rfl, ?_⟩
      cases getter <;> simp [below?, MemberSymbol.accessors, MemberSymbol.accessor]
  case event e =>
    obtain ⟨_, _, adder, remover⟩ := e
    rcases ha with ⟨d, hd, rfl⟩ | ⟨d, hd, rfl⟩
    · cases Option.mem_toList.1 hd
      exact ⟨.adder, rfl, by simp [below?, MemberSymbol.accessors, MemberSymbol.accessor]⟩
    · cases Option.mem_toList.1 hd
      refine ⟨.remover, rfl, ?_⟩
      cases adder <;> simp [below?, MemberSymbol.accessors, MemberSymbol.accessor]

theorem TypeSymbol.owner_of_mem_callables (ha : a ∈ t.callables) : a.owner = some t := by
  rcases mem_callables.1 ha with h | ⟨m, hm, h⟩
  · exact owner_of_mem_members h
  · rw [MemberSymbol.owner_of_mem_accessors h, owner_of_mem_members hm]

namespace Catalog

variable {c : Catalog}

/-! ## Lookup by address -/

theorem mem_types : t ∈ c.types ↔ ∃ u i unit decl, c.units[u]? = some unit ∧
    unit.types[i]? = some decl ∧ t = ⟨{ root := .declared u i }, some unit.name, decl⟩ := by
  simp only [types, unitSymbols, UnitSymbol.types, UnitSymbol.name, List.mem_flatMap, List.mem_map,
    Prod.exists, List.mem_zipIdx_iff_getElem?]
  constructor
  · rintro ⟨_, ⟨unit, u, hu, rfl⟩, decl, i, hi, rfl⟩
    exact ⟨u, i, unit, decl, hu, hi, rfl⟩
  · rintro ⟨u, i, unit, decl, hu, hi, rfl⟩
    exact ⟨_, ⟨unit, u, hu, rfl⟩, decl, i, hi, rfl⟩

theorem symbol?_type (ht : t ∈ c.types) : c.symbol? t.address = some (.type t) := by
  obtain ⟨u, i, unit, decl, hu, hi, rfl⟩ := mem_types.1 ht
  have hunit : c.unitSymbols[u]? = some ⟨u, unit⟩ := by simp [unitSymbols, hu]
  have htype : (UnitSymbol.types ⟨u, unit⟩)[i]? =
      some ⟨{ root := .declared u i }, some unit.name, decl⟩ := by
    simp [UnitSymbol.types, UnitSymbol.name, hi]
  simp [symbol?, rootSymbol?, hunit, htype]

theorem type?_type (ht : t ∈ c.types) : c.type? t.address = some t := by
  simp [type?, symbol?_type ht]

/-- A type is told by its address. -/
theorem type_ext {t' : TypeSymbol} (ht : t ∈ c.types) (ht' : t' ∈ c.types)
    (h : t.address = t'.address) :
    t = t' :=
  Option.some.inj <| (type?_type ht).symm.trans (h ▸ type?_type ht')

theorem symbol?_under (c : Catalog) (a : Address) (s : Step) :
    c.symbol? (a.under s) = (c.symbol? a).bind (·.below? s) := by
  simp [symbol?, Address.under]

theorem symbol?_member (ht : t ∈ c.types) (hm : m ∈ t.members) :
    c.symbol? m.address = some (.member m) := by
  obtain ⟨i, decl, hi, rfl⟩ := TypeSymbol.mem_members.1 hm
  rw [symbol?_under, symbol?_type ht]
  simp [Symbol.below?, TypeSymbol.members, hi]

theorem symbol?_accessor (hm : c.symbol? m.address = some (.member m)) (ha : a ∈ m.accessors) :
    c.symbol? a.address = some (.member a.toMember) := by
  obtain ⟨step, haddr, hbelow⟩ := Symbol.below?_accessor ha
  rw [haddr, symbol?_under, hm, Option.bind_some, hbelow]

/-- What can inherit documentation: the methods, accessors and properties of the types of a
catalog. -/
inductive Inherits (c : Catalog) : MemberSymbol → Prop
  | method {t : TypeSymbol} {a : MethodSymbol} : t ∈ c.types → a ∈ t.callables →
    Inherits c a.toMember
  | property {t : TypeSymbol} {p : PropertySymbol} : t ∈ c.types → p ∈ t.properties →
    Inherits c p.toMember

theorem Inherits.kind? (h : c.Inherits m) :
    m.decl.kind? = some .method ∨ m.decl.kind? = some .property := by
  cases h with
  | method => exact .inl rfl
  | property => exact .inr rfl

theorem Inherits.symbol? (h : c.Inherits m) : c.symbol? m.address = some (.member m) := by
  cases h with
  | method ht ha =>
    rcases TypeSymbol.mem_callables.1 ha with hm | ⟨m, hm, ha⟩
    · exact symbol?_member ht hm
    · exact symbol?_accessor (symbol?_member ht hm) ha
  | property ht hp => exact symbol?_member ht (TypeSymbol.mem_properties.1 hp)

/-- What inherits documentation is told by its address. -/
theorem Inherits.ext {m' : MemberSymbol} (h : c.Inherits m) (h' : c.Inherits m')
    (heq : m.address = m'.address) : m = m' :=
  Symbol.member.inj <| Option.some.inj <| h.symbol?.symm.trans (heq ▸ h'.symbol?)

theorem method?_callable (ht : t ∈ c.types) (ha : a ∈ t.callables) :
    c.method? a.address = some a := by
  have h : c.symbol? a.address = some (.member a.toMember) := (Inherits.method ht ha).symbol?
  simp only [method?, h]
  rfl

theorem method_ext {t' : TypeSymbol} {a' : MethodSymbol} (ht : t ∈ c.types) (ha : a ∈ t.callables)
    (ht' : t' ∈ c.types) (ha' : a' ∈ t'.callables) (h : a.address = a'.address) : a = a' :=
  Option.some.inj <| (method?_callable ht ha).symm.trans (h ▸ method?_callable ht' ha')

theorem property_ext {t' : TypeSymbol} {p p' : PropertySymbol} (ht : t ∈ c.types)
    (hp : p ∈ t.properties) (ht' : t' ∈ c.types) (hp' : p' ∈ t'.properties)
    (h : p.address = p'.address) : p = p' := by
  have hmember : p.toMember = p'.toMember := Inherits.ext (.property ht hp) (.property ht' hp') h
  obtain ⟨_, _, _⟩ := p
  obtain ⟨_, _, _⟩ := p'
  cases hmember
  rfl

/-! ## Declared symbols -/

/-- The types of a catalog and their members. -/
def Declares (c : Catalog) (s : Symbol) : Prop := ∃ t ∈ c.types, s ∈ t.symbols

/-- The types of a catalog and their members in load order: unit by unit, and in a unit each type
before its members. -/
def symbols (c : Catalog) : List Symbol := c.unitSymbols.flatMap UnitSymbol.symbols

theorem symbols_eq (c : Catalog) : c.symbols = c.types.flatMap TypeSymbol.symbols :=
  List.flatMap_assoc.symm

theorem mem_symbols {s : Symbol} : s ∈ c.symbols ↔ c.Declares s := by
  rw [symbols_eq, List.mem_flatMap, Declares]

theorem Declares.symbol? {s : Symbol} (h : c.Declares s) : c.symbol? s.address = some s := by
  obtain ⟨t, ht, hs⟩ := h
  rcases List.mem_cons.1 hs with rfl | hs
  · exact symbol?_type ht
  · obtain ⟨m, hm, rfl⟩ := List.mem_map.1 hs
    exact symbol?_member ht hm

end Catalog

end ApiDoc
