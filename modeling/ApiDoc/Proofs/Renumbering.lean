import ApiDoc.Hierarchy.Interfaces
import ApiDoc.Metadata.Declaration
import ApiDoc.Metadata.Identifier
import ApiDoc.Metadata.Location
import ApiDoc.Proofs.Place
import ApiDoc.Resolution
import Mathlib.Logic.Equiv.Defs

/-!
# Renumbering units

An address says by a number in which unit a symbol stands. When the units are numbered anew, each
symbol is the same but for the numbers in its address and in those of what it belongs to
(`Symbol.renumber`). What a symbol is made of and how it reads does not change: its members,
accessors and properties are renumbered with it, and its names, keys and declaration stay as they
are.
-/

namespace ApiDoc

variable {σ : Equiv.Perm Nat}

/-! ## Addresses -/

def Root.renumber (σ : Equiv.Perm Nat) : Root → Root
  | .declared unit type => .declared (σ unit) type
  | .detached index => .detached index

def Address.renumber (σ : Equiv.Perm Nat) (a : Address) : Address :=
  { a with root := a.root.renumber σ }

theorem Root.renumber_injective (σ : Equiv.Perm Nat) : Function.Injective (Root.renumber σ) := by
  intro a b h
  cases a <;> cases b <;> simp_all [renumber]

@[simp] theorem Root.renumber_refl (a : Root) : a.renumber (Equiv.refl Nat) = a := by
  cases a <;> rfl

namespace Address

theorem renumber_injective (σ : Equiv.Perm Nat) : Function.Injective (Address.renumber σ) := by
  rintro ⟨root, path⟩ ⟨root', path'⟩ h
  simp only [renumber, mk.injEq] at h ⊢
  exact ⟨Root.renumber_injective σ h.1, h.2⟩

@[simp] theorem renumber_inj {a b : Address} : a.renumber σ = b.renumber σ ↔ a = b :=
  (renumber_injective σ).eq_iff

@[simp] theorem renumber_refl (a : Address) : a.renumber (Equiv.refl Nat) = a := by
  simp [renumber]

@[simp] theorem renumber_under (a : Address) (step : Step) :
    (a.under step).renumber σ = (a.renumber σ).under step := rfl

end Address

/-! ## Symbols -/

def TypeSymbol.renumber (σ : Equiv.Perm Nat) (t : TypeSymbol) : TypeSymbol :=
  { t with address := t.address.renumber σ }

def Placed.renumber {α : Type} (σ : Equiv.Perm Nat) (p : Placed α) : Placed α :=
  ⟨p.address.renumber σ, p.owner.map (TypeSymbol.renumber σ), p.decl⟩

def ParameterSymbol.renumber (σ : Equiv.Perm Nat) (p : ParameterSymbol) : ParameterSymbol :=
  ⟨p.address.renumber σ, p.member.map (Placed.renumber σ), p.decl⟩

def Symbol.renumber (σ : Equiv.Perm Nat) : Symbol → Symbol
  | .type t => .type (t.renumber σ)
  | .member m => .member (m.renumber σ)
  | .parameter p => .parameter (p.renumber σ)

def UnitSymbol.renumber (σ : Equiv.Perm Nat) (u : UnitSymbol) : UnitSymbol :=
  { u with number := σ u.number }

namespace TypeSymbol

@[simp] theorem renumber_address (t : TypeSymbol) :
    (t.renumber σ).address = t.address.renumber σ := rfl

@[simp] theorem renumber_unit (t : TypeSymbol) : (t.renumber σ).unit = t.unit := rfl

@[simp] theorem renumber_decl (t : TypeSymbol) : (t.renumber σ).decl = t.decl := rfl

@[simp] theorem renumber_displayName (t : TypeSymbol) :
    (t.renumber σ).displayName = t.displayName := rfl

@[simp] theorem renumber_refl : TypeSymbol.renumber (Equiv.refl Nat) = id := by
  funext t
  simp [renumber]

end TypeSymbol

namespace Placed

variable {α β : Type}

@[simp] theorem renumber_address (p : Placed α) :
    (p.renumber σ).address = p.address.renumber σ := rfl

@[simp] theorem renumber_owner (p : Placed α) :
    (p.renumber σ).owner = p.owner.map (TypeSymbol.renumber σ) := rfl

@[simp] theorem renumber_decl (p : Placed α) : (p.renumber σ).decl = p.decl := rfl

@[simp] theorem renumber_unit (p : Placed α) : (p.renumber σ).unit = p.unit := by
  cases h : p.owner <;> simp [unit, h]

@[simp] theorem renumber_refl : Placed.renumber (α := α) (Equiv.refl Nat) = id := by
  funext p
  simp [renumber]

end Placed

@[simp] theorem MethodSymbol.renumber_toMember (m : MethodSymbol) :
    MethodSymbol.toMember (m.renumber σ) = m.toMember.renumber σ := rfl

@[simp] theorem PropertySymbol.renumber_toMember (p : PropertySymbol) :
    PropertySymbol.toMember (p.renumber σ) = p.toMember.renumber σ := rfl

namespace Symbol

@[simp] theorem renumber_address (s : Symbol) :
    (s.renumber σ).address = s.address.renumber σ := by
  cases s <;> rfl

@[simp] theorem renumber_unit (s : Symbol) : (s.renumber σ).unit = s.unit := by
  cases s with
  | type t => rfl
  | member m => exact Placed.renumber_unit m
  | parameter p => cases h : p.member <;> simp [renumber, ParameterSymbol.renumber, unit, h]

@[simp] theorem renumber_kindLabel? (s : Symbol) : (s.renumber σ).kindLabel? = s.kindLabel? := by
  cases s <;> rfl

@[simp] theorem renumber_refl : Symbol.renumber (Equiv.refl Nat) = id := by
  funext s
  cases s <;> simp [renumber, ParameterSymbol.renumber]

end Symbol

@[simp] theorem UnitSymbol.renumber_refl (u : UnitSymbol) : u.renumber (Equiv.refl Nat) = u := rfl

/-! ## Parts of symbols -/

namespace MemberSymbol

@[simp] theorem renumber_accessors (m : MemberSymbol) :
    accessors (m.renumber σ) = m.accessors.map (Placed.renumber σ) := by
  obtain ⟨address, owner, decl⟩ := m
  cases decl <;> simp [accessors, Placed.renumber] <;> rfl

@[simp] theorem renumber_property? (m : MemberSymbol) :
    property? (m.renumber σ) = m.property?.map (Placed.renumber σ) := by
  obtain ⟨address, owner, decl⟩ := m
  cases decl <;> rfl

@[simp] theorem renumber_method? (m : MemberSymbol) :
    method? (m.renumber σ) = m.method?.map (Placed.renumber σ) := by
  obtain ⟨address, owner, decl⟩ := m
  cases decl <;> rfl

end MemberSymbol

@[simp] theorem MemberSymbol.renumber_parameters (m : MemberSymbol) :
    MemberSymbol.parameters (m.renumber σ) = m.parameters.map (ParameterSymbol.renumber σ) := by
  simp [parameters, ParameterSymbol.renumber]

namespace TypeSymbol

@[simp] theorem renumber_members (t : TypeSymbol) :
    (t.renumber σ).members = t.members.map (Placed.renumber σ) := by
  simp [members, Placed.renumber]

@[simp] theorem renumber_membersOf (t : TypeSymbol) (kind : MemberKind) :
    (t.renumber σ).membersOf kind = (t.membersOf kind).map (Placed.renumber σ) := by
  simp only [membersOf, renumber_members, List.filter_map]
  rfl

@[simp] theorem renumber_properties (t : TypeSymbol) :
    (t.renumber σ).properties = t.properties.map (Placed.renumber σ) := by
  simp only [properties, renumber_members, List.filterMap_map, List.map_filterMap]
  congr 1
  funext m
  exact MemberSymbol.renumber_property? m

@[simp] theorem renumber_callables (t : TypeSymbol) :
    (t.renumber σ).callables = t.callables.map (Placed.renumber σ) := by
  simp only [callables, renumber_members, List.flatMap_map, List.map_flatMap]
  congr 1
  funext m
  cases h : MemberSymbol.method? m <;> simp [h]

@[simp] theorem renumber_symbols (t : TypeSymbol) :
    (t.renumber σ).symbols = t.symbols.map (Symbol.renumber σ) := by
  simp [symbols, Symbol.renumber]

@[simp] theorem renumber_property? (t : TypeSymbol) (name : String) :
    (t.renumber σ).property? name = (t.property? name).map (Placed.renumber σ) := by
  simp only [property?, renumber_properties, List.find?_map]
  rfl

@[simp] theorem renumber_invoke? (t : TypeSymbol) :
    (t.renumber σ).invoke? = t.invoke?.map (Placed.renumber σ) := by
  simp only [invoke?, Option.map_map]
  rfl

end TypeSymbol

/-- What stands below a symbol is renumbered with it. -/
theorem Symbol.renumber_below? (s : Symbol) (step : Step) :
    (s.renumber σ).below? step = (s.below? step).map (Symbol.renumber σ) := by
  have haccessor : ∀ m : MemberSymbol,
      ((MemberSymbol.accessors (m.renumber σ)).find? fun a =>
        a.address = (m.renumber σ).address.under step).map
          (fun a => Symbol.member (MethodSymbol.toMember a)) =
      ((m.accessors.find? fun a => a.address = m.address.under step).map fun a =>
        Symbol.member a.toMember).map (Symbol.renumber σ) := by
    intro m
    rw [MemberSymbol.renumber_accessors, List.find?_map, Placed.renumber_address,
      ← Address.renumber_under]
    simp only [Function.comp_def, Placed.renumber_address, Address.renumber_inj, Option.map_map]
    rfl
  cases s with
  | type t => cases step <;> simp [below?, renumber, Option.map_map, Function.comp_def]
  | member m =>
    cases step with
    | parameter i => simp [below?, renumber, Function.comp_def]
    | _ => exact haccessor m
  | parameter p => cases step <;> rfl

@[simp] theorem UnitSymbol.renumber_types (u : UnitSymbol) :
    (u.renumber σ).types = u.types.map (TypeSymbol.renumber σ) := by
  simp [types, renumber, TypeSymbol.renumber, Address.renumber, Root.renumber, name]

@[simp] theorem MethodSymbol.renumber_property? (m : MethodSymbol) :
    MethodSymbol.property? (m.renumber σ) = m.property?.map (Placed.renumber σ) := by
  cases h : m.owner <;> simp [property?, h, List.find?_map, Function.comp_def]

@[simp] theorem Context.renumber_sourceProperty? (name : String) (m : MethodSymbol) :
    Context.sourceProperty? name (m.renumber σ) =
      (Context.sourceProperty? name m).map (Placed.renumber σ) := by
  cases h : m.owner with
  | none => simp [sourceProperty?, h]
  | some owner => cases hp : owner.property? name <;> simp [sourceProperty?, h, hp]

/-! ## Names and keys -/

namespace MemberSymbol

@[simp] theorem renumber_ownerKey (m : MemberSymbol) : ownerKey (m.renumber σ) = m.ownerKey := by
  cases h : m.owner <;> simp [ownerKey, h]

@[simp] theorem renumber_identifier (m : MemberSymbol) :
    identifier (m.renumber σ) = m.identifier := by
  simp [identifier, callableIdentifier, plainIdentifier]

@[simp] theorem renumber_documentationKey (m : MemberSymbol) :
    documentationKey (m.renumber σ) = m.documentationKey := by
  simp [documentationKey]

@[simp] theorem renumber_displayName (m : MemberSymbol) :
    displayName (m.renumber σ) = m.displayName := by
  obtain ⟨address, owner, decl⟩ := m
  cases decl <;> cases owner <;> rfl

@[simp] theorem renumber_isDeclaredOn (m : MemberSymbol) (t : TypeSymbol) :
    isDeclaredOn (m.renumber σ) (t.renumber σ) = m.isDeclaredOn t := by
  cases h : m.owner <;> simp [isDeclaredOn, h]

@[simp] theorem renumber_qualifiedName (m : MemberSymbol) (current : Option TypeSymbol) :
    qualifiedName (m.renumber σ) (current.map (TypeSymbol.renumber σ)) = m.qualifiedName current := by
  cases current <;> cases h : m.owner <;> simp [qualifiedName, h]

@[simp] theorem renumber_compactSignature (m : MemberSymbol) :
    compactSignature (m.renumber σ) = m.compactSignature := by
  simp [compactSignature]

@[simp] theorem renumber_declaration (m : MemberSymbol) :
    declaration (m.renumber σ) = m.declaration := by
  simp [declaration, fullSignature]

@[simp] theorem renumber_path (m : MemberSymbol) : path (m.renumber σ) = m.path := by
  cases h : m.owner <;> simp [path, h]
  rfl

end MemberSymbol

namespace Symbol

@[simp] theorem renumber_identifier (s : Symbol) : (s.renumber σ).identifier = s.identifier := by
  cases s with
  | type t => rfl
  | member m => exact m.renumber_identifier
  | parameter p => rfl

@[simp] theorem renumber_documentationKey (s : Symbol) :
    (s.renumber σ).documentationKey = s.documentationKey := by
  cases s with
  | type t => rfl
  | member m => exact m.renumber_documentationKey
  | parameter p => rfl

@[simp] theorem renumber_displayName (s : Symbol) : (s.renumber σ).displayName = s.displayName := by
  cases s with
  | type t => rfl
  | member m => exact m.renumber_displayName
  | parameter p => rfl

/-- The usual path of the page of a symbol tells nothing of the number of its unit. -/
theorem renumber_path (s : Symbol) : (s.renumber σ).path = s.path := by
  cases s with
  | type t => rfl
  | member m => exact m.renumber_path
  | parameter p => cases h : p.member <;> simp [renumber, ParameterSymbol.renumber, path, h]

end Symbol

/-! ## Walks over types -/

namespace Hierarchy

theorem any_without (types : List TypeSymbol) (a b : Address) :
    (without types a).any (fun t => t.address = b) =
      (types.any (fun t => t.address = b) && decide (b ≠ a)) := by
  rw [Bool.eq_iff_iff]
  simp only [without, List.any_eq_true, List.mem_filter, Bool.and_eq_true, decide_eq_true_eq]
  grind

/-- Where the first list has a type, the second one has one at the address numbered anew. -/
def SameUnseen (σ : Equiv.Perm Nat) (unseen unseen' : List TypeSymbol) : Prop :=
  ∀ a : Address, unseen'.any (fun t => t.address = a.renumber σ) =
    unseen.any fun t => t.address = a

variable {unseen unseen' : List TypeSymbol}

theorem sameUnseen_of_mem
    (h : ∀ t, t ∈ unseen' ↔ t ∈ unseen.map (TypeSymbol.renumber σ)) :
    SameUnseen σ unseen unseen' := by
  intro a
  rw [Bool.eq_iff_iff]
  simp only [List.any_eq_true, decide_eq_true_eq, h, List.mem_map]
  constructor
  · rintro ⟨_, ⟨t, ht, rfl⟩, ha⟩
    exact ⟨t, ht, Address.renumber_inj.1 ha⟩
  · rintro ⟨t, ht, rfl⟩
    exact ⟨_, ⟨t, ht, rfl⟩, rfl⟩

theorem SameUnseen.without (h : SameUnseen σ unseen unseen') (a : Address) :
    SameUnseen σ (without unseen a) (without unseen' (a.renumber σ)) := by
  intro b
  simp only [any_without, h b, ne_eq, Address.renumber_inj]

theorem SameUnseen.cons (h : SameUnseen σ unseen unseen') (t : TypeSymbol) :
    SameUnseen σ (t :: unseen) (t.renumber σ :: unseen') := by
  intro b
  simp [h b]

/-! ### Override chains -/

theorem firstWithSignature_map_renumber (signature : String) (arguments : List TypeRef)
    (methods : List MethodSymbol) :
    firstWithSignature signature arguments (methods.map (Placed.renumber σ)) =
      (firstWithSignature signature arguments methods).map (Option.map (Placed.renumber σ)) := by
  induction methods with
  | nil => rfl
  | cons m methods ih =>
    have hsignature : MethodSymbol.signature (m.renumber σ) arguments = m.signature arguments := rfl
    rw [List.map_cons, firstWithSignature, firstWithSignature, hsignature, ih]
    cases m.signature arguments with
    | error e => rfl
    | ok s =>
      simp only [bind, Except.bind]
      split <;> rfl

variable {find find' : TypeRef → Option TypeSymbol}

theorem overridden_renumber (hfind : ∀ ref, find' ref = (find ref).map (TypeSymbol.renumber σ))
    (hunseen : SameUnseen σ unseen unseen') (signature : String) (root : MethodSymbol)
    (base : Option TypeRef) :
    overridden find' signature unseen' (root.renumber σ) base =
      (overridden find signature unseen root base).map (Placed.renumber σ) := by
  induction unseen, root, base using overridden.induct find generalizing unseen' with
  | case1 =>
    rw [overridden, overridden]
    rfl
  | case2 unseen root ref hf =>
    have hf' : find' ref = none := by rw [hfind, hf, Option.map_none]
    rw [overridden, overridden, hf, hf']
    rfl
  | case3 unseen root ref type hf hseen ihFound ihOther =>
    have hf' : find' ref = some (type.renumber σ) := by rw [hfind, hf, Option.map_some]
    have hseen' : unseen'.any (fun t => t.address = (type.renumber σ).address) = true :=
      (hunseen type.address).trans hseen
    rw [overridden, overridden, hf, hf']
    simp only [dif_pos hseen, dif_pos hseen']
    rw [TypeSymbol.renumber_callables, firstWithSignature_map_renumber, TypeSymbol.renumber_decl,
      TypeSymbol.renumber_address]
    cases firstWithSignature signature ref.arguments type.callables with
    | error e => rfl
    | ok found =>
      cases hbase : TypeRef.substitute? ref.arguments type.decl.base with
      | error e =>
        cases found with
        | none => rfl
        | some m => cases ho : m.decl.isOverride <;> simp [bind, Except.bind, Except.map, ho]
      | ok next =>
        cases found with
        | none => exact ihOther next (hunseen.without _)
        | some m =>
          cases ho : m.decl.isOverride with
          | false => simp [bind, Except.bind, Except.map, ho]
          | true =>
            simpa [bind, Except.bind, Except.map, ho] using ihFound m next (hunseen.without _)
  | case4 unseen root ref type hf hseen =>
    have hf' : find' ref = some (type.renumber σ) := by rw [hfind, hf, Option.map_some]
    have hseen' : ¬ unseen'.any (fun t => t.address = (type.renumber σ).address) = true :=
      (hunseen type.address).symm ▸ hseen
    rw [overridden, overridden, hf, hf']
    simp only [dif_neg hseen, dif_neg hseen']
    rfl

/-- The override root of a method, in a catalog with the units numbered anew. -/
theorem overrideRootOf_renumber
    (hfind : ∀ ref, find' ref = (find ref).map (TypeSymbol.renumber σ)) {types types'}
    (htypes : SameUnseen σ types types') (m : MethodSymbol) :
    overrideRootOf find' types' (m.renumber σ) =
      (overrideRootOf find types m).map (Placed.renumber σ) := by
  have hsignature : MethodSymbol.signature (m.renumber σ) [] = m.signature [] := rfl
  cases ho : m.owner with
  | none => simp [overrideRootOf, ho, Except.map]
  | some owner =>
    simp only [overrideRootOf, Placed.renumber_owner, ho, Option.map_some, hsignature,
      TypeSymbol.renumber_address, TypeSymbol.renumber_decl]
    cases m.signature [] with
    | error e => rfl
    | ok signature => exact overridden_renumber hfind (htypes.without _) signature m _

end Hierarchy

namespace Context

variable {ctx ctx' : Context} {unseen unseen' : List TypeSymbol}

/-! ### Interfaces -/

theorem gatherInterfaces_renumber
    (hfind : ∀ ref, ctx'.findType ref = (ctx.findType ref).map (TypeSymbol.renumber σ))
    (hunseen : Hierarchy.SameUnseen σ unseen unseen') (known : List String)
    (pending : List TypeSymbol) :
    ctx'.gatherInterfaces unseen' known (pending.map (TypeSymbol.renumber σ)) =
      ctx.gatherInterfaces unseen known pending := by
  induction unseen, known, pending using Context.gatherInterfaces.induct ctx
    generalizing unseen' with
  | case1 => rw [List.map_nil, gatherInterfaces, gatherInterfaces]
  | case2 unseen known t pending hseen ih =>
    have hseen' : unseen'.any (fun u => u.address = (t.renumber σ).address) = true :=
      (hunseen t.address).trans hseen
    rw [List.map_cons, gatherInterfaces, gatherInterfaces, dif_pos hseen, dif_pos hseen',
      TypeSymbol.renumber_decl]
    refine congrArg _ (funext fun ⟨found, known⟩ => ?_)
    have hnext : found.filterMap ctx'.findType ++ (t.decl.base.bind ctx'.findType).toList =
        (found.filterMap ctx.findType ++ (t.decl.base.bind ctx.findType).toList).map
          (TypeSymbol.renumber σ) := by
      rw [funext hfind]
      cases t.decl.base with
      | none => simp [List.map_filterMap]
      | some base => cases hb : ctx.findType base <;> simp [List.map_filterMap, hb]
    simp only [hnext, ← List.map_append, TypeSymbol.renumber_address]
    rw [ih found known (hunseen.without t.address)]
  | case3 unseen known t pending hseen ih =>
    have hseen' : ¬ unseen'.any (fun u => u.address = (t.renumber σ).address) = true :=
      (hunseen t.address).symm ▸ hseen
    rw [List.map_cons, gatherInterfaces, gatherInterfaces, dif_neg hseen, dif_neg hseen',
      ih hunseen]

theorem allInterfaces_renumber
    (hfind : ∀ ref, ctx'.findType ref = (ctx.findType ref).map (TypeSymbol.renumber σ))
    (htypes : Hierarchy.SameUnseen σ ctx.catalog.types ctx'.catalog.types) (t : TypeSymbol) :
    ctx'.allInterfaces (t.renumber σ) = ctx.allInterfaces t :=
  gatherInterfaces_renumber hfind ((htypes.without t.address).cons t) [] [t]

end Context

end ApiDoc
