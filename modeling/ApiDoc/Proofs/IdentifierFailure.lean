import ApiDoc.Proofs.RepeatedSubstitution

/-!
# Symbols without an identifier

A result `FailsIff` a condition if it is an error exactly under that condition, and then one of a
violated contract. Such conditions are put together as results are. The key of a type fails for what
is broken at the end of its elements, and in a parameter list for whatever is broken in it at any
depth (`TypeRef.failsIff_key`, `TypeRef.failsIff_key_inParameters`). From that follows which symbols
have no identifier, and which methods no signature on a constructed type
(`Symbol.failsIff_identifier`).
-/

namespace ApiDoc

/-! ## Failing results -/

/-- A caller broke a contract. -/
def Error.IsViolation (e : Error) : Prop := e.code?.map Error.Code.family = some .contract

instance (e : Error) : Decidable e.IsViolation :=
  inferInstanceAs (Decidable (e.code?.map Error.Code.family = some .contract))

/-- The result is an error exactly under the condition, and then a violated contract. -/
structure FailsIff {α : Type} (r : Except Error α) (p : Prop) : Prop where
  isViolation : ∀ e, r = .error e → e.IsViolation
  iff : (∃ e, r = .error e) ↔ p

namespace FailsIff

variable {α β : Type} {r : Except Error α} {f : α → Except Error β} {p q : Prop}

theorem ok (x : α) (h : ¬p) : FailsIff (.ok x : Except Error α) p where
  isViolation _ he := nomatch he
  iff := iff_of_false (fun he => nomatch he.choose_spec) h

theorem error {e : Error} (he : e.IsViolation) (h : p) :
    FailsIff (.error e : Except Error α) p where
  isViolation _ heq := Except.error.inj heq ▸ he
  iff := iff_of_true ⟨e, rfl⟩ h

theorem congr (h : FailsIff r p) (hpq : p ↔ q) : FailsIff r q := ⟨h.isViolation, h.iff.trans hpq⟩

/-- Steps fail if one of them does. -/
theorem bind (h : FailsIff r p) (hf : ∀ x, FailsIff (f x) q) : FailsIff (r >>= f) (p ∨ q) := by
  cases r with
  | error e => exact error (h.isViolation e rfl) (.inl (h.iff.1 ⟨e, rfl⟩))
  | ok x =>
    have hp : ¬p := fun hp => by
      obtain ⟨e, he⟩ := h.iff.2 hp
      cases he
    exact (hf x).congr (or_iff_right hp).symm

theorem bind_ok {g : α → β} (h : FailsIff r p) : FailsIff (r >>= fun x => .ok (g x)) p :=
  (h.bind fun x => ok (g x) id).congr (or_iff_left id)

theorem map {g : α → β} (h : FailsIff r p) : FailsIff (r.map g) p := by
  cases r with
  | error e => exact error (h.isViolation e rfl) (h.iff.1 ⟨e, rfl⟩)
  | ok x => exact ok _ fun hp => nomatch (h.iff.2 hp).choose_spec

theorem mapM {l : List α} {P : α → Prop} (h : ∀ a ∈ l, FailsIff (f a) (P a)) :
    FailsIff (l.mapM f) (∃ a ∈ l, P a) := by
  induction l with
  | nil => exact ok [] (by simp)
  | cons a l ih =>
    obtain ⟨ha, hl⟩ := List.forall_mem_cons.1 h
    rw [List.mapM_cons]
    exact (ha.bind fun _ => (ih hl).bind_ok).congr (by simp)

end FailsIff

/-! ## References -/

namespace TypeRef

variable {r e : TypeRef} {inParameters : Bool}

/-- A shape without a meaning, or one that lacks the element it needs. -/
def IsBroken (r : TypeRef) : Prop :=
  (∃ label, r.shape = .other label) ∨ r.hasElement = true ∧ r.element = none

/-- What the elements of arrays, pointers and by-reference types lead to. -/
inductive Wraps : TypeRef → TypeRef → Prop
  | self {r : TypeRef} : Wraps r r
  | element {r e p : TypeRef} : r.hasElement = true → r.element = some e → Wraps e p → Wraps r p

/-- The elements lead to something broken. -/
def EndsBroken (r : TypeRef) : Prop := ∃ p, Wraps r p ∧ p.IsBroken

/-- Something is broken in the reference, at any depth of its elements and arguments. -/
def HasBrokenPart (r : TypeRef) : Prop := ∃ p, Part r p ∧ p.IsBroken

theorem shape_cases (r : TypeRef) : r.shape = .named ∨ r.shape = .parameter ∨
    (∃ e, r.hasElement = true ∧ r.element = some e) ∨ r.IsBroken := by
  cases hshape : r.shape with
  | named => exact .inl rfl
  | parameter => exact .inr (.inl rfl)
  | other label => exact .inr (.inr (.inr (.inl ⟨label, hshape⟩)))
  | array | byRef | pointer =>
    have hwraps : r.hasElement = true := by simp [hasElement, hshape]
    cases he : r.element with
    | some e => exact .inr (.inr (.inl ⟨e, hwraps, rfl⟩))
    | none => exact .inr (.inr (.inr (.inr ⟨hwraps, he⟩)))

theorem not_isBroken_of_named (h : r.shape = .named) : ¬r.IsBroken := by
  rintro (⟨label, ho⟩ | ⟨he, -⟩)
  · cases h.symm.trans ho
  · simp [hasElement, h] at he

theorem not_isBroken_of_parameter (h : r.shape = .parameter) : ¬r.IsBroken := by
  rintro (⟨label, ho⟩ | ⟨he, -⟩)
  · cases h.symm.trans ho
  · simp [hasElement, h] at he

theorem not_isBroken_of_element (h : r.hasElement = true) (he : r.element = some e) :
    ¬r.IsBroken := by
  rintro (⟨label, ho⟩ | ⟨-, hnone⟩)
  · simp [hasElement, ho] at h
  · cases he.symm.trans hnone

/-! ## Keys -/

theorem exists_key_of_isBroken (h : r.IsBroken) :
    ∃ shape, r.key inParameters = .error (.unsupportedShape shape) := by
  obtain ⟨shape, name, space, declaring, arguments, element, rank, position, methodLevel⟩ := r
  rcases h with ⟨label, rfl⟩ | ⟨hwraps, rfl⟩
  · exact ⟨_, rfl⟩
  · cases shape with
    | array | pointer | byRef => exact ⟨_, rfl⟩
    | named | parameter | other => cases hwraps

theorem failsIff_key_of_isBroken {p : Prop} (h : r.IsBroken) (hp : p) :
    FailsIff (r.key inParameters) p := by
  obtain ⟨shape, hkey⟩ : ∃ shape, r.key inParameters = .error (.unsupportedShape shape) :=
    exists_key_of_isBroken h
  rw [hkey]
  exact .error rfl hp

/-- With its element a key fails. -/
theorem failsIff_key_of_element {p : Prop} (h : r.hasElement = true) (he : r.element = some e)
    (hkey : FailsIff (e.key inParameters) p) : FailsIff (r.key inParameters) p := by
  obtain ⟨shape, name, space, declaring, arguments, element, rank, position, methodLevel⟩ := r
  cases he
  cases shape with
  | array | pointer => exact hkey
  | byRef => exact hkey.bind_ok
  | named | parameter | other => cases h

theorem endsBroken_of_element (h : r.hasElement = true) (he : r.element = some e) :
    r.EndsBroken ↔ e.EndsBroken := by
  constructor
  · rintro ⟨p, hp, hbroken⟩
    cases hp with
    | self => exact absurd hbroken (not_isBroken_of_element h he)
    | element _ he' hp =>
      cases he.symm.trans he'
      exact ⟨p, hp, hbroken⟩
  · rintro ⟨p, hp, hbroken⟩
    exact ⟨p, .element h he hp, hbroken⟩

theorem hasBrokenPart_of_element (h : r.hasElement = true) (he : r.element = some e) :
    r.HasBrokenPart ↔ e.HasBrokenPart := by
  have hshape : r.shape ≠ .named ∧ r.shape ≠ .parameter := by
    constructor <;> intro hshape <;> simp [hasElement, hshape] at h
  constructor
  · rintro ⟨p, hp, hbroken⟩
    cases hp with
    | self => exact absurd hbroken (not_isBroken_of_element h he)
    | argument hnamed => exact absurd hnamed hshape.1
    | element _ _ he' hp =>
      cases he.symm.trans he'
      exact ⟨p, hp, hbroken⟩
  · rintro ⟨p, hp, hbroken⟩
    exact ⟨p, .element hshape.1 hshape.2 he hp, hbroken⟩

theorem hasBrokenPart_of_named (h : r.shape = .named) :
    r.HasBrokenPart ↔ ∃ a ∈ r.arguments, a.HasBrokenPart := by
  constructor
  · rintro ⟨p, hp, hbroken⟩
    cases hp with
    | self => exact absurd hbroken (not_isBroken_of_named h)
    | argument _ ha hp => exact ⟨_, ha, p, hp, hbroken⟩
    | element hshape => exact absurd h hshape
  · rintro ⟨a, ha, p, hp, hbroken⟩
    exact ⟨p, .argument h ha hp, hbroken⟩

/-- A type by itself goes by what its elements lead to. -/
theorem failsIff_key (r : TypeRef) : FailsIff (r.key false) r.EndsBroken := by
  induction r using induction_parts with
  | step r _ ih =>
    rcases r.shape_cases with hnamed | hparameter | ⟨e, hwraps, he⟩ | hbroken
    · rw [key_false_named hnamed]
      refine .ok _ ?_
      rintro ⟨p, hp, hbroken⟩
      cases hp with
      | self => exact not_isBroken_of_named hnamed hbroken
      | element hwraps => simp [hasElement, hnamed] at hwraps
    · rw [key_parameter hparameter]
      refine .ok _ ?_
      rintro ⟨p, hp, hbroken⟩
      cases hp with
      | self => exact not_isBroken_of_parameter hparameter hbroken
      | element hwraps => simp [hasElement, hparameter] at hwraps
    · exact (failsIff_key_of_element hwraps he (ih e he)).congr (endsBroken_of_element hwraps he).symm
    · exact failsIff_key_of_isBroken hbroken ⟨r, .self, hbroken⟩

/-- In a parameter list a type is spelled out with all its parts. -/
theorem failsIff_key_inParameters (r : TypeRef) : FailsIff (r.key true) r.HasBrokenPart := by
  induction r using induction_parts with
  | step r ihs ih =>
    rcases r.shape_cases with hnamed | hparameter | ⟨e, hwraps, he⟩ | hbroken
    · refine FailsIff.congr ?_ (hasBrokenPart_of_named hnamed).symm
      by_cases hnil : r.arguments = []
      · rw [key_named hnamed hnil]
        exact .ok _ (by simp [hnil])
      · rw [key_generic hnamed hnil, keys_eq_mapM]
        exact (FailsIff.mapM ihs).map
    · rw [key_parameter hparameter]
      refine .ok _ ?_
      rintro ⟨p, hp, hbroken⟩
      cases hp with
      | self => exact not_isBroken_of_parameter hparameter hbroken
      | argument hnamed => cases hparameter.symm.trans hnamed
      | element _ hshape => exact hshape hparameter
    · exact (failsIff_key_of_element hwraps he (ih e he)).congr
        (hasBrokenPart_of_element hwraps he).symm
    · exact failsIff_key_of_isBroken hbroken ⟨r, .self, hbroken⟩

end TypeRef

/-! ## Parameter lists -/

section

variable {arguments types : List TypeRef} {parameters : List Parameter}

/-- The list fails with the types that the parameters have once the arguments are put in. -/
theorem failsIff_parameterList
    (h : List.Forall₂ (fun p r => p.type.substitute arguments = .ok r) parameters types) :
    FailsIff (parameterList arguments parameters) (∃ r ∈ types, r.HasBrokenPart) := by
  have hkeys : (parameters.mapM fun p => p.type.substitute arguments >>= TypeRef.key true) =
      types.mapM (TypeRef.key true) := by
    induction h with
    | nil => rfl
    | cons hr _ ih => rw [List.mapM_cons, List.mapM_cons, ih, hr]; rfl
  refine FailsIff.bind_ok ?_
  rw [hkeys]
  exact .mapM fun r _ => r.failsIff_key_inParameters

theorem failsIff_parameterList_nil : FailsIff (parameterList [] parameters)
    (∃ p ∈ parameters, p.type.HasBrokenPart) := by
  have htypes : List.Forall₂ (fun p r => p.type.substitute [] = .ok r) parameters
      (parameters.map Parameter.type) :=
    List.forall₂_map_right_iff.2 (List.forall₂_same.2 fun p _ => p.type.substitute_nil)
  exact (failsIff_parameterList htypes).congr (by simp)

end

/-! ## Symbols -/

/-- Methods and constructors: what identifiers give a parameter list. -/
def Member.IsRoutine (m : Member) : Prop := m.kind? = some .method ∨ m.kind? = some .constructor

/-- The symbol has no identifier. -/
inductive Symbol.Unidentified : Symbol → Prop
  | parameter (p : ParameterSymbol) : Unidentified (.parameter p)
  | unclassified {m : MemberSymbol} : m.decl.kind? = none → Unidentified (.member m)
  | detached {m : MemberSymbol} : m.owner = none → Unidentified (.member m)
  | type {t : TypeSymbol} : t.decl.ref.EndsBroken → Unidentified (.type t)
  | owner {m : MemberSymbol} {t : TypeSymbol} : m.owner = some t → t.decl.ref.EndsBroken →
    Unidentified (.member m)
  | parameterType {m : MemberSymbol} {p : Parameter} : m.decl.IsRoutine →
    p ∈ m.decl.parameters → p.type.HasBrokenPart → Unidentified (.member m)

namespace MemberSymbol

variable {m : MemberSymbol}

/-- The member stands on no type, or on one that has no key. -/
def Unowned (m : MemberSymbol) : Prop := ∀ t, m.owner = some t → t.decl.ref.EndsBroken

theorem failsIff_ownerKey (m : MemberSymbol) : FailsIff m.ownerKey m.Unowned := by
  rw [ownerKey]
  cases ho : m.owner with
  | none => exact .error rfl fun t ht => nomatch ho.symm.trans ht
  | some t => exact t.decl.ref.failsIff_key.congr (by simp [Unowned, ho])

theorem failsIff_plainIdentifier (m : MemberSymbol) (letter : String) :
    FailsIff (m.plainIdentifier letter) m.Unowned := m.failsIff_ownerKey.bind_ok

theorem failsIff_callableIdentifier (m : MemberSymbol) (name : String)
    (parameters : List Parameter) : FailsIff (m.callableIdentifier name parameters)
      (m.Unowned ∨ ∃ p ∈ parameters, p.type.HasBrokenPart) :=
  m.failsIff_ownerKey.bind fun _ => failsIff_parameterList_nil.bind_ok

theorem unidentified_of_unowned (h : m.Unowned) : (Symbol.member m).Unidentified := by
  cases ho : m.owner with
  | none => exact .detached ho
  | some t => exact .owner ho (h t ho)

/-- Of a classified member, all but the parameters matter by the owner alone. -/
theorem unidentified_iff (h : m.decl.kind? ≠ none) : (Symbol.member m).Unidentified ↔
    m.Unowned ∨ m.decl.IsRoutine ∧ ∃ p ∈ m.decl.parameters, p.type.HasBrokenPart := by
  constructor
  · intro hm
    cases hm with
    | unclassified hnone => exact absurd hnone h
    | detached ho => exact .inl fun t ht => nomatch ho.symm.trans ht
    | owner ho hbroken => exact .inl fun t ht => Option.some.inj (ho.symm.trans ht) ▸ hbroken
    | parameterType hroutine hp hbroken => exact .inr ⟨hroutine, _, hp, hbroken⟩
  · rintro (hm | ⟨hroutine, p, hp, hbroken⟩)
    · exact unidentified_of_unowned hm
    · exact .parameterType hroutine hp hbroken

theorem failsIff_identifier (m : MemberSymbol) :
    FailsIff m.identifier (Symbol.member m).Unidentified := by
  obtain ⟨address, owner, decl⟩ := m
  cases decl with
  | method d =>
    have hiff := unidentified_iff (m := ⟨address, owner, .method d⟩) nofun
    exact (failsIff_callableIdentifier _ _ _).congr
      (hiff.trans (or_congr_right (and_iff_right (.inl rfl)))).symm
  | constructor c =>
    have hiff := unidentified_iff (m := ⟨address, owner, .constructor c⟩) nofun
    exact (failsIff_callableIdentifier _ _ _).congr
      (hiff.trans (or_congr_right (and_iff_right (.inr rfl)))).symm
  | field | property | event =>
    refine (failsIff_plainIdentifier _ _).congr ((unidentified_iff (by nofun)).trans ?_).symm
    exact or_iff_left fun h => h.1.elim nofun nofun
  | unclassified | unclassifiedCallable => exact .error rfl (.unclassified rfl)

theorem failsIff_documentationKey (m : MemberSymbol) :
    FailsIff m.documentationKey (Symbol.member m).Unidentified := by
  have hm := m.failsIff_identifier
  obtain ⟨address, owner, decl⟩ := m
  cases decl with
  | event e => exact hm.bind_ok
  | method | constructor | field | property | unclassified | unclassifiedCallable => exact hm

end MemberSymbol

theorem Member.failsIff_signature {m : Member} (h : m.IsRoutine) {arguments types : List TypeRef}
    (htypes : List.Forall₂ (fun p r => p.type.substitute arguments = .ok r) m.parameters types) :
    FailsIff (m.signature arguments) (∃ r ∈ types, r.HasBrokenPart) := by
  cases m with
  | method | constructor => exact (failsIff_parameterList htypes).bind_ok
  | field | property | event | unclassified | unclassifiedCallable => exact h.elim nofun nofun

namespace Symbol

/-- Identifiers, and keys of documentation, fail exactly for the symbols without an identifier, and
always for a violated contract. A method or constructor without negative positions has parameter
types into which any arguments can be put, and its signature fails exactly for what is broken in them
then. -/
theorem fails_iff_unidentified :
    (∀ s : Symbol, FailsIff s.identifier s.Unidentified ∧ FailsIff s.documentationKey s.Unidentified) ∧
    ∀ (m : MemberSymbol) (arguments : List TypeRef), m.decl.IsRoutine →
      (∀ p ∈ m.decl.parameters, p.type.NonNegative) →
      ∃ types, List.Forall₂ (fun p r => p.type.substitute arguments = .ok r) m.decl.parameters types ∧
        FailsIff ((Symbol.member m).signature arguments) (∃ r ∈ types, r.HasBrokenPart) := by
  constructor
  · intro s
    cases s with
    | type t =>
      have ht : FailsIff t.identifier (Symbol.type t).Unidentified :=
        t.decl.ref.failsIff_key.bind_ok.congr ⟨.type, fun h => by cases h; assumption⟩
      exact ⟨ht, ht⟩
    | member m => exact ⟨m.failsIff_identifier, m.failsIff_documentationKey⟩
    | parameter p => exact ⟨.error rfl (.parameter p), .error rfl (.parameter p)⟩
  · intro m arguments hroutine hpositions
    obtain ⟨types, htypes⟩ := exists_mapM fun p hp =>
      (hpositions p hp).exists_substitute arguments p.type
    have hsubstitute := mapM_eq_ok.1 htypes
    exact ⟨types, hsubstitute, Member.failsIff_signature hroutine hsubstitute⟩

/-- A method that takes an array of the type that its owner is constructed with, but has no owner. -/
def crate : MemberSymbol where
  address := ⟨.detached 0, []⟩
  owner := none
  decl := .method { name := "Put", parameters := [
    { name := "items", type := .arrayOf { shape := .parameter, name := "T" } 1 }] }

/-- A pointer to nothing is put into the array. -/
theorem fails_iff_unidentified_crate :
    (∃ e, (Symbol.member crate).identifier = .error e ∧ e.IsViolation) ∧
    ∃ e, (Symbol.member crate).signature [{ shape := .pointer }] = .error e ∧ e.IsViolation := by
  have hpositions : ∀ p ∈ crate.decl.parameters, p.type.NonNegative := by
    intro p hp
    cases List.mem_singleton.1 hp
    exact (TypeRef.Supported.element rfl rfl (.parameter rfl (by decide))).nonNegative
  constructor
  · have hidentifier := (fails_iff_unidentified.1 (.member crate)).1
    obtain ⟨e, he⟩ := hidentifier.iff.2 (.detached rfl)
    exact ⟨e, he, hidentifier.isViolation e he⟩
  · obtain ⟨types, htypes, hsignature⟩ :=
      fails_iff_unidentified.2 crate [{ shape := .pointer }] (.inl rfl) hpositions
    cases htypes with
    | cons hr hnil =>
      cases hnil
      cases hr
      obtain ⟨e, he⟩ := hsignature.iff.2 ⟨_, List.mem_singleton_self _, _,
        .element nofun nofun rfl .self, .inr ⟨rfl, rfl⟩⟩
      exact ⟨e, he, hsignature.isViolation e he⟩

end Symbol

end ApiDoc
