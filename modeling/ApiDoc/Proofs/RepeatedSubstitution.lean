import ApiDoc.Proofs.Substitution

/-!
# Putting arguments for type parameters twice

A reference consists of its arguments, its element, and what they consist of in turn (`Part`). As
long as no position is negative, arguments can be put for the type parameters in it
(`NonNegative.exists_substitute`). If the arguments reach all of its type parameters (`Within`),
then putting further arguments into the result comes to the same as putting them into the arguments
beforehand (`substitute_substitute`).
-/

namespace ApiDoc.TypeRef

variable {r p : TypeRef} {arguments arguments' further : List TypeRef} {n : Nat}

/-! ## Parts of references -/

/-- A reference is a part of itself. Apart from that a named reference consists of the parts of its
arguments, a type parameter of nothing, and any other reference of the parts of its element. -/
inductive Part : TypeRef → TypeRef → Prop
  | self {r : TypeRef} : Part r r
  | argument {r a p : TypeRef} : r.shape = .named → a ∈ r.arguments → Part a p → Part r p
  | element {r e p : TypeRef} : r.shape ≠ .named → r.shape ≠ .parameter → r.element = some e →
    Part e p → Part r p

/-- No type parameter has a position before the first. -/
def NonNegative (r : TypeRef) : Prop := ∀ p, Part r p → p.shape = .parameter → 0 ≤ p.position

/-- The type parameters of the type level are among the first `n`. -/
def Within (n : Nat) (r : TypeRef) : Prop :=
  ∀ p, Part r p → p.shape = .parameter → p.methodLevel = false → p.position < n

theorem Within.named (h : r.shape = .named) (hargs : ∀ a ∈ r.arguments, a.Within n) :
    r.Within n := by
  intro p hp hparameter hlevel
  cases hp with
  | self => cases h.symm.trans hparameter
  | argument _ ha hp => exact hargs _ ha p hp hparameter hlevel
  | element hshape => exact absurd h hshape

theorem Within.parameter (h : r.shape = .parameter) (hlt : r.position < n) : r.Within n := by
  intro p hp _ _
  cases hp with
  | self => exact hlt
  | argument hshape => cases h.symm.trans hshape
  | element _ hshape => exact absurd h hshape

theorem Within.element {e : TypeRef} (h : r.hasElement = true) (he : r.element = some e)
    (hw : e.Within n) : r.Within n := by
  intro p hp hparameter hlevel
  cases hp with
  | self => simp [hasElement, hparameter] at h
  | argument hshape => simp [hasElement, hshape] at h
  | element _ _ he' hp =>
    cases he.symm.trans he'
    exact hw p hp hparameter hlevel

theorem Supported.of_part (h : r.Supported) (hp : Part r p) : p.Supported := by
  induction hp with
  | self => exact h
  | argument hshape ha _ ih =>
    cases h with
    | named _ hargs => exact ih (hargs _ ha)
    | parameter hparameter => cases hshape.symm.trans hparameter
    | element helement => simp [hasElement, hshape] at helement
  | element hshape hshape' he _ ih =>
    cases h with
    | named hnamed => exact absurd hnamed hshape
    | parameter hparameter => exact absurd hparameter hshape'
    | element _ he' hsupported =>
      cases he.symm.trans he'
      exact ih hsupported

theorem Supported.nonNegative (h : r.Supported) : r.NonNegative := by
  intro p hp hshape
  cases h.of_part hp with
  | named hnamed => cases hshape.symm.trans hnamed
  | parameter _ hposition => exact hposition
  | element helement => simp [hasElement, hshape] at helement

/-! ## Putting arguments once -/

/-- A type parameter of the method level stays as it is. -/
theorem substitute_methodLevel (h : r.shape = .parameter) (hp : 0 ≤ r.position)
    (hlevel : r.methodLevel = true) : r.substitute arguments = .ok r := by
  rw [substitute_parameter h hp, hlevel]
  rfl

/-- A type parameter that the arguments do not reach stays as it is. -/
theorem substitute_unreached (h : r.shape = .parameter) (hp : 0 ≤ r.position)
    (hle : arguments.length ≤ r.position.toNat) : r.substitute arguments = .ok r := by
  rw [substitute_parameter h hp, if_neg]
  simp only [Bool.and_eq_true, decide_eq_true_eq]
  omega

theorem substitute_reached (h : r.shape = .parameter) (hp : 0 ≤ r.position)
    (hlevel : r.methodLevel = false) (hlt : r.position.toNat < arguments.length) :
    r.substitute arguments = .ok arguments[r.position.toNat] := by
  have hposition : r.position < arguments.length := by omega
  rw [substitute_parameter h hp, hlevel, if_pos (by simpa using hposition)]
  simp [argumentAt, Int.not_lt.2 hp, hlt]

theorem NonNegative.exists_substitute (arguments : List TypeRef) :
    ∀ r : TypeRef, r.NonNegative → ∃ r', r.substitute arguments = .ok r' := by
  intro r
  induction r using induction_parts with
  | step r ihs ih =>
    intro h
    by_cases hnamed : r.shape = .named
    · have hargs : ∀ a ∈ r.arguments, ∃ a', a.substitute arguments = .ok a' :=
        fun a ha => ihs a ha fun p hp => h p (.argument hnamed ha hp)
      obtain ⟨own, hown⟩ := exists_mapM hargs
      rw [substitute_named hnamed, substituteAll_eq_mapM, hown]
      exact ⟨_, rfl⟩
    by_cases hparameter : r.shape = .parameter
    · have hposition := h r .self hparameter
      cases hlevel : r.methodLevel with
      | true => exact ⟨r, substitute_methodLevel hparameter hposition hlevel⟩
      | false =>
        rcases Nat.lt_or_ge r.position.toNat arguments.length with hlt | hle
        · exact ⟨_, substitute_reached hparameter hposition hlevel hlt⟩
        · exact ⟨r, substitute_unreached hparameter hposition hle⟩
    · rw [substitute_wrapped hnamed hparameter]
      cases he : r.element with
      | none => exact ⟨_, rfl⟩
      | some e =>
        obtain ⟨e', he'⟩ := ih e he fun p hp => h p (.element hnamed hparameter he hp)
        rw [substitute?, he']
        exact ⟨_, rfl⟩

/-! ## Putting arguments twice -/

theorem exists_substituteAll_substituteAll {l : List TypeRef}
    (h : ∀ r ∈ l, ∃ r₁ r₂, r.substitute arguments = .ok r₁ ∧ r₁.substitute further = .ok r₂ ∧
      r.substitute arguments' = .ok r₂) :
    ∃ l₁ l₂, substituteAll arguments l = .ok l₁ ∧ substituteAll further l₁ = .ok l₂ ∧
      substituteAll arguments' l = .ok l₂ := by
  simp only [substituteAll_eq_ok]
  induction l with
  | nil => exact ⟨[], [], .nil, .nil, .nil⟩
  | cons r l ih =>
    obtain ⟨r₁, r₂, h₁, h₂, h'⟩ := h r List.mem_cons_self
    obtain ⟨l₁, l₂, hl₁, hl₂, hl'⟩ := ih fun r hr => h r (List.mem_cons_of_mem _ hr)
    exact ⟨r₁ :: l₁, r₂ :: l₂, .cons h₁ hl₁, .cons h₂ hl₂, .cons h' hl'⟩

/-- Of arguments that reach all type parameters, it does not matter whether further arguments are
put into them before or after they are put into a reference. -/
theorem substitute_substitute (hargs : substituteAll further arguments = .ok arguments') :
    ∀ r : TypeRef, r.NonNegative → r.Within arguments.length →
      ∃ r₁ r₂, r.substitute arguments = .ok r₁ ∧ r₁.substitute further = .ok r₂ ∧
        r.substitute arguments' = .ok r₂ := by
  have hall := substituteAll_eq_ok.1 hargs
  intro r
  induction r using induction_parts with
  | step r ihs ih =>
    intro h hw
    by_cases hnamed : r.shape = .named
    · obtain ⟨l₁, l₂, h₁, h₂, h'⟩ := exists_substituteAll_substituteAll fun a ha =>
        ihs a ha (fun p hp => h p (.argument hnamed ha hp))
          (fun p hp => hw p (.argument hnamed ha hp))
      refine ⟨{ r with arguments := l₁ }, { r with arguments := l₂ }, ?_, ?_, ?_⟩
      · rw [substitute_named hnamed, h₁]
        rfl
      · rw [substitute_named (r := { r with arguments := l₁ }) hnamed, h₂]
        rfl
      · rw [substitute_named hnamed, h']
        rfl
    by_cases hparameter : r.shape = .parameter
    · have hposition := h r .self hparameter
      cases hlevel : r.methodLevel with
      | true =>
        have hstays : ∀ l, r.substitute l = .ok r := fun _ =>
          substitute_methodLevel hparameter hposition hlevel
        exact ⟨r, r, hstays _, hstays _, hstays _⟩
      | false =>
        have hlt := hw r .self hparameter hlevel
        have hlt₁ : r.position.toNat < arguments.length := by omega
        have hlt₂ : r.position.toNat < arguments'.length := hall.length_eq ▸ hlt₁
        refine ⟨arguments[r.position.toNat], arguments'[r.position.toNat], ?_, ?_, ?_⟩
        · exact substitute_reached hparameter hposition hlevel hlt₁
        · exact (List.forall₂_iff_get.1 hall).2 _ hlt₁ hlt₂
        · exact substitute_reached hparameter hposition hlevel hlt₂
    · cases he : r.element with
      | none =>
        have hstays : ∀ l, r.substitute l = .ok { r with element := none } := by
          intro l
          rw [substitute_wrapped hnamed hparameter, he]
          rfl
        refine ⟨_, _, hstays _, ?_, hstays _⟩
        rw [substitute_wrapped (r := { r with element := none }) hnamed hparameter]
        rfl
      | some e =>
        obtain ⟨e₁, e₂, h₁, h₂, h'⟩ :=
          ih e he (fun p hp => h p (.element hnamed hparameter he hp))
            (fun p hp => hw p (.element hnamed hparameter he hp))
        refine ⟨{ r with element := some e₁ }, { r with element := some e₂ }, ?_, ?_, ?_⟩
        · rw [substitute_wrapped hnamed hparameter, he, substitute?, h₁]
          rfl
        · rw [substitute_wrapped (r := { r with element := some e₁ }) hnamed hparameter,
            substitute?, h₂]
          rfl
        · rw [substitute_wrapped hnamed hparameter, he, substitute?, h']
          rfl

end ApiDoc.TypeRef
