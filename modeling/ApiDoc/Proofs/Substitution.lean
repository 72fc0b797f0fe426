import ApiDoc.Hierarchy.Build
import ApiDoc.Proofs.Key

/-!
# Putting arguments for type parameters

A supported reference that comes to a named type comes to the same one with arguments put for its
type parameters (`TypeRef.Supported.exists_named?_substitute`). It has a key, and still has one then
if the arguments have keys. That key depends on the arguments by their keys only
(`TypeRef.Supported.exists_substitute`). Therefore signatures do not tell constructed types apart
whose arguments have the same keys (`Method.exists_signature`).
-/

namespace ApiDoc

namespace TypeRef

variable {r : TypeRef} {arguments arguments' : List TypeRef}

/-- A reference of known shapes, with the elements they need and no position before the first. -/
inductive Supported : TypeRef → Prop
  | named {r : TypeRef} : r.shape = .named → (∀ a ∈ r.arguments, Supported a) → Supported r
  | parameter {r : TypeRef} : r.shape = .parameter → 0 ≤ r.position → Supported r
  | element {r e : TypeRef} : r.hasElement = true → r.element = some e → Supported e → Supported r

/-! ## Substitution by shape -/

theorem substituteAll_eq_mapM (l : List TypeRef) :
    substituteAll arguments l = l.mapM (substitute arguments) := by
  induction l with
  | nil => rfl
  | cons r l ih =>
    rw [substituteAll, ih, List.mapM_cons]
    rfl

theorem substituteAll_eq_ok {l l' : List TypeRef} : substituteAll arguments l = .ok l' ↔
    List.Forall₂ (fun r r' => r.substitute arguments = .ok r') l l' := by
  rw [substituteAll_eq_mapM, mapM_eq_ok]

theorem substituteAll_nil (l : List TypeRef) : substituteAll [] l = .ok l :=
  substituteAll_eq_ok.2 (List.forall₂_same.2 fun r _ => substitute_nil r)

theorem substitute_named (h : r.shape = .named) :
    r.substitute arguments = (substituteAll arguments r.arguments).map fun own =>
      { r with arguments := own } := by
  obtain ⟨shape, name, space, declaring, own, element, rank, position, methodLevel⟩ := r
  cases h
  by_cases ha : arguments = []
  · rw [ha, substitute_nil, substituteAll_nil]
    rfl
  · simp only [substitute, List.isEmpty_iff]
    rw [if_neg ha]
    cases substituteAll arguments own <;> rfl

theorem substitute_parameter (h : r.shape = .parameter) (hp : 0 ≤ r.position) :
    r.substitute arguments =
      if !r.methodLevel && r.position < arguments.length then argumentAt arguments r.position
      else .ok r := by
  obtain ⟨shape, name, space, declaring, own, element, rank, position, methodLevel⟩ := r
  cases h
  by_cases ha : arguments = []
  · rw [ha, substitute_nil, if_neg]
    simp [hp]
  · simp only [substitute, List.isEmpty_iff]
    rw [if_neg ha]

/-- What is neither named nor a type parameter keeps all but its element. -/
theorem substitute_wrapped (h : r.shape ≠ .named) (h' : r.shape ≠ .parameter) :
    r.substitute arguments = (substitute? arguments r.element).map fun e =>
      { r with element := e } := by
  obtain ⟨shape, name, space, declaring, own, element, rank, position, methodLevel⟩ := r
  by_cases ha : arguments = []
  · have hnil : substitute? [] element = .ok element := by
      cases element with
      | none => rfl
      | some e =>
        rw [substitute?, substitute_nil]
        rfl
    rw [ha, substitute_nil, hnil]
    rfl
  · cases shape with
    | named => exact absurd rfl h
    | parameter => exact absurd rfl h'
    | array | byRef | pointer | other =>
      simp only [substitute, List.isEmpty_iff]
      rw [if_neg ha]
      cases substitute? arguments element <;> rfl

theorem substitute_element {e : TypeRef} (h : r.hasElement = true) (he : r.element = some e) :
    r.substitute arguments = (e.substitute arguments).map fun e' =>
      { r with element := some e' } := by
  have hshape : r.shape ≠ .named ∧ r.shape ≠ .parameter := by
    constructor <;> intro hshape <;> simp [hasElement, hshape] at h
  rw [substitute_wrapped hshape.1 hshape.2, he, substitute?]
  cases e.substitute arguments <;> rfl

/-- Arguments are not part of a full name. -/
theorem fullName_with_arguments (h : r.shape = .named) (own : List TypeRef) :
    ({ r with arguments := own } : TypeRef).fullName = r.fullName := by
  obtain ⟨shape, name, space, declaring, arguments, element, rank, position, methodLevel⟩ := r
  cases h
  rfl

/-! ## The named type after substitution -/

theorem named?_named (h : r.shape = .named) : r.named? = some r := by
  obtain ⟨shape, name, space, declaring, own, element, rank, position, methodLevel⟩ := r
  cases h
  rfl

theorem named?_element {e : TypeRef} (h : r.hasElement = true) (he : r.element = some e) :
    r.named? = e.named? := by
  obtain ⟨shape, name, space, declaring, own, element, rank, position, methodLevel⟩ := r
  cases he
  simp only [hasElement, Bool.or_eq_true, decide_eq_true_eq] at h
  rcases h with (rfl | rfl) | rfl <;> rfl

theorem named?_parameter (h : r.shape = .parameter) : r.named? = none := by
  obtain ⟨shape, name, space, declaring, own, element, rank, position, methodLevel⟩ := r
  cases h
  rfl

/-- Arguments do not change the named type that a reference comes to, if it comes to one. -/
theorem Supported.exists_named?_substitute {n r' : TypeRef} (h : r.Supported)
    (hn : r.named? = some n) (hr : r.substitute arguments = .ok r') :
    ∃ n', r'.named? = some n' ∧ n'.fullName = n.fullName := by
  induction h generalizing r' with
  | @named r hshape =>
    rw [substitute_named hshape] at hr
    obtain ⟨own, -, rfl⟩ := map_eq_ok.1 hr
    obtain rfl := Option.some.inj ((named?_named hshape).symm.trans hn)
    exact ⟨_, named?_named (by exact hshape), fullName_with_arguments hshape own⟩
  | parameter hshape => cases (named?_parameter hshape).symm.trans hn
  | element hshape he _ ih =>
    rw [named?_element hshape he] at hn
    rw [substitute_element hshape he] at hr
    obtain ⟨e', he', rfl⟩ := map_eq_ok.1 hr
    obtain ⟨n', hn', hname⟩ := ih hn he'
    exact ⟨n', (named?_element (by exact hshape) rfl).trans hn', hname⟩

/-! ## Keys after substitution -/

theorem exists_keys {l l' : List TypeRef} (h : List.Forall₂ SameKey l l') :
    ∃ inner, keys true l = .ok inner ∧ keys true l' = .ok inner := by
  simp only [keys_eq_mapM, mapM_eq_ok]
  induction h with
  | nil => exact ⟨[], .nil, .nil⟩
  | cons hk _ ih =>
    obtain ⟨k, hk, hk'⟩ := hk
    obtain ⟨inner, hinner, hinner'⟩ := ih
    exact ⟨k :: inner, .cons hk hinner, .cons hk' hinner'⟩

theorem exists_argumentAt {position : Int} (h : List.Forall₂ SameKey arguments arguments')
    (hp : 0 ≤ position) (hlt : position < arguments.length) :
    ∃ a a', argumentAt arguments position = .ok a ∧
      argumentAt arguments' position = .ok a' ∧ SameKey a a' := by
  have hlt' : position.toNat < arguments.length := by omega
  have hlt'' : position.toNat < arguments'.length := h.length_eq ▸ hlt'
  refine ⟨arguments[position.toNat], arguments'[position.toNat], ?_, ?_, ?_⟩
  · simp [argumentAt, Int.not_lt.2 hp, hlt']
  · simp [argumentAt, Int.not_lt.2 hp, hlt'']
  · exact (List.forall₂_iff_get.1 h).2 _ hlt' hlt''

/-- References of one full name with arguments of the same keys have the same key. -/
theorem sameKey_named (h : r.shape = .named) {r' : TypeRef} (h' : r'.shape = .named)
    (hname : r.fullName = r'.fullName) (hargs : List.Forall₂ SameKey r.arguments r'.arguments) :
    SameKey r r' := by
  by_cases hr : r.arguments = []
  · have hr' : r'.arguments = [] :=
      List.eq_nil_of_length_eq_zero (by rw [← hargs.length_eq, hr]; rfl)
    exact ⟨_, key_named h hr, by rw [hname]; exact key_named h' hr'⟩
  · have hr' : r'.arguments ≠ [] := by
      intro hr'
      exact hr (List.eq_nil_of_length_eq_zero (by rw [hargs.length_eq, hr']; rfl))
    obtain ⟨inner, hinner, hinner'⟩ := exists_keys hargs
    refine ⟨_, by rw [key_generic h hr, hinner]; rfl, ?_⟩
    rw [key_generic h' hr', hinner', hname]
    rfl

/-- An element with the same key gives the same key. -/
theorem sameKey_element {r r' e e' : TypeRef} (h : r.hasElement = true)
    (hshape : r'.shape = r.shape)
    (he : r.element = some e) (he' : r'.element = some e') (hkey : SameKey e e') :
    SameKey r r' := by
  obtain ⟨k, hk, hk'⟩ := hkey
  simp only [hasElement, Bool.or_eq_true, decide_eq_true_eq] at h
  rcases h with (h | h) | h
  · exact ⟨k, key_array (.inl h) he ▸ hk, key_array (.inl (hshape.trans h)) he' ▸ hk'⟩
  · exact ⟨k ++ "@", by rw [key_byRef h he, hk]; rfl,
      by rw [key_byRef (hshape.trans h) he', hk']; rfl⟩
  · exact ⟨k, key_array (.inr h) he ▸ hk, key_array (.inr (hshape.trans h)) he' ▸ hk'⟩

theorem Supported.sameKey (h : r.Supported) : SameKey r r := by
  induction h with
  | named h _ ih => exact sameKey_named h h rfl (List.forall₂_same.2 ih)
  | parameter h _ => exact ⟨_, key_parameter h, key_parameter h⟩
  | element h he _ ih => exact sameKey_element h rfl he he ih

theorem exists_substituteAll {l : List TypeRef}
    (h : ∀ r ∈ l, ∃ r₁ r₂, r.substitute arguments = .ok r₁ ∧
      r.substitute arguments' = .ok r₂ ∧ SameKey r₁ r₂) :
    ∃ l₁ l₂, substituteAll arguments l = .ok l₁ ∧
      substituteAll arguments' l = .ok l₂ ∧ List.Forall₂ SameKey l₁ l₂ := by
  simp only [substituteAll_eq_ok]
  induction l with
  | nil => exact ⟨[], [], .nil, .nil, .nil⟩
  | cons r l ih =>
    obtain ⟨r₁, r₂, h₁, h₂, hr⟩ := h r List.mem_cons_self
    obtain ⟨l₁, l₂, hl₁, hl₂, hl⟩ := ih fun r hr => h r (List.mem_cons_of_mem _ hr)
    exact ⟨r₁ :: l₁, r₂ :: l₂, .cons h₁ hl₁, .cons h₂ hl₂, .cons hr hl⟩

/-- With arguments that have keys a supported reference has a key, and arguments with the same keys
give the same. -/
theorem Supported.exists_substitute (hr : r.Supported)
    (h : List.Forall₂ SameKey arguments arguments') :
    ∃ r₁ r₂, r.substitute arguments = .ok r₁ ∧ r.substitute arguments' = .ok r₂ ∧
      SameKey r₁ r₂ := by
  induction hr with
  | @named r hshape _ ih =>
    obtain ⟨l₁, l₂, h₁, h₂, hl⟩ := exists_substituteAll ih
    refine ⟨{ r with arguments := l₁ }, { r with arguments := l₂ }, ?_, ?_, ?_⟩
    · rw [substitute_named hshape, h₁]
      rfl
    · rw [substitute_named hshape, h₂]
      rfl
    · have hname : ({ r with arguments := l₁ } : TypeRef).fullName =
          ({ r with arguments := l₂ } : TypeRef).fullName := by
        rw [fullName_with_arguments hshape, fullName_with_arguments hshape]
      exact sameKey_named (by exact hshape) (by exact hshape) hname hl
  | @parameter r hshape hposition =>
    rw [substitute_parameter hshape hposition, substitute_parameter hshape hposition, ← h.length_eq]
    split
    next hlt =>
      simp only [Bool.and_eq_true, decide_eq_true_eq] at hlt
      obtain ⟨a, a', hget, hget', hkey⟩ := exists_argumentAt h hposition hlt.2
      exact ⟨a, a', hget, hget', hkey⟩
    next => exact ⟨r, r, rfl, rfl, _, key_parameter hshape, key_parameter hshape⟩
  | @element r e hshape he _ ih =>
    obtain ⟨e₁, e₂, h₁, h₂, hkey⟩ := ih
    refine ⟨{ r with element := some e₁ }, { r with element := some e₂ }, ?_, ?_, ?_⟩
    · rw [substitute_element hshape he, h₁]
      rfl
    · rw [substitute_element hshape he, h₂]
      rfl
    · exact sameKey_element hshape rfl rfl rfl hkey

end TypeRef

/-! ## Signatures -/

theorem exists_parameterList {parameters : List Parameter} (hp : ∀ p ∈ parameters, p.type.Supported)
    {arguments arguments' : List TypeRef} (h : List.Forall₂ TypeRef.SameKey arguments arguments') :
    ∃ s, parameterList arguments parameters = .ok s ∧
      parameterList arguments' parameters = .ok s := by
  suffices ∃ keys,
      List.Forall₂ (fun p k => (p.type.substitute arguments >>= TypeRef.key true) = .ok k)
        parameters keys ∧
      List.Forall₂ (fun p k => (p.type.substitute arguments' >>= TypeRef.key true) = .ok k)
        parameters keys by
    obtain ⟨keys, hkeys, hkeys'⟩ := this
    refine ⟨_, bind_eq_ok.2 ⟨keys, mapM_eq_ok.2 hkeys, rfl⟩,
      bind_eq_ok.2 ⟨keys, mapM_eq_ok.2 hkeys', rfl⟩⟩
  induction parameters with
  | nil => exact ⟨[], .nil, .nil⟩
  | cons p parameters ih =>
    obtain ⟨r₁, r₂, h₁, h₂, k, hk, hk'⟩ := (hp p List.mem_cons_self).exists_substitute h
    obtain ⟨keys, hkeys, hkeys'⟩ := ih fun p hp' => hp p (List.mem_cons_of_mem _ hp')
    exact ⟨k :: keys, .cons (bind_eq_ok.2 ⟨r₁, h₁, hk⟩) hkeys,
      .cons (bind_eq_ok.2 ⟨r₂, h₂, hk'⟩) hkeys'⟩

/-- A method with supported parameters has a signature on each constructed type, which is the same
for arguments with the same keys. -/
theorem Method.exists_signature {d : Method} (hp : ∀ p ∈ d.parameters, p.type.Supported)
    {arguments arguments' : List TypeRef} (h : List.Forall₂ TypeRef.SameKey arguments arguments') :
    ∃ s, d.signature arguments = .ok s ∧ d.signature arguments' = .ok s := by
  obtain ⟨list, hlist, hlist'⟩ := exists_parameterList hp h
  exact ⟨_, bind_eq_ok.2 ⟨list, hlist, rfl⟩, bind_eq_ok.2 ⟨list, hlist', rfl⟩⟩

end ApiDoc
