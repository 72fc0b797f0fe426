import ApiDoc.Metadata.Identifier
import ApiDoc.Proofs.Answer

/-!
# Keys of types by their shape

A reference is taken apart by its arguments and its element (`TypeRef.induction_parts`), and the key
of a reference follows from those of its parts.
-/

namespace ApiDoc.TypeRef

variable {r : TypeRef} {inParameters : Bool}

/-! ## Parts -/

section

variable {motive : TypeRef → Prop}

mutual

/-- What holds of a reference if it holds of its arguments and its element holds of all. -/
theorem induction_parts
    (step : ∀ r : TypeRef, (∀ a ∈ r.arguments, motive a) →
      (∀ e, r.element = some e → motive e) → motive r) :
    ∀ r, motive r
  | ⟨_, _, _, _, arguments, element, _, _, _⟩ =>
    step _ (induction_parts_all step arguments) (induction_parts_element step element)

theorem induction_parts_all
    (step : ∀ r : TypeRef, (∀ a ∈ r.arguments, motive a) →
      (∀ e, r.element = some e → motive e) → motive r) :
    ∀ l : List TypeRef, ∀ a ∈ l, motive a
  | [] => fun _ h => nomatch h
  | r :: l => List.forall_mem_cons.2 ⟨induction_parts step r, induction_parts_all step l⟩

theorem induction_parts_element
    (step : ∀ r : TypeRef, (∀ a ∈ r.arguments, motive a) →
      (∀ e, r.element = some e → motive e) → motive r) :
    ∀ o : Option TypeRef, ∀ e, o = some e → motive e
  | none => fun _ h => nomatch h
  | some r => fun _ h => Option.some.inj h ▸ induction_parts step r

end

end

/-! ## Keys -/

/-- Two references have the same key in parameter lists. -/
def SameKey (r r' : TypeRef) : Prop := ∃ k, r.key true = .ok k ∧ r'.key true = .ok k

theorem keys_eq_mapM (l : List TypeRef) : keys inParameters l = l.mapM (key inParameters) := by
  induction l with
  | nil => rfl
  | cons r l ih =>
    rw [keys, ih, List.mapM_cons]
    rfl

theorem key_named (h : r.shape = .named) (hr : r.arguments = []) :
    r.key inParameters = .ok r.fullName := by
  obtain ⟨shape, name, space, declaring, arguments, element, rank, position, methodLevel⟩ := r
  cases h
  cases hr
  simp [key, isGeneric]

/-- Within parameter lists a generic type spells out its arguments. -/
theorem key_generic (h : r.shape = .named) (hr : r.arguments ≠ []) :
    r.key true = (keys true r.arguments).map fun inner =>
      Text.stripArity r.fullName ++ "\x7b" ++ String.intercalate "," inner ++ "\x7d" := by
  obtain ⟨shape, name, space, declaring, arguments, element, rank, position, methodLevel⟩ := r
  cases h
  simp only [key, isGeneric, decide_true, Bool.true_and, Bool.and_true, Bool.not_eq_eq_eq_not,
    Bool.not_true, List.isEmpty_eq_false_iff]
  rw [if_pos hr]
  cases keys true arguments <;> rfl

/-- Elsewhere a named type goes by its full name. -/
theorem key_false_named (h : r.shape = .named) : r.key false = .ok r.fullName := by
  obtain ⟨shape, name, space, declaring, arguments, element, rank, position, methodLevel⟩ := r
  cases h
  simp [key]

theorem key_parameter (h : r.shape = .parameter) : r.key inParameters =
    .ok ((if r.methodLevel then "``" else "`") ++ toString r.position) := by
  obtain ⟨shape, name, space, declaring, arguments, element, rank, position, methodLevel⟩ := r
  cases h
  rfl

theorem key_byRef {e : TypeRef} (h : r.shape = .byRef) (he : r.element = some e) :
    r.key true = (e.key true).map (· ++ "@") := by
  obtain ⟨shape, name, space, declaring, arguments, element, rank, position, methodLevel⟩ := r
  cases h
  cases he
  simp only [key, elementKey, ↓reduceIte]
  cases e.key true <;> rfl

theorem key_array {e : TypeRef} (h : r.shape = .array ∨ r.shape = .pointer)
    (he : r.element = some e) :
    r.key inParameters = e.key inParameters := by
  obtain ⟨shape, name, space, declaring, arguments, element, rank, position, methodLevel⟩ := r
  cases he
  rcases h with rfl | rfl <;> rfl

theorem key_eq_error_of_element {k : String} (h : r.hasElement = true) (he : r.element = none) :
    r.key inParameters ≠ .ok k := by
  obtain ⟨shape, name, space, declaring, arguments, element, rank, position, methodLevel⟩ := r
  cases he
  cases shape <;> simp_all [hasElement, key, elementKey, bind, Except.bind]

theorem key_eq_error_of_other {k label : String} (h : r.shape = .other label) :
    r.key inParameters ≠ .ok k := by
  obtain ⟨shape, name, space, declaring, arguments, element, rank, position, methodLevel⟩ := r
  cases h
  simp [key]

theorem substitute_nil (r : TypeRef) : r.substitute [] = .ok r := by
  obtain ⟨shape, name, space, declaring, arguments, element, rank, position, methodLevel⟩ := r
  rfl

end ApiDoc.TypeRef
