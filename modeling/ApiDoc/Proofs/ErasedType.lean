import ApiDoc.Proofs.Key

/-!
# Erased types

What the key of a parameter type keeps of the type: arrays and pointers are gone, references are
counted, a generic type has lost its arity marker, and a type parameter is known by its level and
its position (`TypeRef.erased?`). The characters of the key are those of the erased type
(`TypeRef.key_eq_ok_iff`), and what cannot be erased has no key.
-/

namespace ApiDoc

/-- What the key of a parameter type tells. Each form counts how often it is passed by reference. -/
inductive ErasedType where
  | named (name : String) (references : Nat)
  | generic (name : String) (arguments : List ErasedType) (references : Nat)
  | parameter (methodLevel : Bool) (position : Int) (references : Nat)
deriving Repr

namespace ErasedType

/-- The type passed by reference. -/
def refer : ErasedType → ErasedType
  | named name k => named name (k + 1)
  | generic name arguments k => generic name arguments (k + 1)
  | parameter methodLevel position k => parameter methodLevel position (k + 1)

/-- What stands in front: the name, or the level and position of a parameter. -/
def word : ErasedType → List Char
  | named name _ | generic name _ _ => name.toList
  | parameter methodLevel position _ =>
    (if methodLevel then ['`', '`'] else ['`']) ++ (toString position).toList

mutual

/-- The characters of the key. -/
def chars : ErasedType → List Char
  | named name k => name.toList ++ List.replicate k '@'
  | generic name arguments k =>
    name.toList ++ '\x7b' :: (charsOf arguments ++ '\x7d' :: List.replicate k '@')
  | parameter methodLevel position k =>
    (if methodLevel then ['`', '`'] else ['`']) ++ (toString position).toList ++
      List.replicate k '@'

/-- The characters of a list of keys, with commas between them. -/
def charsOf : List ErasedType → List Char
  | [] => []
  | e :: rest => chars e ++ charsAfter rest

def charsAfter : List ErasedType → List Char
  | [] => []
  | e :: rest => ',' :: (chars e ++ charsAfter rest)

end

end ErasedType

/-! ## Erasure -/

namespace TypeRef

mutual

/-- The erased form of a parameter type, if its shapes have a meaning. -/
def erased? : TypeRef → Option ErasedType
  | { shape, name, space, declaring, arguments, element, rank, position, methodLevel } =>
    match shape with
    | .named =>
      let self : TypeRef :=
        ⟨shape, name, space, declaring, arguments, element, rank, position, methodLevel⟩
      if arguments.isEmpty then some (.named self.fullName 0)
      else (erasedAll? arguments).map fun inner => .generic (Text.stripArity self.fullName) inner 0
    | .parameter => some (.parameter methodLevel position 0)
    | .array | .pointer => erasedElement? element
    | .byRef => (erasedElement? element).map ErasedType.refer
    | .other _ => none

def erasedElement? : Option TypeRef → Option ErasedType
  | none => none
  | some r => erased? r

def erasedAll? : List TypeRef → Option (List ErasedType)
  | [] => some []
  | r :: rest => do
    let e ← erased? r
    let es ← erasedAll? rest
    some (e :: es)

end

theorem erasedAll?_eq_some {l : List TypeRef} {es : List ErasedType} :
    erasedAll? l = some es ↔ List.Forall₂ (fun r e => r.erased? = some e) l es := by
  induction l generalizing es with
  | nil => cases es <;> simp [erasedAll?]
  | cons r l ih =>
    simp only [erasedAll?, Option.bind_eq_bind, Option.bind_eq_some_iff, Option.some.injEq]
    constructor
    · rintro ⟨e, he, es, hes, rfl⟩
      exact .cons he (ih.1 hes)
    · rintro (_ | ⟨he, hes⟩)
      exact ⟨_, he, _, ih.2 hes, rfl⟩

theorem mem_erasedAll? {l : List TypeRef} {es : List ErasedType} (h : erasedAll? l = some es)
    {e : ErasedType} (he : e ∈ es) : ∃ r ∈ l, r.erased? = some e := by
  have h' := erasedAll?_eq_some.1 h
  clear h
  induction h' with
  | nil => cases he
  | cons hr _ ih =>
    rcases List.mem_cons.1 he with rfl | he
    · exact ⟨_, List.mem_cons_self, hr⟩
    · obtain ⟨r, hr, hre⟩ := ih he
      exact ⟨r, List.mem_cons_of_mem _ hr, hre⟩

end TypeRef

/-! ## Keys are the characters of erased types -/

namespace ErasedType

theorem chars_refer (e : ErasedType) : e.refer.chars = e.chars ++ ['@'] := by
  cases e <;> simp [refer, chars, List.replicate_succ']

theorem toList_intercalate {keys : List String} {es : List ErasedType}
    (h : List.Forall₂ (fun key e => key.toList = e.chars) keys es) :
    (String.intercalate "," keys).toList = charsOf es := by
  cases h with
  | nil => rfl
  | @cons key e keys es hkey hkeys =>
    rw [charsOf, ← hkey]
    clear hkey
    induction hkeys generalizing key with
    | nil => simp [charsAfter]
    | @cons key' e' keys es hkey' _ ih =>
      rw [String.intercalate_cons_cons, String.toList_append, String.toList_append, ih,
        charsAfter, hkey']
      simp

end ErasedType

namespace TypeRef

variable {r : TypeRef} {k : String}

theorem erased?_named (h : r.shape = .named) (hr : r.arguments = []) :
    r.erased? = some (.named r.fullName 0) := by
  obtain ⟨shape, name, space, declaring, arguments, element, rank, position, methodLevel⟩ := r
  cases h
  cases hr
  rfl

theorem erased?_generic (h : r.shape = .named) (hr : r.arguments ≠ []) : r.erased? =
    (erasedAll? r.arguments).map fun inner => .generic (Text.stripArity r.fullName) inner 0 := by
  obtain ⟨shape, name, space, declaring, arguments, element, rank, position, methodLevel⟩ := r
  cases h
  simp only [erased?, List.isEmpty_iff]
  exact if_neg hr

theorem erased?_parameter (h : r.shape = .parameter) :
    r.erased? = some (.parameter r.methodLevel r.position 0) := by
  obtain ⟨shape, name, space, declaring, arguments, element, rank, position, methodLevel⟩ := r
  cases h
  rfl

theorem erased?_array {e : TypeRef} (h : r.shape = .array ∨ r.shape = .pointer)
    (he : r.element = some e) :
    r.erased? = e.erased? := by
  obtain ⟨shape, name, space, declaring, arguments, element, rank, position, methodLevel⟩ := r
  cases he
  rcases h with rfl | rfl <;> rfl

theorem erased?_byRef {e : TypeRef} (h : r.shape = .byRef) (he : r.element = some e) :
    r.erased? = e.erased?.map ErasedType.refer := by
  obtain ⟨shape, name, space, declaring, arguments, element, rank, position, methodLevel⟩ := r
  cases h
  cases he
  rfl

theorem erased?_eq_none_of_element (h : r.hasElement = true) (he : r.element = none) :
    r.erased? = none := by
  obtain ⟨shape, name, space, declaring, arguments, element, rank, position, methodLevel⟩ := r
  cases he
  cases shape <;> simp_all [hasElement, erased?, erasedElement?]

theorem erased?_eq_none_of_other {label : String} (h : r.shape = .other label) :
    r.erased? = none := by
  obtain ⟨shape, name, space, declaring, arguments, element, rank, position, methodLevel⟩ := r
  cases h
  rfl

theorem exists_erasedAll? {l : List TypeRef} (h : ∀ r ∈ l, ∃ e, r.erased? = some e) :
    ∃ es, erasedAll? l = some es := by
  induction l with
  | nil => exact ⟨[], rfl⟩
  | cons r l ih =>
    obtain ⟨e, he⟩ := h r List.mem_cons_self
    obtain ⟨es, hes⟩ := ih fun r hr => h r (List.mem_cons_of_mem _ hr)
    exact ⟨e :: es, erasedAll?_eq_some.2 (.cons he (erasedAll?_eq_some.1 hes))⟩

theorem exists_keys_of_erasedAll? {l : List TypeRef} {es : List ErasedType}
    (h : erasedAll? l = some es)
    (ih : ∀ r ∈ l, ∀ e, r.erased? = some e → ∃ k, r.key true = .ok k ∧ k.toList = e.chars) :
    ∃ inner, keys true l = .ok inner ∧
      List.Forall₂ (fun k e => k.toList = ErasedType.chars e) inner es := by
  simp only [keys_eq_mapM, mapM_eq_ok]
  have hes := erasedAll?_eq_some.1 h
  clear h
  induction hes with
  | nil => exact ⟨[], .nil, .nil⟩
  | cons he _ ih' =>
    obtain ⟨k, hk, hchars⟩ := ih _ List.mem_cons_self _ he
    obtain ⟨inner, hinner, hall⟩ := ih' fun r hr => ih r (List.mem_cons_of_mem _ hr)
    exact ⟨k :: inner, .cons hk hinner, .cons hchars hall⟩

theorem exists_key_of_erased? (r : TypeRef) (e : ErasedType) (h : r.erased? = some e) :
    ∃ k, r.key true = .ok k ∧ k.toList = e.chars := by
  induction r using induction_parts generalizing e with
  | step r ihs ih =>
    cases hshape : r.shape with
    | named =>
      by_cases hr : r.arguments = []
      · obtain rfl := Option.some.inj ((erased?_named hshape hr).symm.trans h)
        exact ⟨_, key_named hshape hr, by simp [ErasedType.chars]⟩
      · rw [erased?_generic hshape hr] at h
        obtain ⟨es, hes, rfl⟩ := Option.map_eq_some_iff.1 h
        obtain ⟨inner, hinner, hchars⟩ := exists_keys_of_erasedAll? hes ihs
        refine ⟨_, by rw [key_generic hshape hr, hinner]; rfl, ?_⟩
        simp [ErasedType.chars, ErasedType.toList_intercalate hchars]
    | parameter =>
      obtain rfl := Option.some.inj ((erased?_parameter hshape).symm.trans h)
      refine ⟨_, key_parameter hshape, ?_⟩
      cases r.methodLevel <;> simp [ErasedType.chars]
    | array | pointer =>
      cases he : r.element with
      | none => simp [erased?_eq_none_of_element (by simp [hasElement, hshape]) he] at h
      | some r' =>
        rw [erased?_array (by simp [hshape]) he] at h
        rw [key_array (by simp [hshape]) he]
        exact ih r' he e h
    | byRef =>
      cases he : r.element with
      | none => simp [erased?_eq_none_of_element (by simp [hasElement, hshape]) he] at h
      | some r' =>
        rw [erased?_byRef hshape he] at h
        obtain ⟨e, he', rfl⟩ := Option.map_eq_some_iff.1 h
        obtain ⟨k, hk, hchars⟩ := ih r' he e he'
        refine ⟨k ++ "@", by rw [key_byRef hshape he, hk]; rfl, ?_⟩
        simp [ErasedType.chars_refer, hchars]
    | other label =>
      rw [erased?_eq_none_of_other hshape] at h
      cases h

theorem exists_erased?_of_key (r : TypeRef) (k : String) (h : r.key true = .ok k) :
    ∃ e, r.erased? = some e := by
  induction r using induction_parts generalizing k with
  | step r ihs ih =>
    cases hshape : r.shape with
    | named =>
      by_cases hr : r.arguments = []
      · exact ⟨_, erased?_named hshape hr⟩
      · rw [key_generic hshape hr, keys_eq_mapM] at h
        obtain ⟨inner, hinner, -⟩ := map_eq_ok.1 h
        have hargs : ∀ a ∈ r.arguments, ∃ e, a.erased? = some e := fun a ha => by
          obtain ⟨k, hk⟩ := exists_of_mapM hinner ha
          exact ihs a ha k hk
        obtain ⟨es, hes⟩ := exists_erasedAll? hargs
        exact ⟨_, by rw [erased?_generic hshape hr, hes]; rfl⟩
    | parameter => exact ⟨_, erased?_parameter hshape⟩
    | array | pointer =>
      cases he : r.element with
      | none => exact absurd h (key_eq_error_of_element (by simp [hasElement, hshape]) he)
      | some r' =>
        rw [key_array (by simp [hshape]) he] at h
        rw [erased?_array (by simp [hshape]) he]
        exact ih r' he k h
    | byRef =>
      cases he : r.element with
      | none => exact absurd h (key_eq_error_of_element (by simp [hasElement, hshape]) he)
      | some r' =>
        rw [key_byRef hshape he] at h
        obtain ⟨k, hk, -⟩ := map_eq_ok.1 h
        obtain ⟨e, he'⟩ := ih r' he k hk
        exact ⟨e.refer, by rw [erased?_byRef hshape he, he']; rfl⟩
    | other label => exact absurd h (key_eq_error_of_other hshape)

/-- The key of a parameter type has the characters of the erased type; there is none for one that
cannot be erased. -/
theorem key_eq_ok_iff : r.key true = .ok k ↔ ∃ e, r.erased? = some e ∧ k.toList = e.chars := by
  constructor
  · intro h
    obtain ⟨e, he⟩ := exists_erased?_of_key r k h
    obtain ⟨k', hk', hchars⟩ := exists_key_of_erased? r e he
    cases h.symm.trans hk'
    exact ⟨e, he, hchars⟩
  · rintro ⟨e, he, hchars⟩
    obtain ⟨k', hk', hchars'⟩ := exists_key_of_erased? r e he
    rw [hk', String.toList_inj.1 (hchars.trans hchars'.symm)]

theorem sameKey_of_erased? {r' : TypeRef} {e : ErasedType} (h : r.erased? = some e)
    (h' : r'.erased? = some e) : SameKey r r' := by
  obtain ⟨k, hk, hchars⟩ := exists_key_of_erased? r e h
  exact ⟨k, hk, key_eq_ok_iff.2 ⟨e, h', hchars⟩⟩

theorem keys_eq_ok_iff {l : List TypeRef} {inner : List String} : keys true l = .ok inner ↔
    ∃ es, erasedAll? l = some es ∧
      List.Forall₂ (fun k e => k.toList = ErasedType.chars e) inner es := by
  constructor
  · intro h
    rw [keys_eq_mapM, mapM_eq_ok] at h
    induction h with
    | nil => exact ⟨[], rfl, .nil⟩
    | cons hk _ ih =>
      obtain ⟨e, he, hchars⟩ := key_eq_ok_iff.1 hk
      obtain ⟨es, hes, hall⟩ := ih
      exact ⟨e :: es, erasedAll?_eq_some.2 (.cons he (erasedAll?_eq_some.1 hes)), .cons hchars hall⟩
  · rintro ⟨es, hes, hall⟩
    obtain ⟨inner', hinner, hall'⟩ := exists_keys_of_erasedAll? hes fun r _ =>
      exists_key_of_erased? r
    suffices inner = inner' by rw [this, hinner]
    clear hes hinner
    induction hall generalizing inner' with
    | nil =>
      cases hall'
      rfl
    | cons hk _ ih =>
      cases hall' with
      | cons hk' hall' => rw [String.toList_inj.1 (hk.trans hk'.symm), ih _ hall']

end TypeRef
end ApiDoc
