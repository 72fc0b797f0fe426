import Mathlib
import ApiDoc.Proofs.RepeatedSubstitution
import ApiDoc.Proofs.Unambiguous

/-!
# Laws of substitution

What a reference is erased to after arguments are put into it follows from what the reference and
the arguments are erased to (`exists_erased?_substitute`). Where names are readable, references with
one key are erased to the same type, so they still have one key afterwards (`SameKey.substitute`).
The laws are put together in `substitute_composes_and_keeps_keys`.
-/

namespace ApiDoc

namespace ErasedType

mutual

/-- Puts erased arguments for the type parameters they reach. An argument is passed by reference
once more for each time the parameter is. -/
def substitute (arguments : List ErasedType) : ErasedType → ErasedType
  | named name k => named name k
  | generic name own k => generic name (substituteAll arguments own) k
  | parameter methodLevel position k =>
    if methodLevel then parameter methodLevel position k
    else match arguments[position.toNat]? with
      | some e => refer^[k] e
      | none => parameter methodLevel position k

def substituteAll (arguments : List ErasedType) : List ErasedType → List ErasedType
  | [] => []
  | e :: rest => substitute arguments e :: substituteAll arguments rest

end

theorem substitute_refer (arguments : List ErasedType) (e : ErasedType) :
    e.refer.substitute arguments = (e.substitute arguments).refer := by
  cases e with
  | named => rfl
  | generic => rfl
  | parameter methodLevel position k =>
    cases methodLevel with
    | true => rfl
    | false =>
      simp only [refer, substitute, Bool.false_eq_true, ↓reduceIte]
      cases arguments[position.toNat]? with
      | none => rfl
      | some e => exact Function.iterate_succ_apply' refer k e

end ErasedType

namespace TypeRef

variable {r r' : TypeRef} {arguments : List TypeRef} {es : List ErasedType}

/-! ## Erasing what arguments have been put into -/

theorem exists_erasedAll?_substituteAll {l : List TypeRef} {inner : List ErasedType}
    (h : erasedAll? l = some inner)
    (ih : ∀ r ∈ l, ∀ e, r.erased? = some e → ∃ r', r.substitute arguments = .ok r' ∧
      r'.erased? = some (e.substitute es)) :
    ∃ l', substituteAll arguments l = .ok l' ∧
      erasedAll? l' = some (ErasedType.substituteAll es inner) := by
  simp only [substituteAll_eq_ok, erasedAll?_eq_some] at h ⊢
  induction h with
  | nil => exact ⟨[], .nil, .nil⟩
  | cons he _ ih' =>
    obtain ⟨r', hr', he'⟩ := ih _ List.mem_cons_self _ he
    obtain ⟨l', hl', hes'⟩ := ih' fun r hr => ih r (List.mem_cons_of_mem _ hr)
    exact ⟨r' :: l', .cons hr' hl', .cons he' hes'⟩

/-- With arguments put into it a reference is erased to its erased form with the erased arguments
put into that. -/
theorem exists_erased?_substitute (hr : r.Supported) (hargs : erasedAll? arguments = some es) :
    ∀ e, r.erased? = some e → ∃ r', r.substitute arguments = .ok r' ∧
      r'.erased? = some (e.substitute es) := by
  have hall := erasedAll?_eq_some.1 hargs
  induction hr with
  | @named r hshape _ ih =>
    intro e he
    by_cases hown : r.arguments = []
    · obtain rfl := Option.some.inj ((erased?_named hshape hown).symm.trans he)
      refine ⟨{ r with arguments := [] }, ?_, ?_⟩
      · rw [substitute_named hshape, hown]
        rfl
      · rw [erased?_named (r := { r with arguments := [] }) hshape rfl,
          fullName_with_arguments hshape]
        rfl
    · rw [erased?_generic hshape hown] at he
      obtain ⟨inner, hinner, rfl⟩ := Option.map_eq_some_iff.1 he
      obtain ⟨l', hl', hinner'⟩ := exists_erasedAll?_substituteAll hinner ih
      have hne : l' ≠ [] := by
        rintro rfl
        exact hown (List.forall₂_nil_right_iff.1 (substituteAll_eq_ok.1 hl'))
      refine ⟨{ r with arguments := l' }, ?_, ?_⟩
      · rw [substitute_named hshape, hl']
        rfl
      · rw [erased?_generic (r := { r with arguments := l' }) hshape hne,
          fullName_with_arguments hshape, hinner']
        rfl
  | @parameter r hshape hposition =>
    intro e he
    obtain rfl := Option.some.inj ((erased?_parameter hshape).symm.trans he)
    cases hlevel : r.methodLevel with
    | true =>
      refine ⟨r, substitute_methodLevel hshape hposition hlevel, ?_⟩
      rw [erased?_parameter hshape, hlevel]
      rfl
    | false =>
      rcases Nat.lt_or_ge r.position.toNat arguments.length with hlt | hle
      · have hlt' : r.position.toNat < es.length := hall.length_eq ▸ hlt
        refine ⟨_, substitute_reached hshape hposition hlevel hlt, ?_⟩
        simp only [ErasedType.substitute, Bool.false_eq_true, ↓reduceIte,
          List.getElem?_eq_getElem hlt']
        exact (List.forall₂_iff_get.1 hall).2 _ hlt hlt'
      · have hle' : es.length ≤ r.position.toNat := hall.length_eq ▸ hle
        refine ⟨r, substitute_unreached hshape hposition hle, ?_⟩
        simp only [ErasedType.substitute, Bool.false_eq_true, ↓reduceIte,
          List.getElem?_eq_none hle']
        rw [erased?_parameter hshape, hlevel]
  | @element r inner hshape hinner _ ih =>
    intro e he
    have hwrapped : ∀ inner', inner.substitute arguments = .ok inner' →
        r.substitute arguments = .ok { r with element := some inner' } := by
      intro inner' hinner'
      rw [substitute_element hshape hinner, hinner']
      rfl
    by_cases hbyRef : r.shape = .byRef
    · rw [erased?_byRef hbyRef hinner] at he
      obtain ⟨e', he', rfl⟩ := Option.map_eq_some_iff.1 he
      obtain ⟨inner', hinner', herased⟩ := ih e' he'
      refine ⟨_, hwrapped inner' hinner', ?_⟩
      rw [erased?_byRef (r := { r with element := some inner' }) hbyRef rfl, herased,
        ErasedType.substitute_refer]
      rfl
    · have harray : r.shape = .array ∨ r.shape = .pointer := by
        simp only [hasElement, Bool.or_eq_true, decide_eq_true_eq] at hshape
        exact (or_assoc.1 hshape).imp_right fun h => h.resolve_left hbyRef
      rw [erased?_array harray hinner] at he
      obtain ⟨inner', hinner', herased⟩ := ih e he
      refine ⟨_, hwrapped inner' hinner', ?_⟩
      rw [erased?_array (r := { r with element := some inner' }) harray rfl, herased]

theorem Supported.exists_erased? (h : r.Supported) : ∃ e, r.erased? = some e := by
  obtain ⟨k, hk, -⟩ := h.sameKey
  exact exists_erased?_of_key r k hk

/-- References with readable names and one key still have one key after the same arguments are put
into both. -/
theorem SameKey.substitute (h : SameKey r r') (hr : r.Supported) (hr' : r'.Supported)
    (hread : r.Readable) (hread' : r'.Readable) (hargs : ∀ a ∈ arguments, a.Supported) :
    ∃ s s', r.substitute arguments = .ok s ∧ r'.substitute arguments = .ok s' ∧ SameKey s s' := by
  obtain ⟨es, hes⟩ := exists_erasedAll? fun a ha => (hargs a ha).exists_erased?
  obtain ⟨e, he, he'⟩ := (sameKey_iff hread hread').1 h
  obtain ⟨s, hs, herased⟩ := exists_erased?_substitute hr hes e he
  obtain ⟨s', hs', herased'⟩ := exists_erased?_substitute hr' hes e he'
  exact ⟨s, s', hs, hs', sameKey_of_erased? herased herased'⟩

/-! ## The laws -/

/-- Putting arguments and then further arguments into a reference comes to the same as putting in
the arguments with the further ones put into each of them, if the arguments reach all type
parameters of the reference. Arguments with the same keys give results with the same key, and so do
references with the same key, if their names are readable. -/
theorem substitute_composes_and_keeps_keys :
    (∀ (r : TypeRef) (a b : List TypeRef), r.NonNegative → (∀ x ∈ a, x.NonNegative) →
      r.Within a.length → ∃ r₁ a' r₂, r.substitute a = .ok r₁ ∧
        a.mapM (TypeRef.substitute b) = .ok a' ∧ r₁.substitute b = .ok r₂ ∧
        r.substitute a' = .ok r₂) ∧
    (∀ (r : TypeRef) (a a' : List TypeRef), r.Supported → List.Forall₂ SameKey a a' →
      ∃ s s', r.substitute a = .ok s ∧ r.substitute a' = .ok s' ∧ SameKey s s') ∧
    (∀ (r r' : TypeRef) (a : List TypeRef), r.Supported → r'.Supported → r.Readable →
      r'.Readable → (∀ x ∈ a, x.Supported) → SameKey r r' →
      ∃ s s', r.substitute a = .ok s ∧ r'.substitute a = .ok s' ∧ SameKey s s') := by
  refine ⟨fun r a b hr ha hw => ?_, fun r a a' hr ha => hr.exists_substitute ha,
    fun r r' a hr hr' hread hread' ha h => h.substitute hr hr' hread hread' ha⟩
  obtain ⟨a', ha'⟩ := exists_mapM fun x hx => (ha x hx).exists_substitute b
  have hall : substituteAll b a = .ok a' := (substituteAll_eq_mapM a).trans ha'
  obtain ⟨r₁, r₂, h₁, h₂, h'⟩ := substitute_substitute hall r hr hw
  exact ⟨r₁, a', r₂, h₁, ha', h₂, h'⟩

/-- A type parameter of the type level. -/
def ofPosition (position : Int) : TypeRef := { shape := .parameter, position }

def boxOf (content : TypeRef) : TypeRef := .named "Zoo" "Box`1" [content] none

def pairOf (left right : TypeRef) : TypeRef := .named "Zoo" "Pair`2" [left, right] none

/-- A pair of an array and a plain parameter, with a box and a text put into it and an integer into
the box. Neither the pointer in place of the text nor that in place of the array shows. -/
theorem substitute_composes_and_keeps_keys_pair :
    (∃ r₁ r₂, (pairOf (arrayOf (ofPosition 1) 1) (ofPosition 0)).substitute
        [boxOf (ofPosition 0), system "String"] = .ok r₁ ∧
      r₁.substitute [system "Int32"] = .ok r₂ ∧
      (pairOf (arrayOf (ofPosition 1) 1) (ofPosition 0)).substitute
        [boxOf (system "Int32"), system "String"] = .ok r₂) ∧
    (∃ s s', (pairOf (arrayOf (ofPosition 1) 1) (ofPosition 0)).substitute
        [boxOf (ofPosition 0), system "String"] = .ok s ∧
      (pairOf (arrayOf (ofPosition 1) 1) (ofPosition 0)).substitute
        [boxOf (ofPosition 0), pointerTo (system "String")] = .ok s' ∧ SameKey s s') ∧
    ∃ s s', (pairOf (arrayOf (ofPosition 1) 1) (ofPosition 0)).substitute
        [boxOf (ofPosition 0), system "String"] = .ok s ∧
      (pairOf (pointerTo (ofPosition 1)) (ofPosition 0)).substitute
        [boxOf (ofPosition 0), system "String"] = .ok s' ∧ SameKey s s' := by
  obtain ⟨hcompose, harguments, hreferences⟩ := substitute_composes_and_keeps_keys
  have hfirst : (ofPosition 0).Supported := .parameter rfl (by decide)
  have hsecond : (ofPosition 1).Supported := .parameter rfl (by decide)
  have htext : (system "String").Supported := .named rfl (by simp [system])
  have hbox : (boxOf (ofPosition 0)).Supported :=
    .named rfl (by simpa [boxOf, named] using hfirst)
  have hpair : ∀ {left}, left.Supported → (pairOf left (ofPosition 0)).Supported := by
    intro left hleft
    exact .named rfl (by simpa [pairOf, named] using ⟨hleft, hfirst⟩)
  have harray := hpair (.element rfl rfl hsecond : (arrayOf (ofPosition 1) 1).Supported)
  have hpointer := hpair (.element rfl rfl hsecond : (pointerTo (ofPosition 1)).Supported)
  have hread : ∀ {left}, left.Readable → (pairOf left (ofPosition 0)).Readable := by
    intro left hleft
    have hname : Text.Readable "Zoo.Pair`2" := by decide
    exact .named rfl hname (by simpa [pairOf, named] using ⟨hleft, .parameter rfl⟩)
  have hwrapped : ∀ {left : TypeRef}, left.hasElement = true →
      left.element = some (ofPosition 1) → left.Readable := by
    intro left hshape he
    refine .element hshape fun e he' => ?_
    cases he.symm.trans he'
    exact .parameter rfl
  have hsupported : ∀ x ∈ [boxOf (ofPosition 0), system "String"], x.Supported := by
    simpa using ⟨hbox, htext⟩
  have hsame : SameKey (system "String") (pointerTo (system "String")) :=
    ⟨"System.String", by cbv, by cbv⟩
  have hpairs : SameKey (pairOf (arrayOf (ofPosition 1) 1) (ofPosition 0))
      (pairOf (pointerTo (ofPosition 1)) (ofPosition 0)) :=
    ⟨"Zoo.Pair\x7b`1,`0\x7d", by cbv, by cbv⟩
  refine ⟨?_, ?_, ?_⟩
  · have hwithin : (pairOf (arrayOf (ofPosition 1) 1) (ofPosition 0)).Within 2 := by
      have hsecond : (arrayOf (ofPosition 1) 1).Within 2 :=
        .element rfl rfl (.parameter rfl (by decide))
      have hfirst : (ofPosition 0).Within 2 := .parameter rfl (by decide)
      exact .named rfl (by simpa [pairOf, named] using ⟨hsecond, hfirst⟩)
    obtain ⟨r₁, a', r₂, h₁, ha', h₂, h'⟩ := hcompose _ _ [system "Int32"] harray.nonNegative
      (fun x hx => (hsupported x hx).nonNegative) hwithin
    have hinner : [boxOf (ofPosition 0), system "String"].mapM
        (TypeRef.substitute [system "Int32"]) =
          .ok [boxOf (system "Int32"), system "String"] := by cbv
    cases hinner.symm.trans ha'
    exact ⟨r₁, r₂, h₁, h₂, h'⟩
  · exact harguments _ _ _ harray (.cons hbox.sameKey (.cons hsame .nil))
  · exact hreferences _ _ _ harray hpointer (hread (hwrapped rfl rfl)) (hread (hwrapped rfl rfl))
      hsupported hpairs

end TypeRef

end ApiDoc
