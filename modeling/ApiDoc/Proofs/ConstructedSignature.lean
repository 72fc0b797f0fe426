import ApiDoc.Context
import ApiDoc.Proofs.ErasedSubstitution
import ApiDoc.Proofs.Identifier

/-!
# Signatures on constructed types

Well-formed references stay so when well-formed arguments are put into them
(`WellFormed.of_substitute`), and keep the definition that they had before
(`Context.findType_of_substitute`). If two methods have one signature, they also have one on the types
constructed with further arguments (`Method.signature_of_signature`): a signature is read back into
a head and the erased parameter types, and the arguments are put into those.
-/

namespace ApiDoc

namespace TypeRef

variable {r r' : TypeRef} {arguments : List TypeRef}

/-! ## Well-formed references -/

/-- A reference of known shape whose names are readable: only a named type has arguments, only what
is wrapped has an element, and no position is before the first. -/
inductive WellFormed : TypeRef → Prop
  | named {r : TypeRef} : r.shape = .named → Text.Readable r.fullName →
    (∀ a ∈ r.arguments, WellFormed a) → WellFormed r
  | parameter {r : TypeRef} : r.shape = .parameter → 0 ≤ r.position → r.arguments = [] →
    WellFormed r
  | element {r e : TypeRef} : r.hasElement = true → r.arguments = [] → r.element = some e →
    WellFormed e → WellFormed r

namespace WellFormed

theorem supported (h : r.WellFormed) : r.Supported := by
  induction h with
  | named hshape _ _ ih => exact .named hshape ih
  | parameter hshape hposition _ => exact .parameter hshape hposition
  | element hshape _ he _ ih => exact .element hshape he ih

theorem readable (h : r.WellFormed) : r.Readable := by
  induction h with
  | named hshape hname _ ih => exact .named hshape hname ih
  | parameter hshape _ _ => exact .parameter hshape
  | element hshape _ he _ ih =>
    refine .element hshape fun e he' => ?_
    cases he.symm.trans he'
    exact ih

theorem of_mem_arguments (h : r.WellFormed) : ∀ a ∈ r.arguments, a.WellFormed := by
  cases h with
  | named _ _ hargs => exact hargs
  | parameter _ _ hnil | element _ hnil _ _ => simp [hnil]

/-- Putting well-formed arguments into a well-formed reference gives a well-formed one. -/
theorem of_substitute (h : r.WellFormed) (hargs : ∀ a ∈ arguments, a.WellFormed)
    (hr : r.substitute arguments = .ok r') : r'.WellFormed := by
  induction h generalizing r' with
  | @named r hshape hname _ ih =>
    rw [substitute_named hshape] at hr
    obtain ⟨own, hown, rfl⟩ := map_eq_ok.1 hr
    refine .named hshape ?_ fun a ha => ?_
    · rw [fullName_with_arguments hshape]
      exact hname
    · obtain ⟨a', ha', heq⟩ := exists_of_mem_right (substituteAll_eq_ok.1 hown) ha
      exact ih a' ha' heq
  | @parameter r hshape hposition hnil =>
    rw [substitute_parameter hshape hposition] at hr
    split at hr
    · simp only [argumentAt, Int.not_lt.2 hposition, ↓reduceIte] at hr
      split at hr
      next a ha =>
        cases hr
        exact hargs _ (List.mem_of_getElem? ha)
      next => cases hr
    · cases hr
      exact .parameter hshape hposition hnil
  | @element r e hshape hnil he _ ih =>
    rw [substitute_element hshape he] at hr
    obtain ⟨e', he', rfl⟩ := map_eq_ok.1 hr
    exact .element hshape hnil rfl (ih he')

/-- What is no type parameter passes the arguments on to its own. -/
theorem substituteAll_arguments (h : r.WellFormed) (hshape : r.shape ≠ .parameter)
    (hr : r.substitute arguments = .ok r') :
    substituteAll arguments r.arguments = .ok r'.arguments := by
  cases h with
  | named hnamed =>
    rw [substitute_named hnamed] at hr
    obtain ⟨own, hown, rfl⟩ := map_eq_ok.1 hr
    exact hown
  | parameter hparameter => exact absurd hparameter hshape
  | element helement hnil he =>
    rw [substitute_element helement he] at hr
    obtain ⟨e', -, rfl⟩ := map_eq_ok.1 hr
    rw [hnil]
    rfl

end WellFormed

end TypeRef

/-- Putting arguments into a reference leaves its definition as it is, if it has one. -/
theorem Context.findType_of_substitute {ctx : Context} {r r' : TypeRef} {arguments : List TypeRef}
    {t : TypeSymbol} (h : r.Supported) (hf : ctx.findType r = some t)
    (hr : r.substitute arguments = .ok r') : ctx.findType r' = some t := by
  simp only [findType, Hierarchy.findType, Option.bind_eq_bind, Option.bind_eq_some_iff] at hf ⊢
  obtain ⟨n, hn, address, haddress, ht⟩ := hf
  obtain ⟨n', hn', hname⟩ := h.exists_named?_substitute hn hr
  exact ⟨n', hn', address, hname ▸ haddress, ht⟩

/-! ## Parameter lists -/

section

variable {arguments further arguments' : List TypeRef} {parameters parameters' : List Parameter}

/-- If some parameters on a constructed type have the list that others have as they are declared,
then both have one list once further arguments are put into either side. -/
theorem parameterList_of_parameterList {list list' : String}
    (hp : ∀ p ∈ parameters, p.type.WellFormed) (hp' : ∀ p ∈ parameters', p.type.WellFormed)
    (hwithin : ∀ p ∈ parameters, p.type.Within arguments.length)
    (hargs : ∀ a ∈ arguments, a.WellFormed) (hfurther : ∀ a ∈ further, a.WellFormed)
    (hput : TypeRef.substituteAll further arguments = .ok arguments')
    (h : parameterList arguments parameters = .ok list)
    (h' : parameterList [] parameters' = .ok list)
    (hlist : parameterList further parameters' = .ok list') :
    parameterList arguments' parameters = .ok list' := by
  obtain ⟨types, es, htypes, hes, hchars⟩ := parameterList_eq_ok_iff.1 h
  obtain ⟨es', hes', hchars'⟩ := parameterList_nil_eq_ok_iff.1 h'
  -- one list of readable names is read back in one way
  have hread : ∀ e ∈ es, e.Readable := by
    intro e he
    obtain ⟨type, htype, herased⟩ := TypeRef.mem_erasedAll? hes he
    obtain ⟨r, hr, hrtype⟩ := exists_of_mem_right (TypeRef.substituteAll_eq_ok.1 htypes) htype
    obtain ⟨p, hmem, rfl⟩ := List.mem_map.1 hr
    exact ((hp p hmem).of_substitute hargs hrtype).readable.erased herased
  have hread' : ∀ e ∈ es', e.Readable := by
    intro e he
    obtain ⟨type, htype, herased⟩ := TypeRef.mem_erasedAll? hes' he
    obtain ⟨p, hmem, rfl⟩ := List.mem_map.1 htype
    exact (hp' p hmem).readable.erased herased
  obtain rfl := ErasedSymbol.listChars_inj hread hread' (hchars.symm.trans hchars')
  obtain ⟨fs, hfs⟩ := TypeRef.exists_erasedAll? fun a ha =>
    (hfurther a ha).supported.exists_erased?
  -- the further arguments act on both sides as they act on the erased types
  have hcomposed : ∃ l₁ l₂, TypeRef.substituteAll arguments (parameters.map (·.type)) = .ok l₁ ∧
      TypeRef.substituteAll further l₁ = .ok l₂ ∧
      TypeRef.substituteAll arguments' (parameters.map (·.type)) = .ok l₂ := by
    refine TypeRef.exists_substituteAll_substituteAll fun r hr => ?_
    obtain ⟨p, hmem, rfl⟩ := List.mem_map.1 hr
    exact TypeRef.substitute_substitute hput _ (hp p hmem).supported.nonNegative (hwithin p hmem)
  obtain ⟨types', types₂, htypes', hsecond, hfinal⟩ := hcomposed
  cases htypes.symm.trans htypes'
  obtain ⟨types₂', hsecond', herased⟩ := TypeRef.exists_erasedAll?_substituteAll hes fun r hr => by
    obtain ⟨q, hq, hqr⟩ := exists_of_mem_right (TypeRef.substituteAll_eq_ok.1 htypes) hr
    obtain ⟨p, hmem, rfl⟩ := List.mem_map.1 hq
    exact TypeRef.exists_erased?_substitute ((hp p hmem).of_substitute hargs hqr).supported hfs
  cases hsecond.symm.trans hsecond'
  obtain ⟨types₃, es₃, hthird, hes₃, hlist⟩ := parameterList_eq_ok_iff.1 hlist
  obtain ⟨types₃', hthird', herased'⟩ := TypeRef.exists_erasedAll?_substituteAll hes' fun r hr => by
    obtain ⟨p, hmem, rfl⟩ := List.mem_map.1 hr
    exact TypeRef.exists_erased?_substitute (hp' p hmem).supported hfs
  cases hthird.symm.trans hthird'
  cases hes₃.symm.trans herased'
  exact parameterList_eq_ok_iff.2 ⟨types₂, _, hfinal, herased, hlist⟩

end

/-! ## Signatures -/

/-- The simple name has no character that the name has not. -/
theorem Text.mem_of_mem_simpleName {name : String} {c : Char} (h : c ∈ (simpleName name).toList) :
    c ∈ name.toList := by
  simp only [simpleName, String.toList_ofList, simpleNameChars] at h
  split at h
  · exact List.mem_reverse.1 ((List.takeWhile_sublist _).subset (List.mem_reverse.1 h))
  · exact h

namespace Method

variable {d r : Method} {s s' : String} {arguments further arguments' : List TypeRef}

/-- What stands before the parameters in a signature. -/
def signatureHead (m : Method) : String := Text.simpleName m.name ++ m.arityMarker

theorem signature_eq_ok_iff : d.signature arguments = .ok s ↔
    ∃ list, parameterList arguments d.parameters = .ok list ∧ s = d.signatureHead ++ list := by
  rw [signature, bind_eq_ok]
  simp [signatureHead, eq_comm]

theorem ne_of_mem_signatureHead (hd : '(' ∉ d.name.toList) :
    ∀ c ∈ d.signatureHead.toList, c ≠ '(' := by
  rintro c hc rfl
  rw [signatureHead, String.toList_append, d.toList_arityMarker, List.mem_append] at hc
  rcases hc with hc | hc
  · exact hd (Text.mem_of_mem_simpleName hc)
  · exact (ErasedSymbol.of_mem_arityChars hc).1 rfl

/-- One signature is that of one head and one parameter list. -/
theorem head_eq_of_signature {list list' : String} (hd : '(' ∉ d.name.toList)
    (hr : '(' ∉ r.name.toList) (hlist : parameterList arguments d.parameters = .ok list)
    (hlist' : parameterList arguments' r.parameters = .ok list')
    (h : d.signatureHead ++ list = r.signatureHead ++ list') :
    d.signatureHead = r.signatureHead ∧ list = list' := by
  have hopens : ∀ {arguments parameters list}, parameterList arguments parameters = .ok list →
      ∀ c ∈ list.toList.head?, ¬ c ≠ '(' := by
    intro arguments parameters list hlist c hc
    obtain ⟨-, es, -, -, hchars⟩ := parameterList_eq_ok_iff.1 hlist
    rw [hchars] at hc
    cases es with
    | nil => cases hc
    | cons e es => simpa [ErasedType.listChars, eq_comm] using hc
  have h := congrArg String.toList h
  rw [String.toList_append, String.toList_append] at h
  obtain ⟨hhead, hrest⟩ := append_inj_of_head? (ne_of_mem_signatureHead hd)
    (ne_of_mem_signatureHead hr) (hopens hlist) (hopens hlist') h
  exact ⟨String.toList_inj.1 hhead, String.toList_inj.1 hrest⟩

/-- A method that has on a constructed type the signature that another has as it is declared still
has the signature of the other once further arguments are put into both. -/
theorem signature_of_signature (hd : '(' ∉ d.name.toList) (hr : '(' ∉ r.name.toList)
    (hp : ∀ p ∈ d.parameters, p.type.WellFormed) (hp' : ∀ p ∈ r.parameters, p.type.WellFormed)
    (hwithin : ∀ p ∈ d.parameters, p.type.Within arguments.length)
    (hargs : ∀ a ∈ arguments, a.WellFormed) (hfurther : ∀ a ∈ further, a.WellFormed)
    (hput : TypeRef.substituteAll further arguments = .ok arguments')
    (h : d.signature arguments = .ok s) (h' : r.signature [] = .ok s)
    (hs : r.signature further = .ok s') : d.signature arguments' = .ok s' := by
  obtain ⟨list, hlist, rfl⟩ := signature_eq_ok_iff.1 h
  obtain ⟨list', hlist', heq⟩ := signature_eq_ok_iff.1 h'
  obtain ⟨hhead, rfl⟩ := head_eq_of_signature hd hr hlist hlist' heq
  obtain ⟨list₂, hlist₂, rfl⟩ := signature_eq_ok_iff.1 hs
  refine signature_eq_ok_iff.2 ⟨list₂, ?_, by rw [hhead]⟩
  exact parameterList_of_parameterList hp hp' hwithin hargs hfurther hput hlist hlist' hlist₂

end Method

end ApiDoc
