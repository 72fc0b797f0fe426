import Mathlib
import ApiDoc.Proofs.Substitution
import ApiDoc.Proofs.Unambiguous

/-!
# Identifiers tell symbols apart

What the identifier of a symbol keeps of it is its kind, the full name of its type and its name, and
for methods and constructors the erased parameter types (`Symbol.erased?`). As long as names are
legible, two symbols have one identifier exactly if this is the same for both
(`Symbol.identifier_eq_iff`).
-/

namespace ApiDoc

/-- What the identifier of a symbol tells. -/
inductive ErasedSymbol where
  | type (name : String)
  | field (owner name : String)
  | property (owner name : String)
  | event (owner name : String)
  | method (owner name : String) (arity : Nat) (parameters : List ErasedType)
  | constructor (owner : String) (parameters : List ErasedType)
deriving Repr

/-! ## Erasure -/

/-- The erased types of parameters. -/
def erasedParameters? (parameters : List Parameter) : Option (List ErasedType) :=
  TypeRef.erasedAll? (parameters.map (·.type))

def MemberSymbol.ownerName? (m : MemberSymbol) : Option String :=
  m.owner.map fun t => t.decl.ref.fullName

/-- What the identifier of a member tells, if it has one. -/
def MemberSymbol.erased? (m : MemberSymbol) : Option ErasedSymbol := do
  let owner ← m.ownerName?
  match m.decl with
  | .field f => some (.field owner f.name)
  | .property p => some (.property owner p.name)
  | .event e => some (.event owner e.name)
  | .method d => (erasedParameters? d.parameters).map (.method owner d.name d.typeParameters.length)
  | .constructor c => (erasedParameters? c.parameters).map (.constructor owner)
  | .unclassified _ | .unclassifiedCallable _ => none

/-- What the identifier of a symbol tells, if it has one. -/
def Symbol.erased? : Symbol → Option ErasedSymbol
  | .type t => some (.type t.decl.ref.fullName)
  | .member m => m.erased?
  | .parameter _ => none

/-! ## Characters of identifiers -/

namespace ErasedType

/-- The characters of a parameter list. -/
def listChars : List ErasedType → List Char
  | [] => []
  | e :: es => '(' :: (charsOf (e :: es) ++ [')'])

end ErasedType

namespace ErasedSymbol

/-- The letter of the kind and a colon; events have none. -/
def letter : ErasedSymbol → List Char
  | type _ => ['T', ':']
  | field _ _ => ['F', ':']
  | property _ _ => ['P', ':']
  | event _ _ => []
  | method .. | constructor .. => ['M', ':']

def arityChars (arity : Nat) : List Char :=
  if arity = 0 then [] else '`' :: '`' :: (toString arity).toList

def callableBody (owner name : String) (arity : Nat) (parameters : List ErasedType) : List Char :=
  owner.toList ++ '.' :: (name.toList ++ arityChars arity) ++ ErasedType.listChars parameters

/-- What follows the letter. -/
def body : ErasedSymbol → List Char
  | type name => name.toList
  | field owner name | property owner name | event owner name => owner.toList ++ '.' :: name.toList
  | method owner name arity parameters => callableBody owner name arity parameters
  | constructor owner parameters => callableBody owner constructorName 0 parameters

/-- The characters of the identifier. -/
def chars (e : ErasedSymbol) : List Char := e.letter ++ e.body

end ErasedSymbol

/-- A parameter list on a constructed type has the characters of the erased types that come of
putting the arguments into those of the parameters. -/
theorem parameterList_eq_ok_iff {arguments : List TypeRef} {parameters : List Parameter}
    {s : String} : parameterList arguments parameters = .ok s ↔
      ∃ types es, TypeRef.substituteAll arguments (parameters.map (·.type)) = .ok types ∧
        TypeRef.erasedAll? types = some es ∧ s.toList = ErasedType.listChars es := by
  have hkeys : ∀ inner, (parameters.mapM fun p => do
      let type ← p.type.substitute arguments
      type.key true) = .ok inner ↔
        ∃ types, TypeRef.substituteAll arguments (parameters.map (·.type)) = .ok types ∧
          TypeRef.keys true types = .ok inner := by
    intro inner
    simp only [TypeRef.substituteAll_eq_ok, TypeRef.keys_eq_mapM, mapM_eq_ok]
    constructor
    · intro h
      induction h with
      | nil => exact ⟨[], .nil, .nil⟩
      | cons hp _ ih =>
        obtain ⟨type, htype, hk⟩ := bind_eq_ok.1 hp
        obtain ⟨types, htypes, hks⟩ := ih
        exact ⟨type :: types, .cons htype htypes, .cons hk hks⟩
    · rintro ⟨types, htypes, hks⟩
      induction parameters generalizing types inner with
      | nil =>
        cases htypes
        cases hks
        exact .nil
      | cons p parameters ih =>
        cases htypes with
        | cons htype htypes =>
          cases hks with
          | cons hk hks => exact .cons (bind_eq_ok.2 ⟨_, htype, hk⟩) (ih _ _ htypes hks)
  rw [parameterList, bind_eq_ok]
  simp only [hkeys, TypeRef.keys_eq_ok_iff]
  constructor
  · rintro ⟨inner, ⟨types, htypes, es, hes, hall⟩, hs⟩
    cases hs
    refine ⟨types, es, htypes, hes, ?_⟩
    cases hall with
    | nil => rfl
    | cons hk hall => simp [ErasedType.listChars, ErasedType.toList_intercalate (.cons hk hall)]
  · rintro ⟨types, es, htypes, hes, hs⟩
    obtain ⟨inner, -, hall⟩ := TypeRef.exists_keys_of_erasedAll? hes fun r _ =>
      TypeRef.exists_key_of_erased? r
    refine ⟨inner, ⟨types, htypes, es, hes, hall⟩, congrArg _ (String.toList_inj.1 ?_)⟩
    refine .trans ?_ hs.symm
    cases hall with
    | nil => rfl
    | cons hk hall => simp [ErasedType.listChars, ErasedType.toList_intercalate (.cons hk hall)]

theorem parameterList_nil_eq_ok_iff {parameters : List Parameter} {s : String} :
    parameterList [] parameters = .ok s ↔
      ∃ es, erasedParameters? parameters = some es ∧ s.toList = ErasedType.listChars es := by
  simp only [parameterList_eq_ok_iff, TypeRef.substituteAll_nil, erasedParameters?]
  constructor
  · rintro ⟨types, es, htypes, hes, hs⟩
    cases htypes
    exact ⟨es, hes, hs⟩
  · rintro ⟨es, hes, hs⟩
    exact ⟨_, es, rfl, hes, hs⟩

/-! ## Legible symbols -/

/-- The name of a member, which has neither dots nor back-quotes. -/
def Text.LegibleMember (s : String) : Prop := ∀ c ∈ s.toList, c ∉ reserved ∧ c ≠ '`' ∧ c ≠ '.'

instance (s : String) : Decidable (Text.LegibleMember s) :=
  List.decidableBAll _ _

/-- The type can be named in an identifier. -/
def TypeSymbol.Legible (t : TypeSymbol) : Prop :=
  t.decl.ref.shape = .named ∧ Text.Legible t.decl.ref.fullName

/-- The names in a member are legible, and it is not named like a constructor. -/
def Member.Legible : Member → Prop
  | .method d =>
    Text.LegibleMember d.name ∧ d.name ≠ constructorName ∧ ∀ p ∈ d.parameters, p.type.Legible
  | .constructor c => ∀ p ∈ c.parameters, p.type.Legible
  | m => Text.LegibleMember m.name

/-- The names in a symbol and in its type are legible. -/
def Symbol.Legible : Symbol → Prop
  | .type t => t.Legible
  | .member m => (∃ t, m.owner = some t ∧ t.Legible) ∧ m.decl.Legible
  | .parameter _ => True

theorem Text.LegibleMember.callable {name : String} (h : Text.LegibleMember name) :
    ∀ c ∈ name.toList, c ≠ '(' ∧ c ≠ '`' ∧ c ≠ '.' := by
  intro c hc
  refine ⟨?_, (h c hc).2⟩
  rintro rfl
  exact (h _ hc).1 (by decide)

namespace ErasedSymbol

inductive Legible : ErasedSymbol → Prop
  | type {name : String} : Legible (type name)
  | field {owner name : String} : Text.LegibleMember name → Legible (field owner name)
  | property {owner name : String} : Text.LegibleMember name → Legible (property owner name)
  | event {owner name : String} : Text.Legible owner → Text.LegibleMember name →
    Legible (event owner name)
  | method {owner name : String} {arity : Nat} {parameters : List ErasedType} : Text.Legible owner →
    Text.LegibleMember name → name ≠ constructorName → (∀ e ∈ parameters, e.Readable) →
    Legible (method owner name arity parameters)
  | constructor {owner : String} {parameters : List ErasedType} : Text.Legible owner →
    (∀ e ∈ parameters, e.Readable) → Legible (constructor owner parameters)

/-! ## Reading identifiers back -/

theorem listChars_inj {es es' : List ErasedType} (hes : ∀ e ∈ es, e.Readable)
    (hes' : ∀ e ∈ es', e.Readable)
    (h : ErasedType.listChars es = ErasedType.listChars es') : es = es' := by
  cases es with
  | nil =>
    cases es' with
    | nil => rfl
    | cons => cases h
  | cons e es =>
    cases es' with
    | nil => cases h
    | cons e' es' =>
      refine (ErasedType.charsOf_inj (fun a ha => ⟨hes a ha, (hes a ha).unambiguous⟩) hes' ?_ ?_
        (List.cons.inj h).2).1
      · simp [ErasedType.Closes]
      · simp [ErasedType.Closes]

theorem arityChars_inj {n n' : Nat} (h : arityChars n = arityChars n') : n = n' := by
  unfold arityChars at h
  split at h <;> split at h
  · simp_all
  · cases h
  · cases h
  · simp only [List.cons.injEq, true_and] at h
    exact repr_nat_inj h

theorem of_mem_arityChars {n : Nat} {c : Char} (h : c ∈ arityChars n) : c ≠ '(' ∧ c ≠ '.' := by
  unfold arityChars at h
  split at h
  · cases h
  · simp only [List.mem_cons, or_self_left] at h
    rcases h with rfl | h
    · decide
    · have hdigit : c.isDigit := isDigit_of_mem_repr h
      constructor <;> rintro rfl <;> revert hdigit <;> decide

/-- An identifier begins with the letter of its kind, and has no colon if the kind has none. -/
theorem letter_inj {e e' : ErasedSymbol} (he : e.Legible) (he' : e'.Legible)
    (h : e.chars = e'.chars) :
    e.letter = e'.letter ∧ e.body = e'.body := by
  have hletter : ∀ e : ErasedSymbol, e.letter = [] ∨ ∃ c, e.letter = [c, ':'] := by
    rintro (_ | _ | _ | _ | _ | _) <;> simp [letter]
  have hcolon : ∀ {e : ErasedSymbol}, e.Legible → e.letter = [] → ':' ∉ e.chars := by
    intro e he hl
    cases he <;> simp only [letter, reduceCtorEq] at hl
    case event owner name howner hname =>
      simp only [chars, letter, body, List.nil_append, List.mem_append, List.mem_cons, not_or]
      exact ⟨fun hc => howner.not_reserved _ hc (by decide), by decide,
        fun hc => (hname _ hc).1 (by decide)⟩
  rcases hletter e with hl | ⟨c, hl⟩ <;> rcases hletter e' with hl' | ⟨c', hl'⟩
  · exact ⟨hl.trans hl'.symm, by simpa [chars, hl, hl'] using h⟩
  · exact absurd (by rw [h, chars, hl']; simp) (hcolon he hl)
  · exact absurd (by rw [← h, chars, hl]; simp) (hcolon he' hl')
  · simp only [chars, hl, hl', List.cons_append, List.nil_append, List.cons.injEq, true_and] at h
    exact ⟨by rw [hl, hl', h.1], h.2⟩

/-- The body of a callable: up to the parameters, then up to the last dot, then up to the arity. -/
theorem callable_inj {owner owner' name name' : String} {arity arity' : Nat}
    {es es' : List ErasedType}
    (howner : Text.Legible owner) (howner' : Text.Legible owner')
    (hname : ∀ c ∈ name.toList, c ≠ '(' ∧ c ≠ '`' ∧ c ≠ '.')
    (hname' : ∀ c ∈ name'.toList, c ≠ '(' ∧ c ≠ '`' ∧ c ≠ '.')
    (hes : ∀ e ∈ es, e.Readable) (hes' : ∀ e ∈ es', e.Readable)
    (h : callableBody owner name arity es = callableBody owner' name' arity' es') :
    owner = owner' ∧ name = name' ∧ arity = arity' ∧ es = es' := by
  have hhead : ∀ {owner name : String} {n : Nat}, Text.Legible owner →
      (∀ c ∈ name.toList, c ≠ '(' ∧ c ≠ '`' ∧ c ≠ '.') →
      ∀ c ∈ owner.toList ++ '.' :: (name.toList ++ arityChars n), c ≠ '(' := by
    intro owner name n howner hname c hc
    simp only [List.mem_append, List.mem_cons] at hc
    rcases hc with hc | rfl | hc | hc
    · rintro rfl
      exact howner.not_reserved _ hc (by decide)
    · decide
    · exact (hname c hc).1
    · exact (of_mem_arityChars hc).1
  have hlist : ∀ es, ∀ c ∈ (ErasedType.listChars es).head?, ¬ c ≠ '(' := by
    rintro (_ | ⟨e, es⟩) c hc
    · cases hc
    · simpa [ErasedType.listChars, eq_comm] using hc
  obtain ⟨hfront, hlists⟩ := append_inj_of_head? (hhead howner hname) (hhead howner' hname')
    (hlist es) (hlist es') h
  have hdot : ∀ {name : String} {n : Nat}, (∀ c ∈ name.toList, c ≠ '(' ∧ c ≠ '`' ∧ c ≠ '.') →
      '.' ∉ name.toList ++ arityChars n := by
    intro name n hname hc
    rcases List.mem_append.1 hc with hc | hc
    · exact (hname _ hc).2.2 rfl
    · exact (of_mem_arityChars hc).2 rfl
  obtain ⟨hownerEq, hnames⟩ := append_cons_inj (hdot hname) (hdot hname') hfront
  have hquote : ∀ n, ∀ c ∈ (arityChars n).head?, ¬ c ≠ '`' := by
    intro n c hc
    unfold arityChars at hc
    split at hc
    · cases hc
    · simpa [eq_comm] using hc
  obtain ⟨hnameEq, harityEq⟩ := append_inj_of_head? (fun c hc => (hname c hc).2.1)
    (fun c hc => (hname' c hc).2.1) (hquote arity) (hquote arity') hnames
  exact ⟨String.toList_inj.1 hownerEq, String.toList_inj.1 hnameEq, arityChars_inj harityEq,
    listChars_inj hes hes' hlists⟩

theorem plain_inj {owner owner' name name' : String} (h : Text.LegibleMember name)
    (h' : Text.LegibleMember name')
    (heq : owner.toList ++ '.' :: name.toList = owner'.toList ++ '.' :: name'.toList) :
    owner = owner' ∧ name = name' := by
  obtain ⟨howner, hname⟩ :=
    append_cons_inj (fun hc => (h _ hc).2.2 rfl) (fun hc => (h' _ hc).2.2 rfl) heq
  exact ⟨String.toList_inj.1 howner, String.toList_inj.1 hname⟩

/-- Symbols with one identifier are erased to the same. -/
theorem eq_of_chars_eq {e e' : ErasedSymbol} (he : e.Legible) (he' : e'.Legible)
    (h : e.chars = e'.chars) :
    e = e' := by
  obtain ⟨hletter, hbody⟩ := letter_inj he he' h
  have hctor : ∀ c ∈ constructorName.toList, c ≠ '(' ∧ c ≠ '`' ∧ c ≠ '.' := by
    simp [constructorName]
  cases he with
  | type =>
    cases he' <;> simp [letter] at hletter
    rw [String.toList_inj.1 hbody]
  | field hname =>
    cases he' <;> simp [letter] at hletter
    case field hname' =>
      obtain ⟨rfl, rfl⟩ := plain_inj hname hname' hbody
      rfl
  | property hname =>
    cases he' <;> simp [letter] at hletter
    case property hname' =>
      obtain ⟨rfl, rfl⟩ := plain_inj hname hname' hbody
      rfl
  | event _ hname =>
    cases he' <;> simp [letter] at hletter
    case event _ hname' =>
      obtain ⟨rfl, rfl⟩ := plain_inj hname hname' hbody
      rfl
  | method howner hname hne hes =>
    cases he' <;> simp [letter] at hletter
    case method howner' hname' _ hes' =>
      obtain ⟨rfl, rfl, rfl, rfl⟩ :=
        callable_inj howner howner' hname.callable hname'.callable hes hes' hbody
      rfl
    case constructor howner' hes' =>
      exact absurd (callable_inj howner howner' hname.callable hctor hes hes' hbody).2.1 hne
  | constructor howner hes =>
    cases he' <;> simp [letter] at hletter
    case method howner' hname' hne hes' =>
      exact absurd (callable_inj howner howner' hctor hname'.callable hes hes' hbody).2.1.symm hne
    case constructor howner' hes' =>
      obtain ⟨rfl, -, -, rfl⟩ := callable_inj howner howner' hctor hctor hes hes' hbody
      rfl

end ErasedSymbol

/-! ## Identifiers of symbols -/

theorem Method.toList_arityMarker (d : Method) :
    d.arityMarker.toList = ErasedSymbol.arityChars d.typeParameters.length := by
  simp only [arityMarker, ErasedSymbol.arityChars, List.isEmpty_iff, List.length_eq_zero_iff]
  split
  · rfl
  · simp

namespace MemberSymbol

variable {m : MemberSymbol} {t : TypeSymbol} {k : String}

theorem ownerKey_eq_ok (ho : m.owner = some t) (ht : t.Legible) :
    m.ownerKey = .ok t.decl.ref.fullName := by
  rw [ownerKey, ho]
  exact TypeRef.key_false_named ht.1

theorem plainIdentifier_eq_ok_iff (ho : m.owner = some t) (ht : t.Legible) {letter : String} :
    m.plainIdentifier letter = .ok k ↔
      k.toList = letter.toList ++ (t.decl.ref.fullName.toList ++ '.' :: m.decl.name.toList) := by
  rw [plainIdentifier, ownerKey_eq_ok ho ht]
  change Except.ok (letter ++ t.decl.ref.fullName ++ "." ++ m.decl.name) = .ok k ↔ _
  rw [Except.ok.injEq, eq_comm, ← String.toList_inj]
  simp

theorem callableIdentifier_eq_ok_iff (ho : m.owner = some t) (ht : t.Legible) {name name' : String}
    {arity : Nat} (hname : name'.toList = name.toList ++ ErasedSymbol.arityChars arity)
    {parameters : List Parameter} : m.callableIdentifier name' parameters = .ok k ↔
      ∃ es, erasedParameters? parameters = some es ∧
        k.toList = 'M' :: ':' :: ErasedSymbol.callableBody t.decl.ref.fullName name arity es := by
  simp only [callableIdentifier, ownerKey_eq_ok ho ht, bind_eq_ok, parameterList_nil_eq_ok_iff]
  constructor
  · rintro ⟨_, howner, list, ⟨es, hes, hlist⟩, hk⟩
    cases howner
    cases hk
    refine ⟨es, hes, ?_⟩
    simp [ErasedSymbol.callableBody, hname, hlist]
  · rintro ⟨es, hes, hk⟩
    refine ⟨_, rfl, String.ofList (ErasedType.listChars es), ⟨es, hes, by simp⟩, ?_⟩
    refine congrArg _ (String.toList_inj.1 (.trans ?_ hk.symm))
    simp [ErasedSymbol.callableBody, hname]

/-- The identifier of a member has the characters of what the member is erased to. -/
theorem identifier_eq_ok_iff (ho : m.owner = some t) (ht : t.Legible) :
    m.identifier = .ok k ↔ ∃ e, m.erased? = some e ∧ k.toList = e.chars := by
  have howner : m.ownerName? = some t.decl.ref.fullName := by rw [ownerName?, ho]; rfl
  unfold identifier erased?
  rw [howner]
  cases hdecl : m.decl with
  | field f =>
    simp [plainIdentifier_eq_ok_iff ho ht, hdecl, ErasedSymbol.chars, ErasedSymbol.letter,
      ErasedSymbol.body, Member.name, Member.declared]
  | property p =>
    simp [plainIdentifier_eq_ok_iff ho ht, hdecl, ErasedSymbol.chars, ErasedSymbol.letter,
      ErasedSymbol.body, Member.name, Member.declared]
  | event e =>
    simp [plainIdentifier_eq_ok_iff ho ht, hdecl, ErasedSymbol.chars, ErasedSymbol.letter,
      ErasedSymbol.body, Member.name, Member.declared]
  | method d =>
    have hname : (d.name ++ d.arityMarker).toList =
        d.name.toList ++ ErasedSymbol.arityChars d.typeParameters.length := by
      rw [String.toList_append, d.toList_arityMarker]
    simp [callableIdentifier_eq_ok_iff ho ht hname, ErasedSymbol.chars, ErasedSymbol.letter,
      ErasedSymbol.body]
  | constructor c =>
    have hname : constructorName.toList = constructorName.toList ++ ErasedSymbol.arityChars 0 := by
      simp [ErasedSymbol.arityChars]
    simp [callableIdentifier_eq_ok_iff ho ht hname, ErasedSymbol.chars, ErasedSymbol.letter,
      ErasedSymbol.body]
  | unclassified d => simp
  | unclassifiedCallable c => simp

end MemberSymbol

/-- What a member with legible names is erased to has legible names. -/
theorem Member.Legible.erased {m : MemberSymbol} {t : TypeSymbol} {e : ErasedSymbol}
    (h : m.decl.Legible)
    (ho : m.owner = some t) (ht : t.Legible) (he : m.erased? = some e) : e.Legible := by
  have hlist : ∀ {parameters : List Parameter} {es : List ErasedType},
      (∀ p ∈ parameters, p.type.Legible) → erasedParameters? parameters = some es →
        ∀ e ∈ es, e.Readable := by
    intro parameters es hp hes e he
    obtain ⟨r, hr, hre⟩ := TypeRef.mem_erasedAll? hes he
    obtain ⟨p, hp', rfl⟩ := List.mem_map.1 hr
    exact (hp p hp').readable.erased hre
  obtain ⟨address, owner, decl⟩ := m
  cases ho
  cases decl with
  | field f =>
    cases he
    exact .field h
  | property p =>
    cases he
    exact .property h
  | event e =>
    cases he
    exact .event ht.2 h
  | method d =>
    obtain ⟨hname, hne, hp⟩ := h
    obtain ⟨es, hes, rfl⟩ := Option.map_eq_some_iff.1 he
    exact .method ht.2 hname hne (hlist hp hes)
  | constructor c =>
    obtain ⟨es, hes, rfl⟩ := Option.map_eq_some_iff.1 he
    exact .constructor ht.2 (hlist h hes)
  | unclassified d => cases he
  | unclassifiedCallable c => cases he

namespace Symbol

variable {a b : Symbol} {k : String}

theorem identifier_eq_ok_iff (h : a.Legible) :
    a.identifier = .ok k ↔ ∃ e, a.erased? = some e ∧ k.toList = e.chars := by
  cases a with
  | type t =>
    change TypeSymbol.identifier t = .ok k ↔ _
    rw [TypeSymbol.identifier, TypeRef.key_false_named h.1]
    change Except.ok ("T:" ++ t.decl.ref.fullName) = .ok k ↔ _
    rw [Except.ok.injEq, eq_comm, ← String.toList_inj]
    simp [erased?, ErasedSymbol.chars, ErasedSymbol.letter, ErasedSymbol.body]
  | member m =>
    obtain ⟨⟨t, ho, ht⟩, -⟩ := h
    exact MemberSymbol.identifier_eq_ok_iff ho ht
  | parameter p => simp [identifier, erased?]

theorem Legible.erased {e : ErasedSymbol} (h : a.Legible) (he : a.erased? = some e) :
    e.Legible := by
  cases a with
  | type t =>
    cases he
    exact .type
  | member m =>
    obtain ⟨⟨t, ho, ht⟩, hm⟩ := h
    exact hm.erased ho ht he
  | parameter p => cases he

/-- Two symbols with legible names have one identifier exactly if they are erased to the same:
types of one full name, fields, properties or events of one name on types of one full name, or
methods of one name and arity or constructors on types of one full name with parameters of the
same erased types. -/
theorem identifier_eq_iff (ha : a.Legible) (hb : b.Legible) :
    (∃ k, a.identifier = .ok k ∧ b.identifier = .ok k) ↔
      ∃ e, a.erased? = some e ∧ b.erased? = some e := by
  simp only [identifier_eq_ok_iff ha, identifier_eq_ok_iff hb]
  constructor
  · rintro ⟨k, ⟨e, he, hk⟩, e', he', hk'⟩
    obtain rfl := ErasedSymbol.eq_of_chars_eq (ha.erased he) (hb.erased he') (hk.symm.trans hk')
    exact ⟨e, he, he'⟩
  · rintro ⟨e, he, he'⟩
    exact ⟨String.ofList e.chars, ⟨e, he, by simp⟩, e, he', by simp⟩

/-- A method of a shelf with one parameter. -/
def put (type : TypeRef) : Symbol :=
  .member
    { address := ⟨.detached 0, []⟩
      owner := some ⟨⟨.detached 1, []⟩, none, { ref := .named "Zoo" "Shelf`1" [] none }⟩
      decl := .method { name := "Put", parameters := [{ name := "item", type }] } }

theorem legible_put {type : TypeRef} (h : type.Legible) : (put type).Legible := by
  have hname : Text.LegibleMember "Put" := by decide
  have hne : "Put" ≠ constructorName := by decide
  exact ⟨⟨_, rfl, rfl, by decide⟩, hname, hne, by simpa using h⟩

/-- Arrays and pointers are told by nothing, references are. -/
theorem identifier_eq_iff_put :
    (∃ k, (put (.arrayOf (.system "Int32") 2)).identifier = .ok k ∧
      (put (.pointerTo (.system "Int32"))).identifier = .ok k) ∧
    ¬ ∃ k, (put (.arrayOf (.system "Int32") 2)).identifier = .ok k ∧
      (put (.refTo (.system "Int32"))).identifier = .ok k := by
  have hint : (TypeRef.system "Int32").Legible := .named rfl (by decide) (by simp [TypeRef.system])
  have hwrapped : ∀ r : TypeRef, r.hasElement = true → r.element = some (.system "Int32") →
      (put r).Legible := by
    intro r hr he
    refine legible_put (.element hr fun e he' => ?_)
    cases he.symm.trans he'
    exact hint
  rw [identifier_eq_iff (hwrapped _ rfl rfl) (hwrapped _ rfl rfl),
    identifier_eq_iff (hwrapped _ rfl rfl) (hwrapped _ rfl rfl)]
  have harray : (put (.arrayOf (.system "Int32") 2)).erased? =
      some (.method "Zoo.Shelf`1" "Put" 0 [.named "System.Int32" 0]) := by cbv
  have hpointer : (put (.pointerTo (.system "Int32"))).erased? =
      some (.method "Zoo.Shelf`1" "Put" 0 [.named "System.Int32" 0]) := by cbv
  have hreference : (put (.refTo (.system "Int32"))).erased? =
      some (.method "Zoo.Shelf`1" "Put" 0 [.named "System.Int32" 1]) := by cbv
  refine ⟨⟨_, harray, hpointer⟩, ?_⟩
  rintro ⟨e, he, he'⟩
  rw [harray] at he
  rw [hreference, ← he] at he'
  simp at he'

end Symbol

end ApiDoc
