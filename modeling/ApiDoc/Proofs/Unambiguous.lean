import ApiDoc.Proofs.ErasedType
import ApiDoc.Proofs.Legible

/-!
# Keys can be read back

Where names are readable, the characters of an erased type end where a comma, a closing bracket or
nothing follows, and no other erased type has them (`ErasedType.Readable.unambiguous`). Therefore
two parameter types have one key exactly if they are erased to the same type
(`TypeRef.sameKey_iff`). Lists of keys are read back one key after the other, up to the bracket
that closes them (`ErasedType.charsOf_inj`).
-/

namespace ApiDoc

/-- Two lists that start with characters of a kind and go on with others are cut at the same
place. -/
theorem append_inj_of_head? {α : Type} {p : α → Prop} {xs xs' tail tail' : List α}
    (hx : ∀ c ∈ xs, p c) (hx' : ∀ c ∈ xs', p c) (ht : ∀ c ∈ tail.head?, ¬ p c)
    (ht' : ∀ c ∈ tail'.head?, ¬ p c) (h : xs ++ tail = xs' ++ tail') : xs = xs' ∧ tail = tail' := by
  induction xs generalizing xs' with
  | nil =>
    cases xs' with
    | nil => exact ⟨rfl, h⟩
    | cons c xs' =>
      rw [List.nil_append] at h
      exact absurd (hx' c List.mem_cons_self) (ht c (by simp [h]))
  | cons c xs ih =>
    cases xs' with
    | nil =>
      rw [List.nil_append] at h
      exact absurd (hx c List.mem_cons_self) (ht' c (by simp [← h]))
    | cons c' xs' =>
      simp only [List.cons_append, List.cons.injEq] at h
      obtain ⟨rfl, h⟩ := h
      obtain ⟨rfl, rfl⟩ := ih (fun c hc => hx c (List.mem_cons_of_mem _ hc))
        (fun c hc => hx' c (List.mem_cons_of_mem _ hc)) h
      exact ⟨rfl, rfl⟩

/-- A list is cut at the last of its separators. -/
theorem append_cons_inj {α : Type} {sep : α} {x x' y y' : List α} (hy : sep ∉ y) (hy' : sep ∉ y')
    (h : x ++ sep :: y = x' ++ sep :: y') : x = x' ∧ y = y' := by
  have hrev : y.reverse ++ sep :: x.reverse = y'.reverse ++ sep :: x'.reverse := by
    simpa using congrArg List.reverse h
  have hne : ∀ {l : List α}, sep ∉ l → ∀ a ∈ l.reverse, a ≠ sep := by
    rintro l hl a ha rfl
    exact hl (List.mem_reverse.1 ha)
  obtain ⟨hy, hx⟩ := append_inj_of_head? (hne hy) (hne hy') (by simp) (by simp) hrev
  exact ⟨List.reverse_inj.1 (List.cons.inj hx).2, List.reverse_inj.1 hy⟩

/-! ## Numbers -/

theorem isDigit_of_mem_repr {n : Nat} {c : Char} (h : c ∈ n.repr.toList) : c.isDigit :=
  Nat.isDigit_of_mem_toDigits (by decide) (by decide) (Nat.toList_repr ▸ h)

theorem repr_nat_inj {m n : Nat} (h : m.repr.toList = n.repr.toList) : m = n := by
  rw [Nat.toList_repr, Nat.toList_repr] at h
  have hm : Nat.ofDigitChars 10 (Nat.toDigits 10 m) 0 = m :=
    Nat.ofDigitChars_toDigits (by decide) (by decide)
  rw [← hm, h]
  exact Nat.ofDigitChars_toDigits (by decide) (by decide)

theorem isDigit_or_of_mem_toString {i : Int} {c : Char} (h : c ∈ (toString i).toList) :
    c.isDigit ∨ c = '-' := by
  rw [Int.toString_eq_repr, Int.repr_eq_if] at h
  split at h
  · exact .inl (isDigit_of_mem_repr h)
  · rw [String.toList_append, List.mem_append] at h
    rcases h with h | h
    · exact .inr (by simpa using h)
    · exact .inl (isDigit_of_mem_repr h)

theorem toString_int_inj {i j : Int} (h : (toString i).toList = (toString j).toList) : i = j := by
  -- no number begins with a minus sign but the negative ones
  have hsign : ∀ {n : Nat} {l : List Char}, n.repr.toList ≠ '-' :: l := by
    intro n l heq
    have hdigit := isDigit_of_mem_repr (n := n) (c := '-') (by simp [heq])
    revert hdigit
    decide
  simp only [Int.toString_eq_repr, Int.repr_eq_if] at h
  split at h <;> split at h
  · have := repr_nat_inj h
    omega
  · exact absurd (h.trans (by rw [String.toList_append]; rfl)) hsign
  · exact absurd (h.symm.trans (by rw [String.toList_append]; rfl)) hsign
  · rw [String.toList_append, String.toList_append, List.append_cancel_left_eq] at h
    have := repr_nat_inj h
    omega

theorem not_delimiter_of_mem_toString {i : Int} {c : Char} (h : c ∈ (toString i).toList) :
    c ∉ Text.delimiters ∧ c ≠ '`' := by
  rcases isDigit_or_of_mem_toString h with hc | rfl
  · refine ⟨fun hr => ?_, fun hr => ?_⟩
    · simp only [Text.delimiters, List.mem_cons, List.not_mem_nil, or_false] at hr
      rcases hr with rfl | rfl | rfl | rfl | rfl | rfl <;> revert hc <;> decide
    · subst hr
      revert hc
      decide
  · decide

/-! ## Erased types -/

namespace ErasedType

/-- The names in an erased type are readable. -/
inductive Readable : ErasedType → Prop
  | named {name : String} {k : Nat} : Text.Readable name → Readable (named name k)
  | generic {name : String} {arguments : List ErasedType} {k : Nat} : Text.Readable name →
    (∀ a ∈ arguments, Readable a) → Readable (generic name arguments k)
  | parameter {methodLevel : Bool} {position : Int} {k : Nat} :
    Readable (parameter methodLevel position k)

theorem Readable.refer {e : ErasedType} (h : e.Readable) : e.refer.Readable := by
  cases h with
  | named h => exact .named h
  | generic h hargs => exact .generic h hargs
  | parameter => exact .parameter

/-- What may follow a key: nothing, a comma or a closing bracket. -/
def Ends (tail : List Char) : Prop := ∀ c ∈ tail.head?, c = ',' ∨ c = '\x7d' ∨ c = ')'

/-- No key of another type begins with the characters of this one. -/
def Unambiguous (e : ErasedType) : Prop :=
  ∀ e' tail tail', Readable e' → Ends tail → Ends tail' → e.chars ++ tail = e'.chars ++ tail' →
    e = e' ∧ tail = tail'

theorem append_replicate_inj {k k' : Nat} {tail tail' : List Char} (ht : Ends tail)
    (ht' : Ends tail')
    (h : List.replicate k '@' ++ tail = List.replicate k' '@' ++ tail') :
    k = k' ∧ tail = tail' := by
  have hne : ∀ tail, Ends tail → ∀ c ∈ tail.head?, c ≠ '@' := by
    intro tail ht c hc
    rcases ht c hc with rfl | rfl | rfl <;> decide
  have hmem : ∀ k, ∀ c ∈ List.replicate k '@', c = '@' := fun k c hc => List.eq_of_mem_replicate hc
  obtain ⟨hk, rfl⟩ := append_inj_of_head? (hmem k) (hmem k') (hne _ ht) (hne _ ht') h
  exact ⟨by simpa using congrArg List.length hk, rfl⟩

/-- What follows the word of a key. -/
def rest : ErasedType → List Char
  | named _ k | parameter _ _ k => List.replicate k '@'
  | generic _ arguments k => '\x7b' :: (charsOf arguments ++ '\x7d' :: List.replicate k '@')

theorem chars_eq (e : ErasedType) : e.chars = e.word ++ e.rest := by
  cases e <;> simp [chars, word, rest]

theorem Readable.not_delimiter {e : ErasedType} (h : e.Readable) :
    ∀ c ∈ e.word, c ∉ Text.delimiters := by
  cases h with
  | named h | generic h _ => exact h.not_delimiter
  | @parameter methodLevel position k =>
    intro c hc
    rcases List.mem_append.1 hc with hc | hc
    · obtain rfl : c = '`' := by cases methodLevel <;> simpa using hc
      decide
    · exact (not_delimiter_of_mem_toString hc).1

theorem head?_rest (e : ErasedType) {tail : List Char} (ht : Ends tail) :
    ∀ c ∈ (e.rest ++ tail).head?, ¬ c ∉ Text.delimiters := by
  intro c hc
  rw [not_not]
  have hends : ∀ k, ∀ c ∈ (List.replicate k '@' ++ tail).head?, c ∈ Text.delimiters := by
    intro k c hc
    cases k with
    | zero => rcases ht c hc with rfl | rfl | rfl <;> decide
    | succ k =>
      obtain rfl : '@' = c := by simpa [List.replicate_succ] using hc
      decide
  cases e with
  | named | parameter => exact hends _ c hc
  | generic =>
    obtain rfl : '\x7b' = c := by simpa [rest] using hc
    decide

/-- The word of a key ends where the delimiters begin. -/
theorem word_inj {e e' : ErasedType} {tail tail' : List Char} (he : e.Readable) (he' : e'.Readable)
    (ht : Ends tail) (ht' : Ends tail') (h : e.chars ++ tail = e'.chars ++ tail') :
    e.word = e'.word ∧ e.rest ++ tail = e'.rest ++ tail' := by
  rw [chars_eq, chars_eq, List.append_assoc, List.append_assoc] at h
  exact append_inj_of_head? he.not_delimiter he'.not_delimiter (e.head?_rest ht) (e'.head?_rest ht') h

theorem word_ne_parameter {name : String} (h : Text.Readable name) {methodLevel : Bool}
    {position : Int}
    {k : Nat} : name.toList ≠ (parameter methodLevel position k).word := by
  intro heq
  refine h.head?_ne ?_
  rw [heq]
  cases methodLevel <;> rfl

theorem parameter_word_inj {methodLevel methodLevel' : Bool} {position position' : Int} {k k' : Nat}
    (h : (parameter methodLevel position k).word = (parameter methodLevel' position' k').word) :
    methodLevel = methodLevel' ∧ position = position' := by
  have hquotes : ∀ methodLevel : Bool, ∀ c ∈ (if methodLevel then ['`', '`'] else ['`']),
      c = '`' := by
    simp
  have hdigits : ∀ i : Int, ∀ c ∈ (toString i).toList.head?, c ≠ '`' := fun i c hc =>
    (not_delimiter_of_mem_toString (List.mem_of_head? hc)).2
  obtain ⟨hlevel, hposition⟩ :=
    append_inj_of_head? (hquotes _) (hquotes _) (hdigits _) (hdigits _) h
  refine ⟨?_, toString_int_inj hposition⟩
  cases methodLevel <;> cases methodLevel' <;> simp_all

theorem replicate_append_ne {k : Nat} {tail l : List Char} (ht : Ends tail) :
    List.replicate k '@' ++ tail ≠ '\x7b' :: l := by
  intro h
  cases k with
  | zero => rcases ht '\x7b' (by simp_all) with h | h | h <;> revert h <;> decide
  | succ k => simp [List.replicate_succ] at h

theorem Readable.word_ne_nil {e : ErasedType} (h : e.Readable) : e.word ≠ [] := by
  cases h with
  | named h | generic h _ => exact h.ne_nil
  | @parameter methodLevel _ _ => cases methodLevel <;> simp [word]

/-- What stands at the end of a list of keys: nothing, or the bracket that closes it. -/
def Closes (tail : List Char) : Prop := ∀ c ∈ tail.head?, c = '\x7d' ∨ c = ')'

theorem Closes.ends {tail : List Char} (h : Closes tail) : Ends tail := fun c hc => .inr (h c hc)

theorem ends_charsAfter (es : List ErasedType) {tail : List Char} (ht : Closes tail) :
    Ends (charsAfter es ++ tail) := by
  cases es with
  | nil => exact ht.ends
  | cons e es =>
    intro c hc
    exact .inl (by simpa [charsAfter, eq_comm] using hc)

theorem charsAfter_inj {es es' : List ErasedType} {tail tail' : List Char}
    (hes : ∀ e ∈ es, Unambiguous e) (hes' : ∀ e ∈ es', Readable e) (ht : Closes tail)
    (ht' : Closes tail')
    (h : charsAfter es ++ tail = charsAfter es' ++ tail') : es = es' ∧ tail = tail' := by
  have hcomma : ∀ {tail}, Closes tail → ∀ l, tail ≠ ',' :: l := by
    rintro _ ht l rfl
    rcases ht ',' rfl with h | h <;> revert h <;> decide
  induction es generalizing es' with
  | nil =>
    cases es' with
    | nil => exact ⟨rfl, h⟩
    | cons e' es' => exact absurd h (hcomma ht _)
  | cons e es ih =>
    cases es' with
    | nil => exact absurd h.symm (hcomma ht' _)
    | cons e' es' =>
      simp only [charsAfter, List.cons_append, List.append_assoc, List.cons.injEq, true_and] at h
      obtain ⟨rfl, hmore⟩ := hes e List.mem_cons_self e' _ _ (hes' e' List.mem_cons_self)
        (ends_charsAfter es ht) (ends_charsAfter es' ht') h
      obtain ⟨rfl, rfl⟩ := ih (fun e he => hes e (List.mem_cons_of_mem _ he))
        (fun e he => hes' e (List.mem_cons_of_mem _ he)) hmore
      exact ⟨rfl, rfl⟩

/-- A list of keys can be read back up to the bracket that closes it. -/
theorem charsOf_inj {es es' : List ErasedType} {tail tail' : List Char}
    (hes : ∀ e ∈ es, Readable e ∧ Unambiguous e) (hes' : ∀ e ∈ es', Readable e) (ht : Closes tail)
    (ht' : Closes tail') (h : charsOf es ++ tail = charsOf es' ++ tail') :
    es = es' ∧ tail = tail' := by
  -- a key does not begin like what closes a list
  have hword : ∀ {e : ErasedType} {tail}, Readable e → Closes tail → ∀ l, tail ≠ e.chars ++ l := by
    intro e tail he ht l heq
    obtain ⟨c, w, hw⟩ := List.exists_cons_of_ne_nil he.word_ne_nil
    have hc : c ∉ Text.delimiters := he.not_delimiter c (by simp [hw])
    have hhead := ht c (by simp [heq, chars_eq, hw])
    rcases hhead with rfl | rfl <;> revert hc <;> decide
  cases es with
  | nil =>
    cases es' with
    | nil => exact ⟨rfl, h⟩
    | cons e' es' =>
      rw [charsOf, charsOf, List.append_assoc] at h
      exact absurd h (hword (hes' e' List.mem_cons_self) ht _)
  | cons e es =>
    cases es' with
    | nil =>
      rw [charsOf, charsOf, List.append_assoc] at h
      exact absurd h.symm (hword (hes e List.mem_cons_self).1 ht' _)
    | cons e' es' =>
      rw [charsOf, charsOf, List.append_assoc, List.append_assoc] at h
      obtain ⟨rfl, hmore⟩ := (hes e List.mem_cons_self).2 e' _ _ (hes' e' List.mem_cons_self)
        (ends_charsAfter es ht) (ends_charsAfter es' ht') h
      obtain ⟨rfl, rfl⟩ := charsAfter_inj (fun e he => (hes e (List.mem_cons_of_mem _ he)).2)
        (fun e he => hes' e (List.mem_cons_of_mem _ he)) ht ht' hmore
      exact ⟨rfl, rfl⟩

/-- Where something ends a key, only one erased type with readable names has its characters. -/
theorem Readable.unambiguous {e : ErasedType} (he : e.Readable) : Unambiguous e := by
  induction he with
  | @named name k hname =>
    intro e' tail tail' he' ht ht' h
    obtain ⟨hword, hrest⟩ := word_inj (.named hname) he' ht ht' h
    cases he' with
    | @named name' k' _ =>
      obtain ⟨rfl, rfl⟩ := append_replicate_inj ht ht' hrest
      exact ⟨by rw [String.toList_inj.1 hword], rfl⟩
    | generic => exact absurd hrest (replicate_append_ne ht)
    | parameter => exact absurd hword (word_ne_parameter hname)
  | @generic name arguments k hname hargs ih =>
    intro e' tail tail' he' ht ht' h
    obtain ⟨hword, hrest⟩ := word_inj (.generic hname hargs) he' ht ht' h
    cases he' with
    | named => exact absurd hrest.symm (replicate_append_ne ht')
    | @generic name' arguments' k' _ hargs' =>
      simp only [rest, List.cons_append, List.append_assoc, List.cons.injEq, true_and] at hrest
      obtain ⟨rfl, hclose⟩ := charsOf_inj (fun a ha => ⟨hargs a ha, ih a ha⟩) hargs'
        (by simp [Closes]) (by simp [Closes]) hrest
      rw [List.cons.injEq] at hclose
      obtain ⟨rfl, rfl⟩ := append_replicate_inj ht ht' hclose.2
      exact ⟨by rw [String.toList_inj.1 hword], rfl⟩
    | parameter => exact absurd hword (word_ne_parameter hname)
  | @parameter methodLevel position k =>
    intro e' tail tail' he' ht ht' h
    obtain ⟨hword, hrest⟩ := word_inj .parameter he' ht ht' h
    cases he' with
    | named hname | generic hname _ => exact absurd hword.symm (word_ne_parameter hname)
    | @parameter methodLevel' position' k' =>
      obtain ⟨rfl, rfl⟩ := append_replicate_inj ht ht' hrest
      obtain ⟨rfl, rfl⟩ := parameter_word_inj hword
      exact ⟨rfl, rfl⟩

end ErasedType

/-! ## Keys of references -/

namespace TypeRef

variable {r r' : TypeRef}

/-- The erased form of a reference with readable names has readable names. -/
theorem Readable.erased {e : ErasedType} (h : r.Readable) (he : r.erased? = some e) : e.Readable := by
  induction h generalizing e with
  | @named r hshape hname _ ih =>
    by_cases hr : r.arguments = []
    · obtain rfl := Option.some.inj ((erased?_named hshape hr).symm.trans he)
      exact .named hname
    · rw [erased?_generic hshape hr] at he
      obtain ⟨es, hes, rfl⟩ := Option.map_eq_some_iff.1 he
      refine .generic hname.stripArity fun a ha => ?_
      obtain ⟨r', hr', hra⟩ := mem_erasedAll? hes ha
      exact ih r' hr' hra
  | parameter hshape =>
    obtain rfl := Option.some.inj ((erased?_parameter hshape).symm.trans he)
    exact .parameter
  | @element r hshape _ ih =>
    cases helement : r.element with
    | none => simp [erased?_eq_none_of_element hshape helement] at he
    | some r' =>
      simp only [hasElement, Bool.or_eq_true, decide_eq_true_eq] at hshape
      rcases hshape with (hshape | hshape) | hshape
      · exact ih r' helement (erased?_array (.inl hshape) helement ▸ he)
      · rw [erased?_byRef hshape helement] at he
        obtain ⟨e, he', rfl⟩ := Option.map_eq_some_iff.1 he
        exact (ih r' helement he').refer
      · exact ih r' helement (erased?_array (.inr hshape) helement ▸ he)
  | other hshape => simp [erased?_eq_none_of_other hshape] at he

/-- Two parameter types with readable names have one key exactly if they are erased to the same
type. -/
theorem sameKey_iff (h : r.Readable) (h' : r'.Readable) :
    SameKey r r' ↔ ∃ e, r.erased? = some e ∧ r'.erased? = some e := by
  constructor
  · rintro ⟨k, hk, hk'⟩
    obtain ⟨e, he, hchars⟩ := key_eq_ok_iff.1 hk
    obtain ⟨e', he', hchars'⟩ := key_eq_ok_iff.1 hk'
    obtain ⟨rfl, -⟩ :=
      (h.erased he).unambiguous e' [] [] (h'.erased he') (by simp [ErasedType.Ends])
      (by simp [ErasedType.Ends]) (by simp [← hchars, ← hchars'])
    exact ⟨e, he, he'⟩
  · rintro ⟨e, he, he'⟩
    exact sameKey_of_erased? he he'

end TypeRef
end ApiDoc
