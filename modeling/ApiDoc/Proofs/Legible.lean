import Mathlib.Data.List.Basic
import ApiDoc.Metadata.TypeRef
import ApiDoc.Text.Segment

/-!
# Legible names

Identifiers write names, arity markers, arguments and parameters one after the other and escape
nothing. They can be read back if names are legible: free of the characters that stand between
names, and not beginning with a back-quote, which back-quotes that set off arity markers never do.
Keys of types have no colons between names, so for them it is enough that names are readable. A
readable name stays so without its arity marker (`Readable.stripArity`).
-/

namespace ApiDoc

namespace Text

variable {s : String} {cs : List Char}

/-- The characters that stand between the names in the key of a type or in a list of keys. -/
def delimiters : List Char := ['\x7b', '\x7d', ',', '@', '(', ')']

structure Readable (s : String) : Prop where
  ne_nil : s.toList ≠ []
  not_delimiter : ∀ c ∈ s.toList, c ∉ delimiters
  /-- Something stands before any arity marker. -/
  head?_ne : s.toList.head? ≠ some '`'

instance (s : String) : Decidable (Readable s) :=
  have : Decidable (∀ c ∈ s.toList, c ∉ delimiters) := List.decidableBAll _ _
  decidable_of_iff (s.toList ≠ [] ∧ (∀ c ∈ s.toList, c ∉ delimiters) ∧ s.toList.head? ≠ some '`')
    ⟨fun ⟨h₁, h₂, h₃⟩ => ⟨h₁, h₂, h₃⟩, fun ⟨h₁, h₂, h₃⟩ => ⟨h₁, h₂, h₃⟩⟩

/-- The characters that stand between names. -/
def reserved : List Char := ['\x7b', '\x7d', ',', '@', '(', ')', ':']

structure Legible (s : String) : Prop where
  ne_nil : s.toList ≠ []
  not_reserved : ∀ c ∈ s.toList, c ∉ reserved
  /-- Something stands before any arity marker. -/
  head?_ne : s.toList.head? ≠ some '`'

instance (s : String) : Decidable (Legible s) :=
  have : Decidable (∀ c ∈ s.toList, c ∉ reserved) := List.decidableBAll _ _
  decidable_of_iff (s.toList ≠ [] ∧ (∀ c ∈ s.toList, c ∉ reserved) ∧ s.toList.head? ≠ some '`')
    ⟨fun ⟨h₁, h₂, h₃⟩ => ⟨h₁, h₂, h₃⟩, fun ⟨h₁, h₂, h₃⟩ => ⟨h₁, h₂, h₃⟩⟩

theorem Legible.readable (h : Legible s) : Readable s := by
  have hsub : ∀ c ∈ delimiters, c ∈ reserved := by simp [delimiters, reserved]
  exact ⟨h.ne_nil, fun c hc hmem => h.not_reserved c hc (hsub c hmem), h.head?_ne⟩

theorem append_of_splitFinalFeed (cs : List Char) :
    (splitFinalFeed cs).1 ++ (splitFinalFeed cs).2 = cs := by
  unfold splitFinalFeed
  split
  next h => exact List.dropLast_append_getLast? _ h
  next => exact List.append_nil cs

/-- An arity marker is taken from the end of a name, or nothing is. -/
theorem stripArityChars_cases (cs : List Char) : stripArityChars cs = cs ∨
    ∃ name digits feed, cs = name ++ '`' :: digits ++ feed ∧ stripArityChars cs = name ++ feed := by
  have hcs := append_of_splitFinalFeed cs
  unfold stripArityChars
  cases hsplit : splitFinalFeed cs with | mk body feed => ?_
  rw [hsplit] at hcs
  simp only
  split
  next d ds name hd hname =>
    refine .inr ⟨name.reverse, (d :: ds).reverse, feed, ?_, rfl⟩
    have hbody : d :: ds ++ '`' :: name = body.reverse := by
      rw [← hd, ← hname, List.takeWhile_append_dropWhile]
    rw [← hcs, ← List.reverse_reverse body, ← hbody]
    simp
  next => exact .inl rfl

theorem Readable.stripArity (h : Readable s) : Readable (stripArity s) := by
  rcases stripArityChars_cases s.toList with heq | ⟨name, digits, feed, hs, heq⟩
  · rwa [Text.stripArity, heq, String.ofList_toList]
  · obtain ⟨hne, hplain, hhead⟩ := h
    rw [hs] at hplain hhead
    have hname : name ≠ [] := by
      rintro rfl
      simp at hhead
    rw [Text.stripArity, heq]
    refine ⟨?_, fun c hc => hplain c ?_, ?_⟩
    · simp [hname]
    · simp only [String.toList_ofList, List.mem_append, List.mem_cons] at hc ⊢
      rcases hc with hc | hc
      · exact .inl (.inl hc)
      · exact .inr hc
    · obtain ⟨c, name, rfl⟩ := List.exists_cons_of_ne_nil hname
      simpa using hhead

end Text

/-- The names in a reference, and in its arguments and element, are readable. -/
inductive TypeRef.Readable : TypeRef → Prop
  | named {r : TypeRef} : r.shape = .named → Text.Readable r.fullName →
    (∀ a ∈ r.arguments, Readable a) → Readable r
  | parameter {r : TypeRef} : r.shape = .parameter → Readable r
  | element {r : TypeRef} : r.hasElement = true → (∀ e, r.element = some e → Readable e) →
    Readable r
  | other {r : TypeRef} {label : String} : r.shape = .other label → Readable r

/-- The names in a reference, and in its arguments and element, are legible. -/
inductive TypeRef.Legible : TypeRef → Prop
  | named {r : TypeRef} : r.shape = .named → Text.Legible r.fullName →
    (∀ a ∈ r.arguments, Legible a) → Legible r
  | parameter {r : TypeRef} : r.shape = .parameter → Legible r
  | element {r : TypeRef} : r.hasElement = true → (∀ e, r.element = some e → Legible e) → Legible r
  | other {r : TypeRef} {label : String} : r.shape = .other label → Legible r

theorem TypeRef.Legible.readable {r : TypeRef} (h : r.Legible) : r.Readable := by
  induction h with
  | named hshape hname _ ih => exact .named hshape hname.readable ih
  | parameter hshape => exact .parameter hshape
  | element hshape _ ih => exact .element hshape ih
  | other hshape => exact .other hshape

end ApiDoc
