import ApiDoc.Data.Merge
import Mathlib.Data.List.Nodup

/-!
# Maps of plain data

What a map holds at a key once a value is set, once entries are added one by one, and once a layer
is laid over it. The keys of a map are `Distinct`, and all three keep them so. A layer then gives
every key it has, and the base gives the others (`get?_merge`).
-/

namespace ApiDoc.Data.Entries

variable {base layer entries rest : Entries} {key key' : Scalar} {value : Data}

/-! ## Keys -/

@[simp] theorem keyForm_text (s : String) : (Scalar.text s).keyForm = .text s := rfl

/-- No key but a text counts as that text. -/
theorem keyForm_eq_text {s : String} : key.keyForm = .text s ↔ key = .text s := by
  constructor
  · intro h
    cases key with
    | float x =>
      simp only [Scalar.keyForm] at h
      split at h <;> cases h
    | text t => exact h
    | _ => cases h
  · rintro rfl
    rfl

/-- The keys in the form by which they are compared. -/
def keyForms (entries : Entries) : List Scalar := entries.map fun e => e.1.keyForm

/-- No two keys count as one. -/
def Distinct (entries : Entries) : Prop := (keyForms entries).Nodup

instance (entries : Entries) : Decidable (Distinct entries) :=
  inferInstanceAs (Decidable (keyForms entries).Nodup)

theorem distinct_nil : Distinct [] := List.nodup_nil

theorem distinct_cons {e : Scalar × Data} :
    Distinct (e :: rest) ↔ e.1.keyForm ∉ keyForms rest ∧ Distinct rest := List.nodup_cons

/-! ## Lookup -/

theorem get?_cons (e : Scalar × Data) (rest : Entries) (key : Scalar) :
    get? (e :: rest) key = if e.1.keyForm = key.keyForm then some e.2 else get? rest key := rfl

/-- Only the form of a key counts. -/
theorem get?_congr (h : key.keyForm = key'.keyForm) (entries : Entries) :
    get? entries key = get? entries key' := by
  induction entries with
  | nil => rfl
  | cons e rest ih => rw [get?_cons, get?_cons, h, ih]

theorem get?_eq_none : get? entries key = none ↔ key.keyForm ∉ keyForms entries := by
  induction entries with
  | nil => exact iff_of_true rfl List.not_mem_nil
  | cons e rest ih =>
    rw [get?_cons, keyForms, List.map_cons, List.mem_cons, not_or]
    split
    next h => simp [h]
    next h => rw [ih, keyForms, and_iff_right (Ne.symm h)]

theorem exists_mem_of_get? (h : get? entries key = some value) :
    ∃ k, (k, value) ∈ entries ∧ k.keyForm = key.keyForm := by
  induction entries with
  | nil => cases h
  | cons e rest ih =>
    rw [get?_cons] at h
    split at h
    next hkey =>
      cases h
      exact ⟨e.1, List.mem_cons_self, hkey⟩
    next =>
      obtain ⟨k, hk, hkey⟩ := ih h
      exact ⟨k, List.mem_cons_of_mem _ hk, hkey⟩

theorem mem_of_get?_text {s : String} (h : get? entries (.text s) = some value) :
    (.text s, value) ∈ entries := by
  obtain ⟨k, hk, hkey⟩ := exists_mem_of_get? h
  rwa [keyForm_eq_text.1 hkey] at hk

theorem Distinct.get?_of_mem (h : Distinct entries) (hmem : (key, value) ∈ entries) :
    get? entries key = some value := by
  induction entries with
  | nil => cases hmem
  | cons e rest ih =>
    obtain ⟨hnew, hrest⟩ := distinct_cons.1 h
    rw [get?_cons]
    rcases List.mem_cons.1 hmem with rfl | hmem
    · exact if_pos rfl
    · rw [if_neg, ih hrest hmem]
      intro heq
      exact hnew (heq ▸ List.mem_map_of_mem (f := fun e => e.1.keyForm) hmem)

/-! ## Setting a value -/

theorem get?_put (entries : Entries) (key : Scalar) (value : Data) (key' : Scalar) :
    get? (put entries key value) key' =
      if key.keyForm = key'.keyForm then some value else get? entries key' := by
  induction entries with
  | nil => rfl
  | cons e rest ih =>
    rw [put]
    split
    next h =>
      rw [get?_cons, get?_cons]
      simp only [h]
      split <;> rfl
    next h =>
      rw [get?_cons, get?_cons, ih]
      split
      next he => rw [if_neg fun hkey => h (he.trans hkey.symm)]
      next => rfl

theorem mem_keyForms_put {form : Scalar} :
    form ∈ keyForms (put entries key value) ↔ form = key.keyForm ∨ form ∈ keyForms entries := by
  induction entries with
  | nil => simp [put, keyForms]
  | cons e rest ih =>
    rw [put]
    split
    next h => simp [keyForms, h]
    next => simp only [keyForms, List.map_cons, List.mem_cons] at ih ⊢; rw [ih, or_left_comm]

theorem Distinct.put (h : Distinct entries) (key : Scalar) (value : Data) :
    Distinct (Entries.put entries key value) := by
  induction entries with
  | nil => exact List.nodup_singleton _
  | cons e rest ih =>
    obtain ⟨hnew, hrest⟩ := distinct_cons.1 h
    rw [Entries.put]
    split
    next => exact distinct_cons.2 ⟨hnew, hrest⟩
    next hne =>
      refine distinct_cons.2 ⟨fun hmem => ?_, ih hrest⟩
      exact (mem_keyForms_put.1 hmem).elim hne hnew

/-- A value that is found was there, or it is the one that was set. -/
theorem mem_put {e : Scalar × Data} (h : e ∈ put entries key value) : e.2 = value ∨ e ∈ entries := by
  induction entries with
  | nil => exact .inl (by rw [List.mem_singleton.1 h])
  | cons e' rest ih =>
    rw [put] at h
    split at h
    · rcases List.mem_cons.1 h with rfl | h
      · exact .inl rfl
      · exact .inr (List.mem_cons_of_mem _ h)
    · rcases List.mem_cons.1 h with rfl | h
      · exact .inr List.mem_cons_self
      · exact (ih h).imp_right (List.mem_cons_of_mem _)

/-! ## Adding entries one by one -/

/-- Sets the entries in order, those with one key one over the other. -/
def putAll (base layer : Entries) : Entries :=
  layer.foldl (fun found (key, value) => put found key value) base

theorem Distinct.putAll (h : Distinct base) (layer : Entries) : Distinct (putAll base layer) := by
  induction layer generalizing base with
  | nil => exact h
  | cons e rest ih => exact ih (h.put _ _)

theorem isEmpty_put (entries : Entries) (key : Scalar) (value : Data) :
    (put entries key value).isEmpty = false := by
  cases entries with
  | nil => rfl
  | cons e rest =>
    rw [put]
    split <;> rfl

theorem isEmpty_putAll (base layer : Entries) :
    (putAll base layer).isEmpty = (base.isEmpty && layer.isEmpty) := by
  induction layer generalizing base with
  | nil => exact (Bool.and_true _).symm
  | cons e rest ih =>
    rw [List.isEmpty_cons, Bool.and_false]
    refine (ih _).trans ?_
    rw [isEmpty_put, Bool.false_and]

theorem mem_putAll {e : Scalar × Data} (h : e ∈ putAll base layer) :
    (∃ e' ∈ layer, e'.2 = e.2) ∨ e ∈ base := by
  induction layer generalizing base with
  | nil => exact .inr h
  | cons e' rest ih =>
    rcases ih h with ⟨e'', hmem, hvalue⟩ | h
    · exact .inl ⟨e'', List.mem_cons_of_mem _ hmem, hvalue⟩
    · exact (mem_put h).imp (fun he => ⟨e', List.mem_cons_self, he.symm⟩) id

theorem get?_putAll (hlayer : Distinct layer) (base : Entries) (key : Scalar) :
    get? (putAll base layer) key = (get? layer key).or (get? base key) := by
  induction layer generalizing base with
  | nil => rfl
  | cons e rest ih =>
    obtain ⟨hnew, hrest⟩ := distinct_cons.1 hlayer
    refine (ih hrest _).trans ?_
    rw [get?_put, get?_cons]
    split
    next h => rw [get?_eq_none.2 (h ▸ hnew), Option.none_or, Option.some_or]
    next => rfl

/-! ## Layers -/

theorem mergeValue_of_not_map (base : Option Data) (h : ∀ inner, value ≠ .map inner) :
    mergeValue base value = value := by
  cases value with
  | map inner => exact absurd rfl (h inner)
  | _ => rw [mergeValue]; exact h

theorem mergeValue_map (inner layer : Entries) :
    mergeValue (some (.map inner)) (.map layer) = .map (merge inner layer) := by rw [mergeValue]

theorem mergeValue_none (value : Data) : mergeValue none value = value := by
  cases value <;> simp [mergeValue]

/-- What the keys of a layer hold is laid over what they held, and other keys hold what they did. -/
theorem get?_merge (hlayer : Distinct layer) (base : Entries) (key : Scalar) :
    get? (merge base layer) key =
      ((get? layer key).map (mergeValue (get? base key))).or (get? base key) := by
  induction layer generalizing base with
  | nil => rw [merge]; rfl
  | cons e rest ih =>
    obtain ⟨hnew, hrest⟩ := distinct_cons.1 hlayer
    rw [merge, ih hrest, get?_put, get?_cons]
    split
    next h =>
      have hnone : get? rest key = none := get?_eq_none.2 (h ▸ hnew)
      rw [hnone, get?_congr h base]
      rfl
    next => rfl

theorem Distinct.merge (h : Distinct base) (layer : Entries) : Distinct (Entries.merge base layer) := by
  induction layer generalizing base with
  | nil => rwa [Entries.merge]
  | cons e rest ih => rw [Entries.merge]; exact ih (h.put _ _)

end ApiDoc.Data.Entries
