import ApiDoc.Answer
import Mathlib.Data.List.Forall2

/-!
# What answers come to

The questions about metadata and documentation write to the journal and never read it. Such an
answer comes to the same whatever journal it starts with: it is `Steady`, and `value` is what it
comes to. Steady answers compose like plain results (`Steady.value_bind`).
-/

namespace ApiDoc

/-! ## Related lists -/

section Related

variable {α β : Type} {R : α → β → Prop} {l : List α} {l' : List β}

theorem exists_of_mem_left (h : List.Forall₂ R l l') {a : α} (ha : a ∈ l) : ∃ b ∈ l', R a b := by
  induction h with
  | nil => cases ha
  | cons hab _ ih =>
    rcases List.mem_cons.1 ha with rfl | ha
    · exact ⟨_, List.mem_cons_self, hab⟩
    · obtain ⟨b, hb, hab⟩ := ih ha
      exact ⟨b, List.mem_cons_of_mem _ hb, hab⟩

theorem exists_of_mem_right (h : List.Forall₂ R l l') {b : β} (hb : b ∈ l') : ∃ a ∈ l, R a b :=
  exists_of_mem_left h.flip hb

end Related

/-! ## Tables -/

theorem lookup_of_mem {β : Type} {l : List (String × β)} (hkeys : (l.map Prod.fst).Nodup)
    {key : String} {x : β} (h : (key, x) ∈ l) : l.lookup key = some x := by
  induction l with
  | nil => cases h
  | cons e l ih =>
    obtain ⟨hkey, hkeys⟩ := List.nodup_cons.1 hkeys
    rw [List.lookup_cons]
    rcases List.mem_cons.1 h with rfl | h
    · simp
    · have hne : key ≠ e.1 := fun he => hkey (he ▸ List.mem_map.2 ⟨_, h, rfl⟩)
      rw [beq_false_of_ne hne]
      exact ih hkeys h

/-! ## Results -/

theorem bind_eq_ok {ε α β : Type} {r : Except ε α} {f : α → Except ε β} {b : β} :
    (r >>= f) = .ok b ↔ ∃ a, r = .ok a ∧ f a = .ok b := by
  cases r <;> simp [bind, Except.bind]

theorem bind_eq_error {ε α β : Type} {r : Except ε α} {f : α → Except ε β} {e : ε} :
    (r >>= f) = .error e ↔ r = .error e ∨ ∃ a, r = .ok a ∧ f a = .error e := by
  cases r <;> simp [bind, Except.bind]

theorem map_eq_ok {ε α β : Type} {r : Except ε α} {f : α → β} {b : β} :
    r.map f = .ok b ↔ ∃ a, r = .ok a ∧ f a = b := by
  cases r <;> simp [Except.map]

theorem mapM_eq_ok {ε α β : Type} {f : α → Except ε β} {l : List α} {l' : List β} :
    l.mapM f = .ok l' ↔ List.Forall₂ (fun a b => f a = .ok b) l l' := by
  induction l generalizing l' with
  | nil => cases l' <;> simp [pure, Except.pure]
  | cons a l ih =>
    rw [List.mapM_cons, bind_eq_ok]
    constructor
    · rintro ⟨b, hb, h⟩
      obtain ⟨bs, hbs, h⟩ := bind_eq_ok.1 h
      cases h
      exact .cons hb (ih.1 hbs)
    · rintro (_ | ⟨hb, h⟩)
      exact ⟨_, hb, bind_eq_ok.2 ⟨_, ih.2 h, rfl⟩⟩

theorem mem_mapM {ε α β : Type} {f : α → Except ε β} {l : List α} {l' : List β}
    (h : l.mapM f = .ok l') {b : β} : b ∈ l' ↔ ∃ a ∈ l, f a = .ok b := by
  have h' := mapM_eq_ok.1 h
  clear h
  induction h' with
  | nil => simp
  | cons ha _ ih => simp [ih, ha, eq_comm]

theorem exists_of_mapM {ε α β : Type} {f : α → Except ε β} {l : List α} {l' : List β}
    (h : l.mapM f = .ok l') {a : α} (ha : a ∈ l) : ∃ b, f a = .ok b := by
  have h' := mapM_eq_ok.1 h
  clear h
  induction h' with
  | nil => cases ha
  | cons hb _ ih =>
    rcases List.mem_cons.1 ha with rfl | ha
    · exact ⟨_, hb⟩
    · exact ih ha

theorem exists_mapM {ε α β : Type} {f : α → Except ε β} {l : List α}
    (h : ∀ a ∈ l, ∃ b, f a = .ok b) : ∃ l', l.mapM f = .ok l' := by
  induction l with
  | nil => exact ⟨[], rfl⟩
  | cons a l ih =>
    obtain ⟨⟨b, hb⟩, hrest⟩ := List.forall_mem_cons.1 h
    obtain ⟨l', hl'⟩ := ih hrest
    exact ⟨b :: l', mapM_eq_ok.2 (.cons hb (mapM_eq_ok.1 hl'))⟩

namespace Answer

variable {α β : Type} {a : Answer α} {f : α → Answer β} {r : Except Error α}

/-! ## Outcomes -/

/-- The answer comes to a result, whatever journal it starts with. -/
def Yields (a : Answer α) (r : Except Error α) : Prop := ∀ j, (a.result j).1 = r

/-- What an answer comes to with nothing in its journal. -/
def value (a : Answer α) : Except Error α := (a.result {}).1

def Steady (a : Answer α) : Prop := a.Yields a.value

theorem Yields.value_eq (h : a.Yields r) : a.value = r := h _

theorem Yields.steady (h : a.Yields r) : a.Steady := by rwa [Steady, h.value_eq]

theorem Steady.yields_iff (h : a.Steady) : a.Yields r ↔ a.value = r :=
  ⟨Yields.value_eq, fun hr => hr ▸ h⟩

theorem result_bind (a : Answer α) (f : α → Answer β) (j : Journal) :
    (a >>= f).result j = match a.result j with
      | (.ok x, j) => (f x).result j
      | (.error e, j) => (.error e, j) := by
  simp only [result, bind, ExceptT.bind, ExceptT.bindCont, ExceptT.run, ExceptT.mk, StateT.bind,
    StateT.run]
  cases a j with
  | mk r j => cases r <;> rfl

theorem Yields.bind_ok {x : α} {r : Except Error β} (ha : a.Yields (.ok x)) (hf : (f x).Yields r) :
    (a >>= f).Yields r := by
  intro j
  have hj := ha j
  rw [result_bind]
  cases h : a.result j with
  | mk r' j' =>
    rw [h] at hj
    cases hj
    exact hf j'

theorem Yields.bind_error {e : Error} (ha : a.Yields (.error e)) : (a >>= f).Yields (.error e) := by
  intro j
  have hj := ha j
  rw [result_bind]
  cases h : a.result j with
  | mk r' j' =>
    rw [h] at hj
    cases hj
    rfl

theorem ofExcept_ok_bind (x : α) (f : α → Answer β) : (ofExcept (.ok x) >>= f) = f x := rfl

/-! ## Steady answers -/

theorem yields_pure (x : α) : (pure x : Answer α).Yields (.ok x) := fun _ => rfl

theorem yields_ofExcept (r : Except Error α) : (ofExcept r).Yields r := fun _ => rfl

theorem yields_record (e : JournalEntry) : (record e).Yields (.ok ()) := fun _ => rfl

@[simp] theorem steady_pure (x : α) : (pure x : Answer α).Steady := (yields_pure x).steady

@[simp] theorem steady_ofExcept (r : Except Error α) :
    (ofExcept r).Steady := (yields_ofExcept r).steady

@[simp] theorem steady_record (e : JournalEntry) : (record e).Steady := (yields_record e).steady

@[simp] theorem value_pure (x : α) : (pure x : Answer α).value = .ok x := rfl

/-- A steady answer hands what it comes to on to the next. -/
theorem Steady.yields_bind {g : α → Except Error β} (ha : a.Steady) (hf : ∀ x, (f x).Yields (g x)) :
    (a >>= f).Yields (a.value >>= g) := by
  cases h : a.value with
  | ok x => exact Yields.bind_ok (ha.yields_iff.2 h) (hf x)
  | error e => exact Yields.bind_error (ha.yields_iff.2 h)

theorem Steady.yields_map {g : α → β} (ha : a.Steady) (hf : ∀ x, (f x).Yields (.ok (g x))) :
    (a >>= f).Yields (a.value.map g) := by
  cases h : a.value with
  | ok x => exact Yields.bind_ok (ha.yields_iff.2 h) (hf x)
  | error e => exact Yields.bind_error (ha.yields_iff.2 h)

theorem Steady.bind (ha : a.Steady) (hf : ∀ x, (f x).Steady) : (a >>= f).Steady :=
  (ha.yields_bind hf).steady

theorem Steady.value_bind (ha : a.Steady) (hf : ∀ x, (f x).Steady) :
    (a >>= f).value = a.value >>= fun x => (f x).value :=
  (ha.yields_bind hf).value_eq

theorem Steady.value_map {g : α → β} (ha : a.Steady) :
    (a >>= fun x => (pure (g x) : Answer β)).value = a.value.map g :=
  (ha.yields_map fun _ => yields_pure _).value_eq

end Answer

end ApiDoc
