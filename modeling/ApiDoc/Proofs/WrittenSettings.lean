import ApiDoc.Proofs.DestinationPaths
import ApiDoc.Proofs.SettingLayers

/-!
# Settings that are written

A value that has passed its check passes it again in the form in which settings are written, and comes
to the same (`Setting.check_data`); so do the usual values. Settings made of such values are therefore
what is read back from them (`check_toData`).
-/

namespace ApiDoc.Settings

variable {α : Type} {home : String} {d : Data}

/-! ## Lists -/

/-- Checking a list is checking its items, wherever they are counted from. -/
theorem items_eq_ok {check : Data → Checked α} {index : Nat} {ds : List Data} {xs : List α} :
    Checked.items check index ds = .ok xs ↔ List.Forall₂ (fun d x => check d = .ok x) ds xs := by
  induction ds generalizing index xs with
  | nil => cases xs <;> simp [Checked.items]
  | cons d ds ih =>
    rw [Checked.items, map_eq_ok]
    constructor
    · rintro ⟨⟨x, more⟩, hboth, rfl⟩
      obtain ⟨hx, hmore⟩ := both_eq_ok.1 hboth
      exact .cons (under_eq_ok.1 hx) (ih.1 hmore)
    · rintro (_ | ⟨hx, hmore⟩)
      exact ⟨_, both_eq_ok.2 ⟨under_eq_ok.2 hx, ih.2 hmore⟩, rfl⟩

theorem list_eq_ok {check : Data → Checked α} {xs : List α} (h : list check d = .ok xs) :
    ∀ x ∈ xs, ∃ d, check d = .ok x := by
  have hitems : ∃ ds, List.Forall₂ (fun d x => check d = .ok x) ds xs := by
    unfold list at h
    split at h
    next ds => exact ⟨ds, items_eq_ok.1 h⟩
    next ds => exact ⟨ds, items_eq_ok.1 h⟩
    next ss => exact ⟨_, items_eq_ok.1 h⟩
    next => cases h
  obtain ⟨ds, hds⟩ := hitems
  intro x hx
  obtain ⟨d, -, hd⟩ := exists_of_mem_right hds hx
  exact ⟨d, hd⟩

theorem list_map {check : Data → Checked α} {write : α → Data} {xs : List α}
    (h : ∀ x ∈ xs, check (write x) = .ok x) : list check (.list (xs.map write)) = .ok xs :=
  items_eq_ok.2 (List.forall₂_map_left_iff.2 (List.forall₂_same.2 h))

/-! ## Outputs -/

theorem optionalLevel_elim (l : Option Log.Level) :
    optionalLevel (l.elim .null fun l => .text l.label) = .ok l := by
  cases l with
  | none => rfl
  | some l => cases l <;> rfl

theorem format_label (f : Log.Format) :
    oneOf Log.Format.label [.json, .console] (.text f.label) = .ok f := by
  cases f <;> rfl

/-- The destination of an output that has passed is settled. -/
theorem destination_of_output {o : Log.Output} (h : output home d = .ok o) :
    destination home (.text o.destination) = .ok o.destination := by
  obtain ⟨entries, -, h⟩ := bind_eq_ok.1 h
  obtain ⟨⟨format, destination, level⟩, hparts, rfl⟩ := map_eq_ok.1 h
  have hfield := field_eq_ok.1 (both_eq_ok.1 (both_eq_ok.1 hparts).2).1
  split at hfield
  next => exact destination_text hfield
  next =>
    subst hfield
    rfl

theorem output_outputData {o : Log.Output}
    (h : destination home (.text o.destination) = .ok o.destination) :
    output home (outputData o) = .ok o := by
  refine map_eq_ok.2 ⟨(o.format, o.destination, o.level), ?_, rfl⟩
  refine both_eq_ok.2 ⟨field_eq_ok.2 (format_label o.format), both_eq_ok.2 ⟨field_eq_ok.2 h, ?_⟩⟩
  exact field_eq_ok.2 (optionalLevel_elim o.level)

/-! ## Single settings -/

/-- What a value of a setting is written as. -/
def Setting.data : Setting α → α → Data
  | .level, l => .text l.label
  | .outputs, os => .list (os.map outputData)
  | .failOnMalformed, b => .bool b
  | .deferTag, s | .codeLanguage, s => .text s
  | .summaryBudget, n | .signatureBudget, n => .int n.val
  | .ignoredMethods, ss | .ignoredAttributes, ss => .list (ss.map Data.text)

theorem budget_int (n : Budget) : budget (.int n.val) = .ok n := dif_pos n.property

/-- A value that has passed comes to itself when it is written and checked again. -/
theorem Setting.check_data {k : Setting α} {x : α} (h : k.check home d = .ok x) :
    k.check home (k.data x) = .ok x := by
  cases k with
  | level => cases x <;> rfl
  | outputs =>
    refine list_map fun o ho => ?_
    obtain ⟨d, hd⟩ := list_eq_ok h o ho
    exact output_outputData (destination_of_output hd)
  | failOnMalformed | deferTag | codeLanguage => rfl
  | summaryBudget | signatureBudget => exact budget_int x
  | ignoredMethods | ignoredAttributes => exact list_map fun _ _ => rfl

/-- The usual values pass. -/
theorem Setting.check_usual (home : String) (k : Setting α) :
    k.check home (k.data (k.of Settings.usual)) = .ok (k.of Settings.usual) := by
  cases k <;> rfl

theorem Setting.Takes.check_data {k : Setting α} {given : Option Data} {x : α}
    (h : k.Takes home given x) : k.check home (k.data x) = .ok x := by
  cases given with
  | some d => exact Setting.check_data h
  | none => exact h ▸ Setting.check_usual home k

/-! ## All settings -/

/-- What is written is a map of sections, and gives each setting its value. -/
theorem exists_toData (s : Settings) : ∃ entries : Data.Entries, toData s = .map entries ∧
    (∀ name d, entries.get? (.text name) = some d → ∃ inner, d = .map inner) ∧
    ∀ {α : Type} (k : Setting α), setting? entries k = some (k.data (k.of s)) := by
  refine ⟨_, rfl, fun name d hget => ?_, fun k => by cases k <;> rfl⟩
  obtain ⟨key, hmem, -⟩ := Data.Entries.exists_mem_of_get? hget
  simp only [List.mem_cons, List.not_mem_nil, or_false, Prod.mk.injEq] at hmem
  rcases hmem with ⟨-, rfl⟩ | ⟨-, rfl⟩ | ⟨-, rfl⟩ <;> exact ⟨_, rfl⟩

/-- Settings of which each value passes are read back from what is written of them. -/
theorem check_toData {s : Settings}
    (h : ∀ {α : Type} (k : Setting α), k.check home (k.data (k.of s)) = .ok (k.of s)) :
    check home (toData s) = .ok s := by
  obtain ⟨entries, hentries, hmaps, hsetting⟩ := exists_toData s
  rw [hentries]
  refine sections_eq_ok hmaps fun k => ?_
  rw [hsetting]
  exact h k

end ApiDoc.Settings
