import ApiDoc.Proofs.WrittenSettings

/-!
# Settings that are checked again

Settings that have passed were taken from the data setting by setting (`takes_of_sections`), so that
each of their values passes when it is written. Checking what is written of them therefore gives the
same settings (`accepted_again`).
-/

namespace ApiDoc.Settings

variable {α β : Type} {home : String} {d : Data} {entries inner : Data.Entries} {s : Settings}

/-! ## Fields of sections -/

theorem section?_eq_ok {name : String} : section? name d = .ok inner ↔ d = .map inner := by
  cases d <;> simp [section?, Checked.fail]

theorem logSettings_fields {l : LogSettings} (h : logSettings home d = .ok l) :
    ∃ inner, d = .map inner ∧ ∀ {α : Type} (k : Setting α), k.group.name = "logging" →
      k.field home inner = .ok (k.of { logging := l }) := by
  obtain ⟨inner, hinner, h⟩ := bind_eq_ok.1 h
  obtain ⟨_, hparts, rfl⟩ := map_eq_ok.1 h
  obtain ⟨hlevel, houtputs⟩ := both_eq_ok.1 hparts
  refine ⟨inner, section?_eq_ok.1 hinner, fun k hk => ?_⟩
  cases k with
  | level => exact hlevel
  | outputs => exact houtputs
  | _ => exact absurd hk (by decide)

theorem documentationSettings_fields {l : DocumentationSettings}
    (h : documentationSettings d = .ok l) :
    ∃ inner, d = .map inner ∧ ∀ {α : Type} (k : Setting α), k.group.name = "documentation" →
      k.field home inner = .ok (k.of { documentation := l }) := by
  obtain ⟨inner, hinner, h⟩ := bind_eq_ok.1 h
  obtain ⟨_, hparts, rfl⟩ := map_eq_ok.1 h
  obtain ⟨hfail, htag⟩ := both_eq_ok.1 hparts
  refine ⟨inner, section?_eq_ok.1 hinner, fun k hk => ?_⟩
  cases k with
  | failOnMalformed => exact hfail
  | deferTag => exact htag
  | _ => exact absurd hk (by decide)

theorem renderSettings_fields {r : RenderSettings} (h : renderSettings d = .ok r) :
    ∃ inner, d = .map inner ∧ ∀ {α : Type} (k : Setting α), k.group.name = "render" →
      k.field home inner = .ok (k.of { render := r }) := by
  obtain ⟨inner, hinner, h⟩ := bind_eq_ok.1 h
  obtain ⟨_, hparts, rfl⟩ := map_eq_ok.1 h
  obtain ⟨hsummary, hparts⟩ := both_eq_ok.1 hparts
  obtain ⟨hsignature, hparts⟩ := both_eq_ok.1 hparts
  obtain ⟨hlanguage, hparts⟩ := both_eq_ok.1 hparts
  obtain ⟨hmethods, hattributes⟩ := both_eq_ok.1 hparts
  refine ⟨inner, section?_eq_ok.1 hinner, fun k hk => ?_⟩
  cases k with
  | summaryBudget => exact hsummary
  | signatureBudget => exact hsignature
  | codeLanguage => exact hlanguage
  | ignoredMethods => exact hmethods
  | ignoredAttributes => exact hattributes
  | _ => exact absurd hk (by decide)

/-! ## What settings are taken from -/

/-- A setting is taken from its section, and is the usual one if the section is missing. -/
theorem takes_of_section {missing x : β} {check : Data → Checked β} {k : Setting α} {y : α}
    (h : Checked.field entries k.group.name missing check = .ok x)
    (hsection : ∀ d, check d = .ok x → ∃ inner, d = .map inner ∧ k.field home inner = .ok y)
    (hmissing : x = missing → y = k.of Settings.usual) : k.Takes home (setting? entries k) y := by
  have hfield := field_eq_ok.1 h
  split at hfield
  next d hd =>
    obtain ⟨inner, rfl, hy⟩ := hsection d hfield
    rw [setting?_eq_get? k hd]
    exact field_eq_ok.1 hy
  next hnone =>
    rw [setting?_eq_none k hnone]
    exact hmissing hfield

theorem takes_of_sections (h : sections home entries = .ok s) (k : Setting α) :
    k.Takes home (setting? entries k) (k.of s) := by
  obtain ⟨⟨logging, documentation, render⟩, hparts, rfl⟩ := map_eq_ok.1 h
  obtain ⟨hlogging, hparts⟩ := both_eq_ok.1 hparts
  obtain ⟨hdocumentation, hrender⟩ := both_eq_ok.1 hparts
  cases k with
  | level | outputs =>
    refine takes_of_section hlogging (fun d hd => ?_) (by rintro rfl; rfl)
    obtain ⟨inner, hinner, hfields⟩ := logSettings_fields hd
    exact ⟨inner, hinner, hfields _ rfl⟩
  | failOnMalformed | deferTag =>
    refine takes_of_section hdocumentation (fun d hd => ?_) (by rintro rfl; rfl)
    obtain ⟨inner, hinner, hfields⟩ := documentationSettings_fields hd
    exact ⟨inner, hinner, hfields _ rfl⟩
  | summaryBudget | signatureBudget | codeLanguage | ignoredMethods | ignoredAttributes =>
    refine takes_of_section hrender (fun d hd => ?_) (by rintro rfl; rfl)
    obtain ⟨inner, hinner, hfields⟩ := renderSettings_fields hd
    exact ⟨inner, hinner, hfields _ rfl⟩

/-! ## Values that have passed -/

/-- A budget is the integer that is read, and room for less than four characters is refused. -/
theorem budget_eq_ok {b : Budget} : budget d = .ok b ↔ integer d = .ok (b.val : Int) := by
  constructor
  · intro h
    obtain ⟨n, hn, h⟩ := bind_eq_ok.1 h
    split at h
    next hroom =>
      have hpos : 0 ≤ n := by
        have := hroom
        rw [leastBudget] at this
        omega
      rw [hn, ← Except.ok.inj h, Int.toNat_of_nonneg hpos]
    next => cases h
  · intro h
    rw [budget, h]
    exact dif_pos b.property

theorem check_data_of_sections (h : sections home entries = .ok s) (k : Setting α) :
    k.check home (k.data (k.of s)) = .ok (k.of s) :=
  (takes_of_sections h k).check_data

theorem isSettled_of_outputs {os : List Log.Output}
    (h : list (output home) d = .ok os) : ∀ o ∈ os, IsSettled o.destination := by
  intro o ho
  obtain ⟨d, hd⟩ := list_eq_ok h o ho
  exact isSettled_of_destination (destination_of_output hd)

theorem mapError_eq_ok {ε ε' : Type} {r : Except ε α} {f : ε → ε'} {x : α} :
    r.mapError f = .ok x ↔ r = .ok x := by
  cases r <;> simp [Except.mapError]

/-- The settings of all layers are read out of the entries that the layers come to. -/
theorem exists_sections_of_load {layers : Layers} (h : load layers = .ok s) :
    ∃ entries, sections layers.home entries = .ok s := by
  obtain ⟨globals, -, h⟩ := bind_eq_ok.1 h
  obtain ⟨repository, -, h⟩ := bind_eq_ok.1 h
  obtain ⟨environment, -, h⟩ := bind_eq_ok.1 h
  rw [ofEntries] at h
  split_ifs at h
  obtain ⟨⟨_, _⟩, hparts, rfl⟩ := map_eq_ok.1 (mapError_eq_ok.1 h)
  exact ⟨_, (both_eq_ok.1 hparts).1⟩

/-- Settings that have passed pass again when they are written, and come to the same. Their budgets
are the integers that were given, none of which is less than four, and every output goes to a stream
or to a normalised absolute path. So the settings of all layers pass again. -/
theorem accepted_again :
    (∀ (home : String) (d : Data) (s : Settings), check home d = .ok s →
      check home (toData s) = .ok s ∧
      4 ≤ s.render.summaryBudget ∧ 4 ≤ s.render.signatureBudget ∧
      (∀ o ∈ s.logging.outputs, IsSettled o.destination) ∧
      ∃ entries, d = .map entries ∧ ∀ k ∈ [Setting.summaryBudget, .signatureBudget],
        ∀ given, setting? entries k = some given → integer given = .ok ((k.of s).val : Int)) ∧
    ∀ (layers : Layers) (s : Settings), load layers = .ok s →
      check layers.home (toData s) = .ok s := by
  constructor
  · intro home d s h
    obtain ⟨entries, hentries, h⟩ := bind_eq_ok.1 h
    have houtputs : list (output home) (.list (s.logging.outputs.map outputData)) =
        .ok s.logging.outputs := check_data_of_sections h .outputs
    refine ⟨check_toData (check_data_of_sections h), s.render.summary_room, s.render.signature_room,
      isSettled_of_outputs houtputs, entries, section?_eq_ok.1 hentries, ?_⟩
    intro k hk given hgiven
    have htakes := takes_of_sections h k
    rw [hgiven] at htakes
    simp only [List.mem_cons, List.not_mem_nil, or_false] at hk
    rcases hk with rfl | rfl <;> exact budget_eq_ok.1 htakes
  · intro layers s h
    obtain ⟨entries, h⟩ := exists_sections_of_load h
    exact check_toData (check_data_of_sections h)

/-- A destination in the home of the user and the usual budget, both written in their own way. -/
def loose : Data.Entries :=
  [(.text "logging", .map [(.text "outputs", .list [
      .map [(.text "destination", .text "~/./zoo.log")]])]),
    (.text "render", .map [(.text "summary_max_length", .text " 100.0 ")])]

def settled : Settings :=
  { Settings.usual with logging := { outputs := [{ destination := "/home/keeper/zoo.log" }] } }

theorem accepted_again_loose :
    check "/home/keeper" (.map loose) = .ok settled ∧ IsSettled "/home/keeper/zoo.log" ∧
    integer (.text " 100.0 ") = .ok (settled.render.summaryBudget : Int) ∧
    load { home := "/home/keeper", overrides := loose } = .ok settled ∧
    check "/home/keeper" (toData settled) = .ok settled := by
  have hcheck : check "/home/keeper" (.map loose) = .ok settled := by cbv
  have hload : load { home := "/home/keeper", overrides := loose } = .ok settled := by cbv
  have hgiven : setting? loose .summaryBudget = some (.text " 100.0 ") := rfl
  obtain ⟨-, -, -, houtputs, entries, hentries, hbudgets⟩ := accepted_again.1 _ _ _ hcheck
  obtain rfl := Data.map.inj hentries
  have hbudget := hbudgets .summaryBudget List.mem_cons_self _ hgiven
  have hagain := accepted_again.2 _ _ hload
  exact ⟨hcheck, houtputs _ List.mem_cons_self, hbudget, hload, hagain⟩

end ApiDoc.Settings
