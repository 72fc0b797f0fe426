import ApiDoc.Proofs.DataMaps
import ApiDoc.Settings.Load

/-!
# Settings in layers

A `Setting` is one of the values that settings consist of, with the section and the key that it is
given at and the check that its values have to pass. Entries that hold known sections as maps, and
values in them that pass, are `Valid`. Laid over one another they stay so, and of each setting the
upper layer counts if it says something of it, else the lower one (`setting?_merge`): since no valid
value is a map, nothing is merged below the settings. Checking valid entries gives every setting the
value it was given, or its usual one (`exists_ofEntries`).
-/

namespace ApiDoc.Settings

/-! ## Single settings -/

/-- A setting, by the type of its values. -/
inductive Setting : Type → Type
  | level : Setting Log.Level
  | outputs : Setting (List Log.Output)
  | failOnMalformed : Setting Bool
  | deferTag : Setting String
  | summaryBudget : Setting Budget
  | signatureBudget : Setting Budget
  | codeLanguage : Setting String
  | ignoredMethods : Setting (List String)
  | ignoredAttributes : Setting (List String)

namespace Setting

variable {α : Type}

/-- The section that holds a setting. -/
def group : Setting α → Section
  | .level | .outputs => Section.all[0]
  | .failOnMalformed | .deferTag => Section.all[1]
  | .summaryBudget | .signatureBudget | .codeLanguage | .ignoredMethods | .ignoredAttributes =>
    Section.all[2]

/-- The key of a setting in its section. -/
def key : Setting α → String
  | .level => "level"
  | .outputs => "outputs"
  | .failOnMalformed => "fail_on_malformed_source"
  | .deferTag => "defer_tag"
  | .summaryBudget => "summary_max_length"
  | .signatureBudget => "signature_max_length"
  | .codeLanguage => "code_language"
  | .ignoredMethods => "ignored_method_names"
  | .ignoredAttributes => "ignored_attributes"

/-- What a value has to pass. -/
def check (home : String) : Setting α → Data → Checked α
  | .level => Settings.level
  | .outputs => list (output home)
  | .failOnMalformed => boolean
  | .deferTag | .codeLanguage => text
  | .summaryBudget | .signatureBudget => budget
  | .ignoredMethods | .ignoredAttributes => list text

/-- The value of a setting. -/
def of (s : Settings) : Setting α → α
  | .level => s.logging.level
  | .outputs => s.logging.outputs
  | .failOnMalformed => s.documentation.failOnMalformed
  | .deferTag => s.documentation.deferTag
  | .summaryBudget => ⟨s.render.summaryBudget, s.render.summary_room⟩
  | .signatureBudget => ⟨s.render.signatureBudget, s.render.signature_room⟩
  | .codeLanguage => s.render.codeLanguage
  | .ignoredMethods => s.render.ignoredMethods
  | .ignoredAttributes => s.render.ignoredAttributes

theorem group_mem (k : Setting α) : k.group ∈ Section.all := by
  cases k <;> exact List.getElem_mem _

/-- No setting has a map for its value. -/
theorem check_map_ne_ok (home : String) (k : Setting α) (inner : Data.Entries) (x : α) :
    k.check home (.map inner) ≠ .ok x := by
  cases k <;> exact fun h => nomatch h

/-- The value comes of the data that was given, if any was, and is the usual one otherwise. -/
def Takes (home : String) (k : Setting α) (given : Option Data) (x : α) : Prop :=
  match given with
  | some d => k.check home d = .ok x
  | none => x = k.of Settings.usual

end Setting

/-! ## Entries -/

variable {α : Type} {home : String} {base layer entries inner : Data.Entries}

/-- What entries give for a setting. -/
def setting? (entries : Data.Entries) (k : Setting α) : Option Data :=
  (entries.get? (.text k.group.name)).bind (Data.field? · k.key)

/-- Only known sections, each of which is a map, and values that pass. -/
structure Valid (home : String) (entries : Data.Entries) : Prop where
  known : ∀ e ∈ entries, ∃ s ∈ Section.all, ∃ inner, e = (.text s.name, .map inner)
  accepted : ∀ {α : Type} (k : Setting α) (d : Data), setting? entries k = some d →
    ∃ x, k.check home d = .ok x

/-- No key occurs twice, and none does in a section. -/
structure Proper (entries : Data.Entries) : Prop where
  keys : entries.Distinct
  inner : ∀ {key : Scalar} {inner : Data.Entries}, (key, .map inner) ∈ entries → inner.Distinct

theorem Valid.isMap (h : Valid home entries) {key : Scalar} {d : Data}
    (hget : entries.get? key = some d) : ∃ inner, d = .map inner := by
  obtain ⟨k, hmem, -⟩ := Data.Entries.exists_mem_of_get? hget
  obtain ⟨s, -, inner, he⟩ := h.known _ hmem
  cases he
  exact ⟨inner, rfl⟩

theorem Proper.inner_of_get? (h : Proper entries) {key : Scalar}
    (hget : entries.get? key = some (.map inner)) : inner.Distinct := by
  obtain ⟨k, hmem, -⟩ := Data.Entries.exists_mem_of_get? hget
  exact h.inner hmem

theorem setting?_eq_get? (k : Setting α)
    (h : entries.get? (.text k.group.name) = some (.map inner)) :
    setting? entries k = inner.get? (.text k.key) := by rw [setting?, h]; rfl

theorem setting?_eq_none (k : Setting α)
    (h : entries.get? (.text k.group.name) = none) : setting? entries k = none := by
  rw [setting?, h, Option.bind_none]

/-! ## Layers -/

/-- What a layer of sections holds at a key: its section over that of the base. -/
theorem get?_merge_cases (hbase : Valid home base) (hlayer : Valid home layer)
    (hproper : Proper layer) (key : Scalar) :
    (layer.get? key = none ∧
      Data.Entries.get? (Data.Entries.merge base layer) key = base.get? key) ∨
    ∃ inner, layer.get? key = some (.map inner) ∧
      ((base.get? key = none ∧
          Data.Entries.get? (Data.Entries.merge base layer) key = some (.map inner)) ∨
        ∃ old, base.get? key = some (.map old) ∧
          Data.Entries.get? (Data.Entries.merge base layer) key =
            some (.map (Data.Entries.merge old inner))) := by
  have hmerge := Data.Entries.get?_merge hproper.keys base key
  cases hl : layer.get? key with
  | none => exact .inl ⟨rfl, by rw [hmerge, hl]; rfl⟩
  | some d =>
    obtain ⟨inner, rfl⟩ := hlayer.isMap hl
    refine .inr ⟨inner, rfl, ?_⟩
    cases hb : base.get? key with
    | none =>
      refine .inl ⟨rfl, ?_⟩
      rw [hmerge, hl, hb, Option.map_some, Data.Entries.mergeValue_none]
      rfl
    | some d' =>
      obtain ⟨old, rfl⟩ := hbase.isMap hb
      refine .inr ⟨old, rfl, ?_⟩
      rw [hmerge, hl, hb, Option.map_some, Data.Entries.mergeValue_map]
      rfl

/-- Of each setting the layer counts, and the base if the layer says nothing of it. -/
theorem setting?_merge (hbase : Valid home base) (hlayer : Valid home layer)
    (hproper : Proper layer) (k : Setting α) :
    setting? (Data.Entries.merge base layer) k = (setting? layer k).or (setting? base k) := by
  obtain ⟨hl, h⟩ | ⟨inner, hl, ⟨hb, h⟩ | ⟨old, hb, h⟩⟩ :=
    get?_merge_cases hbase hlayer hproper (.text k.group.name)
  · rw [setting?_eq_none k hl, Option.none_or, setting?, h, setting?]
  · rw [setting?_eq_none k hb, Option.or_none, setting?, h, setting?, hl]
  · rw [setting?_eq_get? k h, setting?_eq_get? k hl, setting?_eq_get? k hb,
      Data.Entries.get?_merge (hproper.inner_of_get? hl)]
    cases hd : Data.Entries.get? inner (.text k.key) with
    | none => rfl
    | some d =>
      -- a valid value is no map, so that it replaces the old one as a whole
      have hmap : ∀ deep, d ≠ .map deep := by
        rintro deep rfl
        obtain ⟨x, hx⟩ := hlayer.accepted k _ ((setting?_eq_get? k hl).trans hd)
        exact k.check_map_ne_ok home deep x hx
      rw [Option.map_some, Data.Entries.mergeValue_of_not_map _ hmap]

theorem Proper.merge (hbase : Valid home base) (hlayer : Valid home layer)
    (hproper : Proper base) (hproper' : Proper layer) : Proper (Data.Entries.merge base layer) := by
  have hkeys := hproper.keys.merge layer
  refine ⟨hkeys, fun {key inner'} hmem => ?_⟩
  have hget := hkeys.get?_of_mem hmem
  obtain ⟨hl, h⟩ | ⟨inner, hl, ⟨hb, h⟩ | ⟨old, hb, h⟩⟩ :=
    get?_merge_cases hbase hlayer hproper' key
  · exact hproper.inner_of_get? (h.symm.trans hget)
  · cases h.symm.trans hget
    exact hproper'.inner_of_get? hl
  · cases h.symm.trans hget
    exact (hproper.inner_of_get? hb).merge inner

theorem Valid.merge (hbase : Valid home base) (hlayer : Valid home layer)
    (hproper : Proper base) (hproper' : Proper layer) : Valid home (Data.Entries.merge base layer) := by
  refine ⟨fun ⟨key, d⟩ hmem => ?_, fun k d hd => ?_⟩
  · have hget := (hproper.keys.merge layer).get?_of_mem hmem
    -- the key stands in one of the two, as the name of a section
    have hknown : ∀ {entries : Data.Entries} {d' : Data}, Valid home entries →
        entries.get? key = some d' → ∃ s ∈ Section.all, key = .text s.name := by
      intro entries d' hentries h
      obtain ⟨key', hmem', hkey⟩ := Data.Entries.exists_mem_of_get? h
      obtain ⟨s, hs, inner, he⟩ := hentries.known _ hmem'
      cases he
      exact ⟨s, hs, Data.Entries.keyForm_eq_text.1 hkey.symm⟩
    obtain ⟨hl, h⟩ | ⟨inner, hl, ⟨hb, h⟩ | ⟨old, hb, h⟩⟩ :=
      get?_merge_cases hbase hlayer hproper' key
    · obtain ⟨s, hs, rfl⟩ := hknown hbase (h.symm.trans hget)
      obtain ⟨inner, rfl⟩ := hbase.isMap (h.symm.trans hget)
      exact ⟨s, hs, inner, rfl⟩
    all_goals
      obtain ⟨s, hs, rfl⟩ := hknown hlayer hl
      cases h.symm.trans hget
      exact ⟨s, hs, _, rfl⟩
  · rw [setting?_merge hbase hlayer hproper', Option.or_eq_some_iff] at hd
    rcases hd with hd | ⟨-, hd⟩
    · exact hlayer.accepted k d hd
    · exact hbase.accepted k d hd

/-! ## Checking entries -/

theorem under_eq_ok {step : Step} {checked : Checked α} {x : α} :
    checked.under step = .ok x ↔ checked = .ok x := by
  cases checked <;> simp [Checked.under, Except.mapError]

theorem both_eq_ok {β : Type} {first : Checked α} {second : Checked β} {x : α} {y : β} :
    first.both second = .ok (x, y) ↔ first = .ok x ∧ second = .ok y := by
  cases first <;> cases second <;> simp [Checked.both]

/-- A field has the value that its data comes to, or the missing one if there is no data. -/
theorem field_eq_ok {key : String} {missing x : α} {check : Data → Checked α} :
    Checked.field entries key missing check = .ok x ↔ match entries.get? (.text key) with
      | some d => check d = .ok x
      | none => x = missing := by
  rw [Checked.field]
  cases entries.get? (.text key) with
  | some d => exact under_eq_ok
  | none => simp only [Except.ok.injEq, eq_comm]

/-- A section that is absent is checked like an empty one. -/
theorem sectionField_eq_ok {name : String} {missing x : α} {check : Data → Checked α}
    (hmaps : ∀ d, entries.get? (.text name) = some d → ∃ inner, d = .map inner)
    (hempty : check (.map []) = .ok missing)
    (h : ∀ inner : Data.Entries, (∀ key, inner.get? (.text key) =
      (entries.get? (.text name)).bind (Data.field? · key)) → check (.map inner) = .ok x) :
    Checked.field entries name missing check = .ok x := by
  refine field_eq_ok.2 ?_
  split
  next d hd =>
    obtain ⟨inner, rfl⟩ := hmaps d hd
    exact h inner fun key => by rw [hd]; rfl
  next hnone =>
    have hx := h [] fun key => by rw [hnone]; rfl
    exact (Except.ok.inj (hempty.symm.trans hx)).symm

/-- The field of a setting in its section. -/
def Setting.field (home : String) (inner : Data.Entries) (k : Setting α) : Checked α :=
  Checked.field inner k.key (k.of Settings.usual) (k.check home)

theorem Setting.Takes.field {k : Setting α} {x : α}
    (h : k.Takes home (inner.get? (.text k.key)) x) : k.field home inner = .ok x :=
  field_eq_ok.2 h

theorem logSettings_eq_ok {s : LogSettings}
    (hlevel : Setting.level.field home inner = .ok s.level)
    (houtputs : Setting.outputs.field home inner = .ok s.outputs) :
    logSettings home (.map inner) = .ok s := by
  change ((Setting.level.field home inner).both (Setting.outputs.field home inner)).map _ = _
  rw [hlevel, houtputs]
  rfl

theorem documentationSettings_eq_ok {s : DocumentationSettings}
    (hfail : Setting.failOnMalformed.field home inner = .ok s.failOnMalformed)
    (htag : Setting.deferTag.field home inner = .ok s.deferTag) :
    documentationSettings (.map inner) = .ok s := by
  change ((Setting.failOnMalformed.field home inner).both
    (Setting.deferTag.field home inner)).map _ = _
  rw [hfail, htag]
  rfl

theorem renderSettings_eq_ok {s : RenderSettings}
    (hsummary : Setting.summaryBudget.field home inner = .ok ⟨s.summaryBudget, s.summary_room⟩)
    (hsignature : Setting.signatureBudget.field home inner = .ok ⟨s.signatureBudget, s.signature_room⟩)
    (hlanguage : Setting.codeLanguage.field home inner = .ok s.codeLanguage)
    (hmethods : Setting.ignoredMethods.field home inner = .ok s.ignoredMethods)
    (hattributes : Setting.ignoredAttributes.field home inner = .ok s.ignoredAttributes) :
    renderSettings (.map inner) = .ok s := by
  change ((Setting.summaryBudget.field home inner).both
    ((Setting.signatureBudget.field home inner).both
      ((Setting.codeLanguage.field home inner).both
        ((Setting.ignoredMethods.field home inner).both
          (Setting.ignoredAttributes.field home inner))))).map _ = _
  rw [hsummary, hsignature, hlanguage, hmethods, hattributes]
  rfl

/-- Entries that give every setting its value. -/
theorem sections_eq_ok {s : Settings}
    (hmaps : ∀ name d, entries.get? (.text name) = some d → ∃ inner, d = .map inner)
    (h : ∀ {α : Type} (k : Setting α), k.Takes home (setting? entries k) (k.of s)) :
    sections home entries = .ok s := by
  have hfield : ∀ {α : Type} (k : Setting α) {inner : Data.Entries}, (∀ key, inner.get? (.text key) =
      (entries.get? (.text k.group.name)).bind (Data.field? · key)) →
      k.field home inner = .ok (k.of s) :=
    fun k inner hinner => Setting.Takes.field ((hinner k.key).symm ▸ h k)
  have hlogging : Checked.field entries "logging" Settings.usual.logging (logSettings home) =
      .ok s.logging :=
    sectionField_eq_ok (hmaps _) rfl fun inner hinner =>
      logSettings_eq_ok (hfield .level hinner) (hfield .outputs hinner)
  have hdocumentation : Checked.field entries "documentation" Settings.usual.documentation
      documentationSettings = .ok s.documentation :=
    sectionField_eq_ok (hmaps _) rfl fun inner hinner =>
      documentationSettings_eq_ok (hfield .failOnMalformed hinner) (hfield .deferTag hinner)
  have hrender : Checked.field entries "render" Settings.usual.render renderSettings =
      .ok s.render :=
    sectionField_eq_ok (hmaps _) rfl fun inner hinner =>
      renderSettings_eq_ok (hfield .summaryBudget hinner) (hfield .signatureBudget hinner)
        (hfield .codeLanguage hinner) (hfield .ignoredMethods hinner) (hfield .ignoredAttributes hinner)
  rw [sections]
  simp only [hlogging, hdocumentation, hrender]
  rfl

/-- Settings with any values. -/
theorem exists_settings {takes : ∀ {α : Type}, Setting α → α → Prop}
    (h : ∀ {α : Type} (k : Setting α), ∃ x, takes k x) :
    ∃ s : Settings, ∀ {α : Type} (k : Setting α), takes k (k.of s) := by
  obtain ⟨level, hlevel⟩ := h .level
  obtain ⟨outputs, houtputs⟩ := h .outputs
  obtain ⟨failOnMalformed, hfail⟩ := h .failOnMalformed
  obtain ⟨deferTag, htag⟩ := h .deferTag
  obtain ⟨summary, hsummary⟩ := h .summaryBudget
  obtain ⟨signature, hsignature⟩ := h .signatureBudget
  obtain ⟨codeLanguage, hlanguage⟩ := h .codeLanguage
  obtain ⟨ignoredMethods, hmethods⟩ := h .ignoredMethods
  obtain ⟨ignoredAttributes, hattributes⟩ := h .ignoredAttributes
  refine ⟨{ logging := { level, outputs }, documentation := { failOnMalformed, deferTag }
            render := { summaryBudget := summary, signatureBudget := signature, codeLanguage
                        ignoredMethods, ignoredAttributes, summary_room := summary.property
                        signature_room := signature.property } }, fun k => ?_⟩
  cases k <;> assumption

theorem Valid.exists_takes (h : Valid home entries) (k : Setting α) :
    ∃ x, k.Takes home (setting? entries k) x := by
  cases hd : setting? entries k with
  | none => exact ⟨_, rfl⟩
  | some d => exact h.accepted k d hd

/-- Valid entries make settings, with the value of each setting that they give. -/
theorem Valid.exists_ofEntries (h : Valid home entries) : ∃ s, ofEntries home entries = .ok s ∧
    ∀ {α : Type} (k : Setting α), k.Takes home (setting? entries k) (k.of s) := by
  obtain ⟨s, hs⟩ := exists_settings h.exists_takes
  refine ⟨s, ?_, hs⟩
  have hnamed : entries.all (fun e => isNamed e.1) = true := by
    refine List.all_eq_true.2 fun e he => ?_
    obtain ⟨g, -, inner, rfl⟩ := h.known e he
    rfl
  have hknown : unknownSections entries = [] := by
    refine List.filterMap_eq_nil_iff.2 fun e he => ?_
    obtain ⟨g, hg, inner, rfl⟩ := h.known e he
    exact if_pos (List.contains_iff_mem.2 (List.mem_map_of_mem hg))
  rw [ofEntries, if_pos hnamed, sections_eq_ok (fun _ _ => h.isMap) hs, knownOnly, hknown]
  rfl

end ApiDoc.Settings
