import ApiDoc.Proofs.EnvironmentSettings
import ApiDoc.Proofs.WrittenSettings
import ApiDoc.Proofs.YamlMaps

/-!
# Which layer counts

Settings come of a global file, the file of a repository, variables and overrides. If each layer is
valid, then loading succeeds, and each setting has the value that the uppermost layer with something
to say of it comes to, or its usual value if there is none (`exists_load`). Lists are values like
others: none is put together from several layers.
-/

namespace ApiDoc.Settings

variable {layers : Layers} {globals repository : Data.Entries}

/-- What the layers say of a setting: overrides before variables, these before the file of the
repository, and that before the global file. -/
def Layers.given (layers : Layers) (globals repository : Data.Entries) {α : Type} (k : Setting α) :
    Option Data :=
  (setting? layers.overrides k).or ((layers.environment.setting? k).or
    ((setting? repository k).or (setting? globals k)))

/-- Loading valid layers gives every setting the value of the uppermost layer that sets it, and what
has been loaded is kept by another check. -/
theorem exists_load (hglobals : fileEntries layers.globalFile = .ok globals)
    (hrepository : fileEntries layers.repository = .ok repository)
    (hglobalsValid : Valid layers.home globals) (hrepositoryValid : Valid layers.home repository)
    (henvironment : layers.environment.Valid layers.home)
    (hoverrides : Valid layers.home layers.overrides) (hproper : Proper layers.overrides) :
    ∃ settings, load layers = .ok settings ∧ check layers.home (toData settings) = .ok settings ∧
      ∀ {α : Type} (k : Setting α),
        k.Takes layers.home (layers.given globals repository k) (k.of settings) := by
  obtain ⟨own, hown, hownValid, hownProper, hvariable⟩ :=
    henvironment.exists_settings
  have hglobalsProper := proper_of_fileEntries hglobals
  have hrepositoryProper := proper_of_fileEntries hrepository
  -- the files are merged on their own, and so is what lies above them
  have hfiles := hglobalsValid.merge hrepositoryValid hglobalsProper hrepositoryProper
  have hfilesProper := hglobalsProper.merge hglobalsValid hrepositoryValid hrepositoryProper
  have habove := hownValid.merge hoverrides hownProper hproper
  have haboveProper := hownProper.merge hownValid hoverrides hproper
  obtain ⟨settings, hsettings, htakes⟩ :=
    (hfiles.merge habove hfilesProper haboveProper).exists_ofEntries
  have hgiven : ∀ {α : Type} (k : Setting α),
      k.Takes layers.home (layers.given globals repository k) (k.of settings) := by
    intro α k
    have htake := htakes k
    rw [setting?_merge hfiles habove haboveProper, setting?_merge hownValid hoverrides hproper,
      setting?_merge hglobalsValid hrepositoryValid hrepositoryProper, hvariable, Option.or_assoc]
      at htake
    exact htake
  refine ⟨settings, ?_, check_toData fun k => (hgiven k).check_data, hgiven⟩
  refine bind_eq_ok.2 ⟨globals, hglobals, bind_eq_ok.2 ⟨repository, hrepository, ?_⟩⟩
  refine bind_eq_ok.2 ⟨own, ?_, hsettings⟩
  rw [hown]
  rfl

/-! ## A keeper's settings -/

def keeperGlobals : File where
  path := "/home/keeper/.config/docmark/config.yaml"
  text := "logging:\n  level: DEBUG\n  outputs:\n  - destination: ~/zoo.log\nrender:\n  summary_max_length: 50\n"

def keeperRepository : File where
  path := "/zoo/.docmark/config.yaml"
  text := "render:\n  summary_max_length: 60\n  ignored_attributes:\n  - Old\n  - Older\n"

/-- One setting is given in all four layers. -/
def keeper : Layers where
  home := "/home/keeper"
  globalFile := some keeperGlobals
  repository := some keeperRepository
  environment := [("DOCMARK__RENDER__SUMMARY_MAX_LENGTH", "70"), ("PATH", "/bin"),
    ("DocMark__Render__Ignored_Attributes", "[\"New\"]")]
  overrides := [(.text "render", .map [(.text "summary_max_length", .int 80)])]

def keeperGlobalEntries : Data.Entries :=
  [(.text "logging", .map [(.text "level", .text "DEBUG"),
    (.text "outputs", .list [.map [(.text "destination", .text "~/zoo.log")]])]),
    (.text "render", .map [(.text "summary_max_length", .int 50)])]

theorem fileEntries_keeperGlobals : fileEntries keeper.globalFile = .ok keeperGlobalEntries := by
  have htokens : Yaml.tokens? (Yaml.unifyBreaks keeperGlobals.text.toList) = some [.blockMapping,
      .key, .scalar "logging" true, .value, .blockMapping,
      .key, .scalar "level" true, .value, .scalar "DEBUG" true,
      .key, .scalar "outputs" true, .value, .entry, .blockMapping,
      .key, .scalar "destination" true, .value, .scalar "~/zoo.log" true, .blockEnd, .blockEnd,
      .key, .scalar "render" true, .value, .blockMapping,
      .key, .scalar "summary_max_length" true, .value, .scalar "50" true, .blockEnd, .blockEnd,
      .streamEnd] := by decide +kernel
  exact fileEntries_eq_ok (Yaml.load_eq_ok (by decide +kernel) htokens rfl rfl)

def keeperRepositoryEntries : Data.Entries :=
  [(.text "render", .map [(.text "summary_max_length", .int 60),
    (.text "ignored_attributes", .list [.text "Old", .text "Older"])])]

theorem fileEntries_keeperRepository :
    fileEntries keeper.repository = .ok keeperRepositoryEntries := by
  have htokens : Yaml.tokens? (Yaml.unifyBreaks keeperRepository.text.toList) = some [.blockMapping,
      .key, .scalar "render" true, .value, .blockMapping,
      .key, .scalar "summary_max_length" true, .value, .scalar "60" true,
      .key, .scalar "ignored_attributes" true, .value,
      .entry, .scalar "Old" true, .entry, .scalar "Older" true, .blockEnd, .blockEnd,
      .streamEnd] := by decide +kernel
  exact fileEntries_eq_ok (Yaml.load_eq_ok (by decide +kernel) htokens rfl rfl)

/-- The names of the variables in lowercase. -/
def keeperNames : List String :=
  ["docmark__render__summary_max_length", "path", "docmark__render__ignored_attributes"]

theorem lower_keeper : keeper.environment.lower = keeperNames.zip ["70", "/bin", "[\"New\"]"] := by
  decide +kernel

theorem valid_keeper_environment : keeper.environment.Valid keeper.home := by
  have hnames : ∀ v ∈ keeper.environment, Text.lowerText v.1 ∈ keeperNames := by decide +kernel
  have hsections : ∀ name ∈ keeperNames, ∀ s ∈ Section.all, name ≠ variablePrefix ++ s.name := by decide
  have hparts : ∀ name ∈ keeperNames, ∀ s ∈ Section.all,
      s.start.toList.isPrefixOf name.toList = true →
      nameParts (name.toList.drop s.start.toList.length) =
        [name.toList.drop s.start.toList.length] := by decide +kernel
  refine ⟨fun v hv => hsections _ (hnames v hv), fun v hv s hs key hkey => ?_, fun k value hvalue => ?_⟩
  · have hpart := hparts _ (hnames v hv) s hs (exists_of_isPrefixOf.2 ⟨key, hkey⟩)
    rwa [hkey, String.toList_append, List.drop_left] at hpart
  · rw [← Environment.lookup_lower, lower_keeper] at hvalue
    cases k
    case summaryBudget | ignoredAttributes =>
      cases hvalue
      exact ⟨_, _, rfl, rfl⟩
    all_goals cases hvalue

theorem output_keeper : Setting.outputs.check keeper.home
    (.list [.map [(.text "destination", .text "~/zoo.log")]]) =
      .ok [{ destination := "/home/keeper/zoo.log" }] := by cbv

/-- The override counts before the variable and the files, and a list from a variable before that of
a file. -/
theorem exists_load_keeper : ∃ settings, load keeper = .ok settings ∧
    settings.logging = { level := .debug, outputs := [{ destination := "/home/keeper/zoo.log" }] } ∧
    settings.render.summaryBudget = 80 ∧ settings.render.ignoredAttributes = ["New"] ∧
    settings.render.codeLanguage = "cs" := by
  have hglobals : Valid keeper.home keeperGlobalEntries := by
    refine ⟨by simp [keeperGlobalEntries, Section.all], fun k d hd => ?_⟩
    cases k
    case outputs =>
      cases hd
      exact ⟨_, output_keeper⟩
    all_goals cases hd <;> exact ⟨_, rfl⟩
  have hrepository : Valid keeper.home keeperRepositoryEntries := by
    refine ⟨by simp [keeperRepositoryEntries, Section.all], fun k d hd => ?_⟩
    cases k <;> cases hd <;> exact ⟨_, rfl⟩
  have hoverrides : Valid keeper.home keeper.overrides := by
    refine ⟨by simp [keeper, Section.all], fun k d hd => ?_⟩
    cases k <;> cases hd
    exact ⟨_, rfl⟩
  have hproper : Proper keeper.overrides := by
    refine ⟨by decide, fun {key inner} hmem => ?_⟩
    cases List.mem_singleton.1 hmem
    decide
  obtain ⟨settings, hload, -, hgiven⟩ := exists_load fileEntries_keeperGlobals
    fileEntries_keeperRepository hglobals hrepository valid_keeper_environment hoverrides hproper
  have hvariable : ∀ {α : Type} (k : Setting α), keeper.environment.setting? k =
      (List.lookup k.variable (keeperNames.zip ["70", "/bin", "[\"New\"]"])).bind
        (settingData? k.group [k.key]) := by
    intro α k
    rw [Environment.setting?, ← Environment.lookup_lower, lower_keeper]
  simp only [Layers.given, hvariable] at hgiven
  have hlevel : Settings.level (.text "DEBUG") = .ok settings.logging.level := hgiven .level
  have houtputs := output_keeper.symm.trans (hgiven .outputs)
  have hbudget : budget (.int 80) = .ok ⟨settings.render.summaryBudget, settings.render.summary_room⟩ :=
    hgiven .summaryBudget
  have hattributes : list text (.list [.text "New"]) = .ok settings.render.ignoredAttributes :=
    hgiven .ignoredAttributes
  have hlanguage : settings.render.codeLanguage = "cs" := hgiven .codeLanguage
  refine ⟨settings, hload, ?_, ?_, (Except.ok.inj hattributes).symm, hlanguage⟩
  · obtain ⟨⟨level, outputs⟩, documentation, render⟩ := settings
    cases hlevel
    cases houtputs
    rfl
  · exact (congrArg Subtype.val (Except.ok.inj hbudget)).symm

end ApiDoc.Settings
