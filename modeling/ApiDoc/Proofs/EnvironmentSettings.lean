import ApiDoc.Proofs.Answer
import ApiDoc.Proofs.Lowercase
import ApiDoc.Proofs.SettingLayers
import Mathlib.Data.List.Induction

/-!
# Settings in variables

A variable gives a setting if its name, in whatever case, is that of the setting; of several the last
counts (`Environment.setting?`). If no variable holds a whole section, the variables make entries with
just these settings (`Environment.Valid.exists_settings`).
-/

namespace ApiDoc.Settings

variable {α : Type} {home : String} {s : Section} {env : Environment}

/-! ## Variables by name -/

namespace Environment

/-- The value of the last variable that has a name in whatever case. -/
def last? (env : Environment) (name : String) : Option String :=
  (env.reverse.find? fun v => Text.lowerText v.1 = name).map Prod.snd

theorem last?_append_singleton (env : Environment) (v : String × String) (name : String) :
    last? (env ++ [v]) name = if Text.lowerText v.1 = name then some v.2 else last? env name := by
  rw [last?, List.reverse_append, List.reverse_singleton, List.singleton_append, List.find?_cons]
  by_cases h : Text.lowerText v.1 = name <;> simp [h, last?]

theorem lookup_cons (v : String × String) (env : Environment) (name : String) :
    List.lookup name (v :: env) = if v.1 = name then some v.2 else List.lookup name env := by
  rw [List.lookup_cons]
  by_cases h : v.1 = name
  · simp [h]
  · simp only [beq_eq_false_iff_ne.2 (Ne.symm h), if_neg h]

theorem lookup_put (env : Environment) (name value name' : String) :
    List.lookup name' (put env name value) =
      if name = name' then some value else List.lookup name' env := by
  induction env with
  | nil => rw [put, lookup_cons]
  | cons v rest ih =>
    rw [put]
    split
    next h =>
      rw [lookup_cons, lookup_cons, ← h]
      split <;> rfl
    next h =>
      rw [lookup_cons, lookup_cons, ih]
      by_cases hname : v.1 = name'
      · simp [hname, show name ≠ name' from fun heq => h (hname.trans heq.symm)]
      · simp [hname]

theorem mem_names_put {name value n : String} :
    n ∈ (put env name value).map Prod.fst ↔ n = name ∨ n ∈ env.map Prod.fst := by
  induction env with
  | nil => simp [put]
  | cons v rest ih =>
    rw [put]
    split
    next h => simp [h]
    next => rw [List.map_cons, List.mem_cons, ih, List.map_cons, List.mem_cons, or_left_comm]

theorem nodup_put (h : (env.map Prod.fst).Nodup) (name value : String) :
    ((put env name value).map Prod.fst).Nodup := by
  induction env with
  | nil => exact List.nodup_singleton _
  | cons v rest ih =>
    rw [List.map_cons, List.nodup_cons] at h
    rw [put]
    split
    next => exact List.nodup_cons.2 h
    next hne =>
      refine List.nodup_cons.2 ⟨fun hmem => ?_, ih h.2⟩
      exact (mem_names_put.1 hmem).elim hne h.1

theorem lower_append_singleton (env : Environment) (v : String × String) :
    lower (env ++ [v]) = put env.lower (Text.lowerText v.1) v.2 := by simp [lower]

theorem nodup_lower (env : Environment) : (env.lower.map Prod.fst).Nodup := by
  induction env using List.reverseRecOn with
  | nil => exact List.nodup_nil
  | append_singleton env v ih => rw [lower_append_singleton]; exact nodup_put ih _ _

/-- Lowered, the variables have the names of before in lowercase, and of each name the last value. -/
theorem lookup_lower (env : Environment) (name : String) :
    List.lookup name env.lower = env.last? name := by
  induction env using List.reverseRecOn with
  | nil => rfl
  | append_singleton env v ih => rw [lower_append_singleton, lookup_put, last?_append_singleton, ih]

theorem exists_of_mem_lower {n : String} (h : n ∈ env.lower.map Prod.fst) :
    ∃ v ∈ env, Text.lowerText v.1 = n := by
  induction env using List.reverseRecOn with
  | nil => cases h
  | append_singleton env v ih =>
    rw [lower_append_singleton, mem_names_put] at h
    rcases h with rfl | h
    · exact ⟨v, by simp, rfl⟩
    · obtain ⟨v', hv', hname⟩ := ih h
      exact ⟨v', List.mem_append_left _ hv', hname⟩

end Environment

/-! ## Names -/

/-- What the names of the variables of a section begin with. -/
def Section.start (s : Section) : String := variablePrefix ++ s.name ++ "__"

/-- The name of the variable for a setting, in lowercase. -/
def Setting.variable (k : Setting α) : String := k.group.start ++ k.key

/-- What the variables give for a setting. -/
def Environment.setting? (env : Environment) (k : Setting α) : Option Data :=
  (env.last? k.variable).bind (settingData? k.group [k.key])

/-- Variables for single settings only, and values that pass. The names of other variables may be
anything but that of a section, or that of a section with a path of several keys. -/
structure Environment.Valid (home : String) (env : Environment) : Prop where
  noSection : ∀ v ∈ env, ∀ s ∈ Section.all, Text.lowerText v.1 ≠ variablePrefix ++ s.name
  noPath : ∀ v ∈ env, ∀ s ∈ Section.all, ∀ key : String,
    Text.lowerText v.1 = s.start ++ key → nameParts key.toList = [key.toList]
  accepted : ∀ {α : Type} (k : Setting α) (value : String), env.last? k.variable = some value →
    ∃ d x, settingData? k.group [k.key] value = some d ∧ k.check home d = .ok x

/-- The keys of the sections are ASCII. -/
theorem ascii_of_mem_section (hs : s ∈ Section.all) {name : String} (hname : name ∈ s.plain ++ s.lists) :
    ∀ c ∈ name.toList, c.toNat < 0x80 := by
  have hall : ∀ s ∈ Section.all, ∀ name ∈ s.plain ++ s.lists,
      name.toList.all (fun c => c.toNat < 0x80) = true := by decide
  exact fun c hc => of_decide_eq_true (List.all_eq_true.1 (hall s hs name hname) c hc)

/-- A name in lowercase is written as its setting is called. -/
theorem setting_eq_self (hs : s ∈ Section.all) {name : String} (h : Text.IsLowered name.toList) :
    s.setting name = name := by
  simp only [Section.setting]
  split_ifs with hknown
  · refine Text.lowerText_eq_self h ?_
    exact ascii_of_mem_section hs (List.contains_iff_mem.1 hknown)
  · rfl

/-- Every name that a section lists is the key of a setting. -/
theorem exists_setting (hs : s ∈ Section.all) {name : String} (hname : name ∈ s.lists) :
    ∃ (α : Type) (k : Setting α), k.group = s ∧ k.key = name := by
  simp only [Section.all, List.mem_cons, List.not_mem_nil, or_false] at hs
  rcases hs with rfl | rfl | rfl
  · simp only [List.mem_cons, List.not_mem_nil, or_false] at hname
    exact ⟨_, .outputs, rfl, hname.symm⟩
  · cases hname
  · simp only [List.mem_cons, List.not_mem_nil, or_false] at hname
    rcases hname with rfl | rfl
    · exact ⟨_, .ignoredMethods, rfl, rfl⟩
    · exact ⟨_, .ignoredAttributes, rfl, rfl⟩

/-! ## The variables of a section -/

/-- The entries that the variables of a section make of others. -/
structure Reads (s : Section) (env : Environment) (entries own : Data.Entries) : Prop where
  get? : ∀ key, own.get? (.text key) =
    ((List.lookup (s.start ++ key) env).bind (settingData? s [key])).or (entries.get? (.text key))
  distinct : entries.Distinct → own.Distinct
  keys : ∀ form ∈ own.keyForms, form ∈ entries.keyForms ∨
    ∃ v ∈ env, ∃ key, v.1 = s.start ++ key ∧ form = .text key

theorem append_right_inj_iff {start key key' : String} : start ++ key = start ++ key' ↔ key = key' := by
  rw [← String.toList_inj, String.toList_append, String.toList_append, List.append_cancel_left_eq,
    String.toList_inj]

theorem exists_of_isPrefixOf {start name : String} :
    start.toList.isPrefixOf name.toList = true ↔ ∃ key, name = start ++ key := by
  rw [List.isPrefixOf_iff_prefix]
  constructor
  · rintro ⟨rest, hrest⟩
    refine ⟨String.ofList rest, String.toList_inj.1 ?_⟩
    rw [String.toList_append, String.toList_ofList, hrest]
  · rintro ⟨key, rfl⟩
    rw [String.toList_append]
    exact List.prefix_append _ _

/-- Setting one more variable of the section, which has not been read yet. -/
theorem Reads.cons {key value : String} {d : Data} {entries own : Data.Entries}
    (h : Reads s env (Data.Entries.put entries (.text key) d) own)
    (hd : settingData? s [key] value = some d) (hnew : s.start ++ key ∉ env.map Prod.fst) :
    Reads s ((s.start ++ key, value) :: env) entries own where
  get? key' := by
    rw [h.get?, Data.Entries.get?_put, Environment.lookup_cons]
    by_cases heq : key = key'
    · subst heq
      have hnone : List.lookup (s.start ++ key) env = none := by
        refine List.lookup_eq_none_iff.2 fun v hv => ?_
        simpa using fun hname : s.start ++ key = v.1 => hnew (hname ▸ List.mem_map_of_mem hv)
      rw [if_pos rfl, if_pos rfl, hnone, Option.bind_none, Option.none_or, Option.bind_some, hd,
        Option.some_or]
    · rw [if_neg (mt append_right_inj_iff.1 heq), if_neg (by simpa using heq)]
  distinct hentries := h.distinct (hentries.put _ _)
  keys form hform := by
    rcases h.keys form hform with hform | ⟨v, hv, key', hname, rfl⟩
    · rcases Data.Entries.mem_keyForms_put.1 hform with rfl | hform
      · exact .inr ⟨_, List.mem_cons_self, key, rfl, rfl⟩
      · exact .inl hform
    · exact .inr ⟨v, List.mem_cons_of_mem _ hv, key', hname, rfl⟩

theorem exists_reads (hnames : (env.map Prod.fst).Nodup)
    (hparts : ∀ v ∈ env, ∀ key, v.1 = s.start ++ key → nameParts key.toList = [key.toList])
    (hread : ∀ v ∈ env, ∀ key, v.1 = s.start ++ key → ∃ d, settingData? s [key] v.2 = some d)
    (entries : Data.Entries) :
    ∃ own, ownSettings? s entries env = some own ∧ Reads s env entries own := by
  induction env generalizing entries with
  | nil => exact ⟨entries, rfl, fun key => rfl, id, fun form hform => .inl hform⟩
  | cons v env ih =>
    obtain ⟨name, value⟩ := v
    rw [List.map_cons, List.nodup_cons] at hnames
    obtain ⟨hpart, hparts⟩ := List.forall_mem_cons.1 hparts
    obtain ⟨hdata, hread⟩ := List.forall_mem_cons.1 hread
    have hih := ih hnames.2 hparts hread
    by_cases hstart : s.start.toList.isPrefixOf name.toList = true
    · obtain ⟨key, rfl⟩ := exists_of_isPrefixOf.1 hstart
      obtain ⟨d, hd⟩ := hdata key rfl
      obtain ⟨own, hown, hreads⟩ := hih (Data.Entries.put entries (.text key) d)
      refine ⟨own, ?_, hreads.cons hd hnames.1⟩
      have hpath : (nameParts ((s.start ++ key).toList.drop s.start.toList.length)).map String.ofList =
          [key] := by
        rw [String.toList_append, List.drop_left, hpart key rfl, List.map_singleton, String.ofList_toList]
      have hread : ∀ path, path = [key] → ((settingData? s path value).bind fun data =>
          ownSettings? s (assign entries path data) env) = some own := by
        rintro path rfl
        rw [hd]
        exact hown
      exact (if_pos hstart).trans (hread _ hpath)
    · obtain ⟨own, hown, hreads⟩ := hih entries
      refine ⟨own, (if_neg hstart).trans hown, fun key => ?_, hreads.distinct, fun form hform => ?_⟩
      · have hne : ¬ name = s.start ++ key := fun h => hstart (exists_of_isPrefixOf.2 ⟨key, h⟩)
        rw [hreads.get? key, Environment.lookup_cons, if_neg hne]
      · exact (hreads.keys form hform).imp_right fun ⟨v', hv', h⟩ => ⟨v', List.mem_cons_of_mem _ hv', h⟩

/-! ## Sections -/

/-- The settings of a section that have variables. -/
def Environment.inner (env : Environment) (s : Section) : Data.Entries :=
  nameSettings s ((ownSettings? s [] env.lower).getD [])

theorem nameSettings_eq {own : Data.Entries}
    (h : ∀ form ∈ own.keyForms, ∃ key, form = .text key ∧ s.setting key = key) :
    nameSettings s own = Data.Entries.putAll [] own := by
  refine List.foldl_ext _ _ [] fun found e he => ?_
  obtain ⟨key, hkey, hself⟩ := h _ (List.mem_map_of_mem he)
  obtain ⟨form, value⟩ := e
  obtain rfl := Data.Entries.keyForm_eq_text.1 hkey
  simp only [hself]

/-- What the variables of a section give, once they are read. -/
structure Environment.Gives (env : Environment) (s : Section) : Prop where
  data : sectionData? s env.lower =
    some (if (env.inner s).isEmpty then none else some (.map (env.inner s)))
  get? : ∀ key, Data.Entries.get? (env.inner s) (.text key) =
    (env.last? (s.start ++ key)).bind (settingData? s [key])
  distinct : (env.inner s).Distinct

/-- No variable holds the whole section. -/
theorem Environment.Valid.lookup_section (h : env.Valid home) (hs : s ∈ Section.all) :
    List.lookup (variablePrefix ++ s.name) env.lower = none := by
  refine List.lookup_eq_none_iff.2 fun v hv => ?_
  obtain ⟨v', hv', hname⟩ := exists_of_mem_lower (List.mem_map_of_mem hv)
  simpa using fun heq : variablePrefix ++ s.name = v.1 => h.noSection v' hv' s hs (hname.trans heq.symm)

/-- A variable of the section can be read: one for a list since it passes, and any other as text. -/
theorem Environment.Valid.exists_data (h : env.Valid home) (hs : s ∈ Section.all)
    {v : String × String} (hv : v ∈ env.lower) {key : String} (hkey : v.1 = s.start ++ key) :
    ∃ d, settingData? s [key] v.2 = some d := by
  by_cases hlist : key ∈ s.lists
  · obtain ⟨α, k, rfl, rfl⟩ := exists_setting hs hlist
    have hlast : env.last? k.variable = some v.2 := by
      rw [← env.lookup_lower, Setting.variable, ← hkey]
      exact lookup_of_mem env.nodup_lower hv
    obtain ⟨d, x, hd, -⟩ := h.accepted k v.2 hlast
    exact ⟨d, hd⟩
  · exact ⟨.text v.2, by simp [settingData?, hlist]⟩

/-- The variables of the section are read one by one, under names that need no rewriting. -/
theorem Environment.Valid.exists_own (h : env.Valid home) (hs : s ∈ Section.all) :
    ∃ own, ownSettings? s [] env.lower = some own ∧ Reads s env.lower [] own ∧
      nameSettings s own = Data.Entries.putAll [] own := by
  have hparts : ∀ v ∈ env.lower, ∀ key, v.1 = s.start ++ key → nameParts key.toList = [key.toList] := by
    intro v hv key hkey
    obtain ⟨v', hv', hname⟩ := exists_of_mem_lower (List.mem_map_of_mem hv)
    exact h.noPath v' hv' s hs key (hname.trans hkey)
  obtain ⟨own, hown, hreads⟩ :=
    exists_reads env.nodup_lower hparts (fun v hv key hkey => h.exists_data hs hv hkey) []
  refine ⟨own, hown, hreads, nameSettings_eq fun form hform => ?_⟩
  rcases hreads.keys form hform with hform | ⟨v, hv, key, hkey, rfl⟩
  · cases hform
  · obtain ⟨v', -, hname⟩ := exists_of_mem_lower (List.mem_map_of_mem hv)
    have hlowered : Text.IsLowered key.toList := by
      intro c hc
      refine Text.isLowered_lowerText v'.1 c ?_
      rw [hname, hkey, String.toList_append]
      exact List.mem_append_right _ hc
    exact ⟨key, rfl, setting_eq_self hs hlowered⟩

theorem Environment.Valid.gives (h : env.Valid home) (hs : s ∈ Section.all) : env.Gives s := by
  obtain ⟨own, hown, hreads, hnamed⟩ := h.exists_own hs
  have hinner : env.inner s = Data.Entries.putAll [] own := by
    rw [Environment.inner, hown, Option.getD_some, hnamed]
  have hempty : (env.inner s).isEmpty = own.isEmpty := by
    rw [hinner, Data.Entries.isEmpty_putAll, List.isEmpty_nil, Bool.true_and]
  refine ⟨?_, fun key => ?_, hinner ▸ Data.Entries.distinct_nil.putAll own⟩
  · rw [sectionData?, h.lookup_section hs, hempty, hinner, ← hnamed]
    simp only [hown]
    rfl
  · rw [hinner, Data.Entries.get?_putAll (hreads.distinct Data.Entries.distinct_nil), hreads.get? key,
      env.lookup_lower]
    exact (Option.or_none).trans Option.or_none

/-- The section as an entry, if any variable says something of it. -/
def Environment.part (env : Environment) (s : Section) : Data.Entries :=
  if (env.inner s).isEmpty then [] else [(.text s.name, .map (env.inner s))]

theorem Environment.settings_eq (h : ∀ s ∈ Section.all, env.Gives s) :
    env.settings = .ok (Section.all.flatMap env.part) := by
  rw [settings, List.flatMap_def]
  refine congrArg (Except.map List.flatten) (mapM_eq_ok.2 ?_)
  refine List.forall₂_map_right_iff.2 (List.forall₂_same.2 fun s hs => ?_)
  simp only [(h s hs).data, part]
  cases (env.inner s).isEmpty <;> rfl

/-- The sections differ in their names. -/
theorem section_eq_of_name_eq {s' : Section} (hs : s ∈ Section.all) (hs' : s' ∈ Section.all)
    (h : s.name = s'.name) : s = s' :=
  List.inj_on_of_nodup_map (show (Section.all.map Section.name).Nodup by decide) hs hs' h

theorem Environment.mem_parts {e : Scalar × Data} : e ∈ Section.all.flatMap env.part ↔
    ∃ s ∈ Section.all, (env.inner s).isEmpty = false ∧ e = (.text s.name, .map (env.inner s)) := by
  simp only [List.mem_flatMap, part]
  refine exists_congr fun s => and_congr_right fun _ => ?_
  cases (env.inner s).isEmpty <;> simp

theorem Environment.distinct_parts (env : Environment) :
    Data.Entries.Distinct (Section.all.flatMap env.part) := by
  have hsublist : ∀ sections : List Section,
      (Data.Entries.keyForms (sections.flatMap env.part)).Sublist (sections.map fun s => .text s.name) := by
    intro sections
    induction sections with
    | nil => exact List.Sublist.refl _
    | cons s sections ih =>
      rw [List.flatMap_cons, Data.Entries.keyForms, List.map_append, part]
      split
      · exact ih.cons _
      · exact ih.cons_cons _
  exact (hsublist Section.all).nodup (by decide)

/-- Variables for single settings make entries with these settings. -/
theorem Environment.Valid.exists_settings (h : env.Valid home) : ∃ entries, env.settings = .ok entries ∧
    Settings.Valid home entries ∧ Proper entries ∧
    ∀ {α : Type} (k : Setting α), Settings.setting? entries k = env.setting? k := by
  have hgives : ∀ s ∈ Section.all, env.Gives s := fun s hs => h.gives hs
  have hsetting : ∀ {α : Type} (k : Setting α),
      Settings.setting? (Section.all.flatMap env.part) k = env.setting? k := by
    intro α k
    rw [Environment.setting?, Setting.variable, ← (hgives k.group k.group_mem).get? k.key]
    cases hempty : (env.inner k.group).isEmpty with
    | false =>
      refine setting?_eq_get? k (env.distinct_parts.get?_of_mem ?_)
      exact Environment.mem_parts.2 ⟨k.group, k.group_mem, hempty, rfl⟩
    | true =>
      rw [List.isEmpty_iff.1 hempty]
      refine setting?_eq_none k ?_
      cases hget : Data.Entries.get? (Section.all.flatMap env.part) (.text k.group.name) with
      | none => rfl
      | some d =>
        obtain ⟨s, hs, hsome, he⟩ := Environment.mem_parts.1 (Data.Entries.mem_of_get?_text hget)
        injection he with hkey
        injection hkey with hname
        rw [section_eq_of_name_eq k.group_mem hs hname] at hempty
        cases hempty.symm.trans hsome
  refine ⟨_, Environment.settings_eq hgives, ⟨fun e he => ?_, fun k d hd => ?_⟩,
    ⟨env.distinct_parts, fun {key inner} hmem => ?_⟩, hsetting⟩
  · obtain ⟨s, hs, -, rfl⟩ := Environment.mem_parts.1 he
    exact ⟨s, hs, _, rfl⟩
  · rw [hsetting, Environment.setting?, Option.bind_eq_some_iff] at hd
    obtain ⟨value, hvalue, hdata⟩ := hd
    obtain ⟨d', x, hd', hx⟩ := h.accepted k value hvalue
    cases hdata.symm.trans hd'
    exact ⟨x, hx⟩
  · obtain ⟨s, hs, -, he⟩ := Environment.mem_parts.1 hmem
    cases he
    exact (hgives s hs).distinct

end ApiDoc.Settings
