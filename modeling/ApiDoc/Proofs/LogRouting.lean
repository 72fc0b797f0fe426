import Mathlib
import ApiDoc.Log.Book
import ApiDoc.Proofs.DataMaps

/-!
# Where events go

A run is a sequence of acts: the log is configured, a run is named or its name cleared, an event is
logged. What an event adds to the outputs depends on the acts before it in two ways only: by the
settings of the last configuration, and by the run that was named last, if its name has not been
cleared since. `Book.Reflects` says that a book holds just these, which every act keeps; so what a
whole run writes is what its events add, in their order (`Book.written_after`).
-/

namespace ApiDoc.Log

/-! ## Acts -/

inductive Act where
  | configure (settings : LogSettings)
  /-- Names the run, by a fresh name if none is given. -/
  | setRun (given : Option String) (fresh : String)
  | clearRun
  /-- Logs an event at a time. -/
  | log (time : String) (event : Entry)

namespace Act

/-- The settings that an act puts in force. -/
def settings? : Act → Option LogSettings
  | .configure s => some s
  | _ => none

/-- The name of the run from the act on, if the act has a say in it. -/
def run? : Act → Option (Option String)
  | .setRun (some name) fresh => some (some (if name.isEmpty then fresh else name))
  | .setRun none fresh => some (some fresh)
  | .clearRun => some none
  | _ => none

end Act

/-- The settings of the last configuration. -/
def settingsAfter (acts : List Act) : Option LogSettings := (acts.filterMap Act.settings?).getLast?

/-- The run that is named after the acts. -/
def runAfter (acts : List Act) : Option String := (acts.filterMap Act.run?).getLast?.join

/-- No event is logged before the log is configured. -/
def ConfiguredFirst (acts : List Act) : Prop :=
  ∀ before time event, before ++ [.log time event] <+: acts → (settingsAfter before).isSome

section Acts

variable {acts : List Act} {a : Act}

theorem settingsAfter_append_singleton :
    settingsAfter (acts ++ [a]) = a.settings?.or (settingsAfter acts) := by
  rw [settingsAfter, List.filterMap_append, List.getLast?_append]
  cases h : a.settings? <;> simp [h, settingsAfter]

theorem runAfter_append_singleton :
    runAfter (acts ++ [a]) = a.run?.getD (runAfter acts) := by
  rw [runAfter, List.filterMap_append, List.getLast?_append]
  cases h : a.run? <;> simp [h, runAfter]

/-- A run that starts with a configuration. -/
theorem configuredFirst_configure (s : LogSettings) (acts : List Act) :
    ConfiguredFirst (.configure s :: acts) := by
  intro before time event hbefore
  cases before with
  | nil => cases (List.cons_prefix_cons.1 hbefore).1
  | cons first before =>
    obtain ⟨rfl, -⟩ := List.cons_prefix_cons.1 hbefore
    simp [settingsAfter, Act.settings?]

theorem ConfiguredFirst.of_append_singleton (h : ConfiguredFirst (acts ++ [a])) :
    ConfiguredFirst acts :=
  fun before time event hbefore => h before time event (hbefore.trans (List.prefix_append _ _))

end Acts

/-! ## What an event adds -/

/-- How an event is written, given the settings and the run in force: each text with its
destination. -/
abbrev Routing := LogSettings → Option String → String → Entry → List (String × String)

/-- One line to each output whose level the event reaches, which is that of the settings if the output
has none of its own. An event that does not reach the level of the settings is dropped. -/
def lines : Routing := fun s run time event =>
  if event.level.reaches s.level then
    (s.outputs.filter fun o => event.level.reaches (o.level.getD s.level)).map fun o =>
      (o.destination, Book.lineFor o (event.entries time run))
  else []

/-- Where settings have no outputs, an event that is not dropped and is at least a warning goes to
`stderr` as it is. -/
def lastResort : Routing := fun s run time event =>
  if s.outputs = [] ∧ event.level.reaches s.level ∧ event.level.reaches .warning then
    [("stderr", event.bare time run)]
  else []

/-- All that an event adds. -/
def texts : Routing := fun s run time event => lines s run time event ++ lastResort s run time event

/-- What an act adds after others. -/
def Act.added (routing : Routing) (before : List Act) : Act → List (String × String)
  | .log time event => (settingsAfter before).elim [] fun s => routing s (runAfter before) time event
  | _ => []

/-- What the acts of a run add, in their order. -/
def traffic (routing : Routing) (acts : List Act) : List (String × String) :=
  acts.zipIdx.flatMap fun e => e.1.added routing (acts.take e.2)

theorem traffic_append_singleton (routing : Routing) (acts : List Act) (a : Act) :
    traffic routing (acts ++ [a]) = traffic routing acts ++ a.added routing acts := by
  have htake : ∀ e ∈ acts.zipIdx, (acts ++ [a]).take e.2 = acts.take e.2 := by
    intro e he
    exact List.take_append_of_le_length (Nat.le_of_lt (by simpa using List.snd_lt_of_mem_zipIdx he))
  rw [traffic, List.zipIdx_append, List.flatMap_append, Nat.zero_add]
  congr 1
  · exact List.flatMap_congr fun e he => by rw [htake e he]
  · simp

namespace Book

variable {b : Book} {acts : List Act} {a : Act} {s : LogSettings}

/-! ## Runs of a book -/

def act (b : Book) : Act → Book
  | .configure s => b.configure s
  | .setRun given fresh => b.setRun given fresh
  | .clearRun => b.clearRun
  | .log time event => b.write time event

def after (b : Book) (acts : List Act) : Book := acts.foldl Book.act b

@[simp] theorem after_append_singleton : b.after (acts ++ [a]) = (b.after acts).act a := by
  simp [after]

/-- A book has the level and the outputs of the settings in force, and the name of the run. -/
structure Reflects (b : Book) (acts : List Act) : Prop where
  settings : ∀ s, settingsAfter acts = some s → b.level = s.level ∧ b.outputs = s.outputs
  run : b.run = runAfter acts

theorem setRun_run (b : Book) (given : Option String) (fresh : String) :
    some (b.setRun given fresh).run = (Act.setRun given fresh).run? := by
  cases given with
  | none => rfl
  | some name => cases h : name.isEmpty <;> simp [setRun, Act.run?, Option.filter, h]

theorem Reflects.act (h : b.Reflects acts) (a : Act) : (b.act a).Reflects (acts ++ [a]) := by
  refine ⟨fun s hs => ?_, ?_⟩
  · rw [settingsAfter_append_singleton] at hs
    cases a with
    | configure s' =>
      cases hs
      exact ⟨rfl, rfl⟩
    | setRun | clearRun | log => exact h.settings s hs
  · rw [runAfter_append_singleton]
    cases a with
    | setRun given fresh => rw [← setRun_run b given fresh]; rfl
    | clearRun => rfl
    | configure | log => exact h.run

theorem reflects_after (acts : List Act) : (({} : Book).after acts).Reflects acts := by
  induction acts using List.reverseRecOn with
  | nil => exact ⟨fun s hs => (nomatch hs), rfl⟩
  | append_singleton acts a ih => rw [after_append_singleton]; exact ih.act a

/-- What a book writes is what the settings in force say. -/
theorem texts_eq (hlevel : b.level = s.level) (houtputs : b.outputs = s.outputs) (time : String)
    (event : Entry) : b.texts time event =
      lines s b.run time event ++ lastResort s b.run time event := by
  simp only [texts, lines, lastResort, outputLevel, hlevel, houtputs]
  by_cases hreaches : event.level.reaches s.level = true
  · by_cases hnone : s.outputs = []
    · simp [hreaches, hnone]
    · simp [hreaches, hnone]
  · simp [hreaches]

theorem written_act (h : b.Reflects acts)
    (hlog : ∀ time event, a = .log time event → (settingsAfter acts).isSome) :
    (b.act a).written = b.written ++ a.added Log.texts acts := by
  cases a with
  | log time event =>
    obtain ⟨s, hs⟩ := Option.isSome_iff_exists.1 (hlog time event rfl)
    obtain ⟨hlevel, houtputs⟩ := h.settings s hs
    rw [act, write, texts_eq hlevel houtputs, h.run, Act.added, hs]
    rfl
  | configure | setRun | clearRun => exact (List.append_nil _).symm

theorem written_after_eq (h : ConfiguredFirst acts) :
    (({} : Book).after acts).written = traffic Log.texts acts := by
  induction acts using List.reverseRecOn with
  | nil => rfl
  | append_singleton acts a ih =>
    rw [after_append_singleton, traffic_append_singleton, written_act (reflects_after acts) ?_,
      ih h.of_append_singleton]
    rintro time event rfl
    exact h acts time event (List.prefix_refl _)

end Book

/-! ## Names of runs -/

/-- Whether an event comes with a particular of a name. -/
def Entry.hasField (name : String) : Entry → Bool
  | .own _ r => (r.fields.map Prod.fst).contains name
  | .foreign .. => false

theorem get?_putNamed (entries : Data.Entries) (name : String) (value : Data) (name' : String) :
    Data.Entries.get? (putNamed entries name value) (.text name') =
      if name = name' then some value else Data.Entries.get? entries (.text name') := by
  simp [putNamed, Data.Entries.get?_put]

/-- Particulars leave other names as they are. -/
theorem get?_putNamed_fields {name : String} {fields : List (String × Data)} (entries : Data.Entries)
    (h : name ∉ fields.map Prod.fst) :
    Data.Entries.get? (fields.foldl (fun found (name, value) => putNamed found name value) entries)
      (.text name) = Data.Entries.get? entries (.text name) := by
  induction fields generalizing entries with
  | nil => rfl
  | cons f fields ih =>
    rw [List.map_cons, List.mem_cons, not_or] at h
    rw [List.foldl_cons, ih _ h.2, get?_putNamed, if_neg (Ne.symm h.1)]

/-- The entries name the run that the event belongs to, and no other. -/
theorem get?_entries_run {event : Entry} (h : event.hasField "run_id" = false) (time : String)
    (run : Option String) :
    Data.Entries.get? (event.entries time run) (.text "run_id") = run.map Data.text := by
  have hrecord : ∀ (r : Record) (logger : Option String), "run_id" ∉ r.fields.map Prod.fst →
      Data.Entries.get? (r.entries { logger, time, run }) (.text "run_id") = run.map Data.text := by
    intro r logger hfields
    have hnamed : Data.Entries.get? (logger.elim [] fun name => [(.text "logger_name", .text name)])
        (.text "run_id") = none := by
      cases logger <;> rfl
    cases run with
    | none => simp [Record.entries, get?_putNamed, get?_putNamed_fields _ hfields, hnamed]
    | some id => simp [Record.entries, get?_putNamed]
  cases event with
  | own logger r => exact hrecord r logger (by simpa [Entry.hasField] using h)
  | foreign level message => exact hrecord _ none List.not_mem_nil

/-- What a line says under a name. -/
def namedPart (format : Format) (name : String) (value : Data) : String :=
  match format with
  | .json => Json.writeString name ++ ": " ++ Json.write value
  | .console => name ++ "=" ++ valueText value

/-- The parts of a line: the members of an object, or the columns that name a particular. -/
def namedParts (format : Format) (entries : Data.Entries) : List String :=
  match format with
  | .json => Json.writeEntries entries
  | .console => particularColumns entries

theorem writeEntries_eq_map (entries : Data.Entries) :
    Json.writeEntries entries = entries.map fun e => Json.writeKey e.1 ++ ": " ++ Json.write e.2 := by
  induction entries with
  | nil => rfl
  | cons e entries ih => rw [Json.writeEntries, ih, List.map_cons]

/-- A line says what the entries hold, whatever its format. -/
theorem namedPart_mem {entries : Data.Entries} {name : String} {value : Data} (hname : isParticular name)
    (h : Data.Entries.get? entries (.text name) = some value) (format : Format) :
    namedPart format name value ∈ namedParts format entries := by
  have hmem := Data.Entries.mem_of_get?_text h
  cases format with
  | json =>
    simp only [namedParts, writeEntries_eq_map]
    exact List.mem_map.2 ⟨_, hmem, by simp only [namedPart, Json.writeKey]⟩
  | console =>
    simp only [namedParts, namedPart, particularColumns, List.mem_map, List.mem_mergeSort]
    refine ⟨(name, value), List.mem_filterMap.2 ⟨_, hmem, ?_⟩, rfl⟩
    simp only [hname, if_true]

/-! ## Whole runs -/

/-- An act writes to the outputs in force, or to `stderr` if there are none. -/
theorem destination_of_mem_added {before : List Act} {a : Act} {w : String × String}
    (h : w ∈ a.added texts before) : ∃ s, settingsAfter before = some s ∧
      (w.1 ∈ s.outputs.map Output.destination ∨ s.outputs = [] ∧ w.1 = "stderr") := by
  cases a with
  | log time event =>
    cases hs : settingsAfter before with
    | none => rw [Act.added, hs] at h; cases h
    | some s =>
      rw [Act.added, hs, Option.elim_some, texts, List.mem_append] at h
      refine ⟨s, rfl, h.imp (fun h => ?_) fun h => ?_⟩
      · rw [lines] at h
        split at h
        · obtain ⟨o, ho, rfl⟩ := List.mem_map.1 h
          exact List.mem_map_of_mem (List.mem_of_mem_filter ho)
        · cases h
      · rw [lastResort] at h
        split at h
        next hnone => exact ⟨hnone.1, by rw [List.mem_singleton.1 h]⟩
        next => cases h
  | configure | setRun | clearRun => cases h

/-- What a run writes: each event, in the order of the calls, once to each output in force whose level
it reaches, or to `stderr` as a last resort if the settings have no output; and nothing to any other
output. A line names the run if one is set, and only then. -/
theorem written_after {acts : List Act} (h : ConfiguredFirst acts) :
    (({} : Book).after acts).written = traffic texts acts ∧
      (∀ (before : List Act) (a : Act), ∀ w ∈ a.added texts before, ∃ s, settingsAfter before = some s ∧
        (w.1 ∈ s.outputs.map Output.destination ∨ s.outputs = [] ∧ w.1 = "stderr")) ∧
      ∀ (event : Entry) time run, event.hasField "run_id" = false →
        Data.Entries.get? (event.entries time run) (.text "run_id") = run.map Data.text ∧
          ∀ id, run = some id → ∀ format,
            namedPart format "run_id" (.text id) ∈ namedParts format (event.entries time run) := by
  refine ⟨Book.written_after_eq h, fun _ _ _ hw => destination_of_mem_added hw,
    fun event time run hfield => ?_⟩
  have hrun := get?_entries_run hfield time run
  refine ⟨hrun, ?_⟩
  rintro id rfl format
  exact namedPart_mem rfl hrun format

/-- An event of the program. -/
def feeding : Entry := .own (some "zoo") { level := .info, event := "fed" }

/-- A warning by a library. -/
def alarm : Entry := .foreign .warning "gate open"

/-- A run that logs to two outputs while it has a name, then to another one, and then to none. -/
def nightShift : List Act :=
  [.configure { level := .debug
                outputs := [{ format := .json, destination := "/log", level := some .warning }, {}] },
    .setRun (some "night") "", .log "one" feeding, .log "two" alarm, .clearRun,
    .configure { level := .info, outputs := [{ destination := "stdout" }] }, .log "three" feeding,
    .configure { outputs := [] }, .log "four" feeding, .log "five" alarm]

theorem written_after_nightShift : (({} : Book).after nightShift).written =
      [("stderr", "one [info] fed [zoo] run_id=night"),
        ("/log", "\x7b\"event\": \"gate open\", \"level\": \"warning\", \"timestamp\": \"two\", \"run_id\": \"night\"\x7d"),
        ("stderr", "two [warning] gate open run_id=night"), ("stdout", "three [info] fed [zoo]"),
        ("stderr", "gate open")] ∧
    (∀ w ∈ (Act.log "three" feeding).added texts (nightShift.take 6), w.1 = "stdout") ∧
    "run_id=night" ∈ namedParts .console (alarm.entries "two" (some "night")) := by
  have hconfigured : ConfiguredFirst nightShift := configuredFirst_configure _ _
  obtain ⟨hwritten, hdestinations, hrun⟩ := written_after hconfigured
  refine ⟨?_, fun w hw => ?_, ?_⟩
  · rw [hwritten]
    cbv
  · obtain ⟨s, hs, hw⟩ := hdestinations _ _ w hw
    have hlast : settingsAfter (nightShift.take 6) = some { outputs := [{ destination := "stdout" }] } := by
      decide
    cases hlast.symm.trans hs
    simpa using hw
  · exact (hrun alarm "two" (some "night") rfl).2 "night" rfl .console

/-- Settings without outputs do not silence the log: what is at least a warning still comes up on
`stderr`, even if an earlier configuration wrote there and the one in force does not. -/
theorem not_written_eq_lines : ¬ ∀ acts, ConfiguredFirst acts →
    (({} : Book).after acts).written = traffic lines acts := by
  intro h
  have hwritten := h [.configure {}, .configure { outputs := [] },
    .log "noon" (.own none { level := .warning, event := "late" })] (configuredFirst_configure _ _)
  exact absurd (congrArg List.length hwritten) (by decide)

end ApiDoc.Log
