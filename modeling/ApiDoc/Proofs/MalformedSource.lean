import ApiDoc.Proofs.History
import ApiDoc.Proofs.SymbolTable

/-!
# Malformed sources

To everyone else a malformed source is an absent one. Taking away the sources of some units, all of
which are malformed, changes no reply but those to strict questions about these units
(`agrees_undocumented`), whatever has been asked before. With strictness set, such a question is
answered with the error of the source, the first time and every later time
(`result_askIndex_of_malformed`, `Context.yields_resolve_of_malformed`): `perform_undocumented` puts
both together. The search for an entry needs the documentation key of a symbol first. Types and
members have one, for the session could not have been created otherwise, but an accessor may have
none (`resolve_unkeyed_getter`).
-/

namespace ApiDoc

/-! ## Catalogs without some sources -/

namespace Catalog

variable {c : Catalog} {names : List String}

/-- The catalog without the sources of the named units. -/
def undocumented (c : Catalog) (names : List String) : Catalog :=
  { c with units := c.units.map fun u =>
      { u with documentation := if u.name ∈ names then .absent else u.documentation } }

theorem names_undocumented (c : Catalog) (names : List String) :
    (c.undocumented names).units.map MetadataUnit.name = c.units.map MetadataUnit.name := by
  rw [undocumented, List.map_map]
  rfl

theorem unitSymbols_undocumented (c : Catalog) (names : List String) :
    (c.undocumented names).unitSymbols = c.unitSymbols.map fun u =>
      u.documentedBy (if u.name ∈ names then .absent else u.decl.documentation) := by
  simp only [unitSymbols, undocumented, List.zipIdx_map, List.map_map]
  rfl

@[simp] theorem types_undocumented (c : Catalog) (names : List String) :
    (c.undocumented names).types = c.types := by
  rw [types, unitSymbols_undocumented, List.flatMap_map]
  rfl

theorem rootSymbol?_undocumented (c : Catalog) (names : List String) (root : Root) :
    (c.undocumented names).rootSymbol? root = c.rootSymbol? root := by
  cases root with
  | detached i => rfl
  | declared u t =>
    simp only [rootSymbol?, unitSymbols_undocumented, List.getElem?_map]
    cases c.unitSymbols[u]? <;> rfl

@[simp] theorem symbol?_undocumented (c : Catalog) (names : List String) :
    (c.undocumented names).symbol? = c.symbol? := by
  funext a
  rw [symbol?, symbol?, rootSymbol?_undocumented]

theorem unit?_undocumented (c : Catalog) (names : List String) (name : String) :
    Option.Rel (fun u u' => ∃ source, u' = u.documentedBy source) (c.unit? name)
      ((c.undocumented names).unit? name) := by
  have hfind : (c.undocumented names).unit? name = (c.unit? name).map fun u =>
      u.documentedBy (if u.name ∈ names then .absent else u.decl.documentation) := by
    rw [unit?, unitSymbols_undocumented, List.find?_map]
    rfl
  rw [hfind]
  cases c.unit? name with
  | none => exact .none
  | some u => exact .some ⟨_, rfl⟩

end Catalog

theorem Hierarchy.findType_undocumented (h : Hierarchy) (c : Catalog) (names : List String) :
    h.findType (c.undocumented names) = h.findType c := by
  funext ref
  simp only [findType, Catalog.type?, Catalog.symbol?_undocumented]

theorem Hierarchy.build_undocumented (c : Catalog) (names : List String) :
    build (c.undocumented names) = build c := by
  simp only [build, Catalog.types_undocumented, findType_undocumented]

/-! ## Symbols of a unit -/

/-- What a hierarchy has been built of has documentation keys. -/
theorem Hierarchy.exists_documentationKey {c : Catalog} {h : Hierarchy} (hb : build c = .ok h)
    {x : Symbol} (hx : x ∈ c.types.flatMap TypeSymbol.symbols) :
    ∃ key, x.documentationKey = .ok key := by
  obtain ⟨_, key, -, hkey⟩ := exists_keys hb (List.mem_flatMap.1 hx)
  exact ⟨key, hkey⟩

theorem UnitSymbol.unit_of_mem_symbols {u : UnitSymbol} {x : Symbol} (hx : x ∈ u.symbols) :
    x.unit = some u.name ∧ ∀ p, x ≠ .parameter p := by
  obtain ⟨t, ht, hx⟩ := List.mem_flatMap.1 hx
  have htunit := u.unit_of_mem_types ht
  rcases List.mem_cons.1 hx with rfl | hx
  · exact ⟨htunit, by simp⟩
  · obtain ⟨m, hm, rfl⟩ := List.mem_map.1 hx
    exact ⟨(TypeSymbol.unit_of_mem_members hm).trans htunit, by simp⟩

namespace Context

open Answer

variable {ctx : Context} {x : Symbol} {unit reason : String}

/-- The own entry of a symbol, asked strictly of a malformed source. -/
theorem yields_entry_of_malformed (hstrict : ctx.settings.documentation.failOnMalformed = true)
    (hunit : x.unit = some unit) (hx : ∀ p, x ≠ .parameter p)
    (hmalformed : ctx.outcomes.lookup unit = some (.ok (.malformed reason))) :
    (ctx.entry x).Yields
      (x.documentationKey >>= fun _ => .error (.sourceMalformed unit reason)) := by
  have hentry : ctx.entry x = ctx.lookUp true x := by
    cases x with
    | parameter p => exact absurd rfl (hx p)
    | _ =>
      rw [entry, entryWith, hstrict]
      exact hx
  have hvalue : (ctx.lookUp true x).value =
      x.documentationKey >>= fun _ => .error (.sourceMalformed unit reason) := by
    rw [value_lookUp, outcome?, hunit, Option.bind_some, hmalformed]
    rfl
  rw [hentry]
  exact (ctx.steady_lookUp true x).yields_iff.2 hvalue

theorem yields_resolve_of_malformed (hstrict : ctx.settings.documentation.failOnMalformed = true)
    (hunit : x.unit = some unit) (hx : ∀ p, x ≠ .parameter p)
    (hmalformed : ctx.outcomes.lookup unit = some (.ok (.malformed reason))) :
    (ctx.resolve x).Yields
      (x.documentationKey >>= fun _ => .error (.sourceMalformed unit reason)) := by
  have hentry := yields_entry_of_malformed hstrict hunit hx hmalformed
  have hresolve : ctx.resolve x = ctx.resolveDirect x := by
    cases x with
    | parameter p => exact absurd rfl (hx p)
    | _ => rfl
  rw [hresolve]
  cases hk : x.documentationKey with
  | ok key =>
    rw [hk] at hentry
    exact Yields.bind_error hentry
  | error e =>
    rw [hk] at hentry
    exact Yields.bind_error hentry

end Context

namespace Session

variable {s s' t : Session} {c : Catalog} {names : List String} {settings : Settings}
  {paths : Symbol → Except Error String} {old old' : List Index} {log log' : List Log.Record}

theorem exists_create_undocumented (h : create c settings paths old = .ok (s, log))
    (names : List String) (old' : List Index) :
    ∃ s' log', create (c.undocumented names) settings paths old' = .ok (s', log') := by
  obtain ⟨hierarchy, hb, -⟩ := bind_eq_ok.1 h
  refine ⟨_, _, bind_eq_ok.2 ⟨hierarchy, ?_, rfl⟩⟩
  rw [Hierarchy.build_undocumented, hb]

/-! ## Replies that do not change -/

/-- Malformed contents agree with those of an absent source, where nobody asks strictly. -/
theorem results_read_undocumented {u : MetadataUnit} {strict : Prop}
    (hmalformed : u.name ∈ names → ∃ reason, u.documentation.read = .ok (.malformed reason))
    (hstrict : strict → u.name ∉ names) :
    Results (Contents.Agree strict) u.documentation.read
      (if u.name ∈ names then Source.absent else u.documentation).read := by
  split
  next hname =>
    obtain ⟨reason, hread⟩ := hmalformed hname
    rw [hread]
    exact .ok ⟨.inr ⟨rfl, rfl⟩, fun hasked => absurd hname (hstrict hasked)⟩
  next => exact Results.refl Contents.Agree.refl _

/-- A session agrees with the one over the catalog without the malformed sources. -/
theorem agrees_undocumented (hnames : (c.units.map MetadataUnit.name).Nodup)
    (hmalformed : ∀ u ∈ c.units, u.name ∈ names →
      ∃ reason, u.documentation.read = .ok (.malformed reason))
    (h : create c settings paths old = .ok (s, log))
    (h' : create (c.undocumented names) settings paths old' = .ok (s', log')) :
    Agrees (fun unit => settings.documentation.failOnMalformed = true → ∀ name ∈ unit, name ∉ names)
      s s' := by
  have hnames' : ((c.undocumented names).units.map MetadataUnit.name).Nodup :=
    Catalog.names_undocumented c names ▸ hnames
  have houtcomes := outcomes_create hnames h
  have houtcomes' := outcomes_create hnames' h'
  have hwellBuilt := create_wellBuilt h
  have hwellBuilt' := create_wellBuilt h'
  obtain ⟨hierarchy, hb, h⟩ := bind_eq_ok.1 h
  obtain ⟨hierarchy', hb', h'⟩ := bind_eq_ok.1 h'
  rw [Hierarchy.build_undocumented] at hb'
  cases hb.symm.trans hb'
  cases h
  cases h'
  have htypes := Catalog.types_undocumented c names
  have hframeworks : ((c.undocumented names).units.map fun u => (u.name, u.framework)) =
      c.units.map fun u => (u.name, u.framework) := by
    rw [Catalog.undocumented, List.map_map]
    rfl
  refine ⟨?_, Catalog.unit?_undocumented c names⟩
  exact {
    types := htypes.symm
    symbol? := (Catalog.symbol?_undocumented c names).symm
    hierarchy := rfl
    settings := rfl
    paths := rfl
    framework := fun unit => by simp only [Session.context, hframeworks]
    outcomes := by
      rw [houtcomes, houtcomes', Catalog.undocumented, List.map_map, List.forall₂_map_left_iff,
        List.forall₂_map_right_iff, List.forall₂_same]
      exact fun u hu => ⟨rfl, results_read_undocumented (hmalformed u hu) fun h =>
        h.1 h.2 u.name rfl⟩
    logged := fun _ => trivial
    consulted := fun _ => trivial
    dispatch := hwellBuilt.same_dispatch hwellBuilt' htypes.symm
      (hierarchy.findType_undocumented c names).symm }

/-- A session replies as the one over the catalog without the malformed sources, unless it is asked
strictly about a unit that lacks its source there. -/
theorem perform_eq_undocumented (hnames : (c.units.map MetadataUnit.name).Nodup)
    (hmalformed : ∀ u ∈ c.units, u.name ∈ names →
      ∃ reason, u.documentation.read = .ok (.malformed reason))
    (h : create c settings paths old = .ok (s, log))
    (h' : create (c.undocumented names) settings paths old' = .ok (s', log'))
    (history history' : List Question) {q : Question}
    (hq : settings.documentation.failOnMalformed = true →
      q.Spares fun unit => ∀ name ∈ unit, name ∉ names) :
    ((s.after history).perform q).result = ((s'.after history').perform q).result ∧
      ((s.after history).perform q).links = ((s'.after history').perform q).links := by
  have hs := create_sound hnames h
  have hs' := create_sound (Catalog.names_undocumented c names ▸ hnames) h'
  have hagrees := (agrees_undocumented hnames hmalformed h h').of_later hs hs'
    (later_after hs history) (later_after hs' history')
  exact hagrees.perform q (Question.spares_imp hq)

/-! ## Replies that are errors -/

/-- Whatever has been asked, a session knows what comes of the source of each unit. -/
theorem lookup_outcomes_after (hnames : (c.units.map MetadataUnit.name).Nodup)
    (h : create c settings paths old = .ok (s, log)) (history : List Question)
    {u : MetadataUnit} (hu : u ∈ c.units) :
    (s.after history).context.outcomes.lookup u.name = some u.documentation.read := by
  have hs := create_sound hnames h
  have houtcomes : (s.after history).context.outcomes = s.context.outcomes :=
    (later_after hs history).registry.outcomes_eq hs.faithful
  rw [houtcomes, outcomes_create hnames h]
  refine lookup_of_mem ?_ (List.mem_map.2 ⟨u, hu, rfl⟩)
  rw [List.map_map]
  exact hnames

theorem settings_after (hnames : (c.units.map MetadataUnit.name).Nodup)
    (h : create c settings paths old = .ok (s, log)) (history : List Question) :
    (s.after history).settings = settings := by
  have hsettings : s.settings = settings := by
    obtain ⟨hierarchy, -, h⟩ := bind_eq_ok.1 h
    cases h
    rfl
  rw [(later_after (create_sound hnames h) history).settings, hsettings]

/-- A strict question to the index of a malformed source is answered with its error. -/
theorem result_askIndex_of_malformed {unit reason : String}
    (hmalformed : s.context.outcomes.lookup unit = some (.ok (.malformed reason)))
    {q : Index.Question} (hq : q.isStrict = true) :
    (s.askIndex unit (q.put true)).result = .error (.sourceMalformed unit reason) := by
  rw [lookup_outcomes, Option.map_eq_some_iff] at hmalformed
  obtain ⟨i, hi, hsettle⟩ := hmalformed
  have hunit : i.unit = unit := by simpa using List.find?_some hi
  simp only [askIndex, hi, q.put_eq, Index.ask, hsettle, hunit]
  cases q with
  | get key => rfl
  | keys => rfl
  | size => rfl
  | find key => cases hq
  | contains key => cases hq
  | isIndexed => cases hq

/-- Strict questions about a symbol of a malformed source are answered with its error, once the
documentation key has been found. -/
theorem result_perform_of_malformed {unit reason : String} {x : Symbol}
    (hstrict : s.settings.documentation.failOnMalformed = true)
    (hmalformed : s.context.outcomes.lookup unit = some (.ok (.malformed reason)))
    (hunit : x.unit = some unit) (hx : ∀ p, x ≠ .parameter p) :
    (s.perform (.context (.entry x))).result =
        (x.documentationKey >>= fun _ => .error (.sourceMalformed unit reason)) ∧
      (s.perform (.context (.resolve x))).result =
        (x.documentationKey >>= fun _ => .error (.sourceMalformed unit reason)) :=
  ⟨Context.yields_entry_of_malformed hstrict hunit hx hmalformed _,
    Context.yields_resolve_of_malformed hstrict hunit hx hmalformed _⟩

/-! ## Both together -/

/-- Malformed sources are as good as none to all who do not ask strictly about their units, and
strict questions about them are answered with an error, whatever has been asked before. -/
theorem perform_undocumented (hnames : (c.units.map MetadataUnit.name).Nodup)
    (hmalformed : ∀ u ∈ c.units, u.name ∈ names →
      ∃ reason, u.documentation.read = .ok (.malformed reason))
    (h : create c settings paths old = .ok (s, log)) (old' : List Index) :
    (∃ s' log', create (c.undocumented names) settings paths old' = .ok (s', log') ∧
      ∀ history history' q,
        (settings.documentation.failOnMalformed = true →
          q.Spares fun unit => ∀ name ∈ unit, name ∉ names) →
        ((s.after history).perform q).result = ((s'.after history').perform q).result ∧
        ((s.after history).perform q).links = ((s'.after history').perform q).links) ∧
    (settings.documentation.failOnMalformed = true → ∀ u ∈ c.unitSymbols, u.name ∈ names →
      ∃ reason, u.decl.documentation.read = .ok (.malformed reason) ∧
        (∀ history q, q.isStrict = true →
          ((s.after history).perform (.index u.name q)).result =
            .error (.sourceMalformed u.name reason)) ∧
        (∀ history x, x.unit = some u.name → (∀ p, x ≠ .parameter p) →
          (∀ key, x.documentationKey = .ok key →
            ((s.after history).perform (.context (.entry x))).result =
              .error (.sourceMalformed u.name reason) ∧
            ((s.after history).perform (.context (.resolve x))).result =
              .error (.sourceMalformed u.name reason)) ∧
          ∀ e, x.documentationKey = .error e →
            ((s.after history).perform (.context (.entry x))).result = .error e ∧
            ((s.after history).perform (.context (.resolve x))).result = .error e) ∧
        ∀ x ∈ u.symbols, x.unit = some u.name ∧ (∀ p, x ≠ .parameter p) ∧
          ∃ key, x.documentationKey = .ok key) := by
  constructor
  · obtain ⟨s', log', h'⟩ := exists_create_undocumented h names old'
    exact ⟨s', log', h', fun history history' q hq =>
      perform_eq_undocumented hnames hmalformed h h' history history' hq⟩
  · intro hstrict u hu hname
    obtain ⟨unit, n, hn, rfl⟩ : ∃ unit n, (unit, n) ∈ c.units.zipIdx ∧ ⟨n, unit⟩ = u := by
      simpa [Catalog.unitSymbols] using hu
    have hunit : unit ∈ c.units := List.mem_of_getElem? (List.mem_zipIdx_iff_getElem?.1 hn)
    obtain ⟨reason, hread⟩ := hmalformed unit hunit hname
    have hlookup : ∀ history, (s.after history).context.outcomes.lookup unit.name =
        some (.ok (.malformed reason)) := by
      intro history
      rw [lookup_outcomes_after hnames h history hunit, hread]
    have hsettings : ∀ history,
        (s.after history).settings.documentation.failOnMalformed = true := by
      intro history
      rw [settings_after hnames h, hstrict]
    refine ⟨reason, hread, fun history q hq => ?_, fun history x hx hparameter => ?_,
      fun x hx => ?_⟩
    · rw [perform, hsettings]
      exact result_askIndex_of_malformed (hlookup history) hq
    · obtain ⟨hentry, hresolve⟩ := result_perform_of_malformed (hsettings history)
        (hlookup history) hx hparameter
      refine ⟨fun key hk => ?_, fun e hk => ?_⟩
      · rw [hk] at hentry hresolve
        exact ⟨hentry, hresolve⟩
      · rw [hk] at hentry hresolve
        exact ⟨hentry, hresolve⟩
    · obtain ⟨hxunit, hparameter⟩ := UnitSymbol.unit_of_mem_symbols hx
      obtain ⟨hierarchy, hb, -⟩ := bind_eq_ok.1 h
      refine ⟨hxunit, hparameter, Hierarchy.exists_documentationKey hb ?_⟩
      obtain ⟨t, ht, hx⟩ := List.mem_flatMap.1 hx
      exact List.mem_flatMap.2 ⟨t, List.mem_flatMap.2 ⟨_, hu, ht⟩, hx⟩

/-- A getter with a parameter of an array type that does not say what it is an array of. -/
def gateGetter : Method :=
  { name := "get_Door", parameters := [{ name := "side", type := { shape := .array } }] }

/-- The type `Gate` of the unit `Zoo`. -/
def gate : TypeSymbol :=
  let door : Member :=
    .property { name := "Door", type := .system "String", getter := some gateGetter }
  { address := { root := .declared 0 0 }, unit := "Zoo"
    decl := { ref := .named "Zoo" "Gate" [] none, members := [door] } }

/-- The getter of its property `Door`. -/
def gateDoor : MemberSymbol :=
  { address := ⟨.declared 0 0, [.member 0, .getter]⟩, owner := gate, decl := .method gateGetter }

/-- The source of the unit `Zoo` ends too early, and that of the unit `Attic` is not. -/
def gateCatalog : Catalog :=
  let entry : Xml.Node :=
    .element (.plain "member") [(.plain "name", "T:Attic.Box")] [.element (.plain "summary") [] []]
  { units := [
      { name := "Zoo", types := [gate.decl], documentation := .text "<doc>" },
      { name := "Attic"
        types := [{ ref := .named "Attic" "Box" [] none }]
        documentation := .element (.element (.plain "doc") [] [entry]) }] }

def strictSettings : Settings :=
  { documentation := { failOnMalformed := true }, render := Settings.usual.render }

theorem read_cut :
    (Source.text "<doc>").read = .ok (.malformed "no element found: line 1, column 5") := by rfl

theorem exists_create_gate : ∃ s log,
    create gateCatalog strictSettings (fun s => .ok s.path) [] = .ok (s, log) := by
  have hbuild : ∃ hierarchy, Hierarchy.build gateCatalog = .ok hierarchy := ⟨_, by cbv⟩
  obtain ⟨hierarchy, hb⟩ := hbuild
  exact ⟨_, _, bind_eq_ok.2 ⟨hierarchy, hb, rfl⟩⟩

theorem perform_undocumented_gate : ∃ s log s' log',
    create gateCatalog strictSettings (fun s => .ok s.path) [] = .ok (s, log) ∧
    create (gateCatalog.undocumented ["Zoo"]) strictSettings (fun s => .ok s.path) [] =
      .ok (s', log') ∧
    ((s.after [.index "Zoo" .keys]).perform (.unitPage "Attic")).result =
      (s'.perform (.unitPage "Attic")).result ∧
    ((s.after [.index "Zoo" .keys]).perform (.context (.resolve (.type gate)))).result =
      .error (.sourceMalformed "Zoo" "no element found: line 1, column 5") := by
  obtain ⟨s, log, hcreate⟩ := exists_create_gate
  have hmalformed : ∀ u ∈ gateCatalog.units, u.name ∈ ["Zoo"] →
      ∃ reason, u.documentation.read = .ok (.malformed reason) := by
    intro u hu hname
    rcases List.mem_cons.1 hu with rfl | hu
    · exact ⟨_, read_cut⟩
    · cases List.mem_singleton.1 hu
      exact absurd hname (by decide)
  obtain ⟨⟨s', log', hcreate', hsame⟩, herror⟩ :=
    perform_undocumented (by decide) hmalformed hcreate []
  refine ⟨s, log, s', log', hcreate, hcreate', ?_, ?_⟩
  · have hspares : (Question.unitPage "Attic").Spares fun unit =>
        ∀ name ∈ unit, name ∉ ["Zoo"] := by
      intro name hname
      cases hname
      decide
    exact (hsame [.index "Zoo" .keys] [] (.unitPage "Attic") fun _ => hspares).1
  · obtain ⟨reason, hread, -, hentry, -⟩ := herror rfl _ List.mem_cons_self (by decide)
    cases read_cut.symm.trans hread
    exact ((hentry [.index "Zoo" .keys] (.type gate) rfl (by simp)).1 "T:Zoo.Gate" (by cbv)).2

/-- Not every symbol of a unit with a malformed source is answered with the error of the source:
one without a documentation key gets the error of the key. -/
theorem resolve_unkeyed_getter : ∃ s log,
    create gateCatalog strictSettings (fun s => .ok s.path) [] = .ok (s, log) ∧
    (gateCatalog.units.map MetadataUnit.name).Nodup ∧
    gateCatalog.symbol? gateDoor.address = some (.member gateDoor) ∧
    (Symbol.member gateDoor).unit = some "Zoo" ∧
    s.context.outcomes.lookup "Zoo" =
      some (.ok (.malformed "no element found: line 1, column 5")) ∧
    strictSettings.documentation.failOnMalformed = true ∧
    ∀ unit reason, (s.perform (.context (.resolve (.member gateDoor)))).result ≠
      .error (.sourceMalformed unit reason) := by
  obtain ⟨s, log, hcreate⟩ := exists_create_gate
  have hnames : (gateCatalog.units.map MetadataUnit.name).Nodup := by decide
  have hlookup : s.context.outcomes.lookup "Zoo" =
      some (.ok (.malformed "no element found: line 1, column 5")) := by
    rw [outcomes_create hnames hcreate, ← read_cut]
    rfl
  have hsettings : s.settings = strictSettings := settings_after hnames hcreate []
  have hkey : (Symbol.member gateDoor).documentationKey =
      .error (.unsupportedShape (.ofText "array without element type")) := by rfl
  refine ⟨s, log, hcreate, hnames, by cbv, rfl, hlookup, rfl, fun unit reason hresult => ?_⟩
  obtain ⟨-, hresolve⟩ := result_perform_of_malformed (x := .member gateDoor)
    (by rw [hsettings]; rfl) hlookup rfl (by simp)
  rw [hkey] at hresolve
  cases hresolve.symm.trans hresult

end Session

end ApiDoc
