import ApiDoc.Proofs.History
import ApiDoc.Proofs.Reordering
import Mathlib.Logic.Equiv.Basic

/-!
# The order of units does not show

Two sessions over the same units in different orders mirror each other: each symbol that one knows
the other knows by the number that its unit has there, and both reply alike to what is asked about
it (`mirrors_of_perm`). Names of units, full names of types and keys of symbols have to be
distinct, or the order tells which of two is meant.
-/

namespace ApiDoc

variable {σ : Equiv.Perm Nat}

/-! ## Permutations of a list -/

/-- A permutation that keeps zero and moves what follows it. -/
def shiftPerm (σ : Equiv.Perm Nat) : Equiv.Perm Nat where
  toFun
    | 0 => 0
    | n + 1 => σ n + 1
  invFun
    | 0 => 0
    | n + 1 => σ.symm n + 1
  left_inv n := by cases n <;> simp
  right_inv n := by cases n <;> simp

/-- A permutation of a list gives its items new places. -/
theorem exists_perm_getElem? {α : Type} {l l' : List α} (h : l.Perm l') :
    ∃ σ : Equiv.Perm Nat, ∀ i, l'[σ i]? = l[i]? := by
  induction h with
  | nil => exact ⟨Equiv.refl Nat, fun _ => rfl⟩
  | cons x _ ih =>
    obtain ⟨σ, hσ⟩ := ih
    refine ⟨shiftPerm σ, fun i => ?_⟩
    cases i with
    | zero => rfl
    | succ i => exact hσ i
  | swap x y l =>
    refine ⟨Equiv.swap 0 1, fun i => ?_⟩
    match i with
    | 0 => rfl
    | 1 => rfl
    | i + 2 => rw [Equiv.swap_apply_of_ne_of_ne (by simp) (by simp)]; rfl
  | trans _ _ ih ih' =>
    obtain ⟨σ, hσ⟩ := ih
    obtain ⟨σ', hσ'⟩ := ih'
    exact ⟨σ.trans σ', fun i => (hσ' (σ i)).trans (hσ i)⟩

/-- A lookup does not see the order of a table in which no key comes twice. -/
theorem lookup_eq_of_perm {α : Type} {l l' : List (String × α)} (h : l.Perm l')
    (hkeys : (l.map Prod.fst).Nodup) (key : String) : l'.lookup key = l.lookup key := by
  have hlookup : l'.lookup key = (l.lookup key).map id := by
    refine lookup_eq_map_lookup (fun a b ha hb => ?_) fun b => ?_
    · exact (Prod.ext_iff.1 (List.inj_on_of_nodup_map hkeys ha hb rfl)).2
    · simp [h.mem_iff]
  rw [hlookup, Option.map_id, id]

/-! ## Mirrored sessions -/

/-- Two replies with the same result and the same links. -/
structure Reply.Alike {α : Type} (r r' : Reply α) : Prop where
  result : r.result = r'.result
  links : r.links = r'.links

theorem Reply.alike_iff {α : Type} {r r' : Reply α} :
    r.Alike r' ↔ r.result = r'.result ∧ r.links = r'.links :=
  ⟨fun h => ⟨h.result, h.links⟩, fun h => ⟨h.1, h.2⟩⟩

/-- The second session knows what the first one knows, with the units numbered anew, and gives the
replies of the first one. -/
structure Session.Mirrors (σ : Equiv.Perm Nat) (s s' : Session) : Prop where
  findType : ∀ ref,
    s'.context.findType ref = (s.context.findType ref).map (TypeSymbol.renumber σ)
  findSymbol : ∀ key,
    s'.context.findSymbol key = (s.context.findSymbol key).map (Symbol.renumber σ)
  overrideRoot : ∀ m,
    s'.context.overrideRoot (m.renumber σ) = (s.context.overrideRoot m).renumber σ
  allInterfaces : ∀ t, s'.context.allInterfaces (t.renumber σ) = s.context.allInterfaces t
  interfaceMethods : ∀ m, (s'.ask (·.interfaceMethods (m.renumber σ))).result =
    (s.ask (·.interfaceMethods m)).result.map (List.map (Placed.renumber σ))
  entry : ∀ x, (s.ask (·.entry x)).Alike (s'.ask (·.entry (x.renumber σ)))
  resolve : ∀ x, (s.ask (·.resolve x)).Alike (s'.ask (·.resolve (x.renumber σ)))
  summary : ∀ x budget,
    (s.ask (·.summary x budget)).Alike (s'.ask (·.summary (x.renumber σ) budget))
  index : ∀ unit q, (s.perform (.index unit q)).Alike (s'.perform (.index unit q))
  typePage : ∀ t, (s.ask (·.typePage t)).Alike (s'.ask (·.typePage (t.renumber σ)))
  memberPage : ∀ symbols, (s.ask (·.memberPage symbols)).Alike
    (s'.ask (·.memberPage (symbols.map (Symbol.renumber σ))))
  unitPage : ∀ name, (s.perform (.unitPage name)).Alike (s'.perform (.unitPage name))
  unitPages : ∀ name, (s.perform (.unitPages name)).Alike (s'.perform (.unitPages name))

namespace Session

variable {c c' : Catalog} {settings : Settings} {paths paths' : Symbol → Except Error String}
  {old old' : List Index} {s s' : Session} {log log' : List Log.Record}

/-! ## Sessions over reordered units -/

theorem unitSymbols_map_name (c : Catalog) :
    c.unitSymbols.map UnitSymbol.name = c.units.map MetadataUnit.name := by
  have hunits : c.unitSymbols.map UnitSymbol.decl = c.units := by
    rw [Catalog.unitSymbols, List.map_map]
    exact List.zipIdx_map_fst 0 c.units
  rw [← congrArg (List.map MetadataUnit.name) hunits, List.map_map]
  rfl

/-- A unit is found by its name in either order. -/
theorem unit?_of_reordered (hr : Catalog.Reordered σ c c')
    (hnames : (c.units.map MetadataUnit.name).Nodup) (name : String) :
    c'.unit? name = (c.unit? name).map (UnitSymbol.renumber σ) := by
  rw [← unitSymbols_map_name] at hnames
  refine find?_eq_map_find? (fun u hu v hv h h' => ?_) hr.mem_unitSymbols fun u => rfl
  exact List.inj_on_of_nodup_map hnames hu hv
    ((of_decide_eq_true h).trans (of_decide_eq_true h').symm)

/-- What a session that has been created and asked holds of its making. -/
structure Made (c : Catalog) (settings : Settings) (paths : Symbol → Except Error String)
    (s : Session) : Prop where
  wellBuilt : s.context.WellBuilt
  catalog : s.catalog = c
  settings : s.settings = settings
  paths : s.paths = paths
  outcomes : s.context.outcomes = c.units.map fun u => (u.name, u.documentation.read)
  framework : ∀ unit, s.frameworks.lookup unit =
    (c.units.map fun u => (u.name, u.framework)).reverse.lookup unit

theorem made_after (hnames : (c.units.map MetadataUnit.name).Nodup)
    (h : create c settings paths old = .ok (s, log)) (history : List Question) :
    Made c settings paths (s.after history) := by
  have hs := create_sound hnames h
  have hlater := later_after hs history
  have houtcomes := outcomes_create hnames h
  obtain ⟨hierarchy, hb, h⟩ := bind_eq_ok.1 h
  cases h
  exact {
    wellBuilt := (hlater.sound hs).wellBuilt
    catalog := hlater.catalog
    settings := hlater.settings
    paths := hlater.paths
    outcomes := (hlater.registry.outcomes_eq hs.faithful).trans houtcomes
    framework := hlater.framework }

namespace Made

variable (hs : Made c settings paths s) (hs' : Made c' settings paths' s')
  (hperm : c.units.Perm c'.units) (hunits : (c.units.map MetadataUnit.name).Nodup)

include hs hs' hperm hunits

theorem lookup_frameworks (unit : String) :
    s'.context.frameworks.lookup unit = s.context.frameworks.lookup unit := by
  have hkeys : ((c.units.map fun u => (u.name, u.framework)).reverse.map Prod.fst).Nodup := by
    rw [List.map_reverse, List.map_map]
    exact List.nodup_reverse.2 hunits
  refine ((hs'.framework unit).trans ?_).trans (hs.framework unit).symm
  refine lookup_eq_of_perm ?_ hkeys unit
  exact (List.reverse_perm _).trans ((hperm.map _).trans (List.reverse_perm _).symm)

variable (hr : Catalog.Reordered σ c c')
  (hnames : (c.types.map fun t => t.decl.ref.fullName).Nodup)
  (hkeys : ∀ x ∈ c.symbols, ∀ y ∈ c.symbols, ∀ key, x.HasKey key → y.HasKey key → x = y)
  (hpaths : ∀ x, paths' (x.renumber σ) = paths x)

include hr hnames hkeys hpaths

theorem corresponds : Context.Corresponds σ (fun _ => True) (fun _ => True) s.context s'.context := by
  have hcatalog : s.context.catalog = c := hs.catalog
  have hcatalog' : s'.context.catalog = c' := hs'.catalog
  refine Context.corresponds_of_reordered (by rw [hcatalog, hcatalog']; exact hr) hs.wellBuilt
    hs'.wellBuilt (by rw [hcatalog]; exact hnames) (by rw [hcatalog]; exact hkeys)
    (hs'.settings.trans hs.settings.symm) (fun x => ?_) (fun unit => ?_) _
  · have hpath : s.context.paths = paths := hs.paths
    have hpath' : s'.context.paths = paths' := hs'.paths
    rw [hpath, hpath', hpaths]
  · rw [hs.outcomes, hs'.outcomes]
    refine lookup_eq_of_perm (hperm.map _) ?_ unit
    rw [List.map_map]
    exact hunits

/-- Sessions over the same units in different orders mirror each other. -/
theorem mirrors : Mirrors σ s s' := by
  have hc := corresponds hs hs' hperm hunits hr hnames hkeys hpaths
  have hframework := lookup_frameworks hs hs' hperm hunits
  have halike : ∀ {α : Type} {question question' : Context → Answer α},
      Answer.Same (fun _ => True) (question s.context) (question' s'.context) →
      (s.ask question).Alike (s'.ask question') :=
    fun h => Reply.alike_iff.2 (ask_eq h)
  have hunit : ∀ name, Option.Rel (fun u u' => u' = u.renumber σ) (s.catalog.unit? name)
      (s'.catalog.unit? name) := by
    intro name
    rw [hs.catalog, hs'.catalog, unit?_of_reordered hr hunits]
    cases c.unit? name with
    | none => exact .none
    | some u => exact .some rfl
  exact {
    findType := hc.findType
    findSymbol := hc.findSymbol
    overrideRoot := hc.overrideRoot
    allInterfaces := hc.allInterfaces
    interfaceMethods := fun m => by
      have hresult := (hc.interfaceMethods m _ _ (parallel_start _)).1
      change ((s'.context.interfaceMethods (m.renumber σ)).result { links := .empty }).1 =
        ((s.context.interfaceMethods m).result { links := .empty }).1.map _
      generalize ((s.context.interfaceMethods m).result { links := .empty }).1 = r,
        ((s'.context.interfaceMethods (m.renumber σ)).result { links := .empty }).1 = r' at hresult ⊢
      cases hresult with
      | ok h => exact congrArg Except.ok h
      | error e => rfl
    entry := fun x => halike (hc.entry trivial)
    resolve := fun x => halike (hc.resolve trivial)
    summary := fun x budget => halike (hc.summary trivial budget)
    index := fun unit q => ⟨askIndex_eq hc unit q fun _ => trivial,
      (links_askIndex _ _ _).trans (links_askIndex _ _ _).symm⟩
    typePage := fun t => halike (hc.typePage hframework trivial)
    memberPage := fun symbols => halike (hc.memberPage hframework fun _ _ => trivial)
    unitPage := fun name => by
      refine Reply.alike_iff.2 (onUnit_eq (fun _ => True) (hunit name) fun u _ _ hu => ?_)
      subst hu
      exact (hc.withFramework u.decl _).unitPage trivial u.decl.documentation
    unitPages := fun name => by
      refine Reply.alike_iff.2 (onUnit_eq (fun _ => True) (hunit name) fun u _ _ hu => ?_)
      subst hu
      exact (hc.withFramework u.decl _).unitPages
        (Context.Corresponds.lookup_withFramework hframework u u.decl.documentation) trivial
        u.decl.documentation }

end Made

/-- The order of the units does not show: a session over the same units in another order can be
created as well, and whatever is asked of the two, they mirror each other. -/
theorem mirrors_of_perm (hperm : c.units.Perm c'.units) (hdetached : c'.detached = c.detached)
    (hunits : (c.units.map MetadataUnit.name).Nodup)
    (hnames : (c.types.map fun t => t.decl.ref.fullName).Nodup)
    (hkeys : ∀ x ∈ c.symbols, ∀ y ∈ c.symbols, ∀ key, x.HasKey key → y.HasKey key → x = y)
    (h : create c settings paths old = .ok (s, log)) :
    ∃ σ : Equiv.Perm Nat, (∀ i, c'.units[σ i]? = c.units[i]?) ∧
      ∀ paths' old', (∀ x, paths' (x.renumber σ) = paths x) →
        ∃ s' log', create c' settings paths' old' = .ok (s', log') ∧
          ∀ history history', Mirrors σ (s.after history) (s'.after history') := by
  obtain ⟨σ, hσ⟩ := exists_perm_getElem? hperm
  refine ⟨σ, hσ, fun paths' old' hpaths => ?_⟩
  have hr : Catalog.Reordered σ c c' := ⟨hσ, hdetached⟩
  obtain ⟨hierarchy, hb, -⟩ := bind_eq_ok.1 h
  obtain ⟨hierarchy', hb'⟩ := hr.exists_build hnames hb
  have h' : create c' settings paths' old' = .ok _ := bind_eq_ok.2 ⟨hierarchy', hb', rfl⟩
  have hunits' : (c'.units.map MetadataUnit.name).Nodup := (hperm.map _).nodup_iff.1 hunits
  exact ⟨_, _, h', fun history history' =>
    (made_after hunits h history).mirrors (made_after hunits' h' history') hperm hunits hr hnames
      hkeys hpaths⟩

/-- The units of the diary, the last one first. -/
def attic : Catalog := { diaryCatalog with units := diaryCatalog.units.reverse }

theorem eq_of_hasKey_diary : ∀ x ∈ diaryCatalog.symbols, ∀ y ∈ diaryCatalog.symbols, ∀ key,
    x.HasKey key → y.HasKey key → x = y := by
  obtain ⟨walk, box, hsymbols, hwalk, hbox⟩ : ∃ walk box : TypeSymbol,
      diaryCatalog.symbols = [.type walk, .type box] ∧
        (Symbol.type walk).identifier = .ok "T:Zoo.Walk" ∧
        (Symbol.type box).identifier = .ok "T:Attic.Box" := ⟨_, _, rfl, by cbv, by cbv⟩
  have hkey : ∀ {t : TypeSymbol} {id key : String}, (Symbol.type t).identifier = .ok id →
      (Symbol.type t).HasKey key → key = id := by
    rintro t id key hid (h | h) <;> exact Except.ok.inj (h.symm.trans hid)
  intro x hx y hy key hkx hky
  rw [hsymbols] at hx hy
  simp only [List.mem_cons, List.not_mem_nil, or_false] at hx hy
  rcases hx with rfl | rfl <;> rcases hy with rfl | rfl
  · rfl
  · exact absurd ((hkey hwalk hkx).symm.trans (hkey hbox hky)) (by decide)
  · exact absurd ((hkey hbox hkx).symm.trans (hkey hwalk hky)) (by decide)
  · rfl

/-- The pages of a unit and its symbol, after the other one has been asked in another order of the
two. -/
theorem mirrors_of_perm_attic : ∃ s log s' log' σ,
    create diaryCatalog .usual (fun x => .ok x.path) [] = .ok (s, log) ∧
    create attic .usual (fun x => .ok x.path) [] = .ok (s', log') ∧
    (s.perform (.unitPages "Zoo")).result =
      ((s'.after [.unitPage "Attic"]).perform (.unitPages "Zoo")).result ∧
    s'.context.findSymbol "T:Zoo.Walk" =
      (s.context.findSymbol "T:Zoo.Walk").map (Symbol.renumber σ) := by
  obtain ⟨hierarchy, hb⟩ : ∃ hierarchy, Hierarchy.build diaryCatalog = .ok hierarchy := ⟨_, by cbv⟩
  have hcreate : create diaryCatalog .usual (fun x => .ok x.path) [] = .ok _ :=
    bind_eq_ok.2 ⟨hierarchy, hb, rfl⟩
  have hperm : diaryCatalog.units.Perm attic.units := (List.reverse_perm _).symm
  obtain ⟨σ, -, hall⟩ :=
    mirrors_of_perm hperm rfl (by decide) (by decide +kernel) eq_of_hasKey_diary hcreate
  obtain ⟨s', log', hcreate', hmirrors⟩ :=
    hall (fun x => .ok x.path) [] fun x => congrArg Except.ok x.renumber_path
  exact ⟨_, _, s', log', σ, hcreate, hcreate',
    ((hmirrors [] [.unitPage "Attic"]).unitPages "Zoo").result,
    (hmirrors [] []).findSymbol "T:Zoo.Walk"⟩

end Session

end ApiDoc
