import ApiDoc.Proofs.MemberGroups
import ApiDoc.Proofs.PageName
import Mathlib.Data.List.Pairwise

/-!
# Distinct pages lie at distinct paths

The path of a page of a type or a member is written from segments (`TypeSymbol.segments`), and where
names are identifiers the segments tell the type. Then the pages of a unit lie at distinct paths,
unless a type outside all namespaces has a page for a member and there is a namespace of the name of
the type with a type of the name of the member (`nodup_pagePaths_iff`).
-/

namespace ApiDoc

open Document (Page)
open Text (IsName IsDotted IsClean bracketed)

/-! ## Paths of types and members -/

/-- Where a type is: its unit, and its namespace if it has one. -/
def TypeSymbol.places (t : TypeSymbol) : List String :=
  t.unit.getD "" :: if t.decl.ref.space.isEmpty then [] else [t.decl.ref.space]

/-- The segments of the path of a type: where it is, and its name. -/
def TypeSymbol.segments (t : TypeSymbol) : List (List Char) :=
  t.places.map String.toList ++ [t.decl.ref.pageName]

/-- The name of a type in its path, as it is before brackets are replaced. -/
theorem TypeSymbol.flatMap_bracketed_name (t : TypeSymbol) :
    (Text.replaceChar '.' '+' t.displayName).toList.flatMap bracketed = t.decl.ref.pageName := by
  rw [Text.replaceChar, String.toList_ofList, List.flatMap_map]
  rfl

/-- A definition in a unit and a namespace whose names have dots between identifiers. -/
structure TypeSymbol.IsNamed (t : TypeSymbol) : Prop where
  unit : IsDotted (t.unit.getD "")
  unit_ne : t.unit.getD "" ≠ ""
  space : IsDotted t.decl.ref.space
  definition : t.decl.ref.IsDefinition

namespace TypeSymbol.IsNamed

variable {t t' : TypeSymbol}

theorem isClean_places (h : t.IsNamed) : ∀ s ∈ t.places, IsClean s.toList := by
  intro s hs
  rcases List.mem_cons.1 hs with rfl | hs
  · exact h.unit.isClean fun hnil => h.unit_ne (String.toList_eq_nil_iff.1 hnil)
  · split at hs
    · cases hs
    · next hne =>
      cases List.mem_singleton.1 hs
      exact h.space.isClean fun hnil => hne (by rw [String.toList_eq_nil_iff.1 hnil]; rfl)

theorem isClean_segments (h : t.IsNamed) : ∀ s ∈ t.segments, IsClean s := by
  intro s hs
  rcases List.mem_append.1 hs with hs | hs
  · obtain ⟨place, hplace, rfl⟩ := List.mem_map.1 hs
    exact h.isClean_places place hplace
  · exact List.mem_singleton.1 hs ▸ h.definition.isClean_pageName

theorem replaceChar_ne_nil (h : t.IsNamed) :
    (Text.replaceChar '.' '+' t.displayName).toList ≠ [] := by
  intro hnil
  refine h.definition.pageName_ne_nil ?_
  rw [← t.flatMap_bracketed_name, hnil]
  rfl

theorem notMem_replaceChar (h : t.IsNamed) :
    '\\' ∉ (Text.replaceChar '.' '+' t.displayName).toList := by
  rw [Text.replaceChar, String.toList_ofList, List.mem_map]
  rintro ⟨c, hc, heq⟩
  split at heq
  · cases heq
  · exact h.definition.not_mem_backslash (heq ▸ hc)

/-- The path of a type is written from its segments. -/
theorem toList_path (h : t.IsNamed) : t.path.toList = ['/'].intercalate t.segments := by
  let parts := t.places.map String.toList ++ [(Text.replaceChar '.' '+' t.displayName).toList]
  have hkept : ∀ s ∈ t.places, (List.flatMap bracketed ∘ String.toList) s = s.toList :=
    fun s hs => (h.isClean_places s hs).flatMap_bracketed
  have hsegments : parts.map (List.flatMap bracketed) = t.segments := by
    rw [List.map_append, List.map_map, List.map_singleton, flatMap_bracketed_name,
      List.map_congr_left hkept, segments]
  have hwritten : (String.intercalate "/" ([t.unit.getD "", t.decl.ref.space,
      Text.replaceChar '.' '+' t.displayName].filter fun part => !part.isEmpty)).toList =
      ['/'].intercalate parts := by
    have hunit : (t.unit.getD "").isEmpty = false :=
      Bool.eq_false_iff.2 fun hempty => h.unit_ne (String.isEmpty_iff.1 hempty)
    have hname : (Text.replaceChar '.' '+' t.displayName).isEmpty = false :=
      Bool.eq_false_iff.2 fun hempty =>
        h.replaceChar_ne_nil (by rw [String.isEmpty_iff.1 hempty]; rfl)
    rw [String.toList_intercalate]
    cases hspace : t.decl.ref.space.isEmpty <;> simp [hunit, hname, hspace, parts, places]
  rw [TypeSymbol.path, joinPath, ← hsegments]
  refine Text.toList_sanitizePath hwritten ?_ ?_ <;> intro part hpart
  · rcases List.mem_append.1 hpart with hpart | hpart
    · obtain ⟨s, hs, rfl⟩ := List.mem_map.1 hpart
      exact (h.isClean_places s hs).backslash_notMem
    · exact List.mem_singleton.1 hpart ▸ h.notMem_replaceChar
  · exact h.isClean_segments _ (hsegments ▸ List.mem_map_of_mem hpart)

end TypeSymbol.IsNamed

/-- What the path of a member adds to that of its type. -/
def MemberSymbol.pageName (m : MemberSymbol) : String := beforeAngle m.displayName

namespace MemberSymbol

variable {m : MemberSymbol} {t : TypeSymbol} {settings : RenderSettings}

theorem beforeAngle_append {name : String} (h : IsName name) (s : String)
    (hs : ∀ c ∈ s.toList.head?, c = '<') : beforeAngle (name ++ s) = name := by
  have hname : ∀ c ∈ name.toList, decide (c ≠ '<') = true := fun c hc =>
    decide_eq_true (Text.ne_of_isNameChar (h.chars c hc) (by decide))
  rw [beforeAngle, String.toList_append, List.takeWhile_append_of_pos hname]
  cases hl : s.toList with
  | nil => simp
  | cons c cs =>
    obtain rfl := hs c (by rw [hl]; rfl)
    simp

/-- A listed member whose name is an identifier lies at an identifier. -/
theorem isName_pageName (hlisted : m.decl.isListed settings = true) (hname : IsName m.decl.name) :
    IsName m.pageName := by
  have hself : beforeAngle m.decl.name = m.decl.name := by
    simpa using beforeAngle_append hname "" (by simp)
  have hplain : IsName (beforeAngle m.decl.name) := hself.symm ▸ hname
  rw [pageName, displayName]
  cases hdecl : m.decl with
  | method d =>
    have hname : IsName d.name := by
      rw [hdecl] at hname
      exact hname
    have hstrip : Text.stripArity d.name = d.name := by
      simpa [arityMarker] using stripArity_append_arityMarker hname 0
    simp only [Method.displayName]
    split
    · rw [hdecl] at hplain
      exact hplain
    · rw [hstrip, String.append_assoc, String.append_assoc, beforeAngle_append hname]
      · exact hname
      · simp
  | constructor c => simp [hdecl, Member.isListed, Member.kind?] at hlisted
  | property p =>
    simp only
    split
    · decide
    · rw [hdecl] at hplain
      exact hplain
  | field f | event f | unclassified f | unclassifiedCallable f =>
    rw [hdecl] at hplain
    exact hplain

theorem isClean_segments (h : t.IsNamed) (hm : IsName m.pageName) :
    ∀ s ∈ t.segments ++ [m.pageName.toList], IsClean s := by
  intro s hs
  rcases List.mem_append.1 hs with hs | hs
  · exact h.isClean_segments s hs
  · exact List.mem_singleton.1 hs ▸ hm.isDotted.isClean hm.ne_nil

/-- The path of a member is written from the segments of its type and its name. -/
theorem toList_path (h : t.IsNamed) (howner : m.owner = some t) (hm : IsName m.pageName) :
    m.path.toList = ['/'].intercalate (t.segments ++ [m.pageName.toList]) := by
  have hclean := isClean_segments h hm
  have hne : t.segments ≠ [] := by simp [TypeSymbol.segments]
  have hwritten : (String.intercalate "/"
      ([t.path, m.pageName].filter fun part => !part.isEmpty)).toList =
      ['/'].intercalate (t.segments ++ [m.pageName.toList]) := by
    have hpath : t.path.isEmpty = false := by
      have hplaces : t.places.map String.toList ≠ [] := by simp [TypeSymbol.places]
      refine Bool.eq_false_iff.2 fun hempty => ?_
      have hpath := h.toList_path
      rw [TypeSymbol.segments, Text.intercalate_append_singleton hplaces,
        String.isEmpty_iff.1 hempty] at hpath
      simp at hpath
    have hname : m.pageName.isEmpty = false :=
      Bool.eq_false_iff.2 fun hempty => hm.ne_nil (by rw [String.isEmpty_iff.1 hempty]; rfl)
    rw [Text.intercalate_append_singleton hne, ← h.toList_path, String.toList_intercalate]
    simp [hpath, hname, List.intercalate]
  have hpath : m.path = joinPath [t.path, m.pageName] := by
    rw [path, howner]
    rfl
  have hkept : (t.segments ++ [m.pageName.toList]).map (List.flatMap bracketed) =
      t.segments ++ [m.pageName.toList] := by
    rw [List.map_congr_left fun s hs => (hclean s hs).flatMap_bracketed, List.map_id']
  rw [hpath, joinPath, Text.toList_sanitizePath hwritten
    (fun s hs => (hclean s hs).backslash_notMem), hkept]
  intro s hs
  rw [(hclean s hs).flatMap_bracketed]
  exact hclean s hs

end MemberSymbol

/-! ## Segments tell types -/

namespace TypeSymbol

variable {t t' : TypeSymbol}

theorem places_cases (t : TypeSymbol) :
    (t.decl.ref.space = "" ∧ t.places = [t.unit.getD ""]) ∨
      (t.decl.ref.space ≠ "" ∧ t.places = [t.unit.getD "", t.decl.ref.space]) := by
  by_cases hspace : t.decl.ref.space = ""
  · exact .inl ⟨hspace, by rw [places, hspace]; rfl⟩
  · exact .inr ⟨hspace, by simp [places, hspace]⟩

theorem IsNamed.fullName_eq (h : t.IsNamed) (h' : t'.IsNamed) (heq : t.segments = t'.segments) :
    t.decl.ref.fullName = t'.decl.ref.fullName := by
  rw [segments, segments, List.append_singleton_inj] at heq
  obtain ⟨hplaces, hname⟩ := heq
  have hplaces : t.places = t'.places :=
    List.map_injective_iff.2 (fun _ _ => String.toList_inj.1) hplaces
  refine h.definition.fullName_eq h'.definition ?_ hname
  rcases t.places_cases with ⟨hspace, ht⟩ | ⟨hspace, ht⟩ <;>
    rcases t'.places_cases with ⟨hspace', ht'⟩ | ⟨hspace', ht'⟩ <;>
    simp_all

/-- The path of a member can only be that of a type in a namespace that goes by the name of the
declaring type. -/
theorem segments_eq_append_singleton {name : List Char}
    (heq : t.segments = t'.segments ++ [name]) : t'.decl.ref.space = "" ∧
      t'.decl.ref.pageName = t.decl.ref.space.toList ∧ name = t.decl.ref.pageName := by
  rw [segments, segments] at heq
  rcases t.places_cases with ⟨hspace, ht⟩ | ⟨hspace, ht⟩ <;>
    rcases t'.places_cases with ⟨hspace', ht'⟩ | ⟨hspace', ht'⟩ <;>
    rw [ht, ht'] at heq <;> simp at heq
  exact ⟨hspace', heq.2.1.symm, heq.2.2.symm⟩

end TypeSymbol

/-! ## Paths of the pages of a unit -/

instance (t : TypeSymbol) : Decidable t.HasMemberPages := inferInstanceAs (Decidable (_ ∧ _))

namespace Context

variable {ctx : Context} {u : UnitSymbol} {t : TypeSymbol} {path : String}

/-- The paths of the pages of the members of a type. -/
def memberPaths (ctx : Context) (t : TypeSymbol) : List String :=
  match ctx.memberGroups t with
  | .ok groups => if t.HasMemberPages then groups.map Prod.fst else []
  | .error _ => []

/-- The paths of the pages of a unit. -/
def pagePaths (ctx : Context) (u : UnitSymbol) : List String :=
  unitPath u.name :: u.visibleTypes.flatMap fun t => t.path :: ctx.memberPaths t

theorem nodup_memberPaths (ctx : Context) (t : TypeSymbol) : (ctx.memberPaths t).Nodup := by
  unfold memberPaths
  split
  next groups hgroups =>
    split
    · exact (groups_of_memberGroups hgroups).distinct
    · exact List.nodup_nil
  next => exact List.nodup_nil

theorem mem_memberPaths (hpaths : ctx.paths = fun s => .ok s.path) :
    path ∈ ctx.memberPaths t ↔ t.HasMemberPages ∧
      ∃ m ∈ t.members, m.decl.isListed ctx.settings.render = true ∧ m.path = path := by
  obtain ⟨groups, hgroups⟩ : ∃ groups, ctx.memberGroups t = .ok groups := by
    cases hgroups : ctx.memberGroups t with
    | ok groups => exact ⟨groups, rfl⟩
    | error e =>
      obtain ⟨m, -, hm⟩ := memberGroups_eq_error hgroups
      rw [hpaths] at hm
      cases hm
  have hfacts := groups_of_memberGroups hgroups
  have hpath : ∀ g ∈ groups, ∀ m ∈ g.2, m.path = g.1 := by
    intro g hg m hm
    have heq := hfacts.path g hg m hm
    rw [hpaths] at heq
    exact Except.ok.inj heq
  simp only [memberPaths, hgroups]
  constructor
  · intro hmem
    split at hmem
    · next hpages =>
      obtain ⟨g, hg, rfl⟩ := List.mem_map.1 hmem
      obtain ⟨m, hm⟩ := List.exists_mem_of_ne_nil _ (hfacts.nonempty g hg)
      have hlisted := hfacts.perm.mem_iff.1 (List.mem_flatMap.2 ⟨g, hg, hm⟩)
      exact ⟨hpages, m, hfacts.declared g hg m hm, (List.mem_filter.1 hlisted).2, hpath g hg m hm⟩
    · cases hmem
  · rintro ⟨hpages, m, hm, hlisted, rfl⟩
    obtain ⟨g, hg, hmem⟩ := List.mem_flatMap.1
      (hfacts.perm.mem_iff.2 (List.mem_filter.2 ⟨hm, hlisted⟩))
    rw [if_pos hpages, hpath g hg m hmem]
    exact List.mem_map_of_mem hg

theorem map_fst_of_groupPages {groups : List (String × List MemberSymbol)}
    {pages : List (String × Page)} (h : List.Forall₂ (ctx.GroupPage t) groups pages) :
    pages.map Prod.fst = groups.map Prod.fst := by
  induction h with
  | nil => rfl
  | cons hpage _ ih => rw [List.map_cons, List.map_cons, hpage.1, ih]

theorem PagesOf.map_fst {pages : List (String × Page)} (hpaths : ctx.paths = fun s => .ok s.path)
    (h : ctx.PagesOf t pages) : pages.map Prod.fst = t.path :: ctx.memberPaths t := by
  obtain ⟨path, page, members, rfl, hpath, -, hgroups, hnone⟩ := h
  rw [hpaths] at hpath
  obtain rfl : t.path = path := Except.ok.inj hpath
  rw [List.map_cons]
  congr 1
  by_cases hpages : t.HasMemberPages
  · obtain ⟨groups, heq, hall⟩ := hgroups hpages
    simp only [memberPaths, heq, if_pos hpages]
    exact map_fst_of_groupPages hall
  · rw [hnone hpages, memberPaths]
    split <;> simp [hpages]

/-- The pages of a unit lie at its paths. -/
theorem PagesOfUnit.map_fst {pages : List (String × Page)}
    (hpaths : ctx.paths = fun s => .ok s.path) (h : ctx.PagesOfUnit u pages) :
    pages.map Prod.fst = ctx.pagePaths u := by
  obtain ⟨contents, typePages, rfl, -, htypes⟩ := h
  rw [List.map_cons, pagePaths, List.map_flatten]
  congr 1
  generalize u.visibleTypes = types at htypes
  induction htypes with
  | nil => rfl
  | cons hpages _ ih =>
    rw [List.map_cons, List.flatten_cons, List.flatMap_cons, ih, hpages.map_fst hpaths]

end Context

/-! ## Distinct paths -/

/-- The names of a unit, of its visible types and of the members with pages are identifiers. Those
of units and namespaces may have dots. -/
structure UnitSymbol.IsNamed (u : UnitSymbol) (settings : RenderSettings) : Prop where
  unit : IsDotted u.name
  unit_ne : u.name ≠ ""
  spaces : ∀ t ∈ u.visibleTypes, IsDotted t.decl.ref.space
  definitions : ∀ t ∈ u.visibleTypes, t.decl.ref.IsDefinition
  members : ∀ t ∈ u.visibleTypes, ∀ m ∈ t.members, m.decl.isListed settings = true →
    IsName m.decl.name

/-- A type outside all namespaces has a page for a member, and there is a namespace of the name of
the type that has a type of the name of the member. -/
def UnitSymbol.Clashes (u : UnitSymbol) (settings : RenderSettings) : Prop :=
  ∃ t ∈ u.visibleTypes, ∃ t' ∈ u.visibleTypes, ∃ m ∈ t.members,
    t.HasMemberPages ∧ m.decl.isListed settings = true ∧ t.decl.ref.space = "" ∧
    IsName t.displayName ∧ t.displayName = t'.decl.ref.space ∧ m.pageName = t'.displayName

namespace UnitSymbol.IsNamed

variable {u : UnitSymbol} {settings : RenderSettings} {t t' : TypeSymbol} {m : MemberSymbol}

theorem type (h : u.IsNamed settings) (ht : t ∈ u.visibleTypes) : t.IsNamed := by
  have hunit : t.unit.getD "" = u.name := by rw [u.unit_of_mem_visibleTypes ht]; rfl
  exact ⟨hunit ▸ h.unit, hunit ▸ h.unit_ne, h.spaces t ht, h.definitions t ht⟩

theorem member (h : u.IsNamed settings) (ht : t ∈ u.visibleTypes) (hm : m ∈ t.members)
    (hlisted : m.decl.isListed settings = true) : IsName m.pageName :=
  MemberSymbol.isName_pageName hlisted (h.members t ht m hm hlisted)

theorem isClean_unit (h : u.IsNamed settings) : IsClean u.name.toList :=
  h.unit.isClean fun hnil => h.unit_ne (String.toList_eq_nil_iff.1 hnil)

theorem toList_unitPath (h : u.IsNamed settings) :
    (unitPath u.name).toList = ['/'].intercalate [u.name.toList] := by
  have hclean := h.isClean_unit
  have hwritten : (String.intercalate "/" ([u.name].filter fun part => !part.isEmpty)).toList =
      ['/'].intercalate [u.name.toList] := by
    have hunit : u.name.isEmpty = false :=
      Bool.eq_false_iff.2 fun hempty => h.unit_ne (String.isEmpty_iff.1 hempty)
    rw [String.toList_intercalate]
    simp [hunit]
  rw [unitPath, joinPath, Text.toList_sanitizePath hwritten]
  · rw [List.map_singleton, hclean.flatMap_bracketed]
  · simpa using hclean.backslash_notMem
  · simpa [hclean.flatMap_bracketed] using hclean

/-- A member lies at the path of a type only if its own type goes by the name of the namespace of
that type. -/
theorem clashes (h : u.IsNamed settings) (ht : t ∈ u.visibleTypes) (ht' : t' ∈ u.visibleTypes)
    (hpages : t'.HasMemberPages) (hm : m ∈ t'.members) (hlisted : m.decl.isListed settings = true)
    (heq : t.segments = t'.segments ++ [m.pageName.toList]) : u.Clashes settings := by
  obtain ⟨hspace, howner, hmember⟩ := TypeSymbol.segments_eq_append_singleton heq
  have hdefinition := h.definitions t ht
  have hdefinition' := h.definitions t' ht'
  have hplain : ∀ c ∈ t.decl.ref.pageName, Text.isNameChar c = true :=
    hmember ▸ (h.member ht' hm hlisted).chars
  have hplain' : ∀ c ∈ t'.decl.ref.pageName, Text.isNameChar c = true := by
    intro c hc
    refine ((h.spaces t ht).chars c (howner ▸ hc)).resolve_right ?_
    rintro rfl
    exact hdefinition'.dot_notMem_pageName hc
  have hname := hdefinition.toList_displayName hplain
  have hname' := hdefinition'.toList_displayName hplain'
  refine ⟨t', ht', t, ht, m, hm, hpages, hlisted, hspace, ⟨?_, ?_⟩, ?_, ?_⟩
  · exact hname' ▸ hdefinition'.pageName_ne_nil
  · exact hname' ▸ hplain'
  · exact String.toList_inj.1 (hname'.trans howner)
  · exact String.toList_inj.1 (hmember.trans hname.symm)

end UnitSymbol.IsNamed

/-- The pages of a type and its members, by their paths and the segments of these. -/
inductive TypeSymbol.PageAt (t : TypeSymbol) (settings : RenderSettings) :
    String → List (List Char) → Prop
  | type : PageAt t settings t.path t.segments
  | member {m : MemberSymbol} : t.HasMemberPages → m ∈ t.members →
    m.decl.isListed settings = true →
    PageAt t settings m.path (t.segments ++ [m.pageName.toList])

namespace TypeSymbol.PageAt

variable {u : UnitSymbol} {settings : RenderSettings} {t t' : TypeSymbol} {path path' : String}
  {segments segments' : List (List Char)}

theorem toList_path (h : t.PageAt settings path segments) (hu : u.IsNamed settings)
    (ht : t ∈ u.visibleTypes) : path.toList = ['/'].intercalate segments := by
  cases h with
  | type => exact (hu.type ht).toList_path
  | member _ hm hlisted =>
    exact MemberSymbol.toList_path (hu.type ht) (owner_of_mem_members hm) (hu.member ht hm hlisted)

theorem isClean (h : t.PageAt settings path segments) (hu : u.IsNamed settings)
    (ht : t ∈ u.visibleTypes) : ∀ s ∈ segments, IsClean s := by
  cases h with
  | type => exact (hu.type ht).isClean_segments
  | member _ hm hlisted =>
    exact MemberSymbol.isClean_segments (hu.type ht) (hu.member ht hm hlisted)

/-- Below the page of the unit. -/
theorem two_le_length (h : t.PageAt settings path segments) : 2 ≤ segments.length := by
  cases h <;> simp [TypeSymbol.segments, places]

theorem ne_nil (h : t.PageAt settings path segments) : segments ≠ [] := by
  rintro rfl
  cases h.two_le_length

/-- A path tells the segments it is written from. -/
theorem eq_segments (h : t.PageAt settings path segments) (hu : u.IsNamed settings)
    (ht : t ∈ u.visibleTypes) (hne : segments' ≠ []) (hclean : ∀ s ∈ segments', IsClean s)
    (hwritten : path.toList = ['/'].intercalate segments') : segments = segments' := by
  refine Text.intercalate_inj h.ne_nil hne (fun s hs => (h.isClean hu ht s hs).slash_notMem)
    (fun s hs => (hclean s hs).slash_notMem) ?_
  rw [← h.toList_path hu ht, hwritten]

theorem segments_unique (h : t.PageAt settings path segments)
    (h' : t'.PageAt settings path segments') (hu : u.IsNamed settings) (ht : t ∈ u.visibleTypes)
    (ht' : t' ∈ u.visibleTypes) : segments = segments' :=
  h.eq_segments hu ht h'.ne_nil (h'.isClean hu ht') (h'.toList_path hu ht')

/-- Where different types have pages at one place, one of them is a type outside all namespaces. -/
theorem clashes (h : t.PageAt settings path segments) (h' : t'.PageAt settings path' segments')
    (hu : u.IsNamed settings) (ht : t ∈ u.visibleTypes) (ht' : t' ∈ u.visibleTypes)
    (hne : t.decl.ref.fullName ≠ t'.decl.ref.fullName) (heq : segments = segments') :
    u.Clashes settings := by
  cases h with
  | type =>
    cases h' with
    | type => exact absurd ((hu.type ht).fullName_eq (hu.type ht') heq) hne
    | member hpages hm hlisted => exact hu.clashes ht ht' hpages hm hlisted heq
  | member hpages hm hlisted =>
    cases h' with
    | type => exact hu.clashes ht' ht hpages hm hlisted heq.symm
    | member =>
      obtain ⟨hsegments, -⟩ := List.append_singleton_inj.1 heq
      exact absurd ((hu.type ht).fullName_eq (hu.type ht') hsegments) hne

end TypeSymbol.PageAt

namespace Context

variable {ctx : Context} {u : UnitSymbol} {t : TypeSymbol} {path : String}
  {settings : RenderSettings}

theorem exists_pageAt (hpaths : ctx.paths = fun s => .ok s.path)
    (h : path ∈ t.path :: ctx.memberPaths t) :
    ∃ segments, t.PageAt ctx.settings.render path segments := by
  rcases List.mem_cons.1 h with rfl | h
  · exact ⟨_, .type⟩
  · obtain ⟨hpages, m, hm, hlisted, rfl⟩ := (mem_memberPaths hpaths).1 h
    exact ⟨_, .member hpages hm hlisted⟩

/-- The member and the type of a clash lie at one path. -/
theorem path_eq_of_clash {t' : TypeSymbol} {m : MemberSymbol} (hu : u.IsNamed ctx.settings.render)
    (ht : t ∈ u.visibleTypes) (ht' : t' ∈ u.visibleTypes) (hm : m ∈ t.members)
    (hlisted : m.decl.isListed ctx.settings.render = true) (hspace : t.decl.ref.space = "")
    (hname : IsName t.displayName) (howner : t.displayName = t'.decl.ref.space)
    (hmember : m.pageName = t'.displayName) : m.path = t'.path := by
  have hpage := hu.member ht hm hlisted
  have hunit : t.unit = t'.unit := by
    rw [u.unit_of_mem_visibleTypes ht, u.unit_of_mem_visibleTypes ht']
  have hspace' : t'.decl.ref.space ≠ "" := by
    rw [← howner]
    exact fun hempty => hname.ne_nil (by rw [hempty]; rfl)
  have hsegments : t.segments ++ [m.pageName.toList] = t'.segments := by
    have hfirst : t.decl.ref.pageName = t'.decl.ref.space.toList := by
      rw [← howner]
      exact TypeRef.flatMap_pathChar hname.chars
    have hlast : t'.decl.ref.pageName = m.pageName.toList := by
      rw [hmember] at hpage ⊢
      exact TypeRef.flatMap_pathChar hpage.chars
    simp [TypeSymbol.segments, TypeSymbol.places, hspace, hspace', hfirst, hlast, hunit]
  refine String.toList_inj.1 ?_
  rw [MemberSymbol.toList_path (hu.type ht) (TypeSymbol.owner_of_mem_members hm) hpage, hsegments,
    (hu.type ht').toList_path]

/-- Where names are identifiers and the visible types have different full names, the pages of a unit
lie at different paths exactly if there is no clash. -/
theorem nodup_pagePaths_iff (hpaths : ctx.paths = fun s => .ok s.path)
    (hu : u.IsNamed ctx.settings.render)
    (hdistinct : (u.visibleTypes.map fun t => t.decl.ref.fullName).Nodup) :
    (ctx.pagePaths u).Nodup ↔ ¬ u.Clashes ctx.settings.render := by
  rw [pagePaths, List.nodup_cons, List.nodup_flatMap]
  constructor
  · rintro ⟨-, -, hpairs⟩ ⟨t, ht, t', ht', m, hm, hpages, hlisted, hspace, hname, howner, hmember⟩
    have hsymm : Std.Symm (Function.onFun List.Disjoint fun t : TypeSymbol =>
        t.path :: ctx.memberPaths t) := ⟨fun _ _ => List.disjoint_symm⟩
    have hne : t ≠ t' := by
      rintro rfl
      exact hname.ne_nil (by rw [howner, hspace]; rfl)
    have hpath := path_eq_of_clash hu ht ht' hm hlisted hspace hname howner hmember
    have hfirst : m.path ∈ t.path :: ctx.memberPaths t :=
      List.mem_cons_of_mem _ ((mem_memberPaths hpaths).2 ⟨hpages, m, hm, hlisted, rfl⟩)
    have hsecond : m.path ∈ t'.path :: ctx.memberPaths t' := hpath ▸ List.mem_cons_self
    exact hpairs.forall ht ht' hne hfirst hsecond
  · intro hclash
    refine ⟨fun hmem => ?_, fun t ht => List.nodup_cons.2 ⟨fun hmem => ?_, ?_⟩, ?_⟩
    · -- the path of the unit has one segment only
      obtain ⟨t, ht, hmem⟩ := List.mem_flatMap.1 hmem
      obtain ⟨segments, hpage⟩ := exists_pageAt hpaths hmem
      have hsegments := hpage.eq_segments hu ht (List.cons_ne_nil _ _)
        (List.forall_mem_singleton.2 hu.isClean_unit) hu.toList_unitPath
      have hlength := hpage.two_le_length
      rw [hsegments] at hlength
      simp at hlength
    · obtain ⟨hpages, m, hm, hlisted, hpath⟩ := (mem_memberPaths hpaths).1 hmem
      have hmember := TypeSymbol.PageAt.member hpages hm hlisted
      have hsegments := (hpath ▸ hmember).segments_unique .type hu ht ht
      simpa using congrArg List.length hsegments
    · exact ctx.nodup_memberPaths t
    · refine (List.pairwise_map.1 hdistinct).imp_of_mem fun {t t'} ht ht' hne => ?_
      intro path hpath hpath'
      obtain ⟨segments, hpage⟩ := exists_pageAt hpaths hpath
      obtain ⟨segments', hpage'⟩ := exists_pageAt hpaths hpath'
      exact hclash (hpage.clashes hpage' hu ht ht' hne (hpage.segments_unique hpage' hu ht ht'))

/-- Where names are identifiers and the visible types have different full names, the pages of a unit
are written at different paths exactly if there is no clash. -/
theorem distinct_paths_of_unitPages (hctx : ctx.WellBuilt)
    (hpaths : ctx.paths = fun s => .ok s.path) (hunit : u ∈ ctx.catalog.unitSymbols)
    (hu : u.IsNamed ctx.settings.render)
    (hdistinct : (u.visibleTypes.map fun t => t.decl.ref.fullName).Nodup) :
    ((ctx.pagePaths u).Nodup ↔ ¬ u.Clashes ctx.settings.render) ∧
    ∀ j pages j', (ctx.unitPages u).result j = (.ok pages, j') →
      pages.map Prod.fst = ctx.pagePaths u := by
  refine ⟨nodup_pagePaths_iff hpaths hu hdistinct, fun j pages j' h => ?_⟩
  have hpages := (ends_iff.1 (meets_unitPages hctx hunit j)).1 pages (congrArg Prod.fst h)
  exact hpages.map_fst hpaths

/-- A generic class with a method. -/
def cageType : TypeSymbol :=
  { address := { root := .declared 0 0 }, unit := "Zoo"
    decl := { ref := .named "Zoo" "Cage`1" [{ shape := .parameter, name := "T" }] none
              members := [.method { name := "Open" }] } }

/-- A delegate within that class. -/
def lockType : TypeSymbol :=
  { address := { root := .declared 0 1 }, unit := "Zoo"
    decl := { ref := .named "" "Lock" [] (some cageType.decl.ref), category := .delegateType } }

def cageUnit : UnitSymbol := ⟨0, { name := "Zoo", types := [cageType.decl, lockType.decl] }⟩

def cages : Context :=
  { catalog := { units := [cageUnit.decl] }
    hierarchy := (Hierarchy.build { units := [cageUnit.decl] }).toOption.getD {}
    outcomes := [("Zoo", Source.absent.read)] }

theorem eq_of_mem_cageUnit {t : TypeSymbol} (ht : t ∈ cageUnit.visibleTypes) :
    t = cageType ∨ t = lockType := by
  simpa using (show t ∈ [cageType, lockType] from ht)

theorem isNamed_cageUnit : cageUnit.IsNamed settings := by
  have hcage : cageType.decl.ref.IsNamed "Cage" := ⟨rfl, by decide, by decide, by decide, by decide⟩
  have hlock : lockType.decl.ref.IsNamed "Lock" := ⟨rfl, by decide, by decide, by decide, by decide⟩
  have hdefinition : cageType.decl.ref.IsDefinition := .outermost hcage rfl
  refine ⟨by decide, by decide, fun t ht => ?_, fun t ht => ?_, fun t ht m hm _ => ?_⟩
  · rcases eq_of_mem_cageUnit ht with rfl | rfl <;> decide
  · rcases eq_of_mem_cageUnit ht with rfl | rfl
    · exact hdefinition
    · exact .nested hlock rfl rfl hdefinition
  · rcases eq_of_mem_cageUnit ht with rfl | rfl
    · cases List.mem_singleton.1 hm
      decide
    · cases hm

theorem distinct_paths_of_unitPages_cages : ∃ pages j',
    (cages.unitPages cageUnit).result {} = (.ok pages, j') ∧
    pages.map Prod.fst =
      ["Zoo", "Zoo/Zoo/Cage[T]", "Zoo/Zoo/Cage[T]/Open", "Zoo/Zoo/Cage[T]+Lock"] ∧
    (pages.map Prod.fst).Nodup := by
  have hctx : cages.WellBuilt := ⟨by cbv, by simp [cages]⟩
  have hpaths : ((cages.unitPages cageUnit).result {}).1.map (fun pages => pages.map Prod.fst) =
      .ok ["Zoo", "Zoo/Zoo/Cage[T]", "Zoo/Zoo/Cage[T]/Open", "Zoo/Zoo/Cage[T]+Lock"] := by cbv
  obtain ⟨pages, hpages, hfirsts⟩ := map_eq_ok.1 hpaths
  have hresult : (cages.unitPages cageUnit).result {} = (.ok pages, _) := Prod.ext hpages rfl
  have hnone : ¬ cageUnit.Clashes cages.settings.render := by
    rintro ⟨t, ht, -, -, -, -, -, -, hspace, -⟩
    rcases eq_of_mem_cageUnit ht with rfl | rfl <;> exact absurd hspace (by decide)
  obtain ⟨hiff, hwritten⟩ := distinct_paths_of_unitPages (u := cageUnit) hctx rfl List.mem_cons_self
    isNamed_cageUnit (by decide)
  refine ⟨pages, _, hresult, hfirsts, ?_⟩
  rw [hwritten _ _ _ hresult]
  exact hiff.2 hnone

/-- A class outside all namespaces with a field. -/
def denType : TypeSymbol :=
  { address := { root := .declared 0 0 }, unit := "Den"
    decl := { ref := .named "" "Dog" [] none
              members := [.field { name := "Tail", type := .system "String" }] } }

/-- A delegate of the name of that field in a namespace of the name of that class. -/
def tailType : TypeSymbol :=
  { address := { root := .declared 0 1 }, unit := "Den"
    decl := { ref := .named "Dog" "Tail" [] none, category := .delegateType } }

def denUnit : UnitSymbol := ⟨0, { name := "Den", types := [denType.decl, tailType.decl] }⟩

theorem isNamed_denUnit : denUnit.IsNamed settings := by
  have htypes : ∀ t ∈ denUnit.visibleTypes, t = denType ∨ t = tailType := by
    intro t ht
    simpa using (show t ∈ [denType, tailType] from ht)
  have hden : denType.decl.ref.IsNamed "Dog" := ⟨rfl, by decide, by decide, by decide, by decide⟩
  have htail : tailType.decl.ref.IsNamed "Tail" := ⟨rfl, by decide, by decide, by decide, by decide⟩
  refine ⟨by decide, by decide, fun t ht => ?_, fun t ht => ?_, fun t ht m hm _ => ?_⟩
  · rcases htypes t ht with rfl | rfl <;> decide
  · rcases htypes t ht with rfl | rfl
    · exact .outermost hden rfl
    · exact .outermost htail rfl
  · rcases htypes t ht with rfl | rfl
    · cases List.mem_singleton.1 hm
      decide
    · cases hm

/-- Delegates of one name within classes of one name. Both references name the namespace of the
first class, though the second class lies in another. -/
def pawType (space : String) (i : Nat) : TypeSymbol :=
  { address := { root := .declared 1 i }, unit := "Paws"
    decl := { ref := { shape := .named, name := "Paw", space := "Wild"
                       declaring := some (.named space "Dog" [] none) }
              category := .delegateType } }

def pawUnit : UnitSymbol :=
  ⟨1, { name := "Paws", types := [(pawType "Wild" 0).decl, (pawType "Tame" 1).decl] }⟩

def dens : Context :=
  { catalog := { units := [denUnit.decl, pawUnit.decl] }
    hierarchy := (Hierarchy.build { units := [denUnit.decl, pawUnit.decl] }).toOption.getD {}
    outcomes := [("Den", Source.absent.read), ("Paws", Source.absent.read)] }

/-- Types with identifiers for names and with different full names may share a path with a member,
and with one another if references within types may name other namespaces than those types. -/
theorem shared_paths_of_unitPages : denUnit.IsNamed dens.settings.render ∧
    (denUnit.visibleTypes.map fun t => t.decl.ref.fullName) = ["Dog", "Dog.Tail"] ∧
    ((dens.unitPages denUnit).result {}).1.map (fun pages => pages.map Prod.fst) =
      .ok ["Den", "Den/Dog", "Den/Dog/Tail", "Den/Dog/Tail"] ∧
    (∀ t ∈ pawUnit.visibleTypes, t.decl.ref.IsNamed "Paw" ∧ IsDotted t.decl.ref.space ∧
      ∃ outer, t.decl.ref.declaring = some outer ∧ outer.IsDefinition) ∧
    (pawUnit.visibleTypes.map fun t => t.decl.ref.fullName) = ["Wild.Dog.Paw", "Tame.Dog.Paw"] ∧
    ((dens.unitPages pawUnit).result {}).1.map (fun pages => pages.map Prod.fst) =
      .ok ["Paws", "Paws/Wild/Dog+Paw", "Paws/Wild/Dog+Paw"] := by
  refine ⟨isNamed_denUnit, by decide, by cbv, fun t ht => ?_, by decide, by cbv⟩
  have htypes : t = pawType "Wild" 0 ∨ t = pawType "Tame" 1 := by
    simpa using (show t ∈ [pawType "Wild" 0, pawType "Tame" 1] from ht)
  have houter : ∀ space, (TypeRef.named space "Dog" [] none).IsNamed "Dog" :=
    fun _ => ⟨rfl, by decide, show "Dog" = "Dog" ++ arityMarker 0 by decide,
      show "Dog" ∉ typeKeywords.map Prod.snd by decide, fun _ h => by cases h⟩
  rcases htypes with rfl | rfl
  · exact ⟨⟨rfl, by decide, by decide, by decide, by decide⟩, by decide, _, rfl,
      .outermost (houter "Wild") rfl⟩
  · exact ⟨⟨rfl, by decide, by decide, by decide, by decide⟩, by decide, _, rfl,
      .outermost (houter "Tame") rfl⟩

end Context

end ApiDoc
