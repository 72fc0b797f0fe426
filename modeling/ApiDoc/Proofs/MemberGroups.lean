import Mathlib
import ApiDoc.Proofs.PageTargets

/-!
# Every visible member has one section

The groups of a type are a rearrangement of its visible fields, properties, methods and events by
path, whatever paths they are given (`groups_of_memberGroups`). So members that are put together on
a page always belong together, and when the pages of a unit are written, each group has a page of
its own, with one section for each of its members (`sections_of_unitPages`).
-/

namespace ApiDoc

open Document (Page Outlined)
open scoped List

/-! ## Lists by key -/

section Keys

variable {α β : Type} [DecidableEq β] {key : α → β} {keys : List β} {l : List α} {p : α → Bool}

/-- Collecting what has each of some keys in turn loses nothing that has one of them, and takes
nothing twice. -/
theorem perm_flatMap_filter (hkeys : keys.Nodup) (hp : ∀ a ∈ l, p a = true ↔ key a ∈ keys) :
    (keys.flatMap fun k => l.filter fun a => key a = k).Perm (l.filter p) := by
  induction keys generalizing p with
  | nil =>
    have hnone : l.filter p = [] := List.filter_eq_nil_iff.2 fun a ha h => nomatch (hp a ha).1 h
    rw [hnone]
    exact .refl _
  | cons k keys ih =>
    obtain ⟨hk, hkeys⟩ := List.nodup_cons.1 hkeys
    have hfirst : (l.filter p).filter (fun a => key a = k) = l.filter fun a => key a = k := by
      rw [List.filter_filter]
      refine List.filter_congr fun a ha => ?_
      have := hp a ha
      grind
    have hrest : ∀ a ∈ l, (p a && !decide (key a = k)) = true ↔ key a ∈ keys := by
      intro a ha
      have := hp a ha
      grind
    have hsplit := List.filter_append_perm (fun a => decide (key a = k)) (l.filter p)
    rw [hfirst, List.filter_filter] at hsplit
    rw [List.flatMap_cons]
    simp only [Bool.and_comm] at hsplit hrest
    exact ((ih hkeys hrest).append_left _).trans hsplit

/-- What is left once repetitions are erased is there once. -/
theorem nodup_eraseDups : ∀ l : List β, l.eraseDups.Nodup
  | [] => List.nodup_nil
  | b :: l => by
    rw [List.eraseDups_cons, List.nodup_cons]
    refine ⟨fun hb => ?_, nodup_eraseDups _⟩
    simpa using (List.mem_filter.1 (List.mem_eraseDups.1 hb)).2
termination_by l => l.length
decreasing_by exact Nat.lt_succ_of_le (List.length_filter_le _ _)

end Keys

theorem mapM_eq_error {α β : Type} {f : α → Except Error β} {l : List α} {e : Error}
    (h : l.mapM f = .error e) : ∃ a ∈ l, f a = .error e := by
  induction l with
  | nil => cases h
  | cons a l ih =>
    rw [List.mapM_cons] at h
    rcases bind_eq_error.1 h with ha | ⟨b, -, h⟩
    · exact ⟨a, List.mem_cons_self, ha⟩
    · rcases bind_eq_error.1 h with hl | ⟨bs, -, h⟩
      · obtain ⟨a', ha', he⟩ := ih hl
        exact ⟨a', List.mem_cons_of_mem _ ha', he⟩
      · cases h

/-! ## Members of a unit -/

theorem TypeSymbol.nodup_members (t : TypeSymbol) : (t.members.map Placed.address).Nodup := by
  have haddresses : t.members.map Placed.address =
      (t.decl.members.zipIdx.map Prod.snd).map fun i => t.address.under (.member i) := by
    rw [members, List.map_map, List.map_map]
    rfl
  rw [haddresses, List.zipIdx_map_snd]
  refine List.Nodup.map (fun i i' h => ?_) List.nodup_range'
  simpa using h

theorem TypeSymbol.root_of_mem_members {t : TypeSymbol} {m : MemberSymbol} (hm : m ∈ t.members) :
    m.address.root = t.address.root := by
  obtain ⟨i, decl, -, rfl⟩ := mem_members.1 hm
  rfl

/-- The members of all types of a unit stand at different addresses. -/
theorem UnitSymbol.nodup_members (u : UnitSymbol) :
    ((u.types.flatMap TypeSymbol.members).map Placed.address).Nodup := by
  rw [List.map_flatMap, List.nodup_flatMap]
  refine ⟨fun t _ => t.nodup_members, ?_⟩
  have hroots : u.types.Pairwise fun t t' => t.address.root ≠ t'.address.root := by
    have hnumbers : (u.decl.types.zipIdx.map Prod.snd).Nodup := by
      rw [List.zipIdx_map_snd]
      exact List.nodup_range'
    rw [types, List.pairwise_map]
    refine (List.pairwise_map.1 hnumbers).imp fun hne h => hne ?_
    simpa using h
  refine hroots.imp fun hne a ha ha' => hne ?_
  obtain ⟨m, hm, rfl⟩ := List.mem_map.1 ha
  obtain ⟨m', hm', haddress⟩ := List.mem_map.1 ha'
  rw [← TypeSymbol.root_of_mem_members hm, ← TypeSymbol.root_of_mem_members hm', haddress]

/-! ## Listed members -/

/-- Whether a member has a page: it can be seen, and is a field, property, method or event. -/
def Member.isListed (settings : RenderSettings) (m : Member) : Bool :=
  [some .field, some .property, some .method, some .event].contains m.kind? && m.isVisible settings

/-- Enumerations and delegates have no pages of members. -/
def TypeSymbol.HasMemberPages (t : TypeSymbol) : Prop :=
  t.decl.category ≠ .enumType ∧ t.decl.category ≠ .delegateType

namespace Context

open Answer

variable {ctx : Context} {t : TypeSymbol} {m : MemberSymbol}

theorem perm_listedMembers (ctx : Context) (t : TypeSymbol) : (ctx.listedMembers t).Perm
    (t.members.filter fun m => m.decl.isListed ctx.settings.render) := by
  let kinds : List (Option MemberKind) := [some .field, some .property, some .method, some .event]
  let visible := t.members.filter fun m => m.decl.isVisible ctx.settings.render
  have hsorted : ∀ kind, (t.visible ctx.settings.render kind).Perm
      (visible.filter fun m => m.decl.kind? = some kind) := by
    intro kind
    refine (List.mergeSort_perm _ _).trans (List.Perm.of_eq ?_)
    rw [TypeSymbol.membersOf, List.filter_filter, List.filter_filter]
    exact List.filter_congr fun m _ => Bool.and_comm _ _
  calc ctx.listedMembers t
    _ ~ [MemberKind.field, .property, .method, .event].flatMap fun kind =>
          visible.filter fun m => m.decl.kind? = some kind :=
        List.Perm.flatMap_left _ fun kind _ => hsorted kind
    _ = kinds.flatMap fun k => visible.filter fun m => m.decl.kind? = k := rfl
    _ ~ visible.filter fun m => kinds.contains m.decl.kind? :=
        perm_flatMap_filter (by decide) fun m _ => List.contains_iff_mem
    _ = t.members.filter fun m => m.decl.isListed ctx.settings.render := List.filter_filter

/-- The groups of a type: its listed members by path, in full and each once. -/
structure Groups (ctx : Context) (t : TypeSymbol) (groups : List (String × List MemberSymbol)) :
    Prop where
  perm : (groups.flatMap Prod.snd).Perm
    (t.members.filter fun m => m.decl.isListed ctx.settings.render)
  nonempty : ∀ g ∈ groups, g.2 ≠ []
  path : ∀ g ∈ groups, ∀ m ∈ g.2, ctx.paths (.member m) = .ok g.1
  distinct : (groups.map Prod.fst).Nodup
  declared : ∀ g ∈ groups, ∀ m ∈ g.2, m ∈ t.members

theorem groups_of_memberGroups {groups : List (String × List MemberSymbol)}
    (h : ctx.memberGroups t = .ok groups) : ctx.Groups t groups := by
  obtain ⟨located, hlocated, h⟩ := bind_eq_ok.1 h
  cases h
  have hpath : ∀ l ∈ located, ctx.paths (.member l.2) = .ok l.1 := by
    intro l hl
    obtain ⟨m, -, hm⟩ := (mem_mapM hlocated).1 hl
    obtain ⟨path, hpath, hm⟩ := bind_eq_ok.1 hm
    cases hm
    exact hpath
  have hmembers : located.map Prod.snd = ctx.listedMembers t := by
    refine (List.forall₂_eq_eq_eq ▸ List.forall₂_map_right_iff.2 ?_ : _ = _).symm
    refine (mapM_eq_ok.1 hlocated).imp fun m l hm => ?_
    obtain ⟨path, -, hm⟩ := bind_eq_ok.1 hm
    cases hm
    rfl
  have hperm : (((located.map Prod.fst).eraseDups.map fun path =>
      (path, (located.filter fun l => l.1 = path).map Prod.snd)).flatMap Prod.snd).Perm
      (located.map Prod.snd) := by
    have hall : ∀ l ∈ located, true = true ↔ l.1 ∈ (located.map Prod.fst).eraseDups :=
      fun l hl => iff_of_true rfl (List.mem_eraseDups.2 (List.mem_map_of_mem hl))
    rw [List.flatMap_map, ← List.map_flatMap]
    refine List.Perm.map _ ?_
    simpa using perm_flatMap_filter (nodup_eraseDups _) hall
  refine ⟨hperm.trans (hmembers ▸ ctx.perm_listedMembers t), ?_, ?_, ?_, ?_⟩
  · intro g hg hempty
    obtain ⟨path, hp, rfl⟩ := List.mem_map.1 hg
    obtain ⟨l, hl, rfl⟩ := List.mem_map.1 (List.mem_eraseDups.1 hp)
    have hmem : l.2 ∈ (located.filter fun l' => l'.1 = l.1).map Prod.snd :=
      List.mem_map_of_mem (List.mem_filter.2 ⟨hl, decide_eq_true rfl⟩)
    have hnil : (located.filter fun l' => l'.1 = l.1).map Prod.snd = [] := hempty
    rw [hnil] at hmem
    cases hmem
  · intro g hg m hm
    obtain ⟨path, -, rfl⟩ := List.mem_map.1 hg
    obtain ⟨l, hl, rfl⟩ := List.mem_map.1 hm
    obtain ⟨hl, hpath'⟩ := List.mem_filter.1 hl
    rw [hpath l hl, of_decide_eq_true hpath']
  · rw [List.map_map]
    exact (List.map_id _).symm ▸ nodup_eraseDups _
  · exact fun g hg m hm => mem_members_of_memberGroups h hg hm

/-- Grouping fails only if the path of a listed member does. -/
theorem memberGroups_eq_error {e : Error} (h : ctx.memberGroups t = .error e) :
    ∃ m ∈ ctx.listedMembers t, ctx.paths (.member m) = .error e := by
  rcases bind_eq_error.1 h with h | ⟨located, -, h⟩
  · obtain ⟨m, hm, he⟩ := mapM_eq_error h
    refine ⟨m, hm, ?_⟩
    rcases bind_eq_error.1 he with he | ⟨path, -, he⟩
    · exact he
    · cases he
  · cases h

/-! ## Pages of a unit -/

/-- The page of a group stands at its path and has one section for each of its members. -/
def GroupPage (ctx : Context) (t : TypeSymbol) (group : String × List MemberSymbol)
    (d : String × Page) : Prop :=
  d.1 = group.1 ∧ ctx.Presents t d.2.title group.2 d.2.blocks

/-- The pages of a type: its own, and one for each group of its members. -/
def PagesOf (ctx : Context) (t : TypeSymbol) (pages : List (String × Page)) : Prop :=
  ∃ path page members, pages = (path, page) :: members ∧ ctx.paths (.type t) = .ok path ∧
    Outlined (ctx.LinksFrom (t.unit.getD "")) (ctx.typeOutline t) page.blocks ∧
    (t.HasMemberPages → ∃ groups, ctx.memberGroups t = .ok groups ∧
      List.Forall₂ (ctx.GroupPage t) groups members) ∧
    (¬ t.HasMemberPages → members = [])

theorem meets_paths (ctx : Context) (s : Symbol) :
    (ofExcept (ctx.paths s)).Meets ctx.MayRaise fun path => ctx.paths s = .ok path :=
  meets_ofExcept_self fun _ he => .inr (.inr ⟨s, he⟩)

theorem meets_memberGroups (ctx : Context) (t : TypeSymbol) :
    (ofExcept (ctx.memberGroups t)).Meets ctx.MayRaise fun groups =>
      ctx.memberGroups t = .ok groups := by
  refine meets_ofExcept_self fun e he => ?_
  obtain ⟨m, -, hm⟩ := memberGroups_eq_error he
  exact .inr (.inr ⟨_, hm⟩)

theorem meets_typePages (hctx : ctx.WellBuilt) (ht : t ∈ ctx.catalog.types) :
    (ctx.typePages t).Meets ctx.MayRaise (ctx.PagesOf t) := by
  refine (ctx.meets_paths (.type t)).bind fun path hpath => ?_
  refine (meets_typePage hctx ht).bind fun page hpage => Meets.ite (fun h => ?_) fun h => ?_
  · have hnone : ¬ t.HasMemberPages := by
      rintro ⟨henum, hdelegate⟩
      simp [henum, hdelegate] at h
    exact meets_pure ⟨path, page, [], rfl, hpath, hpage, fun h => absurd h hnone, fun _ => rfl⟩
  · have hsome : t.HasMemberPages := by simpa [TypeSymbol.HasMemberPages] using h
    refine (ctx.meets_memberGroups t).bind fun groups hgroups => ?_
    have hfacts := groups_of_memberGroups hgroups
    have hpages : ∀ group ∈ groups, (do
        let page ← ctx.memberPage (group.2.map .member)
        pure (group.1, page)).Meets ctx.MayRaise (ctx.GroupPage t group) := by
      intro group hgroup
      refine Meets.bind (meets_memberPage hctx (hfacts.nonempty group hgroup)
        (hfacts.declared group hgroup)) fun page hpage => ?_
      exact meets_pure ⟨rfl, hpage⟩
    refine (Meets.each hpages).bind fun members hmembers => meets_pure ?_
    exact ⟨path, page, members, rfl, hpath, hpage, fun _ => ⟨groups, hgroups, hmembers⟩,
      fun h => absurd hsome h⟩

/-- The pages of a unit: its contents page, and the pages of each visible type. -/
def PagesOfUnit (ctx : Context) (u : UnitSymbol) (pages : List (String × Page)) : Prop :=
  ∃ contents typePages, pages = (unitPath u.name, contents) :: typePages.flatten ∧
    Outlined (ctx.LinksFrom u.name) (contentsOutline u) contents.blocks ∧
    List.Forall₂ ctx.PagesOf u.visibleTypes typePages

theorem meets_unitPages (hctx : ctx.WellBuilt) {u : UnitSymbol}
    (hu : u ∈ ctx.catalog.unitSymbols) :
    (ctx.unitPages u).Meets ctx.MayRaise (ctx.PagesOfUnit u) := by
  -- taking down the framework of the unit changes nothing that pages are told by
  let ctx' := ctx.withFramework u.decl
  have hctx' : ctx'.WellBuilt := ⟨hctx.hierarchy, hctx.dispatches⟩
  have hcontents : (ctx'.unitPage u).Meets ctx'.MayRaise fun p =>
      Outlined (ctx.LinksFrom u.name) (contentsOutline u) p.blocks := meets_unitPage hctx' u
  have hpages : ∀ t ∈ u.visibleTypes, (ctx'.typePages t).Meets ctx'.MayRaise (ctx.PagesOf t) :=
    fun t ht => meets_typePages hctx' (List.mem_flatMap.2 ⟨u, hu, List.mem_of_mem_filter ht⟩)
  refine hcontents.bind fun contents hcontents => ?_
  refine (Meets.concatEach hpages).bind fun pages hpages => ?_
  obtain ⟨typePages, rfl, htypes⟩ := hpages
  refine (meets_log _ _ _).bind fun _ _ => meets_pure ?_
  exact ⟨contents, typePages, rfl, hcontents, htypes⟩

/-! ## Every visible member has one section -/

/-- Each listed member of a visible type has one section. Grouping takes the listed members of a
type in full and each once, unless one of them has no path, and what is grouped shares one path.
Writing the pages of a unit fails for a wrong grouping only if some path fails with that very error,
and if it does not fail then its pages are the contents page, the page of each visible type, and one
page for each group, with one section for each member of the group. -/
theorem sections_of_unitPages (hctx : ctx.WellBuilt)
    (hsources : ∀ o ∈ ctx.outcomes, ∃ source : Source, o.2 = source.read) {u : UnitSymbol}
    (hu : u ∈ ctx.catalog.unitSymbols) :
    ((u.types.flatMap TypeSymbol.members).map Placed.address).Nodup ∧
    (∀ t ∈ u.visibleTypes, t.HasMemberPages →
      (∃ groups, ctx.memberGroups t = .ok groups ∧ ctx.Groups t groups) ∨
        ∃ m ∈ ctx.listedMembers t, ∃ e, ctx.memberGroups t = .error e ∧
          ctx.paths (.member m) = .error e) ∧
    (∀ j e j', (ctx.unitPages u).result j = (.error e, j') → e.isGrouping = true →
      ∃ s, ctx.paths s = .error e) ∧
    ∀ j pages j', (ctx.unitPages u).result j = (.ok pages, j') → ctx.PagesOfUnit u pages := by
  refine ⟨u.nodup_members, fun t _ _ => ?_, fun j e j' h he => ?_, fun j pages j' h => ?_⟩
  · cases hgroups : ctx.memberGroups t with
    | ok groups => exact .inl ⟨groups, rfl, groups_of_memberGroups hgroups⟩
    | error e =>
      obtain ⟨m, hm, hpath⟩ := memberGroups_eq_error hgroups
      exact .inr ⟨m, hm, e, rfl, hpath⟩
  · have hends := ends_iff.1 (meets_unitPages hctx hu j)
    rcases hends.2 e (congrArg Prod.fst h) with hharmless | ⟨o, ho, hread⟩ | hpath
    · cases he.symm.trans hharmless
    · obtain ⟨source, hsource⟩ := hsources o ho
      have hharmless := (ends_iff.1 source.harmless_read).2 e (hsource ▸ hread)
      cases he.symm.trans hharmless
    · exact hpath
  · exact (ends_iff.1 (meets_unitPages hctx hu j)).1 pages (congrArg Prod.fst h)

/-- A class with two overloads of `Bark`, a field, and a method that cannot be seen. -/
def kennelType : TypeDecl :=
  { ref := .named "Zoo" "Dog" [] none
    members := [.method { name := "Bark" }, .field { name := "Name", type := .system "String" },
      .method { name := "Hide", modifiers := ["private"] },
      .method { name := "Bark", parameters := [{ name := "times", type := .system "Int32" }] }] }

/-- A unit whose only type is that class. Members lie at their own names. -/
def kennel : Context :=
  { catalog := { units := [{ name := "Zoo", types := [kennelType] }] }
    hierarchy :=
      (Hierarchy.build { units := [{ name := "Zoo", types := [kennelType] }] }).toOption.getD {}
    outcomes := [("Zoo", Source.absent.read)]
    paths := fun s => match s with
      | .type t => .ok t.decl.ref.name
      | .member m => .ok m.decl.name
      | .parameter _ => .error .notApplicable }

theorem sections_of_unitPages_kennel : ∃ u ∈ kennel.catalog.unitSymbols, ∃ pages j',
    (kennel.unitPages u).result {} = (.ok pages, j') ∧
    pages.map Prod.fst = ["Zoo", "Dog", "Name", "Bark"] ∧ kennel.PagesOfUnit u pages := by
  have hctx : kennel.WellBuilt := ⟨by cbv, by simp [kennel]⟩
  have hu : (⟨0, { name := "Zoo", types := [kennelType] }⟩ : UnitSymbol) ∈
      kennel.catalog.unitSymbols := List.mem_cons_self
  have hpaths : ((kennel.unitPages ⟨0, { name := "Zoo", types := [kennelType] }⟩).result {}).1.map
      (fun pages => pages.map Prod.fst) = .ok ["Zoo", "Dog", "Name", "Bark"] := by cbv
  obtain ⟨pages, hpages, hfirsts⟩ := map_eq_ok.1 hpaths
  have hresult : (kennel.unitPages ⟨0, { name := "Zoo", types := [kennelType] }⟩).result {} =
      (.ok pages, _) := Prod.ext hpages rfl
  obtain ⟨-, -, -, hsections⟩ := sections_of_unitPages hctx (by simp [kennel]) hu
  exact ⟨_, hu, pages, _, hresult, hfirsts, hsections _ _ _ hresult⟩

end Context

end ApiDoc
