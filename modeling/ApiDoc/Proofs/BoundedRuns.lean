import ApiDoc.Proofs.Loops

/-!
# Bounded runs

Whatever metadata is loaded, with cycles and self-references among its types, the hierarchy is
built, interface members are looked up and symbols are resolved in a bounded number of steps
(`runs_end`). Each is told as a run of its loops, with the types visited and the keys entered, none
of them twice, and with the number of its steps: the turns of its loops and the entries of the lists
that it goes through. The bounds are sums over what the visited types list.
-/

namespace ApiDoc

theorem sum_map_one_add {α : Type} (f : α → Nat) (l : List α) :
    (l.map fun a => 1 + f a).sum = l.length + (l.map f).sum := by
  rw [List.sum_map_add]
  simp

/-! ## Building a hierarchy -/

namespace Hierarchy

/-- The types visited in the turns of a walk. -/
def visited (find : TypeRef → Option TypeSymbol) (states : List Ascent) : List TypeSymbol :=
  (states.filterMap (Ascent.visit? find)).map Prod.snd

/-- The walk from a method to what it overrides in the end: the types visited, the number of steps,
and the outcome. -/
inductive Walks (find : TypeRef → Option TypeSymbol) (m : MethodSymbol) :
    List TypeSymbol → Nat → Except Error MethodSymbol → Prop
  | free : m.owner = none → Walks find m [] 0 (.ok m)
  | unsigned {t : TypeSymbol} {e : Error} :
    m.owner = some t → m.signature [] = .error e → Walks find m [] 0 (.error e)
  /-- A step is a turn of the loop, or a method of a type visited. -/
  | walked {t : TypeSymbol} {signature : String} {states : List Ascent}
      {r : Except Error MethodSymbol} :
    m.owner = some t → m.signature [] = .ok signature →
    Loops (climb find signature) ⟨[t.address], m, t.decl.base⟩ states r →
    Walks find m (visited find states)
      (states.length + ((visited find states).map (·.callables.length)).sum) r

/-- The walks from methods one after the other, up to the first that fails. -/
inductive WalksAll (find : TypeRef → Option TypeSymbol) : List MethodSymbol →
    List (List TypeSymbol) → Nat → Except Error (List (Address × Address)) → Prop
  | nil : WalksAll find [] [] 0 (.ok [])
  | fail {m : MethodSymbol} {methods : List MethodSymbol} {types : List TypeSymbol} {n : Nat}
      {e : Error} :
    Walks find m types n (.error e) → WalksAll find (m :: methods) [types] (1 + n) (.error e)
  | cons {m root : MethodSymbol} {methods : List MethodSymbol} {types : List TypeSymbol}
      {walks : List (List TypeSymbol)} {n k : Nat} {r : Except Error (List (Address × Address))} :
    Walks find m types n (.ok root) → WalksAll find methods walks k r →
    WalksAll find (m :: methods) (types :: walks) (1 + n + k)
      (r.map ((m.address, root.address) :: ·))

/-- Building the hierarchy of a catalog: all symbols are listed by their keys, and a walk is made
from each method that overrides something. -/
inductive Builds (c : Catalog) : List (List TypeSymbol) → Nat → Except Error Hierarchy → Prop
  | unlisted {e : Error} : (c.types.flatMap TypeSymbol.symbols).mapM keysOf = .error e →
    Builds c [] (c.types.flatMap TypeSymbol.symbols).length (.error e)
  | walked {keys : List (List (String × Address))} {tables : Hierarchy}
      {walks : List (List TypeSymbol)} {n : Nat} {r : Except Error (List (Address × Address))} :
    (c.types.flatMap TypeSymbol.symbols).mapM keysOf = .ok keys →
    tables = { types := c.types.map fun t => (t.decl.ref.fullName, t.address)
               symbols := keys.flatten } →
    WalksAll (tables.findType c) (overrides c) walks n r →
    Builds c walks ((c.types.flatMap TypeSymbol.symbols).length +
      (c.types.flatMap TypeSymbol.callables).length + n) (r.map fun roots => { tables with roots })

variable {find : TypeRef → Option TypeSymbol} {m : MethodSymbol} {types : List TypeSymbol} {n : Nat}
  {r : Except Error MethodSymbol}

theorem Walks.nodup (h : Walks find m types n r) : (types.map (·.address)).Nodup := by
  cases h with
  | free | unsigned => exact List.nodup_nil
  | walked _ _ h =>
    have hnodup := (h.nodup (visits_climb find _)).1
    rwa [visited, List.map_map]

/-- A step goes to a type visited or to a method listed there, or it is the last. -/
theorem Walks.le (h : Walks find m types n r) :
    n ≤ 1 + (types.map fun t => 1 + t.callables.length).sum := by
  cases h with
  | free | unsigned => exact Nat.zero_le _
  | @walked t signature states _ _ _ h =>
    have hlength := h.length_le (visits_climb find signature)
    simp only [List.map_const', List.sum_replicate, smul_eq_mul, mul_one] at hlength
    rw [visited, sum_map_one_add, List.length_map]
    omega

theorem exists_walks {all : List TypeSymbol} (hfind : ∀ ref t, find ref = some t → t ∈ all)
    (m : MethodSymbol) : ∃ types n, Walks find m types n (overrideRootOf find all m) := by
  unfold overrideRootOf
  cases ho : m.owner with
  | none => exact ⟨_, _, .free ho⟩
  | some t =>
    simp only
    cases hs : m.signature [] with
    | error e => exact ⟨_, _, .unsigned ho hs⟩
    | ok signature =>
      have hseen : ∀ ref u, find ref = some u →
          ((without all t.address).any (fun v => v.address = u.address) = true ↔
            u.address ∉ [t.address]) := by
        intro ref u hu
        have hmem : Context.Unseen all u :=
          List.any_eq_true.2 ⟨u, hfind ref u hu, decide_eq_true rfl⟩
        rw [List.mem_singleton]
        exact Context.unseen_without.trans (and_iff_right hmem)
      obtain ⟨states, h⟩ := loops_overridden hseen
      exact ⟨_, _, .walked ho hs h⟩

theorem WalksAll.le {methods : List MethodSymbol} {walks : List (List TypeSymbol)}
    {r : Except Error (List (Address × Address))} (h : WalksAll find methods walks n r) :
    (∀ types ∈ walks, (types.map (·.address)).Nodup) ∧ n ≤ methods.length +
      (walks.map fun types => 1 + (types.map fun t => 1 + t.callables.length).sum).sum := by
  induction h with
  | nil => exact ⟨by simp, Nat.zero_le _⟩
  | fail hwalk =>
    have hn := hwalk.le
    refine ⟨List.forall_mem_singleton.2 hwalk.nodup, ?_⟩
    rw [List.map_singleton, List.sum_singleton, List.length_cons]
    omega
  | cons hwalk _ ih =>
    have hn := hwalk.le
    refine ⟨List.forall_mem_cons.2 ⟨hwalk.nodup, ih.1⟩, ?_⟩
    have hk := ih.2
    rw [List.map_cons, List.sum_cons, List.length_cons]
    omega

theorem exists_walksAll {all : List TypeSymbol} (hfind : ∀ ref t, find ref = some t → t ∈ all)
    (methods : List MethodSymbol) : ∃ walks n, WalksAll find methods walks n
      (methods.mapM fun m => do
        let root ← overrideRootOf find all m
        .ok (m.address, root.address)) := by
  induction methods with
  | nil => exact ⟨_, _, .nil⟩
  | cons m methods ih =>
    obtain ⟨types, n, hwalk⟩ := exists_walks hfind m
    obtain ⟨walks, k, hwalks⟩ := ih
    rw [List.mapM_cons]
    cases hroot : overrideRootOf find all m with
    | error e =>
      rw [hroot] at hwalk
      exact ⟨_, _, .fail hwalk⟩
    | ok root =>
      rw [hroot] at hwalk
      refine ⟨types :: walks, 1 + n + k, ?_⟩
      change WalksAll find (m :: methods) (types :: walks) (1 + n + k)
        (methods.mapM _ >>= fun roots => .ok ((m.address, root.address) :: roots))
      rw [bind_ok_eq_map]
      exact .cons hwalk hwalks

theorem Builds.le {c : Catalog} {walks : List (List TypeSymbol)} {h : Except Error Hierarchy}
    (hb : Builds c walks n h) : (∀ types ∈ walks, (types.map (·.address)).Nodup) ∧
      n ≤ (c.types.flatMap TypeSymbol.symbols).length +
        2 * (c.types.flatMap TypeSymbol.callables).length +
        (walks.map fun types => 1 + (types.map fun t => 1 + t.callables.length).sum).sum := by
  cases hb with
  | unlisted =>
    refine ⟨by simp, ?_⟩
    omega
  | walked _ _ hwalks =>
    have hoverrides : (overrides c).length ≤ (c.types.flatMap TypeSymbol.callables).length :=
      List.length_filter_le ..
    obtain ⟨hnodup, hn⟩ := hwalks.le
    exact ⟨hnodup, by omega⟩

theorem exists_builds (c : Catalog) : ∃ walks n, Builds c walks n (build c) := by
  unfold build
  cases hkeys : (c.types.flatMap TypeSymbol.symbols).mapM keysOf with
  | error e => exact ⟨_, _, .unlisted hkeys⟩
  | ok keys =>
    let tables : Hierarchy :=
      { types := c.types.map fun t => (t.decl.ref.fullName, t.address), symbols := keys.flatten }
    have hfind : ∀ ref t, tables.findType c ref = some t → t ∈ c.types :=
      fun ref t => mem_of_findType_of_types rfl
    obtain ⟨walks, n, hwalks⟩ := exists_walksAll hfind (overrides c)
    refine ⟨walks, (c.types.flatMap TypeSymbol.symbols).length +
      (c.types.flatMap TypeSymbol.callables).length + n, ?_⟩
    change Builds c walks _ (List.mapM _ (overrides c) >>= fun roots => .ok { tables with roots })
    rw [bind_ok_eq_map]
    exact .walked hkeys rfl hwalks

end Hierarchy

/-! ## Looking up interface members -/

/-- How many methods and properties a type declares. -/
def TypeSymbol.declared (t : TypeSymbol) : Nat := t.callables.length + t.properties.length

namespace Context

open Answer

/-- The size of what a type lists: its methods and properties, its base, and its interfaces with the
methods and properties of each. -/
def extent (ctx : Context) (t : TypeSymbol) : Nat :=
  1 + t.declared +
    (t.decl.interfaces.map fun r => 1 + (ctx.findType r).elim 0 TypeSymbol.declared).sum

/-- The interface members that a member implements: the types visited by the walk through the
interfaces of its type, the number of steps, and the outcome. -/
inductive LooksUp (ctx : Context) (m : MemberSymbol) :
    List TypeSymbol → Nat → Except Error (List MethodSymbol) → Prop
  | free : m.owner = none → LooksUp ctx m [] 0 (.ok [])
  | unsigned {t : TypeSymbol} {e : Error} :
    m.owner = some t → m.decl.signature [] = .error e → LooksUp ctx m [] 0 (.error e)
  /-- A step is a turn of the walk, or an interface that a type visited lists. -/
  | broken {t : TypeSymbol} {signature : String} {states : List Gathering} {e : Error} :
    m.owner = some t → m.decl.signature [] = .ok signature →
    Loops ctx.gather { pending := [t] } states (.error e) →
    LooksUp ctx m (states.filterMap Gathering.visit?) (states.length +
      ((states.filterMap Gathering.visit?).map (·.decl.interfaces.length)).sum) (.error e)
  /-- Then a step is an interface gathered, or a method of one. -/
  | dispatched {t : TypeSymbol} {signature : String} {states : List Gathering}
      {refs : List TypeRef} :
    m.owner = some t → m.decl.signature [] = .ok signature →
    Loops ctx.gather { pending := [t] } states (.ok refs) →
    LooksUp ctx m (states.filterMap Gathering.visit?) (states.length +
      ((states.filterMap Gathering.visit?).map (·.decl.interfaces.length)).sum +
      (refs.map fun r => 1 + (ctx.findType r).elim 0 (·.callables.length)).sum)
      (ctx.implementedBy m.address signature refs).value

variable {ctx : Context} {m : MemberSymbol} {t : TypeSymbol} {visited : List TypeSymbol}
  {states : List Gathering} {refs : List TypeRef} {n : Nat} {x : Except Error (List MethodSymbol)}

/-- What interfaces have of a signature belongs to their definitions, in their order. -/
theorem implementedBy_sublist (hctx : ctx.WellBuilt) {self : Address} {signature : String}
    {found : List MethodSymbol} (h : (ctx.implementedBy self signature refs).value = .ok found) :
    (found.map (·.owner)).Sublist (refs.map ctx.findType) := by
  induction refs generalizing found with
  | nil =>
    cases h
    exact .slnil
  | cons ref refs ih =>
    have hrest := ctx.steady_implementedBy self signature refs
    rw [implementedBy,
      (ctx.steady_dispatch ref).value_bind fun _ => hrest.bind fun _ => steady_pure _] at h
    obtain ⟨table, htable, h⟩ := bind_eq_ok.1 h
    rw [hrest.value_bind fun _ => steady_pure _] at h
    obtain ⟨more, hmore, h⟩ := bind_eq_ok.1 h
    cases h
    cases hc : ((table.lookup signature).bind ctx.catalog.method?).filter
      fun m => m.address ≠ self with
    | none => exact (ih hmore).cons _
    | some m =>
      have hmatch := (lookup_dispatch hctx htable).1 (Option.filter_eq_some_iff.1 hc).1
      rw [Option.toList_some, List.singleton_append, List.map_cons, List.map_cons, hmatch.owner_eq]
      exact (ih hmore).cons_cons _

theorem length_interfaces_le_extent (ctx : Context) (t : TypeSymbol) :
    1 + t.decl.interfaces.length ≤ ctx.extent t := by
  rw [extent, sum_map_one_add]
  omega

/-- The walk takes a turn for its start, for each base and interface that a type visited lists, and
one more. -/
theorem length_gather_le {r : Except Error (List TypeRef)}
    (h : Loops ctx.gather { pending := [t] } states r) : states.length ≤
      2 + ((states.filterMap Gathering.visit?).map fun t => 1 + t.decl.interfaces.length).sum :=
  h.length_le (visits_gather ctx)

/-- The steps of the walk through the interfaces of a type are bounded by what the types visited
list. -/
theorem gather_steps_le {r : Except Error (List TypeRef)}
    (h : Loops ctx.gather { pending := [t] } states r) : states.length +
      ((states.filterMap Gathering.visit?).map (·.decl.interfaces.length)).sum ≤
        2 + 2 * ((states.filterMap Gathering.visit?).map ctx.extent).sum := by
  have hturns := length_gather_le h
  have hlisted := List.sum_le_sum (l := states.filterMap Gathering.visit?)
    fun t _ => ctx.length_interfaces_le_extent t
  have hinterfaces := List.sum_le_sum (l := states.filterMap Gathering.visit?)
    fun t _ => (Nat.le_add_left ..).trans (ctx.length_interfaces_le_extent t)
  omega

/-- What the interfaces gathered come to is part of what the types visited list. -/
theorem sum_gathered_le {size : TypeSymbol → Nat} (hsize : ∀ t, size t ≤ t.declared)
    (h : Loops ctx.gather { pending := [t] } states (.ok refs)) :
    (refs.map fun r => 1 + (ctx.findType r).elim 0 size).sum ≤
      ((states.filterMap Gathering.visit?).map ctx.extent).sum := by
  have hdeclared : ∀ r, 1 + (ctx.findType r).elim 0 size ≤
      1 + (ctx.findType r).elim 0 TypeSymbol.declared := by
    intro r
    cases ctx.findType r with
    | none => exact Nat.le_refl _
    | some t => exact Nat.add_le_add_left (hsize t) 1
  refine (List.sum_le_sum fun r _ => hdeclared r).trans ?_
  have hgathered := (sublist_of_gather h).map fun r =>
    1 + (ctx.findType r).elim 0 TypeSymbol.declared
  refine (hgathered.sum_le_sum fun _ _ => Nat.zero_le _).trans ?_
  rw [List.nil_append, List.map_flatMap, List.flatMap, List.sum_flatten, List.map_map]
  exact List.sum_le_sum fun t _ => Nat.le_add_left ..

theorem LooksUp.nodup (h : ctx.LooksUp m visited n x) : (visited.map (·.address)).Nodup := by
  cases h with
  | free | unsigned => exact List.nodup_nil
  | broken _ _ h | dispatched _ _ h => exact (h.nodup (visits_gather ctx)).1

theorem LooksUp.le (h : ctx.LooksUp m visited n x) :
    n ≤ 2 + 3 * (visited.map ctx.extent).sum := by
  cases h with
  | free | unsigned => exact Nat.zero_le _
  | broken _ _ h =>
    have hsteps := gather_steps_le h
    omega
  | dispatched _ _ h =>
    have hsteps := gather_steps_le h
    have hgathered := sum_gathered_le (fun t => Nat.le_add_right t.callables.length _) h
    omega

/-- The interface members, with the properties of their types, are part of what the types visited
list. -/
theorem LooksUp.sum_le (hctx : ctx.WellBuilt) {found : List MethodSymbol}
    (h : ctx.LooksUp m visited n (.ok found)) :
    (found.map fun s => 1 + s.owner.elim 0 (·.properties.length)).sum ≤
      (visited.map ctx.extent).sum := by
  generalize hx : (Except.ok found : Except Error _) = x at h
  cases h with
  | free =>
    cases hx
    exact Nat.zero_le _
  | unsigned | broken => cases hx
  | @dispatched _ _ _ refs _ _ h =>
    have howners := (implementedBy_sublist hctx hx.symm).map fun o =>
      1 + o.elim 0 (·.properties.length)
    have hsum := howners.sum_le_sum fun _ _ => Nat.zero_le _
    simp only [List.map_map] at hsum
    exact hsum.trans (sum_gathered_le (fun t => Nat.le_add_left t.properties.length _) h)

theorem exists_looksUp (hctx : ctx.WellBuilt) (m : MemberSymbol) :
    ∃ visited n, ctx.LooksUp m visited n (ctx.interfaceMethods m).value := by
  cases ho : m.owner with
  | none =>
    rw [interfaceMethods, ho]
    exact ⟨_, _, .free ho⟩
  | some t =>
    rw [value_interfaceMethods ho]
    cases hs : m.decl.signature [] with
    | error e => exact ⟨_, _, .unsigned ho hs⟩
    | ok signature =>
      obtain ⟨states, h⟩ := loops_allInterfaces hctx t
      cases hrefs : ctx.allInterfaces t with
      | error e => exact ⟨_, _, .broken ho hs (hrefs ▸ h)⟩
      | ok refs => exact ⟨_, _, .dispatched ho hs (hrefs ▸ h)⟩

/-! ## Candidates -/

/-- The method through which a member inherits: itself, or the first accessor of a property. -/
def inheritor? (m : MemberSymbol) : Option MethodSymbol :=
  match m.decl with
  | .method d => some ⟨m.address, m.owner, d⟩
  | .property _ => m.accessors.head?
  | _ => none

/-- What the sources of its method make the candidates of a member. -/
def offer (m : MemberSymbol) (sources : List MethodSymbol) : List MemberSymbol :=
  match m.decl with
  | .property p =>
    ((sources.filterMap (sourceProperty? p.name)).filter fun q => q.address ≠ m.address).map
      PropertySymbol.toMember
  | _ => sources.map MethodSymbol.toMember

theorem value_candidates (ctx : Context) (m : MemberSymbol) :
    (ctx.candidates m).value = match inheritor? m with
      | none => .ok []
      | some a => (ctx.methodSources a).value.map (offer m) := by
  obtain ⟨address, owner, decl⟩ := m
  cases decl with
  | method d => exact ctx.value_candidates_method ⟨address, owner, d⟩
  | property p =>
    have hvalue := ctx.value_candidates_property ⟨address, owner, p⟩
    refine hvalue.trans ?_
    unfold propertySources
    change _ = match (PropertySymbol.toMember ⟨address, owner, p⟩).accessors.head? with
      | none => _
      | some a => _
    cases (PropertySymbol.toMember ⟨address, owner, p⟩).accessors with
    | nil => rfl
    | cons a rest =>
      simp only [List.head?_cons]
      rw [(ctx.steady_methodSources a).value_map]
      cases (ctx.methodSources a).value <;> rfl
  | _ => rfl

theorem length_offer_le (m : MemberSymbol) (sources : List MethodSymbol) :
    (offer m sources).length ≤ sources.length := by
  unfold offer
  split
  · rw [List.length_map]
    exact (List.length_filter_le ..).trans (List.length_filterMap_le ..)
  · exact (List.length_map _).le

/-- The steps in which a source of its method makes a candidate of a member. The property of a
source is found among those of its type, first by name and then by accessor. -/
def offerSteps (m : MemberSymbol) (source : MethodSymbol) : Nat :=
  match m.decl with
  | .property _ => 1 + 2 * source.owner.elim 0 (·.properties.length)
  | _ => 1

theorem offerSteps_le (m : MemberSymbol) (source : MethodSymbol) :
    offerSteps m source ≤ 2 * (1 + source.owner.elim 0 (·.properties.length)) := by
  unfold offerSteps
  split
  · omega
  · omega

/-- Finding the candidates of a member: the types visited on the way, the number of steps, and the
outcome. An override root is known; interface members are looked up. -/
inductive Offers (ctx : Context) (m : MemberSymbol) :
    List TypeSymbol → Nat → Except Error (List MemberSymbol) → Prop
  | none : inheritor? m = none → Offers ctx m [] 0 (.ok [])
  | root {a root : MethodSymbol} : inheritor? m = some a → ctx.overrideRoot a = root →
    root.address ≠ a.address →
    Offers ctx m root.owner.toList (offerSteps m root) (.ok (offer m [root]))
  | implemented {a : MethodSymbol} {visited : List TypeSymbol} {n : Nat}
      {found : Except Error (List MethodSymbol)} :
    inheritor? m = some a → (ctx.overrideRoot a).address = a.address →
    ctx.LooksUp a.toMember visited n found →
    Offers ctx m visited (n + ((found.toOption.getD []).map (offerSteps m)).sum)
      (found.map (offer m))

theorem Offers.nodup {x : Except Error (List MemberSymbol)} (h : ctx.Offers m visited n x) :
    (visited.map (·.address)).Nodup := by
  cases h with
  | none => exact List.nodup_nil
  | @root a root => cases root.owner <;> simp
  | implemented _ _ h => exact h.nodup

theorem Offers.le (hctx : ctx.WellBuilt) {x : Except Error (List MemberSymbol)}
    (h : ctx.Offers m visited n x) : n ≤ 2 + 5 * (visited.map ctx.extent).sum := by
  cases h with
  | none => exact Nat.zero_le _
  | @root a root =>
    have hsteps := offerSteps_le m root
    cases ho : root.owner with
    | none =>
      rw [ho, Option.elim_none] at hsteps
      omega
    | some t =>
      have hproperties : 1 + t.properties.length ≤ ctx.extent t := by
        rw [extent, TypeSymbol.declared]
        omega
      rw [ho, Option.elim_some] at hsteps
      rw [Option.toList_some, List.map_singleton, List.sum_singleton]
      omega
  | @implemented a _ n found _ _ h =>
    have hn := h.le
    cases found with
    | error e => exact hn.trans (by omega)
    | ok found =>
      have hsteps : (found.map (offerSteps m)).sum ≤
          2 * (found.map fun s => 1 + s.owner.elim 0 (·.properties.length)).sum := by
        rw [← List.sum_map_mul_left]
        exact List.sum_le_sum fun s _ => offerSteps_le m s
      have hfound := h.sum_le hctx
      change n + (found.map (offerSteps m)).sum ≤ _
      omega

theorem Offers.length_le (hctx : ctx.WellBuilt) {x : Except Error (List MemberSymbol)}
    {next : List MemberSymbol} (h : ctx.Offers m visited n x) (hx : x = .ok next) :
    next.length ≤ 1 + (visited.map ctx.extent).sum := by
  cases h with
  | none =>
    cases hx
    exact Nat.zero_le _
  | root =>
    cases hx
    exact (length_offer_le ..).trans (Nat.le_add_right ..)
  | implemented _ _ h =>
    obtain ⟨found, rfl, rfl⟩ := map_eq_ok.1 hx
    have hoffer := length_offer_le m found
    have hfound := h.sum_le hctx
    rw [sum_map_one_add] at hfound
    omega

theorem exists_offers (hctx : ctx.WellBuilt) (m : MemberSymbol) :
    ∃ visited n, ctx.Offers m visited n (ctx.candidates m).value := by
  rw [value_candidates]
  cases ha : inheritor? m with
  | none => exact ⟨_, _, .none ha⟩
  | some a =>
    simp only [methodSources]
    split
    next hroot =>
      obtain ⟨visited, n, h⟩ := exists_looksUp hctx a.toMember
      exact ⟨visited, _, .implemented ha hroot h⟩
    next hroot => exact ⟨_, _, .root ha rfl hroot⟩

/-! ## Resolving -/

/-- A method or property whose own entry defers. -/
structure Defers (ctx : Context) (m : MemberSymbol) (key : String) : Prop where
  kind : m.decl.kind? = some .method ∨ m.decl.kind? = some .property
  entry : ∃ own, (ctx.entry (.member m)).value = .ok own ∧
    Entry.isDeferred own ctx.settings.documentation.deferTag = true
  key : m.documentationKey = .ok key

/-- What a search goes beyond: members and their keys. -/
def expanded (ctx : Context) (states : List Searching) : List (MemberSymbol × String) :=
  states.filterMap (Searching.expands? ctx)

/-- Resolving a symbol: the keys gone beyond, the types visited for each of them, the number of
steps, and the outcome. -/
inductive Resolves (ctx : Context) :
    Symbol → List String → List (List TypeSymbol) → Nat → Except Error (Option Xml.Node) → Prop
  /-- Where nothing is inherited there is no search. -/
  | direct {s : Symbol} : (∀ m key, s = .member m → ¬ ctx.Defers m key) →
    (∀ p, s = .parameter p → p.member = none) → Resolves ctx s [] [] 0 (ctx.resolve s).value
  | parameter {p : ParameterSymbol} {m : MemberSymbol} {keys : List String}
      {walks : List (List TypeSymbol)} {n : Nat} {x : Except Error (Option Xml.Node)} :
    p.member = some m → Resolves ctx (.member m) keys walks n x →
    Resolves ctx (.parameter p) keys walks n (x.map (Entry.parameter? · p.decl.name))
  | stuck {m : MemberSymbol} {key : String} {visited : List TypeSymbol} {n : Nat} {e : Error} :
    ctx.Defers m key → ctx.Offers m visited n (.error e) →
    Resolves ctx (.member m) [key] [visited] n (.error e)
  /-- A step is a turn of the search, or one in finding the candidates of a key. -/
  | searched {m : MemberSymbol} {key : String} {visited : List TypeSymbol} {n : Nat}
      {next : List MemberSymbol} {states : List Searching} {ending : Except Error Ending}
      {offers : List (List TypeSymbol × Nat)} :
    ctx.Defers m key → ctx.Offers m visited n (.ok next) →
    Loops ctx.look ⟨[key], false, next.map (·, [key])⟩ states ending →
    List.Forall₂ (fun e offer => ctx.Offers e.1 offer.1 offer.2 (ctx.candidates e.1).value)
      (ctx.expanded states) offers →
    Resolves ctx (.member m) (key :: (ctx.expanded states).map Prod.snd)
      (visited :: offers.map Prod.fst) (n + states.length + (offers.map Prod.snd).sum)
      (ending.map Ending.node?)

variable {sym : Symbol} {keys : List String} {walks : List (List TypeSymbol)}
  {y : Except Error (Option Xml.Node)}

theorem Resolves.nodup (h : ctx.Resolves sym keys walks n y) :
    keys.Nodup ∧ ∀ visited ∈ walks, (visited.map (·.address)).Nodup := by
  induction h with
  | direct => exact ⟨List.nodup_nil, by simp⟩
  | parameter _ _ ih => exact ih
  | stuck _ ho => exact ⟨List.nodup_singleton _, List.forall_mem_singleton.2 ho.nodup⟩
  | @searched m key visited n next states ending offers _ ho hsearch hoffers =>
    obtain ⟨hnodup, hnew⟩ := hsearch.nodup (visits_look ctx)
    refine ⟨List.nodup_cons.2 ⟨fun hmem => ?_, hnodup⟩, List.forall_mem_cons.2 ⟨ho.nodup, ?_⟩⟩
    · obtain ⟨e, he, rfl⟩ := List.mem_map.1 hmem
      exact hnew e he List.mem_cons_self
    · intro types htypes
      obtain ⟨offer, hoffer, rfl⟩ := List.mem_map.1 htypes
      obtain ⟨e, -, h⟩ := exists_of_mem_right hoffers hoffer
      exact h.nodup

/-- A member that defers is searched for. -/
theorem Resolves.key_mem (h : ctx.Resolves (.member m) keys walks n y) {key : String}
    (hdefers : ctx.Defers m key) : key ∈ keys := by
  cases h with
  | direct hdirect => exact absurd hdefers (hdirect m key rfl)
  | stuck h => exact Except.ok.inj (hdefers.key.symm.trans h.key) ▸ List.mem_cons_self
  | searched h => exact Except.ok.inj (hdefers.key.symm.trans h.key) ▸ List.mem_cons_self

/-- The steps of finding the candidates of members, and the candidates themselves, are bounded by
what is visited for them. -/
theorem offers_le (hctx : ctx.WellBuilt) {members : List (MemberSymbol × String)}
    {offers : List (List TypeSymbol × Nat)}
    (h : List.Forall₂ (fun e offer => ctx.Offers e.1 offer.1 offer.2 (ctx.candidates e.1).value)
      members offers) :
    (members.map fun e => ctx.candidateCount e.1).sum + (offers.map Prod.snd).sum ≤
      ((offers.map Prod.fst).map fun visited => 3 + 6 * (visited.map ctx.extent).sum).sum := by
  induction h with
  | nil => exact Nat.le_refl 0
  | @cons e offer members offers hoffer _ ih =>
    have hn := hoffer.le hctx
    have hcount : ctx.candidateCount e.1 ≤ 1 + (offer.1.map ctx.extent).sum := by
      unfold candidateCount
      cases hx : (ctx.candidates e.1).value with
      | error => exact Nat.zero_le _
      | ok next => exact hoffer.length_le hctx hx
    simp only [List.map_cons, List.sum_cons]
    omega

theorem Resolves.le (hctx : ctx.WellBuilt) (h : ctx.Resolves sym keys walks n y) :
    n ≤ 1 + (walks.map fun visited => 3 + 6 * (visited.map ctx.extent).sum).sum := by
  induction h with
  | direct => exact Nat.zero_le _
  | parameter _ _ ih => exact ih
  | stuck _ ho =>
    have hn := ho.le hctx
    rw [List.map_singleton, List.sum_singleton]
    omega
  | @searched m key visited n next states ending offers _ ho hsearch hoffers =>
    have hturns := hsearch.length_le (visits_look ctx)
    have hn := ho.le hctx
    have hnext := ho.length_le hctx rfl
    have hoffers := offers_le hctx hoffers
    rw [expanded] at hoffers
    rw [List.length_map] at hturns
    rw [List.map_cons, List.sum_cons]
    omega

theorem exists_forall₂_offers (hctx : ctx.WellBuilt) (members : List (MemberSymbol × String)) :
    ∃ offers : List (List TypeSymbol × Nat), List.Forall₂ (fun e offer =>
      ctx.Offers e.1 offer.1 offer.2 (ctx.candidates e.1).value) members offers := by
  induction members with
  | nil => exact ⟨[], .nil⟩
  | cons e members ih =>
    obtain ⟨offers, h⟩ := ih
    obtain ⟨visited, n, ho⟩ := exists_offers hctx e.1
    exact ⟨(visited, n) :: offers, .cons ho h⟩

theorem exists_resolves_member (hctx : ctx.WellBuilt) (m : MemberSymbol) :
    ∃ keys walks n, ctx.Resolves (.member m) keys walks n (ctx.resolve (.member m)).value := by
  by_cases hdefers : ∃ key, ctx.Defers m key
  case neg =>
    refine ⟨_, _, _, .direct ?_ fun p h => nomatch h⟩
    rintro m key hm h
    cases hm
    exact hdefers ⟨key, h⟩
  obtain ⟨key, h⟩ := hdefers
  obtain ⟨own, hown, hdefer⟩ := h.entry
  obtain ⟨visited, n, ho⟩ := exists_offers hctx m
  rw [(yields_resolve h.kind hown hdefer).value_eq, h.key]
  cases hn : (ctx.candidates m).value with
  | error e => exact ⟨_, _, _, .stuck h (hn ▸ ho)⟩
  | ok next =>
    have hpending : ∀ e ∈ next.map (·, [key]), ctx.catalog.Inherits e.1 := by
      intro e he
      obtain ⟨m', hm', rfl⟩ := List.mem_map.1 he
      exact inherits_of_mem_candidates hctx hn hm'
    have hfresh : ∀ m k, ctx.catalog.Inherits m → m.documentationKey = .ok k →
        (k ∈ entering ctx.memberKeys key ↔ k ∉ [key]) := fun m k hm hk => mem_entering hm hk
    obtain ⟨states, hsearch⟩ := loops_search hctx hpending hfresh false
    obtain ⟨offers, hoffers⟩ := exists_forall₂_offers hctx (ctx.expanded states)
    exact ⟨_, _, _, .searched h (hn ▸ ho) hsearch hoffers⟩

theorem exists_resolves (hctx : ctx.WellBuilt) (sym : Symbol) :
    ∃ keys walks n, ctx.Resolves sym keys walks n (ctx.resolve sym).value := by
  cases sym with
  | type t => exact ⟨_, _, _, .direct (fun _ _ h => nomatch h) fun _ h => nomatch h⟩
  | member m => exact exists_resolves_member hctx m
  | parameter p =>
    cases hp : p.member with
    | none =>
      refine ⟨_, _, _, .direct (fun _ _ h => nomatch h) fun q hq => ?_⟩
      cases hq
      exact hp
    | some m =>
      obtain ⟨keys, walks, n, h⟩ := exists_resolves_member hctx m
      have hvalue : (ctx.resolve (.parameter p)).value =
          (ctx.resolve (.member m)).value.map (Entry.parameter? · p.decl.name) := by
        simp only [resolve, hp, value, result_bind]
        cases (ctx.resolveDirect (.member m)).result {} with
        | mk x j => cases x <;> rfl
      rw [hvalue]
      exact ⟨keys, walks, n, .parameter hp h⟩

/-- No metadata makes a run hang. The hierarchy of any catalog is built, the interfaces of a type
and the interface members of a member are worked out and a symbol is resolved in runs that visit no
type and go beyond no key twice. Their steps are bounded by what the visited types list: methods for
the walks up the base types, otherwise methods and properties, bases, and interfaces with the methods
and properties of these. -/
theorem runs_end (c : Catalog) (hctx : ctx.WellBuilt) :
    (∃ walks n, Hierarchy.Builds c walks n (Hierarchy.build c) ∧
      (∀ visited ∈ walks, (visited.map (·.address)).Nodup) ∧
      n ≤ (c.types.flatMap TypeSymbol.symbols).length +
        2 * (c.types.flatMap TypeSymbol.callables).length +
        (walks.map fun visited => 1 + (visited.map fun t => 1 + t.callables.length).sum).sum) ∧
    (∀ t, ∃ states, Loops ctx.gather { pending := [t] } states (ctx.allInterfaces t) ∧
      ((states.filterMap Gathering.visit?).map (·.address)).Nodup ∧ states.length ≤
        2 + ((states.filterMap Gathering.visit?).map fun t => 1 + t.decl.interfaces.length).sum) ∧
    (∀ m, ∃ visited n, ctx.LooksUp m visited n (ctx.interfaceMethods m).value ∧
      (visited.map (·.address)).Nodup ∧ n ≤ 2 + 3 * (visited.map ctx.extent).sum) ∧
    ∀ sym, ∃ keys walks n, ctx.Resolves sym keys walks n (ctx.resolve sym).value ∧ keys.Nodup ∧
      (∀ visited ∈ walks, (visited.map (·.address)).Nodup) ∧
      n ≤ 1 + (walks.map fun visited => 3 + 6 * (visited.map ctx.extent).sum).sum := by
  refine ⟨?_, fun t => ?_, fun m => ?_, fun sym => ?_⟩
  · obtain ⟨walks, n, h⟩ := Hierarchy.exists_builds c
    exact ⟨walks, n, h, h.le.1, h.le.2⟩
  · obtain ⟨states, h⟩ := loops_allInterfaces hctx t
    exact ⟨states, h, (h.nodup (visits_gather ctx)).1, length_gather_le h⟩
  · obtain ⟨visited, n, h⟩ := exists_looksUp hctx m
    exact ⟨visited, n, h, h.nodup, h.le⟩
  · obtain ⟨keys, walks, n, h⟩ := exists_resolves hctx sym
    exact ⟨keys, walks, n, h, h.nodup.1, h.nodup.2, h.le hctx⟩

/-- A doll that extends a doll of dolls, a shelf that extends itself, and two interfaces that extend
each other, of which the second also extends itself. -/
def dollsCatalog : Catalog :=
  let put (modifier : String) : Member :=
    .method { name := "Put", modifiers := ["public", modifier] }
  let doll (content : TypeRef) : TypeRef := .named "Zoo" "Doll`1" [content] none
  { units := [
      { name := "Zoo"
        types := [
          { ref := .named "Zoo" "Doll`1" [] none, members := [put "override"]
            base := some (doll (doll { shape := .parameter, name := "T" })) },
          { ref := .named "Zoo" "IPut" [] none, category := .interfaceType
            members := [put "abstract"]
            interfaces := [.named "Zoo" "IShelf" [] none] },
          { ref := .named "Zoo" "IShelf" [] none, category := .interfaceType
            members := [put "abstract"]
            interfaces := [.named "Zoo" "IPut" [] none, .named "Zoo" "IShelf" [] none] },
          { ref := .named "Zoo" "Shelf" [] none, members := [put "virtual"]
            base := some (.named "Zoo" "Shelf" [] none)
            interfaces := [.named "Zoo" "IPut" [] none] }] }] }

/-- Putting on a shelf is documented as it is where it comes from. -/
def dolls : Context :=
  { Context.ofCatalog dollsCatalog with
    outcomes := [("Zoo", .ok (.ready [("M:Zoo.Shelf.Put",
      .element (.plain "member") [] [.element (.plain "inheritdoc") [] []])] 0))] }

def doll (type : Nat) : TypeSymbol :=
  dollsCatalog.types[type]?.getD ⟨⟨.detached 0, []⟩, none, { ref := .void }⟩

/-- The method of one of the types. -/
def dollPut (type : Nat) : MemberSymbol :=
  (doll type).members.headD ⟨⟨.detached 0, []⟩, none, .unclassified { name := "" }⟩

theorem dolls_wellBuilt : dolls.WellBuilt where
  hierarchy := by cbv
  dispatches := by simp [dolls, ofCatalog]

theorem runs_end_dolls :
    (dolls.Ascends (doll 0) (doll 0) ∧ dolls.Ascends (doll 1) (doll 2) ∧
      dolls.Ascends (doll 2) (doll 1) ∧ dolls.Ascends (doll 3) (doll 3)) ∧
    (∃ walks n, Hierarchy.Builds dollsCatalog walks n (.ok dolls.hierarchy) ∧
      ∀ visited ∈ walks, (visited.map (·.address)).Nodup) ∧
    (∃ states refs, Loops dolls.gather { pending := [doll 3] } states (.ok refs) ∧ refs.length = 2 ∧
      ((states.filterMap Gathering.visit?).map (·.address)).Nodup) ∧
    (∃ visited n, dolls.LooksUp (dollPut 3) visited n (dolls.interfaceMethods (dollPut 3)).value ∧
      (visited.map (·.address)).Nodup ∧ n ≤ 2 + 3 * (visited.map dolls.extent).sum) ∧
    ∃ keys walks n, dolls.Resolves (.member (dollPut 3)) keys walks n
        (dolls.resolve (.member (dollPut 3))).value ∧
      "M:Zoo.Shelf.Put" ∈ keys ∧ keys.Nodup ∧
      n ≤ 1 + (walks.map fun visited => 3 + 6 * (visited.map dolls.extent).sum).sum := by
  have hdefers : dolls.Defers (dollPut 3) "M:Zoo.Shelf.Put" :=
    ⟨.inl (by cbv), ⟨_, by cbv, by cbv⟩, by cbv⟩
  have hlength : (dolls.allInterfaces (doll 3)).map List.length = .ok 2 := by cbv
  obtain ⟨⟨walks, n, hbuild, hwalks, -⟩, hgather, hlooksUp, hresolves⟩ :=
    runs_end dollsCatalog dolls_wellBuilt
  obtain ⟨states, hstates, hvisited, -⟩ := hgather (doll 3)
  obtain ⟨keys, walks', n', h, hkeys, -, hn⟩ := hresolves (.member (dollPut 3))
  obtain ⟨refs, hrefs, hlength⟩ := map_eq_ok.1 hlength
  refine ⟨⟨?_, ?_, ?_, ?_⟩, ⟨walks, n, ?_, hwalks⟩,
    ⟨states, refs, hrefs ▸ hstates, hlength, hvisited⟩, hlooksUp (dollPut 3), keys, walks', n', h,
    h.key_mem hdefers, hkeys, hn⟩
  · exact ⟨_, .head _, by cbv⟩
  · exact ⟨_, .head _, by cbv⟩
  · exact ⟨_, .head _, by cbv⟩
  · exact ⟨_, .tail _ (.head _), by cbv⟩
  · rw [← dolls_wellBuilt.hierarchy]
    exact hbuild

end Context

end ApiDoc
