import Mathlib
import ApiDoc.Proofs.InterfaceWalk

/-!
# The interfaces of a type

The interfaces that are gathered for a type are told apart by their keys, and their keys are those
of the interfaces written in the interface lists of the types that it reaches
(`Context.allInterfaces_closure`). Its own come first, of each key the first
(`TypeRef.firstOfEachKey`). Interfaces may extend each other in a circle, and the type may stand
outside all units.
-/

namespace ApiDoc

namespace TypeRef

/-- The key in parameter lists, if there is one. -/
def parameterKey? (r : TypeRef) : Option String := (r.key true).toOption

/-- The references of a list without those whose key an earlier one has. -/
def firstOfEachKey : List TypeRef → List TypeRef
  | [] => []
  | r :: rest => r :: (firstOfEachKey rest).filter fun r' => r'.parameterKey? ≠ r.parameterKey?

theorem parameterKey?_eq {r : TypeRef} {k : String} (h : r.key true = .ok k) :
    r.parameterKey? = some k := by
  rw [parameterKey?, h]
  rfl

/-- The references have the keys, one each. -/
abbrev HaveKeys (refs : List TypeRef) (keys : List String) : Prop :=
  List.Forall₂ (fun r k => r.key true = .ok k) refs keys

end TypeRef

namespace Context

variable {ctx : Context} {t : TypeSymbol} {known known' : List String} {refs found : List TypeRef}
  {unseen pending : List TypeSymbol}

/-! ## One interface list -/

/-- What is taken from a list are the first of each key, as far as their keys were not known. -/
theorem newInterfaces_eq_filter (h : newInterfaces known refs = .ok (found, known')) :
    found = (TypeRef.firstOfEachKey refs).filter fun r => r.parameterKey? ∉ known.map some := by
  induction refs generalizing known found known' with
  | nil =>
    cases h
    rfl
  | cons r refs ih =>
    obtain ⟨key, hkey, h⟩ := bind_eq_ok.1 h
    have hr := TypeRef.parameterKey?_eq hkey
    rw [TypeRef.firstOfEachKey, List.filter_cons, List.filter_filter, hr]
    split at h
    next hmem =>
      have hknown : some key ∈ known.map some := List.mem_map_of_mem (List.contains_iff_mem.1 hmem)
      rw [if_neg (by simpa using hknown), ih h]
      refine List.filter_congr fun r' _ => ?_
      by_cases heq : r'.parameterKey? = some key <;> simp [heq, hknown]
    next hmem =>
      obtain ⟨⟨more, known''⟩, hmore, h⟩ := bind_eq_ok.1 h
      cases h
      rw [if_pos (by simpa using hmem), ih hmore]
      refine congrArg (r :: ·) (List.filter_congr fun r' _ => ?_)
      rw [Bool.and_comm]
      simp [not_or, Bool.and_comm]

/-- The keys taken over are those of the interfaces found. -/
theorem newInterfaces_keys (h : newInterfaces known refs = .ok (found, known')) :
    ∃ keys, TypeRef.HaveKeys found keys ∧ known' = known ++ keys ∧ (known.Nodup → known'.Nodup) := by
  induction refs generalizing known found known' with
  | nil =>
    cases h
    exact ⟨[], .nil, (List.append_nil _).symm, id⟩
  | cons r refs ih =>
    obtain ⟨key, hkey, h⟩ := bind_eq_ok.1 h
    split at h
    next => exact ih h
    next hmem =>
      obtain ⟨⟨more, known''⟩, hmore, h⟩ := bind_eq_ok.1 h
      cases h
      obtain ⟨keys, hkeys, rfl, hnodup⟩ := ih hmore
      refine ⟨key :: keys, .cons hkey hkeys, List.append_assoc .., fun hknown => hnodup ?_⟩
      have hnew : key ∉ known := fun hin => hmem (List.contains_iff_mem.2 hin)
      exact List.nodup_append.2 ⟨hknown, List.nodup_cons.2 ⟨List.not_mem_nil, .nil⟩, fun a ha b hb heq =>
        hnew (List.mem_singleton.1 hb ▸ heq ▸ ha)⟩

/-! ## The walk -/

/-- The interfaces gathered have distinct keys, none of which was known before. -/
theorem gatherInterfaces_keys (h : ctx.gatherInterfaces unseen known pending = .ok refs) :
    ∃ keys, TypeRef.HaveKeys refs keys ∧ (known.Nodup → (known ++ keys).Nodup) := by
  induction unseen, known, pending using gatherInterfaces.induct ctx generalizing refs with
  | case1 =>
    rw [gatherInterfaces] at h
    cases h
    exact ⟨[], .nil, fun h => by rwa [List.append_nil]⟩
  | case2 unseen known t pending hu ih =>
    obtain ⟨found, known', more, hfound, hmore, rfl⟩ := gatherInterfaces_cons_eq_ok hu h
    obtain ⟨own, hown, rfl, hnodup⟩ := newInterfaces_keys hfound
    obtain ⟨keys, hkeys, hrest⟩ := ih found _ hmore
    refine ⟨own ++ keys, List.rel_append hown hkeys, fun hknown => ?_⟩
    rw [← List.append_assoc]
    exact hrest (hnodup hknown)
  | case3 unseen known t pending hu ih =>
    rw [gatherInterfaces_seen hu] at h
    exact ih h

/-- The interface list of a type comes first among its interfaces, of each key the first. -/
theorem firstOfEachKey_isPrefix (h : ctx.allInterfaces t = .ok refs) :
    TypeRef.firstOfEachKey t.decl.interfaces <+: refs := by
  obtain ⟨found, known', more, hfound, -, rfl⟩ :=
    gatherInterfaces_cons_eq_ok (by simp [Unseen]) h
  have hall := newInterfaces_eq_filter hfound
  simp only [List.map_nil, List.not_mem_nil, not_false_eq_true, decide_true, List.filter_true] at hall
  exact hall ▸ List.prefix_append _ _

/-! ## The types that a type reaches -/

/-- The types that a type of the catalog reaches are told by their addresses. -/
theorem closed_reached (hctx : ctx.WellBuilt) (ht : ctx.catalog.type? t.address = some t)
    (hone : ∀ r r', ctx.Writes t r → ctx.Writes t r' → TypeRef.SameKey r r' →
      ctx.findType r = ctx.findType r') :
    ctx.Closed (Relation.ReflTransGen ctx.Ascends t) where
  next _ _ hu h := hu.tail h
  ext u v hu hv haddress := by
    have hplace : ∀ w, Relation.ReflTransGen ctx.Ascends t w →
        ctx.catalog.type? w.address = some w := by
      intro w hw
      cases hw with
      | refl => exact ht
      | tail _ h => exact Catalog.type?_type (h.mem hctx)
    exact Option.some.inj ((hplace u hu).symm.trans (haddress ▸ hplace v hv))
  oneDefinition u v hu hv r hr r' hr' := hone r r' ⟨u, hu, hr⟩ ⟨v, hv, hr'⟩

/-- The interfaces of a type, loaded or not, have distinct keys, and these are the keys of the
interfaces written in the lists of the types that it reaches by bases and interfaces. Its own
interfaces come first. -/
theorem allInterfaces_closure (hctx : ctx.WellBuilt) (ht : ctx.catalog.type? t.address = some t)
    (hkeys : ∀ r, ctx.Writes t r → ∃ k, r.key true = .ok k)
    (hone : ∀ r r', ctx.Writes t r → ctx.Writes t r' → TypeRef.SameKey r r' →
      ctx.findType r = ctx.findType r') :
    ∃ refs keys, ctx.allInterfaces t = .ok refs ∧ TypeRef.HaveKeys refs keys ∧ keys.Nodup ∧
      (∀ k, k ∈ keys ↔ ∃ r, ctx.Writes t r ∧ r.key true = .ok k) ∧
      TypeRef.firstOfEachKey t.decl.interfaces <+: refs := by
  have hclosed := closed_reached hctx ht hone
  obtain ⟨refs, hrefs⟩ := exists_gatherInterfaces hclosed.next
    (fun u hu r hr => hkeys r ⟨u, hu, hr⟩) (List.forall_mem_singleton.2 .refl)
    (t :: Hierarchy.without ctx.catalog.types t.address) []
  obtain ⟨keys, hrefsKeys, hnodup⟩ := gatherInterfaces_keys hrefs
  have hmem : ∀ k, k ∈ keys ↔ ∃ r ∈ refs, r.key true = .ok k := by
    intro k
    constructor
    · exact exists_of_mem_right hrefsKeys
    · rintro ⟨r, hr, hk⟩
      obtain ⟨k', hk', hr'⟩ := exists_of_mem_left hrefsKeys hr
      cases hk.symm.trans hr'
      exact hk'
  refine ⟨refs, keys, hrefs, hrefsKeys, hnodup .nil, fun k => ?_, firstOfEachKey_isPrefix hrefs⟩
  rw [hmem]
  constructor
  · rintro ⟨r, hr, hk⟩
    exact ⟨r, written_of_mem_allInterfaces hrefs r hr, hk⟩
  · rintro ⟨r, hr, hk⟩
    obtain ⟨r', hr', k', hk', hrk'⟩ := hclosed.exists_sameKey_of_written hctx .refl hrefs hr
    cases hk.symm.trans hk'
    exact ⟨r', hr', hrk'⟩

/-- What runs can walk and what walks can run. A dog says twice that it runs, and it is an animal,
which walks and can be compared; the interface of what can be compared is not loaded. -/
def walkersCatalog : Catalog :=
  let zoo (name : String) : TypeRef := .named "Zoo" name [] none
  { units := [
      { name := "Zoo"
        types := [
          { ref := zoo "IRun", category := .interfaceType, interfaces := [zoo "IWalk"] },
          { ref := zoo "IWalk", category := .interfaceType, interfaces := [zoo "IRun"] },
          { ref := zoo "Animal", interfaces := [zoo "IWalk", .system "IComparable"] },
          { ref := zoo "Dog", base := some (zoo "Animal"), interfaces := [zoo "IRun", zoo "IRun"] }] }] }

def walkers : Context := .ofCatalog walkersCatalog

def walker (type : Nat) : TypeSymbol :=
  walkersCatalog.types[type]?.getD ⟨⟨.detached 0, []⟩, none, { ref := .void }⟩

theorem walkers_wellBuilt : walkers.WellBuilt := wellBuilt_ofCatalog (by cbv)

/-- Three interfaces are written in the catalog. -/
theorem walkers_interfaces : ∀ u ∈ walkers.catalog.types, ∀ r ∈ u.decl.interfaces,
    r = .named "Zoo" "IRun" [] none ∨ r = .named "Zoo" "IWalk" [] none ∨
      r = .system "IComparable" := by
  simp [walkers, Context.ofCatalog, walkersCatalog, Catalog.types, Catalog.unitSymbols,
    UnitSymbol.types]

theorem allInterfaces_closure_walkers :
    ∃ refs keys, walkers.allInterfaces (walker 3) = .ok refs ∧ TypeRef.HaveKeys refs keys ∧
      keys.Nodup ∧
      (∀ k, k ∈ keys ↔ ∃ r, walkers.Writes (walker 3) r ∧ r.key true = .ok k) ∧
      TypeRef.firstOfEachKey (walker 3).decl.interfaces <+: refs := by
  have hrun : (TypeRef.named "Zoo" "IRun" [] none).key true = .ok "Zoo.IRun" := by cbv
  have hwalk : (TypeRef.named "Zoo" "IWalk" [] none).key true = .ok "Zoo.IWalk" := by cbv
  have hcompare : (TypeRef.system "IComparable").key true = .ok "System.IComparable" := by cbv
  have hwrites : ∀ r, walkers.Writes (walker 3) r → r = .named "Zoo" "IRun" [] none ∨
      r = .named "Zoo" "IWalk" [] none ∨ r = .system "IComparable" := by
    intro r hr
    obtain ⟨u, hu, hru⟩ :=
      hr.exists_mem walkers_wellBuilt (.tail _ (.tail _ (.tail _ (.head _))))
    exact walkers_interfaces u hu r hru
  refine allInterfaces_closure walkers_wellBuilt (by cbv) (fun r hr => ?_) fun r r' hr hr' hsame => ?_
  · rcases hwrites r hr with rfl | rfl | rfl
    exacts [⟨_, hrun⟩, ⟨_, hwalk⟩, ⟨_, hcompare⟩]
  · -- the three have different keys
    obtain ⟨k, hk, hk'⟩ := hsame
    rcases hwrites r hr with rfl | rfl | rfl <;> rcases hwrites r' hr' with rfl | rfl | rfl <;>
      first | rfl | simp_all

end Context
end ApiDoc
