import Mathlib.Logic.Relation
import ApiDoc.Hierarchy.Interfaces
import ApiDoc.Proofs.Substitution
import ApiDoc.Proofs.WellBuilt

/-!
# Walking through interfaces

The interfaces of a type are gathered from the interface lists of all types that it reaches
through bases and interfaces, as they are written there, one for each key. Each interface gathered
is written in such a list (`written_of_mem_allInterfaces`), and as long as interfaces of one key
have one definition, each that is written has its key among those gathered
(`Closed.exists_sameKey_of_written`). The invariant of the walk is `Queued`: where an interface of a
known key leads is pending or has been seen.
-/

namespace ApiDoc.Context

variable {ctx : Context} {t u v : TypeSymbol} {known known' : List String}
  {refs found : List TypeRef}
  {unseen pending : List TypeSymbol} {P : TypeSymbol → Prop}

/-- A type has another as an interface or as its base. -/
def Ascends (ctx : Context) (u v : TypeSymbol) : Prop :=
  ∃ ref ∈ u.decl.interfaces ++ u.decl.base.toList, ctx.findType ref = some v

/-- An interface is written in the interface list of a type or of one that the type reaches. -/
def Writes (ctx : Context) (t : TypeSymbol) (ref : TypeRef) : Prop :=
  ∃ u, Relation.ReflTransGen ctx.Ascends t u ∧ ref ∈ u.decl.interfaces

theorem Ascends.mem (hctx : ctx.WellBuilt) (h : ctx.Ascends u v) : v ∈ ctx.catalog.types := by
  obtain ⟨ref, -, hv⟩ := h
  exact hctx.mem_of_findType hv

theorem Writes.exists_mem (hctx : ctx.WellBuilt) (ht : t ∈ ctx.catalog.types) {r : TypeRef}
    (h : ctx.Writes t r) : ∃ u ∈ ctx.catalog.types, r ∈ u.decl.interfaces := by
  obtain ⟨u, hreach, hr⟩ := h
  cases hreach with
  | refl => exact ⟨t, ht, hr⟩
  | tail _ hascends => exact ⟨u, hascends.mem hctx, hr⟩

/-! ## One interface list -/

theorem newInterfaces_eq_ok (h : newInterfaces known refs = .ok (found, known')) :
    (∀ r ∈ found, r ∈ refs) ∧ (∀ k, k ∈ known' ↔ k ∈ known ∨ ∃ r ∈ found, r.key true = .ok k) ∧
      ∀ r ∈ refs, ∃ k ∈ known', r.key true = .ok k := by
  induction refs generalizing known found known' with
  | nil =>
    cases h
    simp
  | cons r refs ih =>
    obtain ⟨key, hkey, h⟩ := bind_eq_ok.1 h
    split at h
    next hmem =>
      obtain ⟨hfound, hknown, hrefs⟩ := ih h
      refine ⟨fun r' hr' => List.mem_cons_of_mem _ (hfound r' hr'), hknown, ?_⟩
      refine List.forall_mem_cons.2 ⟨⟨key, ?_, hkey⟩, hrefs⟩
      exact (hknown key).2 (.inl (List.contains_iff_mem.1 hmem))
    next =>
      obtain ⟨⟨more, known''⟩, hmore, h⟩ := bind_eq_ok.1 h
      cases h
      obtain ⟨hfound, hknown, hrefs⟩ := ih hmore
      refine ⟨?_, fun k => ?_, ?_⟩
      · exact List.forall_mem_cons.2 ⟨List.mem_cons_self, fun r' hr' =>
          List.mem_cons_of_mem _ (hfound r' hr')⟩
      · rw [hknown, List.mem_append, List.mem_singleton]
        simp [hkey, eq_comm, or_assoc]
      · refine List.forall_mem_cons.2 ⟨⟨key, ?_, hkey⟩, hrefs⟩
        exact (hknown key).2 (.inl (List.mem_append_right _ List.mem_cons_self))

theorem exists_newInterfaces (h : ∀ r ∈ refs, ∃ k, r.key true = .ok k) (known : List String) :
    ∃ out, newInterfaces known refs = .ok out := by
  induction refs generalizing known with
  | nil => exact ⟨_, rfl⟩
  | cons r refs ih =>
    obtain ⟨key, hkey⟩ := h r List.mem_cons_self
    have hrefs := fun r hr => h r (List.mem_cons_of_mem _ hr)
    rw [newInterfaces, hkey]
    change ∃ out, (if known.contains key then _ else _) = _
    split
    · exact ih hrefs known
    · obtain ⟨out, hout⟩ := ih hrefs (known ++ [key])
      exact ⟨_, bind_eq_ok.2 ⟨out, hout, rfl⟩⟩

/-! ## The walk -/

/-- A type that is still unseen. -/
def Unseen (unseen : List TypeSymbol) (t : TypeSymbol) : Prop :=
  unseen.any (fun u => u.address = t.address) = true

theorem unseen_without : Unseen (Hierarchy.without unseen t.address) u ↔
    Unseen unseen u ∧ u.address ≠ t.address := by
  simp only [Unseen, List.any_eq_true, Hierarchy.without, List.mem_filter, ne_eq, decide_not,
    Bool.not_eq_eq_eq_not, Bool.not_true, decide_eq_false_iff_not, decide_eq_true_eq]
  grind

/-- Types among which a walk stays: they are closed under bases and interfaces, a type of them is
told by its address, and their interfaces of one key have one definition. -/
structure Closed (ctx : Context) (P : TypeSymbol → Prop) : Prop where
  next : ∀ u v, P u → ctx.Ascends u v → P v
  ext : ∀ u v, P u → P v → u.address = v.address → u = v
  oneDefinition : ∀ u v, P u → P v → ∀ r ∈ u.decl.interfaces, ∀ r' ∈ v.decl.interfaces,
    TypeRef.SameKey r r' → ctx.findType r = ctx.findType r'

theorem Closed.eq_or_unseen_without (hP : ctx.Closed P) (ht : P t) (hv : P v)
    (h : Unseen unseen v) : v = t ∨ Unseen (Hierarchy.without unseen t.address) v := by
  by_cases haddress : v.address = t.address
  · exact .inl (hP.ext v t hv ht haddress)
  · exact .inr (unseen_without.2 ⟨h, haddress⟩)

/-- The types that one adds to what is pending. -/
def definitions (ctx : Context) (t : TypeSymbol) (found : List TypeRef) : List TypeSymbol :=
  found.filterMap ctx.findType ++ (t.decl.base.bind ctx.findType).toList

theorem mem_definitions : v ∈ ctx.definitions t found ↔
    (∃ r ∈ found, ctx.findType r = some v) ∨ ∃ b, t.decl.base = some b ∧ ctx.findType b =
      some v := by
  simp [definitions, Option.bind_eq_some_iff]

theorem Ascends.of_mem_definitions (hfound : ∀ r ∈ found, r ∈ t.decl.interfaces)
    (h : v ∈ ctx.definitions t found) : ctx.Ascends t v := by
  rcases mem_definitions.1 h with ⟨r, hr, hv⟩ | ⟨b, hb, hv⟩
  · exact ⟨r, List.mem_append_left _ (hfound r hr), hv⟩
  · exact ⟨b, List.mem_append_right _ (Option.mem_toList.2 hb), hv⟩

theorem gatherInterfaces_cons_eq_ok (hu : Unseen unseen t)
    (h : ctx.gatherInterfaces unseen known (t :: pending) = .ok refs) :
    ∃ found known' more, newInterfaces known t.decl.interfaces = .ok (found, known') ∧
      ctx.gatherInterfaces (Hierarchy.without unseen t.address) known'
        (pending ++ ctx.definitions t found) = .ok more ∧ refs = found ++ more := by
  unfold Unseen at hu
  rw [gatherInterfaces, dif_pos hu] at h
  obtain ⟨⟨found, known'⟩, hfound, h⟩ := bind_eq_ok.1 h
  obtain ⟨more, hmore, h⟩ := bind_eq_ok.1 h
  cases h
  exact ⟨found, known', more, hfound, hmore, rfl⟩

theorem gatherInterfaces_seen (hu : ¬ Unseen unseen t) :
    ctx.gatherInterfaces unseen known (t :: pending) =
      ctx.gatherInterfaces unseen known pending := by
  unfold Unseen at hu
  rw [gatherInterfaces, dif_neg hu]

/-- Only what is written in the interface list of a type reached is gathered. -/
theorem exists_of_mem_gatherInterfaces
    (hP : ∀ u v, P u → ctx.Ascends u v → P v) (hpending : ∀ u ∈ pending, P u)
    (h : ctx.gatherInterfaces unseen known pending = .ok refs) :
    ∀ r ∈ refs, ∃ u, P u ∧ r ∈ u.decl.interfaces := by
  induction unseen, known, pending using gatherInterfaces.induct ctx generalizing refs with
  | case1 =>
    rw [gatherInterfaces] at h
    cases h
    simp
  | case2 unseen known t pending hu ih =>
    obtain ⟨found, known', more, hfound, hmore, rfl⟩ := gatherInterfaces_cons_eq_ok hu h
    obtain ⟨hsub, -, -⟩ := newInterfaces_eq_ok hfound
    obtain ⟨ht, hpending⟩ := List.forall_mem_cons.1 hpending
    refine List.forall_mem_append.2 ⟨fun r hr => ⟨t, ht, hsub r hr⟩, ih found known' ?_ hmore⟩
    exact List.forall_mem_append.2 ⟨hpending, fun v hv => hP t v ht (.of_mem_definitions hsub hv)⟩
  | case3 unseen known t pending hu ih =>
    rw [gatherInterfaces_seen hu] at h
    exact ih (List.forall_mem_cons.1 hpending).2 h

/-- The walk succeeds if each interface has a key. -/
theorem exists_gatherInterfaces (hP : ∀ u v, P u → ctx.Ascends u v → P v)
    (hkeys : ∀ u, P u → ∀ r ∈ u.decl.interfaces, ∃ k, r.key true = .ok k)
    (hpending : ∀ u ∈ pending, P u) (unseen : List TypeSymbol) (known : List String) :
    ∃ refs, ctx.gatherInterfaces unseen known pending = .ok refs := by
  induction unseen, known, pending using gatherInterfaces.induct ctx with
  | case1 => exact ⟨[], by rw [gatherInterfaces]⟩
  | case2 unseen known t pending hu ih =>
    obtain ⟨ht, hpending⟩ := List.forall_mem_cons.1 hpending
    obtain ⟨⟨found, known'⟩, hfound⟩ := exists_newInterfaces (hkeys t ht) known
    obtain ⟨hsub, -, -⟩ := newInterfaces_eq_ok hfound
    obtain ⟨more, hmore⟩ := ih found known' (List.forall_mem_append.2
      ⟨hpending, fun v hv => hP t v ht (.of_mem_definitions hsub hv)⟩)
    rw [gatherInterfaces, dif_pos hu]
    exact ⟨found ++ more, bind_eq_ok.2 ⟨_, hfound, bind_eq_ok.2 ⟨more, hmore, rfl⟩⟩⟩
  | case3 unseen known t pending hu ih =>
    rw [gatherInterfaces_seen hu]
    exact ih (List.forall_mem_cons.1 hpending).2

/-- Interfaces of the catalog with one key have one definition. -/
def OneDefinition (ctx : Context) : Prop :=
  ∀ u ∈ ctx.catalog.types, ∀ v ∈ ctx.catalog.types, ∀ r ∈ u.decl.interfaces,
    ∀ r' ∈ v.decl.interfaces, TypeRef.SameKey r r' → ctx.findType r = ctx.findType r'

theorem OneDefinition.closed_types (hctx : ctx.WellBuilt) (hone : ctx.OneDefinition) :
    ctx.Closed (· ∈ ctx.catalog.types) where
  next _ _ _ h := h.mem hctx
  ext _ _ := Catalog.type_ext
  oneDefinition u v hu hv := hone u hu v hv

/-- The definitions of the interfaces with known keys are pending or have been seen. -/
def Queued (ctx : Context) (P : TypeSymbol → Prop) (unseen : List TypeSymbol) (known : List String)
    (pending : List TypeSymbol) : Prop :=
  ∀ u, P u → ∀ r ∈ u.decl.interfaces, ∀ k ∈ known, r.key true = .ok k →
    ∀ v, ctx.findType r = some v → Unseen unseen v → v ∈ pending

theorem Queued.of_seen (hu : ¬ Unseen unseen t) (h : ctx.Queued P unseen known (t :: pending)) :
    ctx.Queued P unseen known pending := by
  intro u hu' r hr k hk hkey v hv hunseen
  rcases List.mem_cons.1 (h u hu' r hr k hk hkey v hv hunseen) with rfl | hv
  · exact absurd hunseen hu
  · exact hv

theorem Queued.step (hP : ctx.Closed P) (ht : P t)
    (hfound : newInterfaces known t.decl.interfaces = .ok (found, known'))
    (h : ctx.Queued P unseen known (t :: pending)) :
    ctx.Queued P (Hierarchy.without unseen t.address) known'
      (pending ++ ctx.definitions t found) := by
  intro u hu r hr k hk hkey v hv hunseen
  obtain ⟨hsub, hmem, -⟩ := newInterfaces_eq_ok hfound
  obtain ⟨hunseen, hne⟩ := unseen_without.1 hunseen
  rcases (hmem k).1 hk with hk | ⟨r', hr', hkey'⟩
  · rcases List.mem_cons.1 (h u hu r hr k hk hkey v hv hunseen) with rfl | hv
    · exact absurd rfl hne
    · exact List.mem_append_left _ hv
  · refine List.mem_append_right _ (mem_definitions.2 (.inl ⟨r', hr', ?_⟩))
    rw [← hv]
    exact hP.oneDefinition t u ht hu r' (hsub r' hr') r hr ⟨k, hkey', hkey⟩

/-- What a type leads to is pending after it, or was so when an interface of its key was met. -/
theorem Queued.mem_of_ascends (ht : P t)
    (hfound : newInterfaces known t.decl.interfaces = .ok (found, known'))
    (h : ctx.Queued P unseen known' (pending ++ ctx.definitions t found)) (hv : ctx.Ascends t v)
    (hunseen : Unseen unseen v) : v ∈ pending ++ ctx.definitions t found := by
  obtain ⟨-, -, hcovered⟩ := newInterfaces_eq_ok hfound
  obtain ⟨r, hr, hv⟩ := hv
  rcases List.mem_append.1 hr with hr | hr
  · obtain ⟨k, hk, hkey⟩ := hcovered r hr
    exact h t ht r hr k hk hkey v hv hunseen
  · exact List.mem_append_right _ (mem_definitions.2 (.inr ⟨r, Option.mem_toList.1 hr, hv⟩))

/-- The types that the walk goes through, `S`, are closed under bases and interfaces, and the keys
of their interfaces are among those known before and those of the interfaces gathered. -/
theorem exists_closed_gatherInterfaces (hP : ctx.Closed P) (hpending : ∀ u ∈ pending, P u)
    (hqueued : ctx.Queued P unseen known pending)
    (h : ctx.gatherInterfaces unseen known pending = .ok refs) :
    ∃ S : TypeSymbol → Prop, (∀ u, S u → P u) ∧
      (∀ u ∈ pending, Unseen unseen u → S u) ∧
      (∀ u v, S u → ctx.Ascends u v → Unseen unseen v → S v) ∧
      ∀ u, S u → ∀ r ∈ u.decl.interfaces,
        ∃ k, r.key true = .ok k ∧ (k ∈ known ∨ ∃ r' ∈ refs, r'.key true = .ok k) := by
  induction unseen, known, pending using gatherInterfaces.induct ctx generalizing refs with
  | case1 => exact ⟨fun _ => False, by simp, by simp, by simp, by simp⟩
  | case2 unseen known t pending hu ih =>
    obtain ⟨found, known', more, hfound, hmore, rfl⟩ := gatherInterfaces_cons_eq_ok hu h
    obtain ⟨hsub, hmem, hcovered⟩ := newInterfaces_eq_ok hfound
    obtain ⟨ht, hpending⟩ := List.forall_mem_cons.1 hpending
    have hnext : ∀ v ∈ ctx.definitions t found, P v :=
      fun v hv => hP.next t v ht (.of_mem_definitions hsub hv)
    have hgathered : ∀ k ∈ known', k ∈ known ∨ ∃ r ∈ found ++ more, r.key true = .ok k := by
      intro k hk
      refine ((hmem k).1 hk).imp_right ?_
      rintro ⟨r, hr, hkey⟩
      exact ⟨r, List.mem_append_left _ hr, hkey⟩
    have hqueued' := hqueued.step hP ht hfound
    obtain ⟨S, hS, hstart, hclosed, hcover⟩ :=
      ih found known' (List.forall_mem_append.2 ⟨hpending, hnext⟩) hqueued' hmore
    refine ⟨fun u => u = t ∨ S u, ?_, ?_, ?_, ?_⟩
    · rintro u (rfl | hu)
      · exact ht
      · exact hS u hu
    · refine List.forall_mem_cons.2 ⟨fun _ => .inl rfl, fun u hu hunseen => ?_⟩
      exact (hP.eq_or_unseen_without ht (hpending u hu) hunseen).imp_right
        (hstart u (List.mem_append_left _ hu))
    · intro u v hu hascends hunseen
      have hv : P v := by
        rcases hu with rfl | hu
        · exact hP.next _ _ ht hascends
        · exact hP.next _ _ (hS u hu) hascends
      refine (hP.eq_or_unseen_without ht hv hunseen).imp_right fun hunseen => ?_
      rcases hu with rfl | hu
      · exact hstart v (hqueued'.mem_of_ascends ht hfound hascends hunseen) hunseen
      · exact hclosed u v hu hascends hunseen
    · rintro u (rfl | hu) r hr
      · obtain ⟨k, hk, hkey⟩ := hcovered r hr
        exact ⟨k, hkey, hgathered k hk⟩
      · obtain ⟨k, hkey, hk | ⟨r', hr', hkey'⟩⟩ := hcover u hu r hr
        · exact ⟨k, hkey, hgathered k hk⟩
        · exact ⟨k, hkey, .inr ⟨r', List.mem_append_right _ hr', hkey'⟩⟩
  | case3 unseen known t pending hu ih =>
    rw [gatherInterfaces_seen hu] at h
    obtain ⟨S, hS, hstart, hclosed, hcover⟩ :=
      ih (List.forall_mem_cons.1 hpending).2 (hqueued.of_seen hu) h
    exact ⟨S, hS, List.forall_mem_cons.2 ⟨fun hunseen => absurd hunseen hu, hstart⟩,
      hclosed, hcover⟩

/-! ## All interfaces of a type -/

theorem unseen_allInterfaces (hv : v ∈ ctx.catalog.types) :
    Unseen (t :: Hierarchy.without ctx.catalog.types t.address) v := by
  by_cases haddress : v.address = t.address
  · simp [Unseen, haddress]
  · refine List.any_eq_true.2 ⟨v, List.mem_cons_of_mem _ (List.mem_filter.2 ⟨hv, ?_⟩), ?_⟩
    · simpa using haddress
    · simp

theorem exists_allInterfaces (hctx : ctx.WellBuilt)
    (hkeys : ∀ u ∈ ctx.catalog.types, ∀ r ∈ u.decl.interfaces, ∃ k, r.key true = .ok k)
    (ht : t ∈ ctx.catalog.types) : ∃ refs, ctx.allInterfaces t = .ok refs :=
  exists_gatherInterfaces (fun _ _ _ h => h.mem hctx) hkeys (by simpa using ht) _ _

theorem written_of_mem_allInterfaces (h : ctx.allInterfaces t = .ok refs) :
    ∀ r ∈ refs, ctx.Writes t r :=
  exists_of_mem_gatherInterfaces (fun _ _ => .tail) (by simpa using .refl) h

/-- Each interface that is written has its key among those of the interfaces of the type. -/
theorem Closed.exists_sameKey_of_written (hctx : ctx.WellBuilt) (hP : ctx.Closed P) (ht : P t)
    (h : ctx.allInterfaces t = .ok refs) {r : TypeRef} (hr : ctx.Writes t r) :
    ∃ r' ∈ refs, TypeRef.SameKey r r' := by
  obtain ⟨S, hS, hstart, hclosed, hcover⟩ :=
    exists_closed_gatherInterfaces hP (by simpa using ht) (by simp [Queued]) h
  have hall : ∀ u, Relation.ReflTransGen ctx.Ascends t u → S u := by
    intro u hreach
    induction hreach with
    | refl => exact hstart t List.mem_cons_self (by simp [Unseen])
    | tail _ hascends ih => exact hclosed _ _ ih hascends (unseen_allInterfaces (hascends.mem hctx))
  obtain ⟨u, hreach, hr⟩ := hr
  obtain ⟨k, hkey, hk | ⟨r', hr', hkey'⟩⟩ := hcover u (hall u hreach) r hr
  · cases hk
  · exact ⟨r', hr', k, hkey, hkey'⟩

end ApiDoc.Context
