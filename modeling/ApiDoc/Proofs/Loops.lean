import ApiDoc.Proofs.InterfaceWalk
import ApiDoc.Proofs.Resolution

/-!
# Loops

The override root of a method, the interfaces of a type and inherited documentation are worked out
in loops that nothing bounds: up base types, through interfaces and through candidates. Each loop
keeps what it has visited and passes over what it meets again. That is why it ends on any metadata,
cycles and self-references included, with the result of the function that stands for it
(`loops_overridden`, `loops_allInterfaces`, `loops_search`). No run visits anything twice
(`Loops.nodup`), and it takes no more turns than there are entries in the lists of what it visits
(`Loops.length_le`).
-/

namespace ApiDoc

/-! ## Loops of any kind -/

/-- A run of a loop: the states in which its turns begin, and how it ends. A turn fails, leaves the
loop with a result, or goes on to a state. -/
inductive Loops {σ ε ρ : Type} (body : σ → Except ε (σ ⊕ ρ)) : σ → List σ → Except ε ρ → Prop
  | fail {s : σ} {e : ε} : body s = .error e → Loops body s [s] (.error e)
  | leave {s : σ} {r : ρ} : body s = .ok (.inr r) → Loops body s [s] (.ok r)
  | turn {s s' : σ} {states : List σ} {r : Except ε ρ} :
    body s = .ok (.inl s') → Loops body s' states r → Loops body s (s :: states) r

/-- What a loop visits in its turns: nothing that it has `seen`, and a turn takes one of the entries
that are `pending` and adds no more than what is visited lists. -/
structure Visits {σ ε ρ α κ : Type} (body : σ → Except ε (σ ⊕ ρ)) (visit? : σ → Option α)
    (key : α → κ) (seen : σ → List κ) (pending : σ → Nat) (listed : α → Nat) : Prop where
  new : ∀ s a, visit? s = some a → key a ∉ seen s
  seen : ∀ s s', body s = .ok (.inl s') → seen s' = ((visit? s).map key).toList ++ seen s
  pending : ∀ s s', body s = .ok (.inl s') → pending s' + 1 ≤ pending s + (visit? s).elim 0 listed

namespace Loops

section

variable {σ ε ρ α κ : Type} {body : σ → Except ε (σ ⊕ ρ)} {visit? : σ → Option α} {key : α → κ}
  {seen : σ → List κ} {pending : σ → Nat} {listed : α → Nat} {s : σ} {states : List σ}
  {r : Except ε ρ}

/-- A turn that begins with something that can fail. -/
theorem exists_bind {β : Type} {x : Except ε β} {f : β → Except ε (σ ⊕ ρ)} {result : β → Except ε ρ}
    (hs : body s = x >>= f)
    (h : ∀ b, x = .ok b → body s = f b → ∃ states, Loops body s states (result b)) :
    ∃ states, Loops body s states (x >>= result) := by
  cases x with
  | error e => exact ⟨[s], .fail hs⟩
  | ok b => exact h b rfl hs

theorem exists_turn {s' : σ} (hs : body s = .ok (.inl s')) (h : ∃ states, Loops body s' states r) :
    ∃ states, Loops body s states r := by
  obtain ⟨states, h⟩ := h
  exact ⟨s :: states, .turn hs h⟩

/-- Nothing is visited twice, and nothing that had been seen before. -/
theorem nodup (hv : Visits body visit? key seen pending listed) (h : Loops body s states r) :
    ((states.filterMap visit?).map key).Nodup ∧
      ∀ a ∈ states.filterMap visit?, key a ∉ seen s := by
  have hlast : ∀ s, (([s].filterMap visit?).map key).Nodup ∧
      ∀ a ∈ [s].filterMap visit?, key a ∉ seen s := by
    intro s
    cases hs : visit? s with
    | none => simp [hs]
    | some a => simpa [hs] using hv.new s a hs
  induction h with
  | @fail s _ _ => exact hlast s
  | @leave s _ _ => exact hlast s
  | @turn s s' states _ hs _ ih =>
    obtain ⟨hnodup, hnew⟩ := ih
    have hseen := hv.seen s s' hs
    cases hvisit : visit? s with
    | none =>
      simp only [hvisit, Option.map_none, Option.toList_none, List.nil_append] at hseen
      rw [List.filterMap_cons_none hvisit, ← hseen]
      exact ⟨hnodup, hnew⟩
    | some a =>
      simp only [hvisit, Option.map_some, Option.toList_some, List.singleton_append] at hseen
      rw [List.filterMap_cons_some hvisit, List.map_cons, List.nodup_cons]
      refine ⟨⟨fun hmem => ?_, hnodup⟩,
        List.forall_mem_cons.2 ⟨hv.new s a hvisit, fun b hb hmem => ?_⟩⟩
      · obtain ⟨b, hb, hkey⟩ := List.mem_map.1 hmem
        exact hnew b hb (by rw [hseen, hkey]; exact List.mem_cons_self)
      · exact hnew b hb (by rw [hseen]; exact List.mem_cons_of_mem _ hmem)

/-- A loop turns once for each entry that is pending or listed by what it visits, and once more. -/
theorem length_le (hv : Visits body visit? key seen pending listed) (h : Loops body s states r) :
    states.length ≤ 1 + pending s + ((states.filterMap visit?).map listed).sum := by
  induction h with
  | fail | leave =>
    rw [List.length_singleton]
    omega
  | @turn s s' states _ hs _ ih =>
    have hpending := hv.pending s s' hs
    rw [List.length_cons]
    cases hvisit : visit? s with
    | none =>
      rw [hvisit, Option.elim_none] at hpending
      rw [List.filterMap_cons_none hvisit]
      omega
    | some a =>
      rw [hvisit, Option.elim_some] at hpending
      rw [List.filterMap_cons_some hvisit, List.map_cons, List.sum_cons]
      omega

end

end Loops

/-! ## Up the base types -/

namespace Hierarchy

/-- Where the walk up the base types of a method stands: the types seen, the furthest method met,
and the base to look at next. -/
structure Ascent where
  seen : List Address
  root : MethodSymbol
  base : Option TypeRef

/-- The type that the walk visits, with the reference that leads there. -/
def Ascent.visit? (find : TypeRef → Option TypeSymbol) (s : Ascent) :
    Option (TypeRef × TypeSymbol) := do
  let ref ← s.base
  let type ← find ref
  if type.address ∈ s.seen then none else some (ref, type)

/-- A turn of the walk. -/
def climb (find : TypeRef → Option TypeSymbol) (signature : String) (s : Ascent) :
    Except Error (Ascent ⊕ MethodSymbol) :=
  match s.visit? find with
  | none => .ok (.inr s.root)
  | some (ref, type) => do
    let found ← firstWithSignature signature ref.arguments type.callables
    match found with
    | some m =>
      if !m.decl.isOverride then .ok (.inr m)
      else do
        let next ← TypeRef.substitute? ref.arguments type.decl.base
        .ok (.inl ⟨type.address :: s.seen, m, next⟩)
    | none => do
      let next ← TypeRef.substitute? ref.arguments type.decl.base
      .ok (.inl ⟨type.address :: s.seen, s.root, next⟩)

variable {find : TypeRef → Option TypeSymbol} {signature : String} {unseen : List TypeSymbol}
  {seen : List Address} {m : MethodSymbol} {base : Option TypeRef} {ref : TypeRef} {t : TypeSymbol}
  {s s' : Ascent}

theorem Ascent.visit?_eq_some : s.visit? find = some (ref, t) ↔
    s.base = some ref ∧ find ref = some t ∧ t.address ∉ s.seen := by
  simp only [visit?, Option.bind_eq_bind, Option.bind_eq_some_iff, Option.ite_none_left_eq_some,
    Option.some.injEq, Prod.mk.injEq]
  grind

/-- A turn that goes on has visited a type. -/
theorem climb_eq_turn (h : climb find signature s = .ok (.inl s')) :
    ∃ ref t, s.visit? find = some (ref, t) ∧ s'.seen = t.address :: s.seen := by
  unfold climb at h
  split at h
  next => cases h
  next ref t hvisit =>
    obtain ⟨found, -, h⟩ := bind_eq_ok.1 h
    refine ⟨ref, t, hvisit, ?_⟩
    cases found with
    | none =>
      obtain ⟨next, -, h⟩ := bind_eq_ok.1 h
      cases h
      rfl
    | some m =>
      simp only at h
      split at h
      next => cases h
      next =>
        obtain ⟨next, -, h⟩ := bind_eq_ok.1 h
        cases h
        rfl

/-- The walk visits types it has not seen; every turn but the last visits one. -/
theorem visits_climb (find : TypeRef → Option TypeSymbol) (signature : String) :
    Visits (climb find signature) (Ascent.visit? find) (·.2.address) Ascent.seen (fun _ => 0)
      fun _ => 1 where
  new s a h := (Ascent.visit?_eq_some.1 h).2.2
  seen s s' h := by
    obtain ⟨ref, t, hvisit, hseen⟩ := climb_eq_turn h
    rw [hvisit, hseen]
    rfl
  pending s s' h := by
    obtain ⟨ref, t, hvisit, -⟩ := climb_eq_turn h
    rw [hvisit]
    exact Nat.le_refl 1

/-- The walk ends with the method that the chain of base types leads to. -/
theorem loops_overridden
    (hseen : ∀ ref t, find ref = some t →
      (unseen.any (fun u => u.address = t.address) = true ↔ t.address ∉ seen)) :
    ∃ states, Loops (climb find signature) ⟨seen, m, base⟩ states
      (overridden find signature unseen m base) := by
  induction unseen, m, base using overridden.induct find generalizing seen with
  | case1 unseen m =>
    rw [overridden]
    exact ⟨_, .leave rfl⟩
  | case2 unseen m ref hf =>
    have hvisit : Ascent.visit? find ⟨seen, m, some ref⟩ = none := by simp [Ascent.visit?, hf]
    rw [overridden, hf]
    exact ⟨_, .leave (by rw [climb, hvisit])⟩
  | case3 unseen m ref t hf hu ih₁ ih₂ =>
    have hs : t.address ∉ seen := (hseen ref t hf).1 hu
    have hvisit : Ascent.visit? find ⟨seen, m, some ref⟩ = some (ref, t) :=
      Ascent.visit?_eq_some.2 ⟨rfl, hf, hs⟩
    have hseen' : ∀ ref' t', find ref' = some t' →
        ((without unseen t.address).any (fun u => u.address = t'.address) = true ↔
          t'.address ∉ t.address :: seen) := by
      intro ref' t' hf'
      rw [List.mem_cons, not_or, ← hseen ref' t' hf']
      exact Context.unseen_without.trans and_comm
    rw [overridden, hf]
    simp only [hu, ↓reduceDIte]
    refine Loops.exists_bind (by rw [climb, hvisit]) fun found hfound hs => ?_
    cases found with
    | none =>
      refine Loops.exists_bind hs fun next hnext hs => ?_
      exact Loops.exists_turn hs (ih₂ next hseen')
    | some m' =>
      cases ho : m'.decl.isOverride with
      | false =>
        simp only [ho, Bool.not_false, ↓reduceIte] at hs ⊢
        exact ⟨_, .leave hs⟩
      | true =>
        simp only [ho, Bool.not_true, Bool.false_eq_true, ↓reduceIte] at hs ⊢
        refine Loops.exists_bind hs fun next hnext hs => ?_
        exact Loops.exists_turn hs (ih₁ m' next hseen')
  | case4 unseen m ref t hf hu =>
    have hvisit : Ascent.visit? find ⟨seen, m, some ref⟩ = none := by
      have hs : t.address ∈ seen := by
        by_contra hs
        exact hu ((hseen ref t hf).2 hs)
      simp [Ascent.visit?, hf, hs]
    rw [overridden, hf]
    simp only [hu, ↓reduceDIte, Bool.false_eq_true]
    exact ⟨_, .leave (by rw [climb, hvisit])⟩

end Hierarchy

/-! ## Through the interfaces -/

theorem map_bind {ε α β γ : Type} (x : Except ε α) (f : α → Except ε β) (g : β → γ) :
    (x >>= f).map g = x >>= fun a => (f a).map g := by
  cases x <;> rfl

theorem bind_ok_eq_map {ε α β : Type} (x : Except ε α) (f : α → β) :
    (x >>= fun a => .ok (f a)) = x.map f := by
  cases x <;> rfl

namespace Context

/-- Where the walk through the interfaces of a type stands. -/
structure Gathering where
  seen : List Address := []
  /-- The keys of the interfaces met. -/
  known : List String := []
  pending : List TypeSymbol
  result : List TypeRef := []

/-- The type that the walk visits. -/
def Gathering.visit? (s : Gathering) : Option TypeSymbol :=
  s.pending.head?.filter fun t => t.address ∉ s.seen

/-- A turn of the walk. -/
def gather (ctx : Context) (s : Gathering) : Except Error (Gathering ⊕ List TypeRef) :=
  match s.pending with
  | [] => .ok (.inr s.result)
  | t :: pending =>
    if t.address ∈ s.seen then .ok (.inl { s with pending })
    else do
      let (found, known) ← newInterfaces s.known t.decl.interfaces
      .ok (.inl {
        seen := t.address :: s.seen, known, pending := pending ++ ctx.definitions t found
        result := s.result ++ found })

variable {ctx : Context} {t : TypeSymbol} {known known' : List String} {refs found : List TypeRef}
  {unseen pending : List TypeSymbol} {seen : List Address} {s s' : Gathering}
  {states : List Gathering}

theorem newInterfaces_sublist (h : newInterfaces known refs = .ok (found, known')) :
    found.Sublist refs := by
  induction refs generalizing known found known' with
  | nil =>
    cases h
    exact .slnil
  | cons r refs ih =>
    obtain ⟨key, -, h⟩ := bind_eq_ok.1 h
    split at h
    next => exact (ih h).cons r
    next =>
      obtain ⟨⟨more, known''⟩, hmore, h⟩ := bind_eq_ok.1 h
      cases h
      exact (ih hmore).cons_cons r

theorem length_definitions_le (ctx : Context) (h : found.Sublist t.decl.interfaces) :
    (ctx.definitions t found).length ≤ 1 + t.decl.interfaces.length := by
  have hfound : (found.filterMap ctx.findType).length ≤ found.length := List.length_filterMap_le ..
  have hbase : (t.decl.base.bind ctx.findType).toList.length ≤ 1 := by
    cases t.decl.base.bind ctx.findType <;> simp
  have hlength := h.length_le
  rw [definitions, List.length_append]
  omega

/-- A turn that goes on passes over a type seen before, or visits one and adds what it leads to. -/
theorem gather_eq_turn (h : ctx.gather s = .ok (.inl s')) :
    ∃ t pending, s.pending = t :: pending ∧
      (t.address ∈ s.seen ∧ s.visit? = none ∧ s' = { s with pending } ∨
        t.address ∉ s.seen ∧ s.visit? = some t ∧ ∃ found known,
          newInterfaces s.known t.decl.interfaces = .ok (found, known) ∧
          s' = ⟨t.address :: s.seen, known, pending ++ ctx.definitions t found,
            s.result ++ found⟩) := by
  unfold gather at h
  split at h
  next => cases h
  next t pending hpending =>
    refine ⟨t, pending, hpending, ?_⟩
    split at h
    next hseen =>
      cases h
      exact .inl ⟨hseen, by simp [Gathering.visit?, hpending, hseen], rfl⟩
    next hseen =>
      obtain ⟨⟨found, known⟩, hfound, h⟩ := bind_eq_ok.1 h
      cases h
      exact .inr ⟨hseen, by simp [Gathering.visit?, hpending, hseen], found, known, hfound, rfl⟩

/-- The walk visits types it has not seen, and then its base and its interfaces are pending. -/
theorem visits_gather (ctx : Context) : Visits ctx.gather Gathering.visit? (·.address)
    Gathering.seen (·.pending.length) fun t => 1 + t.decl.interfaces.length where
  new s t h := by
    have hseen := (Option.filter_eq_some_iff.1 h).2
    simpa using hseen
  seen s s' h := by
    obtain ⟨t, pending, -, ⟨-, hvisit, rfl⟩ | ⟨-, hvisit, found, known, -, rfl⟩⟩ := gather_eq_turn h
    · rw [hvisit]
      rfl
    · rw [hvisit]
      rfl
  pending s s' h := by
    obtain ⟨t, pending, hpending, ⟨-, hvisit, rfl⟩ | ⟨-, hvisit, found, known, hfound, rfl⟩⟩ :=
      gather_eq_turn h
    · rw [hvisit, hpending, Option.elim_none]
      exact Nat.le_refl _
    · have hdefinitions := ctx.length_definitions_le (newInterfaces_sublist hfound)
      simp only [hvisit, hpending, Option.elim_some, List.length_append, List.length_cons]
      omega

theorem gather_eq_leave (h : ctx.gather s = .ok (.inr refs)) : refs = s.result := by
  unfold gather at h
  split at h
  next =>
    cases h
    rfl
  next t pending _ =>
    by_cases hseen : t.address ∈ s.seen
    · rw [if_pos hseen] at h
      cases h
    · rw [if_neg hseen] at h
      obtain ⟨out, -, h⟩ := bind_eq_ok.1 h
      cases h

/-- What is gathered is listed by the types visited, in their order. -/
theorem sublist_of_gather (h : Loops ctx.gather s states (.ok refs)) :
    refs.Sublist (s.result ++ (states.filterMap Gathering.visit?).flatMap (·.decl.interfaces)) := by
  generalize hr : (Except.ok refs : Except Error _) = r at h
  induction h with
  | fail hs => cases hr
  | leave hs =>
    cases hr
    rw [gather_eq_leave hs]
    exact List.sublist_append_left _ _
  | turn hs _ ih =>
    have ih := ih hr
    obtain ⟨t, pending, -, ⟨-, hvisit, rfl⟩ | ⟨-, hvisit, found, known, hfound, rfl⟩⟩ :=
      gather_eq_turn hs
    · rwa [List.filterMap_cons_none hvisit]
    · rw [List.filterMap_cons_some hvisit, List.flatMap_cons, ← List.append_assoc]
      refine ih.trans (List.Sublist.append ?_ (List.Sublist.refl _))
      exact (newInterfaces_sublist hfound).append_left _

/-- The walk ends with what the pending types lead to after what it has gathered. -/
theorem loops_gatherInterfaces {P : TypeSymbol → Prop}
    (hfind : ∀ ref v, ctx.findType ref = some v → P v) (hpending : ∀ v ∈ pending, P v)
    (hseen : ∀ v, P v → (Unseen unseen v ↔ v.address ∉ seen)) (known : List String)
    (result : List TypeRef) :
    ∃ states, Loops ctx.gather ⟨seen, known, pending, result⟩ states
      ((ctx.gatherInterfaces unseen known pending).map (result ++ ·)) := by
  induction unseen, known, pending using gatherInterfaces.induct ctx generalizing seen result with
  | case1 unseen known =>
    rw [gatherInterfaces]
    refine ⟨_, .leave ?_⟩
    rw [gather]
    exact congrArg (Except.ok ∘ Sum.inr) (List.append_nil result).symm
  | case2 unseen known t pending hu ih =>
    obtain ⟨ht, hpending⟩ := List.forall_mem_cons.1 hpending
    have hs : t.address ∉ seen := (hseen t ht).1 hu
    have hseen' : ∀ v, P v →
        (Unseen (Hierarchy.without unseen t.address) v ↔ v.address ∉ t.address :: seen) := by
      intro v hv
      rw [List.mem_cons, not_or, ← hseen v hv]
      exact unseen_without.trans and_comm
    rw [gatherInterfaces, dif_pos hu, map_bind]
    refine Loops.exists_bind (if_neg hs) fun out hfound hturn => ?_
    obtain ⟨found, known'⟩ := out
    have hnext : ∀ v ∈ ctx.definitions t found, P v := by
      intro v hv
      rcases mem_definitions.1 hv with ⟨r, -, hv⟩ | ⟨b, -, hv⟩
      · exact hfind r v hv
      · exact hfind b v hv
    have hrest := ih found known' (List.forall_mem_append.2 ⟨hpending, hnext⟩) hseen'
      (result ++ found)
    have hmore : ∀ x : Except Error (List TypeRef), (x >>= fun more => .ok (found ++ more)).map
        (result ++ ·) = x.map (result ++ found ++ ·) := by
      intro x
      cases x with
      | error e => rfl
      | ok more => exact congrArg Except.ok (List.append_assoc ..).symm
    rw [hmore]
    exact Loops.exists_turn hturn hrest
  | case3 unseen known t pending hu ih =>
    obtain ⟨ht, hpending⟩ := List.forall_mem_cons.1 hpending
    have hs : t.address ∈ seen := by
      by_contra hs
      exact hu ((hseen t ht).2 hs)
    rw [gatherInterfaces_seen hu]
    exact Loops.exists_turn (if_pos hs) (ih hpending hseen result)

/-- The walk through the interfaces of a type ends with all of them. -/
theorem loops_allInterfaces (hctx : ctx.WellBuilt) (t : TypeSymbol) :
    ∃ states, Loops ctx.gather { pending := [t] } states (ctx.allInterfaces t) := by
  have hmap : ∀ x : Except Error (List TypeRef), x.map ([] ++ ·) = x := by
    intro x
    cases x <;> rfl
  have hseen : ∀ v, v = t ∨ v ∈ ctx.catalog.types →
      (Unseen (t :: Hierarchy.without ctx.catalog.types t.address) v ↔ v.address ∉ []) := by
    intro v hv
    refine iff_of_true ?_ List.not_mem_nil
    rcases hv with rfl | hv
    · simp [Unseen]
    · exact unseen_allInterfaces hv
  have hwalk := loops_gatherInterfaces (fun ref v hv => .inr (hctx.mem_of_findType hv))
    (List.forall_mem_singleton.2 (.inl rfl)) hseen [] []
  rw [hmap] at hwalk
  exact hwalk

end Context

/-! ## The search for inherited documentation -/

namespace Context

open Answer

/-- Where a search stands: the keys entered, whether a cycle was met, and the pending candidates
with the keys on the way to each. -/
structure Searching where
  entered : List String
  cyclic : Bool := false
  pending : List (MemberSymbol × List String)

/-- The candidate that the search goes beyond, with its key. -/
def Searching.expands? (ctx : Context) (s : Searching) : Option (MemberSymbol × String) := do
  let (m, way) ← s.pending.head?
  let key ← m.documentationKey.toOption
  let _ ← (ctx.foreignEntry (.member m)).value.toOption
  if key ∈ way ∨ key ∈ s.entered ∨ (ctx.content? m).isSome then none else some (m, key)

/-- A turn of the search. -/
def look (ctx : Context) (s : Searching) : Except Error (Searching ⊕ Ending) :=
  match s.pending with
  | [] => .ok (.inr (.exhausted s.cyclic))
  | (m, way) :: pending => do
    let key ← m.documentationKey
    if key ∈ way then .ok (.inl { s with cyclic := true, pending })
    else if key ∈ s.entered then .ok (.inl { s with pending })
    else do
      let entry ← (ctx.foreignEntry (.member m)).value
      match entry.filter fun node =>
        !Entry.isDeferred (some node) ctx.settings.documentation.deferTag with
      | some node => .ok (.inr (.found node key))
      | none => do
        let next ← (ctx.candidates m).value
        .ok (.inl { s with
          entered := key :: s.entered, pending := next.map (·, way ++ [key]) ++ pending })

variable {ctx : Context} {m : MemberSymbol} {key : String} {way fresh entered : List String}
  {cyclic : Bool} {pending : List (MemberSymbol × List String)} {s s' : Searching}

/-- How many candidates a member has. -/
def candidateCount (ctx : Context) (m : MemberSymbol) : Nat :=
  (ctx.candidates m).value.toOption.elim 0 List.length

theorem Searching.expands?_eq_none (hs : s.pending = (m, way) :: pending)
    (hk : m.documentationKey = .ok key) (h : key ∈ way ∨ key ∈ s.entered) :
    s.expands? ctx = none := by
  have h' : key ∈ way ∨ key ∈ s.entered ∨ (ctx.content? m).isSome := by
    rcases h with h | h
    · exact .inl h
    · exact .inr (.inl h)
  cases hfound : (ctx.foreignEntry (.member m)).value <;>
    simp [expands?, hs, hk, hfound, h', Except.toOption]

theorem Searching.expands?_eq_some {found : Option Xml.Node} (hs : s.pending = (m, way) :: pending)
    (hk : m.documentationKey = .ok key) (hway : key ∉ way) (hentered : key ∉ s.entered)
    (hfound : (ctx.foreignEntry (.member m)).value = .ok found) (hc : ctx.content? m = none) :
    s.expands? ctx = some (m, key) := by
  simp [expands?, hs, hk, hfound, hway, hentered, hc, Except.toOption]

theorem filter_eq_content? {found : Option Xml.Node}
    (h : (ctx.foreignEntry (.member m)).value = .ok found) : (found.filter fun node =>
      !Entry.isDeferred (some node) ctx.settings.documentation.deferTag) = ctx.content? m := by
  simp [content?, h, Except.toOption]

/-- A turn that goes on passes over a candidate, or goes beyond it to its candidates. -/
theorem look_eq_turn (h : ctx.look s = .ok (.inl s')) :
    ∃ e pending, s.pending = e :: pending ∧
      (s.expands? ctx = none ∧ s'.entered = s.entered ∧ s'.pending = pending ∨
        ∃ m key, s.expands? ctx = some (m, key) ∧ s'.entered = key :: s.entered ∧
          s'.pending.length = ctx.candidateCount m + pending.length) := by
  unfold look at h
  split at h
  next => cases h
  next m way pending hpending =>
    refine ⟨_, pending, hpending, ?_⟩
    obtain ⟨key, hk, h⟩ := bind_eq_ok.1 h
    split at h
    next hway =>
      cases h
      exact .inl ⟨Searching.expands?_eq_none hpending hk (.inl hway), rfl, rfl⟩
    next hway =>
      split at h
      next hentered =>
        cases h
        exact .inl ⟨Searching.expands?_eq_none hpending hk (.inr hentered), rfl, rfl⟩
      next hentered =>
        obtain ⟨found, hfound, h⟩ := bind_eq_ok.1 h
        rw [filter_eq_content? hfound] at h
        split at h
        next => cases h
        next hc =>
          obtain ⟨next, hn, h⟩ := bind_eq_ok.1 h
          cases h
          refine .inr ⟨m, key, ?_, rfl, ?_⟩
          · exact Searching.expands?_eq_some hpending hk hway hentered hfound hc
          · simp [candidateCount, hn, Except.toOption]

/-- The search goes beyond keys that it has not entered, and then the candidates there are
pending. -/
theorem visits_look (ctx : Context) : Visits ctx.look (Searching.expands? ctx) (·.2)
    Searching.entered (·.pending.length) fun a => ctx.candidateCount a.1 where
  new s a h := by
    simp only [Searching.expands?, Option.bind_eq_bind, Option.bind_eq_some_iff,
      Option.ite_none_left_eq_some, Option.some.injEq] at h
    obtain ⟨e, -, key, -, -, -, hnew, rfl⟩ := h
    exact fun hentered => hnew (.inr (.inl hentered))
  seen s s' h := by
    obtain ⟨-, pending, -, ⟨hvisit, hentered, -⟩ | ⟨m, key, hvisit, hentered, -⟩⟩ := look_eq_turn h
    · rw [hvisit, hentered]
      rfl
    · rw [hvisit, hentered]
      rfl
  pending s s' h := by
    obtain ⟨e, pending, hpending, ⟨hvisit, -, hrest⟩ | ⟨m, key, hvisit, -, hrest⟩⟩ := look_eq_turn h
    · rw [hvisit, hpending, hrest]
      exact Nat.le_refl _
    · simp only [hvisit, hpending, hrest, Option.elim_some, List.length_cons]
      omega

/-- What a turn that visits a candidate comes to: its own entry, or its candidates. -/
theorem look_visited {found : Option Xml.Node} (hk : m.documentationKey = .ok key)
    (hway : key ∉ way) (hentered : key ∉ entered)
    (hfound : (ctx.foreignEntry (.member m)).value = .ok found) (cyclic : Bool)
    (pending : List (MemberSymbol × List String)) :
    ctx.look ⟨entered, cyclic, (m, way) :: pending⟩ = match ctx.content? m with
      | some node => .ok (.inr (.found node key))
      | none => (ctx.candidates m).value >>= fun next =>
        .ok (.inl ⟨key :: entered, cyclic, next.map (·, way ++ [key]) ++ pending⟩) := by
  simp only [look, hk, hfound, ← filter_eq_content? hfound]
  exact (if_neg hway).trans (if_neg hentered)

/-- The search ends with what the pending candidates lead to. -/
theorem loops_search (hctx : ctx.WellBuilt) (hpending : ∀ e ∈ pending, ctx.catalog.Inherits e.1)
    (hfresh : ∀ m k, ctx.catalog.Inherits m → m.documentationKey = .ok k →
      (k ∈ fresh ↔ k ∉ entered)) (cyclic : Bool) :
    ∃ states, Loops ctx.look ⟨entered, cyclic, pending⟩ states
      (ctx.search ctx.settings.documentation.deferTag fresh cyclic pending).value := by
  induction fresh, cyclic, pending using search.induct generalizing entered with
  | case1 fresh cyclic =>
    rw [value_search_nil]
    exact ⟨_, .leave rfl⟩
  | case2 fresh cyclic m way pending ih₁ ih₂ ih₃ =>
    obtain ⟨hm, hpending⟩ := List.forall_mem_cons.1 hpending
    cases hk : m.documentationKey with
    | error e =>
      have hvalue : (ctx.search ctx.settings.documentation.deferTag fresh cyclic
          ((m, way) :: pending)).value = .error e := by
        rw [search, hk]
        rfl
      rw [hvalue]
      exact ⟨_, .fail (by simp only [look, hk]; rfl)⟩
    | ok key =>
      by_cases hway : key ∈ way
      · rw [value_search_again hk hway]
        refine Loops.exists_turn ?_ (ih₁ hpending hfresh)
        simp only [look, hk]
        exact if_pos hway
      by_cases hmem : key ∈ fresh
      case neg =>
        have hentered : key ∈ entered := by
          by_contra h
          exact hmem ((hfresh m key hm hk).2 h)
        rw [value_search_seen hk hway hmem]
        refine Loops.exists_turn ?_ (ih₃ hpending hfresh)
        simp only [look, hk]
        exact (if_neg hway).trans (if_pos hentered)
      have hentered : key ∉ entered := (hfresh m key hm hk).1 hmem
      cases hfound : (ctx.foreignEntry (.member m)).value with
      | error e =>
        rw [value_search_unread hk hway hmem hfound]
        refine ⟨_, .fail ?_⟩
        simp only [look, hk, hfound]
        exact (if_neg hway).trans (if_neg hentered)
      | ok found =>
        have hlook := look_visited hk hway hentered hfound cyclic pending
        cases hc : ctx.content? m with
        | some node =>
          rw [value_search_leaf hk hway hmem hc]
          rw [hc] at hlook
          exact ⟨_, .leave hlook⟩
        | none =>
          rw [value_search_inner hk hway hmem hfound hc]
          rw [hc] at hlook
          refine Loops.exists_bind hlook fun next hn hturn => ?_
          refine Loops.exists_turn hturn (ih₂ key hmem next ?_ ?_)
          · refine List.forall_mem_append.2 ⟨fun e he => ?_, hpending⟩
            obtain ⟨m', hm', rfl⟩ := List.mem_map.1 he
            exact inherits_of_mem_candidates hctx hn hm'
          · intro m' k hm' hk'
            simp [entering, hfresh m' k hm' hk', and_comm]

end Context

end ApiDoc
