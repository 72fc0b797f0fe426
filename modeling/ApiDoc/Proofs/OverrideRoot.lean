import Mathlib
import ApiDoc.Proofs.WellBuilt

/-!
# Override roots

The bases of a type are numbered from the nearest upwards (`Ancestor`), each with the arguments of
the constructed base below put into it. Of what they declare under the signature of an overriding
method, the nearest that overrides nothing is the override root; if all of them override something
it is the furthest, and if there are none the method itself (`IsRoot`). The walk up the bases finds
this method and no other (`overrideRoot_eq_iff`).
-/

namespace ApiDoc

namespace Hierarchy

variable {find : TypeRef → Option TypeSymbol} {signature : String} {seen : List Address}
  {ref ref' : TypeRef} {base next : Option TypeRef} {t u u' : TypeSymbol} {m c c' r r' : MethodSymbol}
  {chain : List MethodSymbol} {k : Nat}

/-! ## Bases by number -/

/-- The type `u` is the base of number `k`, counted upwards from `base`, and is referred to by `ref`
with the arguments of the bases below put into it. Every base up to there is known, and none is
among the types `seen` or comes twice. -/
inductive Ancestor (find : TypeRef → Option TypeSymbol) :
    List Address → Option TypeRef → Nat → TypeRef → TypeSymbol → Prop
  | nearest {seen : List Address} {ref : TypeRef} {u : TypeSymbol} :
    find ref = some u → u.address ∉ seen → Ancestor find seen (some ref) 0 ref u
  | further {seen : List Address} {ref ref' : TypeRef} {u u' : TypeSymbol} {next : Option TypeRef}
      {k : Nat} :
    find ref = some u → u.address ∉ seen →
    TypeRef.substitute? ref.arguments u.decl.base = .ok next →
    Ancestor find (u.address :: seen) next k ref' u' →
    Ancestor find seen (some ref) (k + 1) ref' u'

theorem Ancestor.unique {ref₁ ref₂ : TypeRef} {u₁ u₂ : TypeSymbol}
    (h : Ancestor find seen base k ref₁ u₁)
    (h' : Ancestor find seen base k ref₂ u₂) : ref₁ = ref₂ ∧ u₁ = u₂ := by
  induction h with
  | nearest hf _ =>
    cases h' with
    | nearest hf' _ => exact ⟨rfl, Option.some.inj (hf.symm.trans hf')⟩
  | further hf _ hn _ ih =>
    cases h' with
    | further hf' _ hn' h' =>
      cases hf.symm.trans hf'
      cases hn.symm.trans hn'
      exact ih h'

theorem ancestor_zero (hf : find ref = some t) (hs : t.address ∉ seen) :
    Ancestor find seen (some ref) 0 ref' u ↔ ref' = ref ∧ u = t := by
  constructor
  · exact fun h => h.unique (.nearest hf hs)
  · rintro ⟨rfl, rfl⟩
    exact .nearest hf hs

theorem ancestor_succ (hf : find ref = some t) (hs : t.address ∉ seen)
    (hn : TypeRef.substitute? ref.arguments t.decl.base = .ok next) :
    Ancestor find seen (some ref) (k + 1) ref' u ↔
      Ancestor find (t.address :: seen) next k ref' u := by
  constructor
  · intro h
    cases h with
    | further hf' _ hn' h =>
      cases hf.symm.trans hf'
      cases hn.symm.trans hn'
      exact h
  · exact .further hf hs hn

/-! ## First declarations -/

/-- The first of some methods that has a signature on a type constructed with given arguments. -/
def IsFirst (signature : String) (arguments : List TypeRef) (l : List MethodSymbol)
    (c : MethodSymbol) : Prop :=
  ∃ before after, l = before ++ c :: after ∧ c.signature arguments = .ok signature ∧
    ∀ d ∈ before, d.signature arguments ≠ .ok signature

/-- Where the search for a signature ends, it ends at the first method that has it. -/
theorem isFirst_iff {arguments : List TypeRef} {l : List MethodSymbol} {found : Option MethodSymbol}
    (h : firstWithSignature signature arguments l = .ok found) :
    IsFirst signature arguments l c ↔ found = some c := by
  induction l with
  | nil =>
    cases h
    simp [IsFirst]
  | cons d l ih =>
    obtain ⟨s, hs, h⟩ := bind_eq_ok.1 h
    have hd : d.signature arguments = .ok s := hs
    split at h
    next heq =>
      cases h
      subst heq
      constructor
      · rintro ⟨before, after, hl, -, hbefore⟩
        cases before with
        | nil =>
          cases hl
          rfl
        | cons d' before =>
          cases hl
          exact absurd hd (hbefore _ List.mem_cons_self)
      · rintro ⟨⟩
        exact ⟨[], l, rfl, hd, fun _ h => nomatch h⟩
    next hne =>
      have hd' : d.signature arguments ≠ .ok signature := by simp [hd, hne]
      rw [← ih h]
      constructor
      · rintro ⟨before, after, hl, hc, hbefore⟩
        cases before with
        | nil =>
          cases hl
          exact absurd hc hd'
        | cons d' before =>
          cases hl
          exact ⟨before, after, rfl, hc, fun e he => hbefore e (List.mem_cons_of_mem _ he)⟩
      · rintro ⟨before, after, rfl, hc, hbefore⟩
        exact ⟨d :: before, after, rfl, hc, List.forall_mem_cons.2 ⟨hd', hbefore⟩⟩

/-- The base of number `k` declares a signature, first by the method `c`. -/
def Redeclares (find : TypeRef → Option TypeSymbol) (signature : String) (seen : List Address)
    (base : Option TypeRef) (k : Nat) (c : MethodSymbol) : Prop :=
  ∃ ref u, Ancestor find seen base k ref u ∧ IsFirst signature ref.arguments u.callables c

/-! ## Roots -/

/-- The root of a method, by what the bases of each number declare in its place. -/
inductive IsRoot (declares : Nat → MethodSymbol → Prop) (m : MethodSymbol) : MethodSymbol → Prop
  /-- The nearest declaration that overrides nothing. -/
  | origin {k : Nat} {c : MethodSymbol} : declares k c → c.decl.isOverride = false →
    (∀ j < k, ∀ d, declares j d → d.decl.isOverride = true) → IsRoot declares m c
  /-- The furthest declaration, where all of them override something. -/
  | furthest {k : Nat} {c : MethodSymbol} : declares k c →
    (∀ j d, declares j d → d.decl.isOverride = true) → (∀ j d, declares j d → j ≤ k) →
    IsRoot declares m c
  | self : (∀ j d, ¬ declares j d) → IsRoot declares m m

theorem IsFirst.unique {arguments : List TypeRef} {l : List MethodSymbol}
    (h : IsFirst signature arguments l c) (h' : IsFirst signature arguments l c') : c = c' := by
  obtain ⟨before, after, rfl, hc, hbefore⟩ := h
  obtain ⟨before', after', hl, hc', hbefore'⟩ := h'
  rcases List.append_eq_append_iff.1 hl with ⟨between, rfl, hafter⟩ | ⟨between, rfl, hafter⟩
  · cases between with
    | nil => exact (List.cons.inj hafter).1
    | cons d between =>
      cases hafter
      exact absurd hc (hbefore' c (by simp))
  · cases between with
    | nil => exact (List.cons.inj hafter).1.symm
    | cons d between =>
      cases hafter
      exact absurd hc' (hbefore c' (by simp))

theorem Redeclares.unique (h : Redeclares find signature seen base k c)
    (h' : Redeclares find signature seen base k c') : c = c' := by
  obtain ⟨ref, u, hu, hc⟩ := h
  obtain ⟨ref', u', hu', hc'⟩ := h'
  obtain ⟨rfl, rfl⟩ := hu.unique hu'
  exact hc.unique hc'

/-- There is one root only, if no base has two first declarations. -/
theorem IsRoot.unique {declares : Nat → MethodSymbol → Prop}
    (hone : ∀ k c c', declares k c → declares k c' → c = c')
    (h : IsRoot declares m r) (h' : IsRoot declares m r') : r = r' := by
  cases h with
  | @origin k _ hc ho hbelow =>
    cases h' with
    | @origin k' _ hc' ho' hbelow' =>
      rcases Nat.lt_trichotomy k k' with hlt | rfl | hlt
      · exact absurd (hbelow' k hlt r hc) (by simp [ho])
      · exact hone _ _ _ hc hc'
      · exact absurd (hbelow k' hlt r' hc') (by simp [ho'])
    | furthest _ hall _ => exact absurd (hall _ _ hc) (by simp [ho])
    | self hnone => exact absurd hc (hnone _ _)
  | furthest hc hall hmax =>
    cases h' with
    | origin hc' ho' _ => exact absurd (hall _ _ hc') (by simp [ho'])
    | furthest hc' _ hmax' =>
      obtain rfl := Nat.le_antisymm (hmax' _ _ hc) (hmax _ _ hc')
      exact hone _ _ _ hc hc'
    | self hnone => exact absurd hc (hnone _ _)
  | self hnone =>
    cases h' with
    | origin hc' _ _ => exact absurd hc' (hnone _ _)
    | furthest hc' _ _ => exact absurd hc' (hnone _ _)
    | self _ => rfl

/-- The root by what the bases above the nearest declare, with what the nearest declares in place of
the method, is the root by what all bases declare, unless the nearest declaration ends the search. -/
theorem IsRoot.above {declares above : Nat → MethodSymbol → Prop} {found : Option MethodSymbol}
    (hzero : ∀ d, declares 0 d ↔ found = some d) (ho : ∀ d, found = some d → d.decl.isOverride = true)
    (hsucc : ∀ j d, declares (j + 1) d ↔ above j d) (h : IsRoot above (found.getD m) r) :
    IsRoot declares m r := by
  have hlift : ∀ {p : Nat → MethodSymbol → Prop}, (∀ d, found = some d → p 0 d) →
      (∀ j d, above j d → p (j + 1) d) → ∀ j d, declares j d → p j d := by
    intro p h₀ hs j d hd
    cases j with
    | zero => exact h₀ d ((hzero d).1 hd)
    | succ j => exact hs j d ((hsucc j d).1 hd)
  cases h with
  | @origin k _ hc ho' hbelow =>
    refine .origin ((hsucc k r).2 hc) ho' fun j hj d hd => ?_
    exact hlift (p := fun j d => j < k + 1 → d.decl.isOverride = true) (fun d hd _ => ho d hd)
      (fun j d hd hj => hbelow j (Nat.lt_of_succ_lt_succ hj) d hd) j d hd hj
  | @furthest k _ hc hall hmax =>
    exact .furthest ((hsucc k r).2 hc) (hlift ho hall)
      (hlift (fun _ _ => Nat.zero_le _) fun j d hd => Nat.succ_le_succ (hmax j d hd))
  | self hnone =>
    cases found with
    | none => exact .self fun j d => hlift (p := fun _ _ => False) (fun _ h => nomatch h) hnone j d
    | some c =>
      exact .furthest ((hzero c).2 rfl) (hlift ho fun j d hd => absurd hd (hnone j d))
        (hlift (fun _ _ => Nat.le_refl _) fun j d hd => absurd hd (hnone j d))

/-- The last method of an override chain is the root. -/
theorem OverrideChain.isRoot (h : OverrideChain find signature seen base chain)
    (m : MethodSymbol) : IsRoot (Redeclares find signature seen base) m (chain.getLastD m) := by
  have hzero : ∀ {seen : List Address} {ref : TypeRef} {t : TypeSymbol}
      {found : Option MethodSymbol}, find ref = some t → t.address ∉ seen →
      firstWithSignature signature ref.arguments t.callables = .ok found →
      ∀ d, Redeclares find signature seen (some ref) 0 d ↔ found = some d := by
    intro seen ref t found hf hs hfound d
    simp only [Redeclares, ancestor_zero hf hs]
    rw [← isFirst_iff hfound]
    exact ⟨fun ⟨_, _, ⟨hr, hu⟩, hd⟩ => hr ▸ hu ▸ hd, fun hd => ⟨ref, t, ⟨rfl, rfl⟩, hd⟩⟩
  have hsucc : ∀ {seen : List Address} {ref : TypeRef} {t : TypeSymbol} {next : Option TypeRef},
      find ref = some t → t.address ∉ seen →
      TypeRef.substitute? ref.arguments t.decl.base = .ok next → ∀ j d,
      Redeclares find signature seen (some ref) (j + 1) d ↔
        Redeclares find signature (t.address :: seen) next j d :=
    fun hf hs hn j d => by simp only [Redeclares, ancestor_succ hf hs hn]
  induction h generalizing m with
  | top => exact .self fun j d ⟨_, _, h, _⟩ => nomatch h
  | unknown hf =>
    refine .self fun j d ⟨_, _, h, _⟩ => ?_
    cases h <;> simp_all
  | again hf hs =>
    refine .self fun j d ⟨_, _, h, _⟩ => ?_
    cases h <;> simp_all
  | silent hf hs hm hn _ ih =>
    exact (ih m).above (hzero hf hs hm) (fun _ h => nomatch h) (hsucc hf hs hn)
  | origin hf hs hm ho =>
    exact .origin ((hzero hf hs hm _).2 rfl) ho fun j hj => absurd hj (Nat.not_lt_zero j)
  | @further _ _ _ c _ _ hf hs hm ho hn _ ih =>
    rw [List.getLastD_cons]
    exact (ih c).above (hzero hf hs hm) (fun _ h => Option.some.inj h ▸ ho) (hsucc hf hs hn)

end Hierarchy

namespace Context

open Hierarchy

variable {ctx : Context}

/-- The override root of an overriding method is the nearest declaration above that overrides
nothing, else the furthest declaration above, else the method. Any other method of the catalog is
its own root. -/
theorem overrideRoot_eq_iff (hctx : ctx.WellBuilt) :
    (∀ t ∈ ctx.catalog.types, ∀ m ∈ t.callables, m.decl.isOverride = true →
      ∃ signature, m.signature [] = .ok signature ∧ ∀ r, ctx.overrideRoot m = r ↔
        IsRoot (Redeclares ctx.findType signature [t.address] t.decl.base) m r) ∧
    ∀ m, ctx.catalog.method? m.address = some m → m.decl.isOverride = false →
      ctx.overrideRoot m = m := by
  refine ⟨fun t ht m hm ho => ?_, fun m hm ho => ?_⟩
  · obtain ⟨signature, chain, hs, hchain, hroot⟩ := hctx.exists_overrideChain ht hm ho
    refine ⟨signature, hs, fun r => ?_⟩
    have hisRoot := hroot ▸ hchain.isRoot m
    constructor
    · rintro rfl
      exact hisRoot
    · exact hisRoot.unique fun _ _ _ => Redeclares.unique
  · exact hctx.overrideRoot_of_not_override hm ho

/-- What a box or crate is a box of. -/
def content : TypeRef := { shape := .parameter, name := "T" }

/-- A box of anything, a crate that says nothing of how it is filled, a crate of integers and a
larger one. -/
def cratesCatalog : Catalog :=
  let fills (type : TypeRef) (modifier : String) : Member :=
    .method {
      name := "Fill"
      modifiers := ["public", modifier]
      parameters := [{ name := "content", type }] }
  { units := [
      { name := "Store"
        types := [
          { ref := .named "Store" "Box`1" [] none, members := [fills content "virtual"] },
          { ref := .named "Store" "Crate`1" [] none
            base := some (.named "Store" "Box`1" [content] none) },
          { ref := .named "Store" "IntCrate" [] none
            base := some (.named "Store" "Crate`1" [.system "Int32"] none)
            members := [fills (.system "Int32") "override"] },
          { ref := .named "Store" "BigCrate" [] none
            base := some (.named "Store" "IntCrate" [] none)
            members := [fills (.system "Int32") "override"] }] }] }

def crates : Context :=
  { catalog := cratesCatalog
    hierarchy := (Hierarchy.build cratesCatalog).toOption.getD {}
    outcomes := [] }

def crate (type : Nat) : TypeSymbol :=
  cratesCatalog.types[type]?.getD ⟨⟨.detached 0, []⟩, none, { ref := .void }⟩

/-- The method of one of the types that have one. -/
def fill (type : Nat) : MethodSymbol :=
  (crate type).callables.headD ⟨⟨.detached 0, []⟩, none, { name := "" }⟩

/-- Filling the larger crate overrides filling a box, past the crate of integers, which overrides
something itself, and past the crate that says nothing of it. -/
theorem overrideRoot_eq_iff_crates :
    crates.WellBuilt ∧ (fill 3).decl.isOverride = true ∧ crates.overrideRoot (fill 3) = fill 0 := by
  have hbuilt : crates.WellBuilt := ⟨by cbv, by simp [crates]⟩
  have ht : crate 3 ∈ crates.catalog.types := .tail _ (.tail _ (.tail _ (.head _)))
  obtain ⟨signature, hs, hroot⟩ := (overrideRoot_eq_iff hbuilt).1 (crate 3) ht (fill 3) (.head _) rfl
  have hsignature : (fill 3).signature [] = .ok "Fill(System.Int32)" := by cbv
  cases hsignature.symm.trans hs
  have hint : crates.findType (.named "Store" "IntCrate" [] none) = some (crate 2) := by cbv
  have hcrate : crates.findType (.named "Store" "Crate`1" [.system "Int32"] none) =
      some (crate 1) := by cbv
  have hbox : crates.findType (.named "Store" "Box`1" [.system "Int32"] none) =
      some (crate 0) := by cbv
  have hnearest : Ancestor crates.findType [(crate 3).address] (crate 3).decl.base 0 _ (crate 2) :=
    .nearest hint (by decide)
  have hsecond : Ancestor crates.findType [(crate 3).address] (crate 3).decl.base 1 _ (crate 1) :=
    .further hint (by decide) rfl (.nearest hcrate (by decide))
  have hthird : Ancestor crates.findType [(crate 3).address] (crate 3).decl.base 2 _ (crate 0) :=
    .further hint (by decide) rfl (.further hcrate (by decide) (by cbv) (.nearest hbox (by decide)))
  have hfill2 : firstWithSignature "Fill(System.Int32)" [] (crate 2).callables =
      .ok (some (fill 2)) := by cbv
  have hfill1 : firstWithSignature "Fill(System.Int32)" [.system "Int32"] (crate 1).callables =
      .ok none := by cbv
  have hfill0 : firstWithSignature "Fill(System.Int32)" [.system "Int32"] (crate 0).callables =
      .ok (some (fill 0)) := by cbv
  refine ⟨hbuilt, rfl, (hroot _).2 ?_⟩
  refine .origin (k := 2) ⟨_, _, hthird, (isFirst_iff hfill0).2 rfl⟩ rfl ?_
  rintro j hj d ⟨ref, u, hu, hd⟩
  interval_cases j
  · obtain ⟨rfl, rfl⟩ := hu.unique hnearest
    cases (isFirst_iff hfill2).1 hd
    rfl
  · obtain ⟨rfl, rfl⟩ := hu.unique hsecond
    cases (isFirst_iff hfill1).1 hd

end Context

end ApiDoc
