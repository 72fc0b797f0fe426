import Mathlib.Logic.Relation
import ApiDoc.Resolution
import ApiDoc.Proofs.ConstructedSignature
import ApiDoc.Proofs.InterfaceMembers

/-!
# The root of a root

The walk up the bases of a method goes through constructed types, and signatures are compared with
the arguments put in. The walk from the root that it finds starts with a definition and no
arguments. With the arguments of the first walk put into everything that the second meets, the
second goes where the first went on (`OverrideChain.eq_nil`), and there the first found nothing
more. So a root is its own root (`overrideRoot_overrideRoot`), if the bases of the catalog are sound
(`SoundBases`). The invariant of the first walk is `Walked`: what it has seen lies on its way, so
that no acyclic walk meets it again.
-/

namespace ApiDoc

/-- A type with arguments for its type parameters; as it is declared, without any. -/
structure Construction where
  definition : TypeSymbol
  arguments : List TypeRef := []

/-- There are arguments for all type parameters in the base and in the signatures of a type. -/
structure Construction.Supplied (x : Construction) : Prop where
  base : ∀ b, x.definition.decl.base = some b → b.Within x.arguments.length
  parameters : ∀ m ∈ x.definition.callables, ∀ p ∈ m.decl.parameters,
    p.type.Within x.arguments.length

theorem TypeRef.substitute?_eq_ok {arguments : List TypeRef} {o : Option TypeRef} {r' : TypeRef} :
    substitute? arguments o = .ok (some r') ↔ ∃ r, o = some r ∧ r.substitute arguments = .ok r' := by
  cases o with
  | none => simp [substitute?]
  | some r =>
    rw [substitute?, bind_eq_ok]
    simp

theorem TypeRef.substitute?_nil (o : Option TypeRef) : substitute? [] o = .ok o := by
  cases o with
  | none => rfl
  | some r =>
    rw [substitute?, substitute_nil]
    rfl

namespace Context

open Hierarchy Relation

variable {ctx : Context} {t u v : TypeSymbol} {m r : MethodSymbol} {x y : Construction}
  {seen : List Address}

/-! ## Sound bases -/

/-- The base of a construction, with its arguments put in, is constructed from a known type. -/
def Climbs (ctx : Context) (x y : Construction) : Prop :=
  ∃ ref, TypeRef.substitute? x.arguments x.definition.decl.base = .ok (some ref) ∧
    ctx.findType ref = some y.definition ∧ y.arguments = ref.arguments

/-- References are well-formed and names of methods have no opening bracket. Each constructed base
has the arguments that its definition asks for, and no type is among its own bases. -/
structure SoundBases (ctx : Context) : Prop where
  bases : ∀ t ∈ ctx.catalog.types, ∀ b, t.decl.base = some b → b.WellFormed
  parameters : ∀ t ∈ ctx.catalog.types, ∀ m ∈ t.callables, ∀ p ∈ m.decl.parameters,
    p.type.WellFormed
  names : ∀ t ∈ ctx.catalog.types, ∀ m ∈ t.callables, '(' ∉ m.decl.name.toList
  supplied : ∀ t ∈ ctx.catalog.types, ∀ x, TransGen ctx.Climbs { definition := t } x → x.Supplied
  acyclic : ∀ t ∈ ctx.catalog.types, ∀ x y, ReflTransGen ctx.Climbs { definition := t } x →
    TransGen ctx.Climbs x y → y.definition ≠ x.definition

theorem Climbs.mem (hctx : ctx.WellBuilt) (h : ctx.Climbs x y) :
    y.definition ∈ ctx.catalog.types := by
  obtain ⟨ref, -, hf, -⟩ := h
  exact hctx.mem_of_findType hf

namespace SoundBases

theorem of_reached (hctx : ctx.WellBuilt) (h : ctx.SoundBases) (ht : t ∈ ctx.catalog.types)
    (hx : ReflTransGen ctx.Climbs { definition := t } x) :
    x.definition ∈ ctx.catalog.types ∧ ∀ a ∈ x.arguments, a.WellFormed := by
  induction hx with
  | refl => exact ⟨ht, by simp⟩
  | tail _ hy ih =>
    refine ⟨hy.mem hctx, ?_⟩
    obtain ⟨ref, href, -, hargs⟩ := hy
    obtain ⟨b, hb, href⟩ := TypeRef.substitute?_eq_ok.1 href
    rw [hargs]
    exact ((h.bases _ ih.1 b hb).of_substitute ih.2 href).of_mem_arguments

/-- The base that a walk comes to is well-formed. -/
theorem wellFormed_base (hctx : ctx.WellBuilt) (h : ctx.SoundBases) (ht : t ∈ ctx.catalog.types)
    (hx : ReflTransGen ctx.Climbs { definition := t } x) {ref : TypeRef}
    (href : TypeRef.substitute? x.arguments x.definition.decl.base = .ok (some ref)) :
    ref.WellFormed := by
  obtain ⟨hmem, hargs⟩ := h.of_reached hctx ht hx
  obtain ⟨b, hb, href⟩ := TypeRef.substitute?_eq_ok.1 href
  exact (h.bases _ hmem b hb).of_substitute hargs href

end SoundBases

/-- A type is declared with a base that is constructed from a known type. -/
def Derives (ctx : Context) (t u : TypeSymbol) : Prop :=
  ∃ b, t.decl.base = some b ∧ ctx.findType b = some u

theorem Derives.mem (hctx : ctx.WellBuilt) (h : ctx.Derives t u) : u ∈ ctx.catalog.types := by
  obtain ⟨b, -, hf⟩ := h
  exact hctx.mem_of_findType hf

/-- No type is among its own bases if all bases have lower ranks than the types derived from them. -/
theorem not_derives_self_of_rank (hctx : ctx.WellBuilt) (rank : TypeSymbol → Nat)
    (hrank : ∀ t ∈ ctx.catalog.types, ∀ u, ctx.Derives t u → rank u < rank t)
    (ht : t ∈ ctx.catalog.types) : ¬ TransGen ctx.Derives t t := by
  have hall : ∀ {u}, TransGen ctx.Derives t u → u ∈ ctx.catalog.types ∧ rank u < rank t := by
    intro u h
    induction h with
    | single h => exact ⟨h.mem hctx, hrank t ht _ h⟩
    | tail _ h ih => exact ⟨h.mem hctx, (hrank _ ih.1 _ h).trans ih.2⟩
  intro h
  exact Nat.lt_irrefl _ (hall h).2

/-- If bases are named, putting arguments into them neither changes their definitions nor how many
arguments they have. Then it is enough to look at the bases as they are declared. -/
theorem SoundBases.of_named (hctx : ctx.WellBuilt)
    (hbases : ∀ t ∈ ctx.catalog.types, ∀ b, t.decl.base = some b → b.shape = .named ∧ b.WellFormed)
    (hparameters : ∀ t ∈ ctx.catalog.types, ∀ m ∈ t.callables, ∀ p ∈ m.decl.parameters,
      p.type.WellFormed)
    (hnames : ∀ t ∈ ctx.catalog.types, ∀ m ∈ t.callables, '(' ∉ m.decl.name.toList)
    (hsupplied : ∀ t ∈ ctx.catalog.types, ∀ b u, t.decl.base = some b → ctx.findType b = some u →
      Construction.Supplied ⟨u, b.arguments⟩)
    (hacyclic : ∀ t ∈ ctx.catalog.types, ¬ TransGen ctx.Derives t t) : ctx.SoundBases := by
  have hstep : ∀ {x y}, x.definition ∈ ctx.catalog.types → ctx.Climbs x y →
      ctx.Derives x.definition y.definition ∧ y.Supplied := by
    rintro x ⟨v, _⟩ hx ⟨ref, href, hf, rfl⟩
    obtain ⟨b, hb, href⟩ := TypeRef.substitute?_eq_ok.1 href
    obtain ⟨hshape, hwf⟩ := hbases _ hx b hb
    have hdef : ctx.findType b = some v := (findType_substitute hshape href).2.symm.trans hf
    have hargs := hwf.substituteAll_arguments (by simp [hshape]) href
    have hlength := (TypeRef.substituteAll_eq_ok.1 hargs).length_eq
    obtain ⟨hbase, hparams⟩ := hsupplied _ hx b v hb hdef
    rw [hlength] at hbase hparams
    exact ⟨⟨b, hb, hdef⟩, hbase, hparams⟩
  have hmem : ∀ {t x}, t ∈ ctx.catalog.types → ReflTransGen ctx.Climbs { definition := t } x →
      x.definition ∈ ctx.catalog.types := by
    intro t x ht hx
    cases hx with
    | refl => exact ht
    | tail _ hy => exact hy.mem hctx
  refine ⟨fun t ht b hb => (hbases t ht b hb).2, hparameters, hnames, fun t ht x hx => ?_,
    fun t ht x y hx hy heq => hacyclic x.definition (hmem ht hx) ?_⟩
  · obtain ⟨z, hz, hx⟩ := TransGen.tail'_iff.1 hx
    exact (hstep (hmem ht hz) hx).2
  · have hderives : ∀ {z}, TransGen ctx.Climbs x z →
        TransGen ctx.Derives x.definition z.definition := by
      intro z hz
      induction hz with
      | single hy => exact .single (hstep (hmem ht hx) hy).1
      | tail hz hy ih => exact ih.tail (hstep (hmem ht (hx.trans hz.to_reflTransGen)) hy).1
    exact heq ▸ hderives hy

/-! ## The first walk -/

/-- The walk up from a type has come to a construction, and what it has seen lies on its way. -/
structure Walked (ctx : Context) (t : TypeSymbol) (seen : List Address) (x : Construction) :
    Prop where
  reached : ReflTransGen ctx.Climbs { definition := t } x
  passed : ∀ a ∈ seen, ∃ z : Construction, z.definition.address = a ∧
    ReflTransGen ctx.Climbs { definition := t } z ∧ ReflTransGen ctx.Climbs z x

namespace Walked

theorem start : ctx.Walked t [t.address] { definition := t } where
  reached := .refl
  passed := by
    intro a ha
    exact ⟨_, (List.mem_singleton.1 ha).symm, .refl, .refl⟩

theorem step (h : ctx.Walked t seen x) (hy : ctx.Climbs x y) :
    ctx.Walked t (y.definition.address :: seen) y where
  reached := h.reached.tail hy
  passed := by
    intro a ha
    rcases List.mem_cons.1 ha with rfl | ha
    · exact ⟨y, rfl, h.reached.tail hy, .refl⟩
    · obtain ⟨z, hz, hstart, hzx⟩ := h.passed a ha
      exact ⟨z, hz, hstart, hzx.tail hy⟩

/-- An acyclic walk does not come to what it has seen. -/
theorem not_seen (hctx : ctx.WellBuilt) (hsound : ctx.SoundBases) (ht : t ∈ ctx.catalog.types)
    (h : ctx.Walked t seen x) (hy : ctx.Climbs x y) : y.definition.address ∉ seen := by
  intro hmem
  obtain ⟨z, hz, hstart, hzx⟩ := h.passed _ hmem
  have hsame : z.definition = y.definition :=
    Catalog.type_ext (hsound.of_reached hctx ht hstart).1 (hy.mem hctx) hz
  exact hsound.acyclic t ht z y hstart (.tail' hzx hy) hsame.symm

/-- A walk that finds nothing more goes past each known base without finding the signature. -/
theorem exists_silent (hctx : ctx.WellBuilt) (hsound : ctx.SoundBases)
    (ht : t ∈ ctx.catalog.types) (h : ctx.Walked t seen x) {signature : String} {ref : TypeRef}
    (href : TypeRef.substitute? x.arguments x.definition.decl.base = .ok (some ref))
    (hf : ctx.findType ref = some v)
    (hchain : OverrideChain ctx.findType signature seen (some ref) []) :
    (∀ d ∈ v.callables, d.signature ref.arguments ≠ .ok signature) ∧
    ∃ next, TypeRef.substitute? ref.arguments v.decl.base = .ok next ∧
      OverrideChain ctx.findType signature (v.address :: seen) next [] := by
  have hnew : v.address ∉ seen := h.not_seen hctx hsound ht (y := ⟨v, _⟩) ⟨ref, href, hf, rfl⟩
  cases hchain with
  | unknown hf' => cases hf.symm.trans hf'
  | again hf' hs =>
    cases hf.symm.trans hf'
    exact absurd hs hnew
  | silent hf' _ hm hn hrest =>
    cases hf.symm.trans hf'
    exact ⟨signature_ne_of_firstWithSignature hm, _, hn, hrest⟩

end Walked

/-- The walk that ends at an overriding method comes to the type of the method, which has the
signature there, and finds nothing more. -/
theorem OverrideChain.exists_walked {signature : String} {base : Option TypeRef}
    {chain : List MethodSymbol} (hchain : OverrideChain ctx.findType signature seen base chain)
    (hx : ctx.Walked t seen x)
    (hbase : TypeRef.substitute? x.arguments x.definition.decl.base = .ok base)
    (hr : chain.getLast? = some r) (ho : r.decl.isOverride = true) :
    ∃ y seen' next, ctx.Walked t seen' y ∧ r ∈ y.definition.callables ∧
      r.signature y.arguments = .ok signature ∧
      TypeRef.substitute? y.arguments y.definition.decl.base = .ok next ∧
      OverrideChain ctx.findType signature seen' next [] := by
  induction hchain generalizing x with
  | top | unknown | again => cases hr
  | @silent seen ref v next chain hf hs hm hn hrest ih =>
    exact ih (hx.step (y := ⟨v, ref.arguments⟩) ⟨ref, hbase, hf, rfl⟩) hn hr
  | origin hf hs hm ho' =>
    obtain rfl := Option.some.inj hr
    cases ho.symm.trans ho'
  | @further seen ref v c next chain hf hs hm ho' hn hrest ih =>
    have hstep := hx.step (y := ⟨v, ref.arguments⟩) ⟨ref, hbase, hf, rfl⟩
    cases chain with
    | nil =>
      obtain rfl := Option.some.inj hr
      exact ⟨_, _, next, hstep, firstWithSignature_mem hm, signature_of_firstWithSignature hm, hn,
        hrest⟩
    | cons c' chain =>
      rw [List.getLast?_cons_cons] at hr
      exact ih hstep hn hr

/-! ## The walk from the root -/

/-- With further arguments put in, a known base keeps its definition and passes them on. -/
theorem exists_further {next : Option TypeRef} {further : List TypeRef} {ref : TypeRef}
    (href : ref.WellFormed) (hf : ctx.findType ref = some v)
    (hput : TypeRef.substitute? further (some ref) = .ok next) :
    ∃ ref', next = some ref' ∧ ctx.findType ref' = some v ∧
      TypeRef.substituteAll further ref.arguments = .ok ref'.arguments := by
  obtain ⟨ref', href', hput⟩ := bind_eq_ok.1 hput
  refine ⟨ref', (Except.ok.inj hput).symm, findType_of_substitute href.supported hf href', ?_⟩
  refine href.substituteAll_arguments (fun hshape => ?_) href'
  simp [findType, Hierarchy.findType, TypeRef.named?_parameter hshape] at hf

/-- The walk from `u` is at a base, and the walk from `t` at that base with the further arguments
put in, from where it finds nothing more. -/
inductive Shadowed (ctx : Context) (t u : TypeSymbol) (signature : String)
    (further : List TypeRef) (base : Option TypeRef) : Prop
  | intro {x y : Construction} {seen : List Address} {base' : Option TypeRef} :
    ctx.Walked t seen x → TypeRef.substitute? x.arguments x.definition.decl.base = .ok base' →
    OverrideChain ctx.findType signature seen base' [] →
    ReflTransGen ctx.Climbs { definition := u } y →
    TypeRef.substitute? y.arguments y.definition.decl.base = .ok base →
    TypeRef.substitute? further base = .ok base' → Shadowed ctx t u signature further base

/-- At a known base the walk from `u` has well-formed arguments that supply the definition. With the
further arguments put into them no method there has the signature, and the walk from `t` goes on
with the base of the definition as that from `u` does. -/
theorem Shadowed.step (hctx : ctx.WellBuilt) (hsound : ctx.SoundBases)
    (ht : t ∈ ctx.catalog.types) (hu : u ∈ ctx.catalog.types) {signature : String}
    {further : List TypeRef} {ref : TypeRef}
    (h : ctx.Shadowed t u signature further (some ref)) (hf : ctx.findType ref = some v) :
    (∀ a ∈ ref.arguments, a.WellFormed) ∧ Construction.Supplied ⟨v, ref.arguments⟩ ∧
    (∃ arguments, TypeRef.substituteAll further ref.arguments = .ok arguments ∧
      ∀ d ∈ v.callables, d.signature arguments ≠ .ok signature) ∧
    ∀ next, TypeRef.substitute? ref.arguments v.decl.base = .ok next →
      ctx.Shadowed t u signature further next := by
  obtain ⟨hx, hbase', hchain, hy, href, hput⟩ := h
  have hwf := hsound.wellFormed_base hctx hu hy href
  obtain ⟨ref', rfl, hf', hargs⟩ := exists_further hwf hf hput
  obtain ⟨hsilent, next', hnext', hrest⟩ :=
    hx.exists_silent hctx hsound ht hbase' hf' hchain
  have hclimb : ctx.Climbs _ ⟨v, ref.arguments⟩ := ⟨ref, href, hf, rfl⟩
  have hsupplied := hsound.supplied u hu _ (.tail' hy hclimb)
  refine ⟨hwf.of_mem_arguments, hsupplied, ⟨_, hargs, hsilent⟩, fun next hnext => ?_⟩
  have hstep := hx.step (y := ⟨v, ref'.arguments⟩) ⟨ref', hbase', hf', rfl⟩
  refine .intro hstep hnext' hrest (hy.tail hclimb) hnext ?_
  cases hb : v.decl.base with
  | none =>
    rw [hb] at hnext hnext'
    cases hnext
    exact hnext'
  | some b =>
    rw [hb] at hnext hnext'
    have hv := hctx.mem_of_findType hf
    obtain ⟨r₁, r₂, h₁, h₂, h'⟩ := TypeRef.substitute_substitute hargs b
      (hsound.bases v hv b hb).supported.nonNegative (hsupplied.base b hb)
    rw [TypeRef.substitute?, h₁] at hnext
    rw [TypeRef.substitute?, h'] at hnext'
    cases hnext
    cases hnext'
    rw [TypeRef.substitute?, h₂]
    rfl

/-- The walk from the type of a method finds nothing if the first walk, under whose arguments
everything that it meets is constructed, found nothing more. -/
theorem OverrideChain.eq_nil (hctx : ctx.WellBuilt) (hsound : ctx.SoundBases)
    (ht : t ∈ ctx.catalog.types) (hu : u ∈ ctx.catalog.types) (hr : r ∈ u.callables)
    {further : List TypeRef} (hfurther : ∀ a ∈ further, a.WellFormed)
    {signature signature' : String} (hs : r.signature [] = .ok signature)
    (hs' : r.signature further = .ok signature') {base : Option TypeRef}
    {chain : List MethodSymbol} (hchain : OverrideChain ctx.findType signature seen base chain)
    (h : ctx.Shadowed t u signature' further base) : chain = [] := by
  -- a method found here would have been found by the first walk
  have hnone : ∀ {ref v d}, ctx.Shadowed t u signature' further (some ref) →
      ctx.findType ref = some v →
      firstWithSignature signature ref.arguments v.callables ≠ .ok (some d) := by
    intro ref v d h hf hd
    obtain ⟨hargs, hsupplied, ⟨arguments, hput, hsilent⟩, -⟩ := h.step hctx hsound ht hu hf
    have hmem := firstWithSignature_mem hd
    have hv := hctx.mem_of_findType hf
    exact hsilent d hmem <| Method.signature_of_signature (hsound.names v hv d hmem)
      (hsound.names u hu r hr) (hsound.parameters v hv d hmem) (hsound.parameters u hu r hr)
      (hsupplied.parameters d hmem) hargs hfurther hput (signature_of_firstWithSignature hd) hs hs'
  induction hchain with
  | top | unknown | again => rfl
  | silent hf _ _ hn _ ih =>
    obtain ⟨-, -, -, hnext⟩ := h.step hctx hsound ht hu hf
    exact ih (hnext _ hn)
  | origin hf _ hm _ => exact absurd hm (hnone h hf)
  | further hf _ hm _ _ _ _ => exact absurd hm (hnone h hf)

/-! ## Roots -/

/-- The root of an overriding method of the catalog is its own root. -/
theorem overrideRoot_root_of_override (hctx : ctx.WellBuilt) (hsound : ctx.SoundBases)
    (ht : t ∈ ctx.catalog.types) (hm : m ∈ t.callables) (ho : m.decl.isOverride = true) :
    ctx.overrideRoot (ctx.overrideRoot m) = ctx.overrideRoot m := by
  obtain ⟨signature, chain, -, hchain, hroot⟩ := hctx.exists_overrideChain ht hm ho
  rw [List.getLastD_eq_getLast?] at hroot
  cases hr : chain.getLast? with
  | none =>
    rw [hr, Option.getD_none] at hroot
    rw [hroot, hroot]
  | some r =>
    rw [hr, Option.getD_some] at hroot
    rw [hroot]
    cases hor : r.decl.isOverride with
    | false =>
      obtain ⟨ref, u, hu, -, hmem⟩ := hchain.declared r (List.mem_of_getLast? hr)
      exact hctx.overrideRoot_of_not_override
        (Catalog.method?_callable (hctx.mem_of_findType hu) hmem) hor
    | true =>
      obtain ⟨y, seen, next, hy, hmem, hs, hnext, hrest⟩ :=
        OverrideChain.exists_walked hchain .start (TypeRef.substitute?_nil _) hr hor
      obtain ⟨hu, hargs⟩ := hsound.of_reached hctx ht hy.reached
      obtain ⟨signature', chain', hs', hchain', hroot'⟩ := hctx.exists_overrideChain hu hmem hor
      have hshadowed : ctx.Shadowed t y.definition signature y.arguments y.definition.decl.base :=
        .intro hy hnext hrest .refl (TypeRef.substitute?_nil _) hnext
      rw [hroot', OverrideChain.eq_nil hctx hsound ht hu hmem hargs hs' hs hchain' hshadowed]
      rfl

/-- The root of a method, whatever method it is, is its own root. So the candidates for the
documentation of a root are its interface members, and a method with another root has the root as
its only candidate. -/
theorem overrideRoot_overrideRoot (hctx : ctx.WellBuilt) (hsound : ctx.SoundBases)
    (m : MethodSymbol) :
    ctx.overrideRoot (ctx.overrideRoot m) = ctx.overrideRoot m ∧
    ctx.methodSources (ctx.overrideRoot m) = ctx.interfaceMethods (ctx.overrideRoot m).toMember ∧
    ((ctx.overrideRoot m).address ≠ m.address →
      ctx.methodSources m = pure [ctx.overrideRoot m]) := by
  have hroot : ctx.overrideRoot (ctx.overrideRoot m) = ctx.overrideRoot m := by
    rcases hctx.overrideRoot_eq_or_exists m with heq | ⟨t, ht, m', hm', ho', heq⟩
    · rw [heq, heq]
    · rw [heq]
      exact overrideRoot_root_of_override hctx hsound ht hm' ho'
  refine ⟨hroot, ?_, fun hne => ?_⟩
  · rw [methodSources, hroot, if_pos rfl]
  · rw [methodSources, if_neg hne]

/-- A shelf that holds texts, a rack that holds what it is a rack of, and a rack of arrays. Both
racks say that they override something. -/
def racksCatalog : Catalog :=
  let holds (type : TypeRef) (modifier : String) : Member :=
    .method {
      name := "Hold"
      modifiers := ["public", modifier]
      parameters := [{ name := "content", type }] }
  { units := [
      { name := "Store"
        types := [
          { ref := .named "Store" "Shelf`1" [] none
            members := [holds (.system "String") "virtual"] },
          { ref := .named "Store" "Rack`1" [] none
            base := some (.named "Store" "Shelf`1" [.ofPosition 0] none)
            members := [holds (.ofPosition 0) "override"] },
          { ref := .named "Store" "ArrayRack" [] none
            base := some (.named "Store" "Rack`1" [.arrayOf (.system "Int32") 1] none)
            members := [holds (.arrayOf (.system "Int32") 1) "override"] }] }] }

def racks : Context := .ofCatalog racksCatalog

def rack (type : Nat) : TypeSymbol :=
  racksCatalog.types[type]?.getD ⟨⟨.detached 0, []⟩, none, { ref := .void }⟩

/-- The method of one of the types. -/
def hold (type : Nat) : MethodSymbol :=
  (rack type).callables.headD ⟨⟨.detached 0, []⟩, none, { name := "" }⟩

/-- Where a type stands in its unit. -/
def rackNumber (t : TypeSymbol) : Nat :=
  match t.address.root with
  | .declared _ number => number
  | .detached _ => 0

theorem racks_wellBuilt : racks.WellBuilt := wellBuilt_ofCatalog (by cbv)

theorem rack_cases (ht : t ∈ racks.catalog.types) : t = rack 0 ∨ t = rack 1 ∨ t = rack 2 := by
  have htypes : racks.catalog.types = [rack 0, rack 1, rack 2] := rfl
  simpa [htypes] using ht

/-- The racks have bases with one argument, each among the types before. -/
theorem racks_base (ht : t ∈ racks.catalog.types) {b : TypeRef} (hb : t.decl.base = some b) :
    b.shape = .named ∧ b.WellFormed ∧ b.arguments.length = 1 ∧
      ∀ u, racks.findType b = some u → t = rack 1 ∧ u = rack 0 ∨ t = rack 2 ∧ u = rack 1 := by
  rcases rack_cases ht with rfl | rfl | rfl
  · cases hb
  · obtain rfl := Option.some.inj hb
    have hname : Text.Readable "Store.Shelf`1" := by decide
    have hargument : (TypeRef.ofPosition 0).WellFormed := .parameter rfl (by decide) rfl
    have hfind : racks.findType (.named "Store" "Shelf`1" [.ofPosition 0] none) =
        some (rack 0) := by cbv
    refine ⟨rfl, .named rfl hname (by simpa [TypeRef.named] using hargument), rfl, fun u hu => ?_⟩
    exact .inl ⟨rfl, Option.some.inj (hu.symm.trans hfind)⟩
  · obtain rfl := Option.some.inj hb
    have hname : Text.Readable "Store.Rack`1" := by decide
    have hargument : (TypeRef.arrayOf (.system "Int32") 1).WellFormed :=
      .element rfl rfl rfl (.named rfl (by decide) (by simp [TypeRef.system]))
    have hfind : racks.findType (.named "Store" "Rack`1" [.arrayOf (.system "Int32") 1] none) =
        some (rack 1) := by cbv
    refine ⟨rfl, .named rfl hname (by simpa [TypeRef.named] using hargument), rfl, fun u hu => ?_⟩
    exact .inr ⟨rfl, Option.some.inj (hu.symm.trans hfind)⟩

theorem racks_callables (ht : t ∈ racks.catalog.types) (hm : m ∈ t.callables) :
    m.decl.name = "Hold" ∧ ∀ p ∈ m.decl.parameters, p.type.WellFormed ∧ p.type.Within 1 := by
  have hnamed : ∀ name : String, Text.Readable (TypeRef.system name).fullName →
      (TypeRef.system name).WellFormed ∧ (TypeRef.system name).Within 1 := fun name hname =>
    ⟨.named rfl hname (by simp [TypeRef.system]), .named rfl (by simp [TypeRef.system])⟩
  have hint := hnamed "Int32" (by decide)
  rcases rack_cases ht with rfl | rfl | rfl
  · obtain rfl := List.mem_singleton.1 hm
    exact ⟨rfl, by simpa using hnamed "String" (by decide)⟩
  · obtain rfl := List.mem_singleton.1 hm
    exact ⟨rfl, by simpa using ⟨.parameter rfl (by decide) rfl, .parameter rfl (by decide)⟩⟩
  · obtain rfl := List.mem_singleton.1 hm
    exact ⟨rfl, by simpa using ⟨.element rfl rfl rfl hint.1, .element rfl rfl hint.2⟩⟩

theorem racks_soundBases : racks.SoundBases := by
  refine .of_named racks_wellBuilt ?_ ?_ ?_ ?_ ?_
  · intro t ht b hb
    obtain ⟨hshape, hwf, -⟩ := racks_base ht hb
    exact ⟨hshape, hwf⟩
  · intro t ht m hm p hp
    exact ((racks_callables ht hm).2 p hp).1
  · intro t ht m hm
    rw [(racks_callables ht hm).1]
    decide
  · intro t ht b u hb hu
    obtain ⟨-, -, hlength, hcases⟩ := racks_base ht hb
    have humem := racks_wellBuilt.mem_of_findType hu
    refine ⟨fun b' hb' => ?_, fun m hm p hp => ?_⟩
    · rcases hcases u hu with ⟨-, rfl⟩ | ⟨-, rfl⟩
      · cases hb'
      · obtain rfl := Option.some.inj hb'
        have hargument : (TypeRef.ofPosition 0).Within 1 := .parameter rfl (by decide)
        rw [hlength]
        exact .named rfl (by simpa [TypeRef.named] using hargument)
    · rw [hlength]
      exact ((racks_callables humem hm).2 p hp).2
  · intro t ht
    apply not_derives_self_of_rank racks_wellBuilt rackNumber _ ht
    rintro t ht u ⟨b, hb, hu⟩
    rcases (racks_base ht hb).2.2.2 u hu with ⟨rfl, rfl⟩ | ⟨rfl, rfl⟩ <;> decide

/-- The root of the rack of arrays is the method of the rack, which says that it overrides something
and still is its own root. -/
theorem overrideRoot_overrideRoot_racks :
    racks.overrideRoot (hold 2) = hold 1 ∧ (hold 1).decl.isOverride = true ∧
    racks.overrideRoot (hold 1) = hold 1 ∧
    racks.methodSources (hold 1) = racks.interfaceMethods (hold 1).toMember ∧
    racks.methodSources (hold 2) = pure [hold 1] := by
  have hroot : racks.overrideRoot (hold 2) = hold 1 := by cbv
  obtain ⟨hself, hsources, hother⟩ :=
    overrideRoot_overrideRoot racks_wellBuilt racks_soundBases (hold 2)
  rw [hroot] at hself hsources hother
  exact ⟨hroot, rfl, hself, hsources, hother (by decide)⟩

end Context

end ApiDoc
