import ApiDoc.Proofs.InterfaceWalk
import ApiDoc.Proofs.Preorder

/-!
# Catalogs of supported references

With references of supported shapes throughout, signatures, interfaces and dispatch tables can all
be worked out, so that a member has interface members (`exists_interfaceMethods`) and each method
or property that a search meets has a key and candidates (`not_raises_of_reaches`).
-/

namespace ApiDoc

/-- Parameters and interfaces are of supported shapes, and what a type implements is named. -/
structure Catalog.Supported (c : Catalog) : Prop where
  interfaces : ∀ t ∈ c.types, ∀ r ∈ t.decl.interfaces, r.shape = .named ∧ r.Supported
  parameters : ∀ t ∈ c.types, ∀ m ∈ t.callables, ∀ p ∈ m.decl.parameters, p.type.Supported

theorem TypeRef.Supported.arguments {r : TypeRef} (h : r.Supported) (hr : r.shape = .named) :
    List.Forall₂ SameKey r.arguments r.arguments := by
  cases h with
  | named _ h => exact List.forall₂_same.2 fun a ha => (h a ha).sameKey
  | parameter h => exact nomatch hr.symm.trans h
  | element h => simp [hasElement, hr] at h

namespace Context

open Answer

variable {ctx : Context} {t : TypeSymbol} {m : MethodSymbol} {s s' : MemberSymbol}
  {refs : List TypeRef}

/-! ## Interface members -/

theorem exists_dispatchEntries {l : List MethodSymbol}
    (hl : ∀ m ∈ l, ∀ p ∈ m.decl.parameters, p.type.Supported) {arguments : List TypeRef}
    (h : List.Forall₂ TypeRef.SameKey arguments arguments) :
    ∃ table, dispatchEntries arguments l = .ok table := by
  induction l with
  | nil => exact ⟨[], rfl⟩
  | cons m l ih =>
    obtain ⟨s, hs, -⟩ := Method.exists_signature (hl m List.mem_cons_self) h
    obtain ⟨table, htable⟩ := ih fun m hm => hl m (List.mem_cons_of_mem _ hm)
    exact ⟨_, bind_eq_ok.2 ⟨s, hs, bind_eq_ok.2 ⟨table, htable, rfl⟩⟩⟩

theorem exists_implementedBy (hctx : ctx.WellBuilt) (hsup : ctx.catalog.Supported) (self : Address)
    (signature : String)
    (hrefs : ∀ r ∈ refs, List.Forall₂ TypeRef.SameKey r.arguments r.arguments) :
    ∃ found, (ctx.implementedBy self signature refs).value = .ok found := by
  induction refs with
  | nil => exact ⟨[], rfl⟩
  | cons r refs ih =>
    obtain ⟨hr, hrefs⟩ := List.forall_mem_cons.1 hrefs
    have htable : ∃ table, (ctx.dispatch r).value = .ok table := by
      rw [value_dispatch hctx]
      cases hf : ctx.findType r with
      | none => exact ⟨[], rfl⟩
      | some v => exact exists_dispatchEntries (hsup.parameters v (hctx.mem_of_findType hf)) hr
    obtain ⟨table, htable⟩ := htable
    obtain ⟨more, hmore⟩ := ih hrefs
    have hrest := ctx.steady_implementedBy self signature refs
    rw [implementedBy,
      (ctx.steady_dispatch r).value_bind fun _ => hrest.bind fun _ => steady_pure _, htable]
    change ∃ found, (ctx.implementedBy self signature refs >>= _).value = .ok found
    rw [hrest.value_bind fun _ => steady_pure _, hmore]
    exact ⟨_, rfl⟩

/-- The interface members of a method are looked up in all interfaces of its type. -/
theorem exists_interfaceMethods (hctx : ctx.WellBuilt) (hsup : ctx.catalog.Supported)
    (ht : t ∈ ctx.catalog.types) (hm : m ∈ t.callables) : ∃ signature refs found,
      m.signature [] = .ok signature ∧ ctx.allInterfaces t = .ok refs ∧
      (ctx.implementedBy m.address signature refs).value = .ok found ∧
      (ctx.interfaceMethods m.toMember).value = .ok found := by
  obtain ⟨signature, hs, -⟩ := Method.exists_signature (hsup.parameters t ht m hm) .nil
  have hkeys : ∀ u ∈ ctx.catalog.types, ∀ r ∈ u.decl.interfaces, ∃ k, r.key true = .ok k :=
    fun u hu r hr => (hsup.interfaces u hu r hr).2.sameKey.imp fun _ => And.left
  obtain ⟨refs, hrefs⟩ := exists_allInterfaces hctx hkeys ht
  have hargs : ∀ r ∈ refs, List.Forall₂ TypeRef.SameKey r.arguments r.arguments := by
    intro r hr
    obtain ⟨u, hu, hru⟩ := (written_of_mem_allInterfaces hrefs r hr).exists_mem hctx ht
    obtain ⟨hshape, hr⟩ := hsup.interfaces u hu r hru
    exact hr.arguments hshape
  obtain ⟨found, hfound⟩ := exists_implementedBy hctx hsup m.address signature hargs
  refine ⟨signature, refs, found, hs, hrefs, hfound, ?_⟩
  rw [value_interfaceMethods (TypeSymbol.owner_of_mem_callables hm)]
  exact bind_eq_ok.2 ⟨signature, hs, bind_eq_ok.2 ⟨refs, hrefs, hfound⟩⟩

/-! ## Candidates -/

theorem exists_methodSources (hctx : ctx.WellBuilt) (hsup : ctx.catalog.Supported)
    (ht : t ∈ ctx.catalog.types) (hm : m ∈ t.callables) :
    ∃ sources, (ctx.methodSources m).value = .ok sources := by
  simp only [methodSources]
  split
  · obtain ⟨-, -, found, -, -, -, hfound⟩ := exists_interfaceMethods hctx hsup ht hm
    exact ⟨found, hfound⟩
  · exact ⟨_, rfl⟩

theorem exists_documentationKey (hsup : ctx.catalog.Supported)
    (hnamed : ∀ t ∈ ctx.catalog.types, t.decl.ref.shape = .named) (hs : ctx.catalog.Inherits s) :
    ∃ key, s.documentationKey = .ok key := by
  have howner : ∀ {m : MemberSymbol} {t}, t ∈ ctx.catalog.types → m.owner = some t →
      m.ownerKey = .ok t.decl.ref.fullName := by
    intro m t ht ho
    rw [MemberSymbol.ownerKey, ho]
    exact TypeRef.key_false_named (hnamed t ht)
  cases hs with
  | @method t m ht hm =>
    obtain ⟨list, hlist, -⟩ := exists_parameterList (hsup.parameters t ht m hm) .nil
    have ho := TypeSymbol.owner_of_mem_callables hm
    exact ⟨_, bind_eq_ok.2 ⟨_, howner ht ho, bind_eq_ok.2 ⟨list, hlist, rfl⟩⟩⟩
  | property ht hp =>
    have ho := TypeSymbol.owner_of_mem_members (TypeSymbol.mem_properties.1 hp)
    exact ⟨_, bind_eq_ok.2 ⟨_, howner ht ho, rfl⟩⟩

end Context
end ApiDoc
