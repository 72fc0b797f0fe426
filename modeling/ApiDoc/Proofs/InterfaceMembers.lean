import Mathlib
import ApiDoc.Proofs.Supported
import ApiDoc.Proofs.Unambiguous

/-!
# Which interface members are found

In a catalog with well-formed references interfaces of one key are interchangeable
(`Context.of_sameKey`), so that dropping all but the first of a key loses nothing. What a method
implements are then the first matches in the interfaces as they are written in the interface lists
of its type and of the types that it reaches (`mem_interfaceMethods_iff_written`). The arguments of
constructed bases and interfaces are not put into them.
-/

namespace ApiDoc

/-- References are supported and legible, bases are named, and the number of arguments of an
interface tells its arity marker. -/
structure Catalog.WellFormed (c : Catalog) : Prop extends c.Supported where
  bases : ∀ t ∈ c.types, ∀ b, t.decl.base = some b → b.shape = .named
  legible : ∀ t ∈ c.types, ∀ r ∈ t.decl.interfaces, r.Legible
  arities : ∀ t ∈ c.types, ∀ u ∈ c.types, ∀ r ∈ t.decl.interfaces, ∀ r' ∈ u.decl.interfaces,
    r.arguments ≠ [] → r.arguments.length = r'.arguments.length →
    Text.stripArity r.fullName = Text.stripArity r'.fullName → r.fullName = r'.fullName

namespace TypeRef

variable {r r' : TypeRef}

theorem sameKey_of_erasedAll? {l l' : List TypeRef} {es : List ErasedType}
    (h : erasedAll? l = some es)
    (h' : erasedAll? l' = some es) : List.Forall₂ SameKey l l' := by
  rw [erasedAll?_eq_some] at h h'
  induction h generalizing l' with
  | nil =>
    cases h'
    exact .nil
  | cons he _ ih =>
    cases h' with
    | cons he' hes' => exact .cons (sameKey_of_erased? he he') (ih hes')

/-- Named references with legible names that have one key differ at most in the arity marker. -/
theorem cases_of_sameKey (h : r.shape = .named) (h' : r'.shape = .named) (hr : r.Legible)
    (hr' : r'.Legible)
    (hkey : SameKey r r') :
    (r.arguments = [] ∧ r'.arguments = [] ∧ r.fullName = r'.fullName) ∨
    (r.arguments ≠ [] ∧ Text.stripArity r.fullName = Text.stripArity r'.fullName ∧
      List.Forall₂ SameKey r.arguments r'.arguments) := by
  obtain ⟨e, he, he'⟩ := (sameKey_iff hr.readable hr'.readable).1 hkey
  by_cases ha : r.arguments = []
  · refine .inl ⟨ha, ?_⟩
    rw [erased?_named h ha, Option.some.injEq] at he
    by_cases ha' : r'.arguments = []
    · rw [erased?_named h' ha', ← he] at he'
      simp only [Option.some.injEq, ErasedType.named.injEq, and_true] at he'
      exact ⟨ha', he'.symm⟩
    · rw [erased?_generic h' ha', ← he] at he'
      simp at he'
  · refine .inr ⟨ha, ?_⟩
    rw [erased?_generic h ha] at he
    obtain ⟨es, hes, rfl⟩ := Option.map_eq_some_iff.1 he
    by_cases ha' : r'.arguments = []
    · rw [erased?_named h' ha'] at he'
      simp at he'
    · rw [erased?_generic h' ha'] at he'
      obtain ⟨es', hes', he'⟩ := Option.map_eq_some_iff.1 he'
      simp only [ErasedType.generic.injEq, and_true] at he'
      obtain ⟨hname, rfl⟩ := he'
      exact ⟨hname.symm, sameKey_of_erasedAll? hes hes'⟩

end TypeRef

namespace Context

variable {ctx : Context} {t u : TypeSymbol} {m c : MethodSymbol} {r r' : TypeRef}
  {signature : String}

/-! ## Interchangeable interfaces -/

theorem findType_eq_of_fullName (h : r.shape = .named) (h' : r'.shape = .named)
    (hname : r.fullName = r'.fullName) : ctx.findType r = ctx.findType r' := by
  simp only [findType, Hierarchy.findType, TypeRef.named?_named h, TypeRef.named?_named h', hname,
    Option.bind_eq_bind, Option.bind_some]

/-- Interfaces of one key have one definition, and arguments of the same keys. -/
theorem of_sameKey (hwf : ctx.catalog.WellFormed) (ht : t ∈ ctx.catalog.types)
    (hu : u ∈ ctx.catalog.types)
    (hr : r ∈ t.decl.interfaces) (hr' : r' ∈ u.decl.interfaces) (h : TypeRef.SameKey r r') :
    ctx.findType r = ctx.findType r' ∧ List.Forall₂ TypeRef.SameKey r.arguments r'.arguments := by
  have hshape := (hwf.interfaces t ht r hr).1
  have hshape' := (hwf.interfaces u hu r' hr').1
  rcases TypeRef.cases_of_sameKey hshape hshape' (hwf.legible t ht r hr)
      (hwf.legible u hu r' hr') h with
    ⟨ha, ha', hname⟩ | ⟨ha, hname, hargs⟩
  · exact ⟨findType_eq_of_fullName hshape hshape' hname, by rw [ha, ha']; exact .nil⟩
  · refine ⟨findType_eq_of_fullName hshape hshape' ?_, hargs⟩
    exact hwf.arities t ht u hu r hr r' hr' ha hargs.length_eq hname

theorem oneDefinition (hwf : ctx.catalog.WellFormed) : ctx.OneDefinition :=
  fun _ ht _ hu _ hr _ hr' h => (of_sameKey hwf ht hu hr hr' h).1

theorem firstWithSignature_congr {l : List MethodSymbol}
    (hl : ∀ m ∈ l, ∀ p ∈ m.decl.parameters, p.type.Supported)
    {arguments arguments' : List TypeRef} (h : List.Forall₂ TypeRef.SameKey arguments arguments') :
    Hierarchy.firstWithSignature signature arguments l =
      Hierarchy.firstWithSignature signature arguments' l := by
  induction l with
  | nil => rfl
  | cons m l ih =>
    obtain ⟨s, hs, hs'⟩ := Method.exists_signature (hl m List.mem_cons_self) h
    have hs : m.signature arguments = .ok s := hs
    have hs' : m.signature arguments' = .ok s := hs'
    rw [Hierarchy.firstWithSignature, Hierarchy.firstWithSignature, hs, hs',
      ih fun m hm => hl m (List.mem_cons_of_mem _ hm)]

theorem Matches.of_sameKey (hctx : ctx.WellBuilt) (hwf : ctx.catalog.WellFormed)
    (ht : t ∈ ctx.catalog.types)
    (hu : u ∈ ctx.catalog.types) (hr : r ∈ t.decl.interfaces) (hr' : r' ∈ u.decl.interfaces)
    (h : TypeRef.SameKey r r') (hc : ctx.Matches signature r c) : ctx.Matches signature r' c := by
  obtain ⟨hdef, hargs⟩ := Context.of_sameKey hwf ht hu hr hr' h
  obtain ⟨v, hv, hfirst⟩ := hc
  refine ⟨v, hdef ▸ hv, ?_⟩
  rw [← firstWithSignature_congr (hwf.parameters v (hctx.mem_of_findType hv)) hargs]
  exact hfirst

/-! ## Constructed interfaces -/

/-- The base of a type, or a further one, with the arguments of each base put into the next. -/
inductive BaseOf (ctx : Context) (t : TypeSymbol) : TypeRef → Prop
  | base {b : TypeRef} : t.decl.base = some b → BaseOf ctx t b
  | further {b b' c : TypeRef} {u : TypeSymbol} : BaseOf ctx t b → ctx.findType b = some u →
    u.decl.base = some b' → b'.substitute b.arguments = .ok c → BaseOf ctx t c

/-- The interfaces that a type implements, with the arguments of each constructed base and interface
put into the interfaces of its definition. -/
inductive Implements (ctx : Context) (t : TypeSymbol) : TypeRef → Prop
  | listed {j : TypeRef} : j ∈ t.decl.interfaces → Implements ctx t j
  | ofBase {b k j : TypeRef} {u : TypeSymbol} : ctx.BaseOf t b → ctx.findType b = some u →
    k ∈ u.decl.interfaces → k.substitute b.arguments = .ok j → Implements ctx t j
  | ofInterface {i k j : TypeRef} {u : TypeSymbol} : Implements ctx t i → ctx.findType i = some u →
    k ∈ u.decl.interfaces → k.substitute i.arguments = .ok j → Implements ctx t j

/-- Putting arguments into a named reference leaves its definition as it is. -/
theorem findType_substitute (h : r.shape = .named) {arguments : List TypeRef}
    (hr : r.substitute arguments = .ok r') :
    r'.shape = .named ∧ ctx.findType r' = ctx.findType r := by
  rw [TypeRef.substitute_named h] at hr
  obtain ⟨own, -, rfl⟩ := map_eq_ok.1 hr
  exact ⟨h, findType_eq_of_fullName (by exact h) h (TypeRef.fullName_with_arguments h own)⟩

/-- The definition of a base is reached from the type. -/
theorem BaseOf.reaches (hctx : ctx.WellBuilt) (hwf : ctx.catalog.WellFormed)
    {b : TypeRef} (h : ctx.BaseOf t b) (hu : ctx.findType b = some u) :
    Relation.ReflTransGen ctx.Ascends t u := by
  induction h generalizing u with
  | base hb => exact .single ⟨_, List.mem_append_right _ (Option.mem_toList.2 hb), hu⟩
  | @further b b' c v _ hv hb' hc ih =>
    have hshape := hwf.bases v (hctx.mem_of_findType hv) b' hb'
    refine (ih hv).tail ⟨b', List.mem_append_right _ (Option.mem_toList.2 hb'), ?_⟩
    rw [← hu]
    exact (findType_substitute hshape hc).2.symm

/-- An implemented interface has the definition of one that is written in the interface list of the
type or of a type that it reaches. -/
theorem Implements.exists_written (hctx : ctx.WellBuilt) (hwf : ctx.catalog.WellFormed)
    {j : TypeRef} (h : ctx.Implements t j) :
    ∃ k, ctx.Writes t k ∧ ctx.findType j = ctx.findType k := by
  induction h with
  | @listed j hj => exact ⟨j, ⟨t, .refl, hj⟩, rfl⟩
  | @ofBase b k j u hb hu hk hj =>
    have hshape := (hwf.interfaces u (hctx.mem_of_findType hu) k hk).1
    exact ⟨k, ⟨u, hb.reaches hctx hwf hu, hk⟩, (findType_substitute hshape hj).2⟩
  | @ofInterface i k j u _ hu hk hj ih =>
    obtain ⟨k', ⟨v, hv, hk'⟩, hdef⟩ := ih
    have hshape := (hwf.interfaces u (hctx.mem_of_findType hu) k hk).1
    refine ⟨k, ⟨u, hv.tail ⟨k', List.mem_append_left _ hk', ?_⟩, hk⟩,
      (findType_substitute hshape hj).2⟩
    rw [← hdef, hu]

/-! ## Interface members -/

/-- A match in an interface belongs to the definition of the interface. -/
theorem Matches.findType_eq {r' : TypeRef} (h : ctx.Matches signature r c)
    (h' : ctx.Matches signature r' c) : ctx.findType r = ctx.findType r' :=
  h.owner_eq.symm.trans h'.owner_eq

/-- What a method implements are the first matches in interfaces as they are written. So an
interface that its type implements by way of constructed bases and interfaces counts exactly if
the same method is the match in an interface with the same definition as it is written; there
always is one with that definition. -/
theorem mem_interfaceMethods_iff_written (hctx : ctx.WellBuilt) (hwf : ctx.catalog.WellFormed)
    (ht : t ∈ ctx.catalog.types) (hm : m ∈ t.callables) :
    ∃ signature found, m.signature [] = .ok signature ∧
      (ctx.interfaceMethods m.toMember).Yields (.ok found) ∧
      (∀ c, c ∈ found ↔ c.address ≠ m.address ∧ ∃ k, ctx.Writes t k ∧ ctx.Matches signature k c) ∧
      ∀ j c, ctx.Implements t j → ctx.Matches signature j c → c.address ≠ m.address →
        (∃ k, ctx.Writes t k ∧ ctx.findType j = ctx.findType k) ∧
        (c ∈ found ↔ ∃ k, ctx.Writes t k ∧ ctx.findType j = ctx.findType k ∧
          ctx.Matches signature k c) := by
  obtain ⟨signature, refs, found, hs, hrefs, hfound, hvalue⟩ :=
    exists_interfaceMethods hctx hwf.toSupported ht hm
  have hwritten := written_of_mem_allInterfaces hrefs
  have hmem : ∀ c, c ∈ found ↔ c.address ≠ m.address ∧ ∃ k, ctx.Writes t k ∧
      ctx.Matches signature k c := by
    intro c
    rw [mem_implementedBy hctx hfound]
    refine and_congr_right fun _ => ⟨?_, ?_⟩
    · rintro ⟨r, hr, hc⟩
      exact ⟨r, hwritten r hr, hc⟩
    · rintro ⟨k, hk, hc⟩
      have hclosed := (oneDefinition hwf).closed_types hctx
      obtain ⟨r, hr, hsame⟩ := hclosed.exists_sameKey_of_written hctx ht hrefs hk
      obtain ⟨u, hu, hku⟩ := hk.exists_mem hctx ht
      obtain ⟨v, hv, hrv⟩ := (hwritten r hr).exists_mem hctx ht
      exact ⟨r, hr, hc.of_sameKey hctx hwf hu hv hku hrv hsame⟩
  refine ⟨signature, found, hs, (ctx.steady_interfaceMethods _).yields_iff.2 hvalue, hmem, ?_⟩
  intro j c hj hc hne
  refine ⟨hj.exists_written hctx hwf, ?_⟩
  rw [hmem]
  refine ⟨?_, ?_⟩
  · rintro ⟨-, k, hk, hck⟩
    exact ⟨k, hk, hc.findType_eq hck, hck⟩
  · rintro ⟨k, hk, -, hck⟩
    exact ⟨hne, k, hk, hck⟩

def item : TypeRef := { shape := .parameter, name := "T" }

def puts (argument : TypeRef) : TypeRef := .named "Zoo" "IPut`1" [argument] none

/-- A shelf that puts what it is a shelf of, as an interface asks, and a shelf of integers on top
of it. -/
def shelvingCatalog : Catalog :=
  { units := [
      { name := "Zoo"
        types := [
          { ref := .named "Zoo" "IPut`1" [] none, category := .interfaceType
            members := [
              .method { name := "Put", parameters := [{ name := "item", type := item }] }] },
          { ref := .named "Zoo" "Shelf`1" [] none, interfaces := [puts item] },
          { ref := .named "Zoo" "IntShelf" [] none
            base := some (.named "Zoo" "Shelf`1" [.system "Int32"] none)
            members := [
              .method {
                name := "Put"
                parameters := [{ name := "item", type := .system "Int32" }] }] }] }] }

def shelving : Context :=
  { catalog := shelvingCatalog
    hierarchy := (Hierarchy.build shelvingCatalog).toOption.getD {}
    outcomes := [] }

def shelved (type : Nat) : TypeSymbol :=
  shelvingCatalog.types[type]?.getD ⟨⟨.detached 0, []⟩, none, { ref := .void }⟩

/-- The method of the interface or that of the shelf of integers. -/
def put (type : Nat) : MethodSymbol :=
  { address := ⟨.declared 0 type, [.member 0]⟩, owner := some (shelved type)
    decl := {
      name := "Put"
      parameters := [{ name := "item", type := if type = 0 then item else .system "Int32" }] } }

theorem shelving_wellBuilt : shelving.WellBuilt := ⟨by cbv, by simp [shelving]⟩

theorem shelving_interfaces :
    ∀ u ∈ shelving.catalog.types, ∀ r ∈ u.decl.interfaces, r = puts item := by
  simp [shelving, shelvingCatalog, Catalog.types, Catalog.unitSymbols, UnitSymbol.types]

theorem shelving_wellFormed : shelving.catalog.WellFormed := by
  have hint : (TypeRef.system "Int32").Supported := .named rfl (by simp [TypeRef.system])
  have hitem : item.Supported := .parameter rfl (by decide)
  have hput : (puts item).Supported := .named rfl (by simpa [puts, TypeRef.named] using hitem)
  have hlegible : (puts item).Legible :=
    .named rfl (by decide) (by simpa [puts, TypeRef.named] using .parameter rfl)
  refine ⟨⟨fun t ht r hr => ?_, ?_⟩, ?_, fun t ht r hr => ?_, fun t ht u hu r hr r' hr' _ _ _ => ?_⟩
  · rw [shelving_interfaces t ht r hr]
    exact ⟨rfl, hput⟩
  · simp [shelving, shelvingCatalog, Catalog.types, Catalog.unitSymbols, UnitSymbol.types,
      TypeSymbol.callables, TypeSymbol.members, MemberSymbol.method?, MemberSymbol.accessors,
      hint, hitem]
  · simp [shelving, shelvingCatalog, Catalog.types, Catalog.unitSymbols, UnitSymbol.types,
      TypeRef.named]
  · rw [shelving_interfaces t ht r hr]
    exact hlegible
  · rw [shelving_interfaces t ht r hr, shelving_interfaces u hu r' hr']

theorem shelving_not_writes {k : TypeRef} {c : MethodSymbol} (hk : shelving.Writes (shelved 2) k) :
    ¬ shelving.Matches "Put(System.Int32)" k c := by
  obtain ⟨u, hu, hku⟩ := hk.exists_mem shelving_wellBuilt (.tail _ (.tail _ (.head _)))
  rw [shelving_interfaces u hu k hku]
  rintro ⟨v, hv, hc⟩
  have hfind : shelving.findType (puts item) = some (shelved 0) := by cbv
  cases hfind.symm.trans hv
  have hnone : Hierarchy.firstWithSignature "Put(System.Int32)" [item] (shelved 0).callables =
      .ok none := by cbv
  cases hnone.symm.trans hc

theorem mem_interfaceMethods_iff_written_shelving :
    ∃ found, (shelving.interfaceMethods (put 2).toMember).Yields (.ok found) ∧
      shelving.Implements (shelved 2) (puts (.system "Int32")) ∧
      shelving.Matches "Put(System.Int32)" (puts (.system "Int32")) (put 0) ∧
      put 0 ∉ found := by
  have hshelf : shelving.findType (.named "Zoo" "Shelf`1" [.system "Int32"] none) =
      some (shelved 1) := by cbv
  have himplements : shelving.Implements (shelved 2) (puts (.system "Int32")) :=
    .ofBase (.base rfl) hshelf (.head _) (by cbv)
  have hmatches : shelving.Matches "Put(System.Int32)" (puts (.system "Int32")) (put 0) :=
    ⟨shelved 0, by cbv, by cbv⟩
  obtain ⟨signature, found, hs, hyields, -, hfound⟩ := mem_interfaceMethods_iff_written
    (t := shelved 2) (m := put 2) shelving_wellBuilt shelving_wellFormed
    (.tail _ (.tail _ (.head _))) (.head _)
  have hsignature : (put 2).signature [] = .ok "Put(System.Int32)" := by cbv
  cases hsignature.symm.trans hs
  obtain ⟨-, hiff⟩ := hfound _ _ himplements hmatches (by decide)
  refine ⟨found, hyields, himplements, hmatches, fun hmem => ?_⟩
  obtain ⟨k, hk, -, hck⟩ := hiff.1 hmem
  exact shelving_not_writes hk hck

end Context
end ApiDoc
