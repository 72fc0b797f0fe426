import Mathlib
import ApiDoc.Proofs.Supported

/-!
# Explicit implementations of interface members

A method whose name is qualified by an interface implements a member of that interface. The
qualifier is no part of its signature (`Text.simpleName_append_dot`), so that every interface of the
type counts that has the signature, not only the one in the name. The members that the method
implements belong to one interface exactly if no other has a match
(`interfaceMethods_of_explicit`).
-/

namespace ApiDoc

namespace Text

theorem simpleNameChars_append_dot {full simple : List Char} (hfull : ∃ c ∈ full, c ≠ '.')
    (hsimple : '.' ∉ simple) : simpleNameChars (full ++ '.' :: simple) = simple := by
  have hdot : ((full ++ '.' :: simple).dropWhile (· = '.')).contains '.' = true := by
    have hne : full.dropWhile (· = '.') ≠ [] := by
      obtain ⟨c, hc, hne⟩ := hfull
      intro hnil
      exact hne (by simpa using List.dropWhile_eq_nil_iff.1 hnil c hc)
    rw [List.dropWhile_append, if_neg (by simpa using hne)]
    simp
  have hlast : (full ++ '.' :: simple).reverse.takeWhile (· ≠ '.') = simple.reverse := by
    have hnone : ∀ c ∈ simple.reverse, decide (c ≠ '.') = true := by
      intro c hc
      refine decide_eq_true ?_
      rintro rfl
      exact hsimple (List.mem_reverse.1 hc)
    rw [List.reverse_append, List.reverse_cons, List.append_assoc,
      List.takeWhile_append_of_pos hnone]
    simp
  rw [simpleNameChars, if_pos hdot, hlast, List.reverse_reverse]

/-- What stands after the last dot is the simple name, if more than dots stand before. -/
theorem simpleName_append_dot {full simple : String} (hfull : ∃ c ∈ full.toList, c ≠ '.')
    (hsimple : '.' ∉ simple.toList) : simpleName (full ++ "." ++ simple) = simple := by
  rw [← String.toList_inj]
  simp [simpleName, simpleNameChars_append_dot hfull hsimple]

end Text

namespace Context

variable {ctx : Context} {t : TypeSymbol} {m c : MethodSymbol} {r r' : TypeRef}
  {signature : String}

/-- What a method with a qualified name implements are the first matches in the interfaces of its
type, for the signature with its simple name: the match in the interface of its name and those in
all others. They belong to the definition of that interface exactly if no interface with another
definition has a match. -/
theorem interfaceMethods_of_explicit (hctx : ctx.WellBuilt) (ht : t ∈ ctx.catalog.types)
    (hm : m ∈ t.callables) {i : TypeRef} {simple : String}
    (hname : m.decl.name = i.fullName ++ "." ++ simple) (hsimple : '.' ∉ simple.toList)
    {refs : List TypeRef} (hrefs : ctx.allInterfaces t = .ok refs) (hi : i ∈ refs) :
    (ctx.catalog.Supported → ∃ found, (ctx.interfaceMethods m.toMember).value = .ok found) ∧
    ∀ found, (ctx.interfaceMethods m.toMember).value = .ok found → ∃ list signature,
      parameterList [] m.decl.parameters = .ok list ∧ m.signature [] = .ok signature ∧
      ((∃ c ∈ i.fullName.toList, c ≠ '.') → signature = simple ++ m.decl.arityMarker ++ list) ∧
      (∀ c, c ∈ found ↔ c.address ≠ m.address ∧ ∃ r ∈ refs, ctx.Matches signature r c) ∧
      (∀ c, ctx.Matches signature i c → c.address ≠ m.address → c ∈ found) ∧
      ((∀ c ∈ found, c.owner = ctx.findType i) ↔
        ∀ r ∈ refs, ctx.findType r ≠ ctx.findType i → ∀ c, ctx.Matches signature r c →
          c.address = m.address) := by
  refine ⟨fun hsup => ?_, fun found hfound => ?_⟩
  · obtain ⟨-, -, found, -, -, -, hfound⟩ := exists_interfaceMethods hctx hsup ht hm
    exact ⟨found, hfound⟩
  rw [value_interfaceMethods (TypeSymbol.owner_of_mem_callables hm)] at hfound
  obtain ⟨signature, hs, hfound⟩ := bind_eq_ok.1 hfound
  obtain ⟨refs', hrefs', hfound⟩ := bind_eq_ok.1 hfound
  cases hrefs.symm.trans hrefs'
  have hs : m.signature [] = .ok signature := hs
  obtain ⟨list, hlist, hsignature⟩ := bind_eq_ok.1 hs
  have hmem : ∀ c, c ∈ found ↔ c.address ≠ m.address ∧ ∃ r ∈ refs, ctx.Matches signature r c :=
    fun c => mem_implementedBy hctx hfound
  refine ⟨list, signature, hlist, hs, fun hfull => ?_, hmem, fun c hc hne => ?_, ?_⟩
  · rw [← Except.ok.inj hsignature, hname, Text.simpleName_append_dot hfull hsimple]
  · exact (hmem c).2 ⟨hne, i, hi, hc⟩
  constructor
  · intro hall r hr hother c hc
    by_contra hne
    exact hother (hc.owner_eq.symm.trans (hall c ((hmem c).2 ⟨hne, r, hr, hc⟩)))
  · intro hnone c hc
    obtain ⟨hne, r, hr, hmatch⟩ := (hmem c).1 hc
    by_contra howner
    exact hne (hnone r hr (fun heq => howner (hmatch.owner_eq.trans heq)) c hmatch)

/-- A toy and a pet can both be played with, and a dog, which is both, says what playing with it as
a pet is. -/
def petsCatalog : Catalog :=
  let plays (name : String) : Member := .method { name }
  { units := [
      { name := "Zoo"
        types := [
          { ref := .named "Zoo" "IToy" [] none, category := .interfaceType
            members := [plays "Play"] },
          { ref := .named "Zoo" "IPet" [] none, category := .interfaceType
            members := [plays "Play"] },
          { ref := .named "Zoo" "Dog" [] none
            interfaces := [.named "Zoo" "IToy" [] none, .named "Zoo" "IPet" [] none]
            members := [plays "Zoo.IPet.Play"] }] }] }

def pets : Context := .ofCatalog petsCatalog

def pet (type : Nat) : TypeSymbol :=
  petsCatalog.types[type]?.getD ⟨⟨.detached 0, []⟩, none, { ref := .void }⟩

/-- The method of one of the types. -/
def play (type : Nat) : MethodSymbol :=
  (pet type).callables.headD ⟨⟨.detached 0, []⟩, none, { name := "" }⟩

theorem pets_wellBuilt : pets.WellBuilt := wellBuilt_ofCatalog (by cbv)

theorem pets_interfaces : pets.allInterfaces (pet 2) =
    .ok [.named "Zoo" "IToy" [] none, .named "Zoo" "IPet" [] none] := by cbv

theorem pets_interfaceMethods :
    (pets.interfaceMethods (play 2).toMember).value = .ok [play 0, play 1] := by cbv

/-- Playing with the dog as a pet implements playing with a toy as well. -/
theorem interfaceMethods_of_explicit_pets :
    (play 2).decl.name = "Zoo.IPet.Play" ∧ (play 2).signature [] = .ok "Play" ∧
    (∀ c, c ∈ [play 0, play 1] ↔ c.address ≠ (play 2).address ∧
      ∃ r ∈ [TypeRef.named "Zoo" "IToy" [] none, .named "Zoo" "IPet" [] none],
        pets.Matches "Play" r c) ∧
    ¬ ∀ c ∈ [play 0, play 1], c.owner = pets.findType (.named "Zoo" "IPet" [] none) := by
  have ht : pet 2 ∈ pets.catalog.types := .tail _ (.tail _ (.head _))
  have hname : (play 2).decl.name =
      (TypeRef.named "Zoo" "IPet" [] none).fullName ++ "." ++ "Play" := by decide
  obtain ⟨list, signature, hlist, hs, hsignature, hmem, -, howner⟩ :=
    (interfaceMethods_of_explicit pets_wellBuilt ht (.head _) hname (by decide) pets_interfaces
      (.tail _ (.head _))).2 _ pets_interfaceMethods
  cases hlist
  obtain rfl : signature = "Play" := hsignature ⟨'Z', by decide, by decide⟩
  refine ⟨rfl, hs, hmem, fun hall => ?_⟩
  have htoy : pets.Matches "Play" (.named "Zoo" "IToy" [] none) (play 0) :=
    ⟨pet 0, by cbv, by cbv⟩
  have hother : pets.findType (.named "Zoo" "IToy" [] none) ≠
      pets.findType (.named "Zoo" "IPet" [] none) := by
    have hfirst : pets.findType (.named "Zoo" "IToy" [] none) = some (pet 0) := by cbv
    have hsecond : pets.findType (.named "Zoo" "IPet" [] none) = some (pet 1) := by cbv
    rw [hfirst, hsecond]
    exact fun heq => absurd (congrArg TypeSymbol.address (Option.some.inj heq)) (by decide)
  exact absurd (howner.1 hall _ (.head _) hother _ htoy) (by decide)

/-- That a method with a qualified name implements members of the named interface only is wrong. -/
theorem not_forall_owner_eq_findType :
    ¬ ∀ (ctx : Context) (t : TypeSymbol) (m : MethodSymbol) (i : TypeRef) (simple : String)
      (refs : List TypeRef) (found : List MethodSymbol), ctx.WellBuilt → t ∈ ctx.catalog.types →
      m ∈ t.callables → ctx.allInterfaces t = .ok refs → i ∈ refs →
      m.decl.name = i.fullName ++ "." ++ simple → '.' ∉ simple.toList →
      ctx.overrideRoot m = m → (ctx.methodSources m).value = .ok found →
      ∀ c ∈ found, c.owner = ctx.findType i := by
  intro h
  have hroot : pets.overrideRoot (play 2) = play 2 := by cbv
  have hsources : (pets.methodSources (play 2)).value = .ok [play 0, play 1] := by
    rw [methodSources, if_pos (by rw [hroot]), pets_interfaceMethods]
  have htoy := h pets (pet 2) (play 2) (.named "Zoo" "IPet" [] none) "Play" _ _ pets_wellBuilt
    (.tail _ (.tail _ (.head _))) (.head _) pets_interfaces (.tail _ (.head _)) (by decide)
    (by decide) hroot hsources (play 0) (.head _)
  have hpet : pets.findType (.named "Zoo" "IPet" [] none) = some (pet 1) := by cbv
  rw [hpet] at htoy
  exact absurd (congrArg TypeSymbol.address (Option.some.inj htoy)) (by decide)

end Context

end ApiDoc
