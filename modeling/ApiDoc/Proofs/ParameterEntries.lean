import Mathlib
import ApiDoc.Proofs.DocumentOrder
import ApiDoc.Proofs.SearchOrder

/-!
# Entries of parameters

What documents a parameter is looked for in the entry of its member, be that entry looked up or
inherited (`Context.entry_parameter`). It is the first element for the parameter in document order,
at whatever depth (`Entry.parameter?_eq_some_iff`). So it is the first of the child elements for the
parameter, unless an element for it stands inside an earlier section
(`Entry.ownParameter?_of_length_eq_one`).
-/

namespace ApiDoc

open Xml (Node)

namespace Entry

variable {name : String} {n e : Node} {place : List Nat} {i : Nat}

/-- An element for the parameter of a name. -/
def isParameter (name : String) (n : Node) : Bool := n.hasTag "param" && n.attribute? "name" = some name

/-- The first child element for the parameter of a name. -/
def ownParameter? (entry : Option Node) (name : String) : Option Node :=
  entry.bind fun n => n.content.find? (isParameter name)

theorem isElement_of_isParameter (n : Node) (h : isParameter name n = true) : n.isElement = true := by
  simp only [isParameter, Node.hasTag, Bool.and_eq_true] at h
  exact h.1.1

theorem parameter?_some (n : Node) (name : String) :
    parameter? (some n) name = n.elements.find? (isParameter name) := by
  rw [parameter?, Option.bind_some, Node.elementsNamed, List.find?_filter]
  refine congrArg (n.elements.find? ·) (funext fun m => ?_)
  simp [isParameter]

/-- What documents a parameter is the first element for it in document order. -/
theorem parameter?_eq_some_iff : parameter? (some n) name = some e ↔
    ∃ place, n.IsFirst (fun m => isParameter name m = true) place e := by
  rw [parameter?_some]
  exact Node.find?_elements_eq_some_iff isElement_of_isParameter

theorem parameter?_eq_none_iff : parameter? (some n) name = none ↔
    ∀ place m, n.at? place = some m → ¬ isParameter name m = true := by
  rw [parameter?_some]
  exact Node.find?_elements_eq_none_iff isElement_of_isParameter

/-- An element for a parameter that stands before all others, and is a child, is the first of the
children. -/
theorem ownParameter?_of_length_eq_one (h : n.IsFirst (fun m => isParameter name m = true) place e)
    (hplace : place.length = 1) : ownParameter? (some n) name = some e := by
  obtain ⟨i, rfl⟩ := List.length_eq_one_iff.1 hplace
  have hat := h.at_place
  rw [Node.at?_cons, Option.bind_eq_some_iff] at hat
  obtain ⟨child, hchild, hat⟩ := hat
  cases (Node.at?_nil child).symm.trans hat
  obtain ⟨hi, hget⟩ := List.getElem?_eq_some_iff.1 hchild
  refine List.find?_eq_some_iff_getElem.2 ⟨h.of_kind, i, hi, hget, fun j hj => ?_⟩
  have hlater : ¬ [i] ≤ [j] := not_le.2 (List.cons_lt_cons_iff.2 (.inl hj))
  rw [Bool.not_eq_true', ← Bool.not_eq_true]
  intro hkind
  refine hlater (h.first [j] n.content[j] ?_ hkind)
  rw [Node.at?_cons, List.getElem?_eq_getElem, Option.bind_some, Node.at?_nil]

/-- Where nothing documents a parameter, no child does. -/
theorem ownParameter?_eq_none (h : parameter? (some n) name = none) :
    ownParameter? (some n) name = none := by
  refine List.find?_eq_none.2 fun child hchild => ?_
  obtain ⟨i, hi⟩ := List.mem_iff_getElem?.1 hchild
  refine parameter?_eq_none_iff.1 h [i] child ?_
  rw [Node.at?_cons, hi, Option.bind_some, Node.at?_nil]

end Entry

namespace Context

open Answer

variable {ctx : Context} {p : ParameterSymbol} {m : MemberSymbol}

/-- What documents a parameter is sought in the entry of its member, whether that is the member's own
or inherited. It is the first element for the parameter in document order; nothing is found only if
there is none. If it is a child of the entry it is the first such child. -/
theorem entry_parameter (ctx : Context) (hp : p.member = some m) :
    (ctx.entry (.parameter p) = ctx.entry (.member m) >>= fun found =>
      pure (Entry.parameter? found p.decl.name)) ∧
    (ctx.foreignEntry (.parameter p) = ctx.foreignEntry (.member m) >>= fun found =>
      pure (Entry.parameter? found p.decl.name)) ∧
    (ctx.resolve (.parameter p) = ctx.resolve (.member m) >>= fun found =>
      pure (Entry.parameter? found p.decl.name)) ∧
    Entry.parameter? none p.decl.name = none ∧
    ∀ n : Node,
      (∀ e, Entry.parameter? (some n) p.decl.name = some e ↔
        ∃ place, n.IsFirst (fun m => Entry.isParameter p.decl.name m = true) place e) ∧
      (Entry.parameter? (some n) p.decl.name = none ↔
        ∀ place m, n.at? place = some m → ¬ Entry.isParameter p.decl.name m = true) ∧
      (∀ place e, n.IsFirst (fun m => Entry.isParameter p.decl.name m = true) place e →
        place.length = 1 → Entry.ownParameter? (some n) p.decl.name = some e) ∧
      (Entry.parameter? (some n) p.decl.name = none →
        Entry.ownParameter? (some n) p.decl.name = none) := by
  have hentry : ∀ strict, ctx.entryWith strict (.parameter p) =
      ctx.entryWith strict (.member m) >>= fun found =>
        pure (Entry.parameter? found p.decl.name) := by
    intro strict
    simp only [entryWith, hp]
  have hresolve : ctx.resolve (.parameter p) = ctx.resolve (.member m) >>= fun found =>
      pure (Entry.parameter? found p.decl.name) := by
    simp only [resolve, hp]
  refine ⟨hentry _, hentry _, hresolve, rfl, fun n => ⟨?_, ?_, ?_, ?_⟩⟩
  · exact fun e => Entry.parameter?_eq_some_iff
  · exact Entry.parameter?_eq_none_iff
  · exact fun place e => Entry.ownParameter?_of_length_eq_one
  · exact Entry.ownParameter?_eq_none

/-- An element for a parameter, as it might stand in remarks. -/
def feedBone : Node := .element (.plain "param") [(.plain "name", "food")] [.text "a bone"]

/-- An entry whose remarks have an element for the parameter. -/
def feedEntry : Node :=
  .element (.plain "member") [(.plain "name", "M:Zoo.Dog.Feed(System.String)")] [
    .element (.plain "remarks") [] [
      .text "Like ", feedBone, .text "."],
    .element (.plain "param") [(.plain "name", "food")] [.text "What to eat."]]

def feedFood : Parameter := { name := "food", type := .named "System" "String" [] none }

def feedType : TypeSymbol :=
  { address := ⟨.declared 0 0, []⟩, unit := "Zoo"
    decl := { ref := .named "Zoo" "Dog" [] none
              members := [.method { name := "Feed", parameters := [feedFood] }] } }

def feedMethod : MemberSymbol :=
  { address := ⟨.declared 0 0, [.member 0]⟩, owner := some feedType
    decl := .method { name := "Feed", parameters := [feedFood] } }

def feedParameter : ParameterSymbol :=
  { address := ⟨.declared 0 0, [.member 0, .parameter 0]⟩, member := some feedMethod, decl := feedFood }

def feeding : Context :=
  { catalog := { units := [{ name := "Zoo", types := [feedType.decl] }] }
    hierarchy := {}
    outcomes := [("Zoo", .ok (.ready [("M:Zoo.Dog.Feed(System.String)", feedEntry)] 0))] }

/-- The parameter is documented by the element in the remarks, whichever way it is asked for. -/
theorem entry_parameter_feeding :
    (feeding.entry (.parameter feedParameter)).value = .ok (some feedBone) ∧
    (feeding.foreignEntry (.parameter feedParameter)).value = .ok (some feedBone) ∧
    (feeding.resolve (.parameter feedParameter)).value = .ok (some feedBone) ∧
    ∃ place, feedEntry.IsFirst (fun m => Entry.isParameter "food" m = true) place feedBone := by
  have hmember : feedParameter.member = some feedMethod := rfl
  obtain ⟨hown, hforeign, hinherited, -, hall⟩ := entry_parameter feeding hmember
  rw [hown, hforeign, hinherited]
  exact ⟨by cbv, by cbv, by cbv, ((hall feedEntry).1 feedBone).1 (by cbv)⟩

/-- A parameter need not be documented by a child of the entry of its member. -/
theorem entry_parameter_ne_own : ¬ ∀ (ctx : Context) (p : ParameterSymbol) (m : MemberSymbol) (n : Node),
    p.member = some m → (ctx.entry (.member m)).value = .ok (some n) →
      (ctx.entry (.parameter p)).value = .ok (Entry.ownParameter? (some n) p.decl.name) := by
  intro hclaim
  have hentry : (feeding.entry (.member feedMethod)).value = .ok (some feedEntry) := by cbv
  have hown := hclaim feeding feedParameter feedMethod feedEntry rfl hentry
  have hfound : (feeding.entry (.parameter feedParameter)).value =
      .ok (some feedBone) := by cbv
  rw [hfound] at hown
  have hchild : Entry.ownParameter? (some feedEntry) feedParameter.decl.name =
      some (.element (.plain "param") [(.plain "name", "food")] [.text "What to eat."]) := by cbv
  rw [hchild] at hown
  simp [feedBone] at hown

end Context

end ApiDoc
