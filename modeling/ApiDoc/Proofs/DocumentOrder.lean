import Mathlib
import ApiDoc.Xml.Node

/-!
# Document order

The place of a node in a tree tells the child to take at each step down from the root, so an element
stands before what is in it, and that before what follows. `Xml.Node.placed` lists the elements with
their places, in ascending order (`Xml.Node.pairwise_placed`): hence the first of the elements that
meet a condition is the one at the least place (`Xml.Node.find?_elements_eq_some_iff`).
-/

namespace ApiDoc.Xml.Node

/-- The node at a place. -/
def at? : Node → List Nat → Option Node
  | n, [] => some n
  | n, i :: place => n.content[i]?.bind fun child => child.at? place

/-- The node at a place is the first one of a kind, in document order. -/
structure IsFirst (root : Node) (kind : Node → Prop) (place : List Nat) (n : Node) : Prop where
  at_place : root.at? place = some n
  of_kind : kind n
  first : ∀ place' n', root.at? place' = some n' → kind n' → place ≤ place'

variable {root n n' e : Node} {kind : Node → Prop} {place place' : List Nat} {i : Nat}
  {f : List Node}

theorem IsFirst.unique (h : root.IsFirst kind place n) (h' : root.IsFirst kind place' n') :
    place = place' ∧ n = n' := by
  have hplace : place = place' :=
    le_antisymm (h.first _ _ h'.at_place h'.of_kind) (h'.first _ _ h.at_place h.of_kind)
  subst hplace
  exact ⟨rfl, Option.some.inj (h.at_place.symm.trans h'.at_place)⟩

@[simp] theorem at?_nil (n : Node) : n.at? [] = some n := by
  rw [at?]

@[simp] theorem at?_cons (n : Node) (i : Nat) (place : List Nat) :
    n.at? (i :: place) = n.content[i]?.bind fun child => child.at? place := by
  rw [at?]

/-! ## Elements and their places -/

mutual

/-- The elements of a tree with their places, each before those below it. -/
def placed : Node → List (List Nat × Node)
  | .text _ => []
  | .element name attributes content =>
    ([], .element name attributes content) :: placedFrom 0 content

/-- The elements of nodes with their places, the first of the nodes being a child of a number. -/
def placedFrom (i : Nat) : List Node → List (List Nat × Node)
  | [] => []
  | n :: rest => (placed n).map (fun x => (i :: x.1, x.2)) ++ placedFrom (i + 1) rest

end

mutual

theorem placed_map_snd : ∀ n : Node, n.placed.map Prod.snd = n.elements
  | .text _ => by
    rw [placed, elements, List.map_nil]
  | .element name attributes content => by
    rw [placed, elements, List.map_cons, placedFrom_map_snd 0 content]

theorem placedFrom_map_snd (i : Nat) : ∀ f : List Node,
    (placedFrom i f).map Prod.snd = elementsOf f
  | [] => by
    rw [placedFrom, elementsOf, List.map_nil]
  | n :: rest => by
    rw [placedFrom, elementsOf, List.map_append, List.map_map, ← placed_map_snd n,
      placedFrom_map_snd (i + 1) rest]
    rfl

end

mutual

theorem mem_placed : ∀ {n : Node} {place : List Nat} {e : Node},
    (place, e) ∈ n.placed ↔ n.at? place = some e ∧ e.isElement = true
  | .text s, place, e => by
    rw [placed]
    refine ⟨fun h => (nomatch h), fun ⟨hplace, he⟩ => ?_⟩
    cases place with
    | nil =>
      cases (at?_nil _).symm.trans hplace
      cases he
    | cons i place => simp [content] at hplace
  | .element name attributes content, place, e => by
    rw [placed, List.mem_cons, mem_placedFrom]
    cases place with
    | nil =>
      rw [at?_nil, Option.some.injEq]
      constructor
      · rintro (h | ⟨j, n, place, -, h, -⟩)
        · cases h
          exact ⟨rfl, rfl⟩
        · cases h
      · rintro ⟨rfl, -⟩
        exact .inl rfl
    | cons i place =>
      rw [at?_cons, Option.bind_eq_some_iff]
      constructor
      · rintro (h | ⟨j, n, place', hn, h, hplace, he⟩)
        · cases h
        · rw [Nat.zero_add] at h
          cases h
          exact ⟨⟨n, hn, hplace⟩, he⟩
      · rintro ⟨⟨n, hn, hplace⟩, he⟩
        exact .inr ⟨i, n, place, hn, by rw [Nat.zero_add], hplace, he⟩

theorem mem_placedFrom : ∀ {f : List Node} {i : Nat} {place : List Nat} {e : Node},
    (place, e) ∈ placedFrom i f ↔ ∃ j n place', f[j]? = some n ∧ place = (i + j) :: place' ∧
      n.at? place' = some e ∧ e.isElement = true
  | [], i, place, e => by
    rw [placedFrom]
    exact ⟨fun h => (nomatch h), fun ⟨j, n, _, hn, _⟩ => (nomatch hn)⟩
  | n :: rest, i, place, e => by
    rw [placedFrom, List.mem_append, mem_placedFrom, List.mem_map]
    constructor
    · rintro (⟨⟨place', e'⟩, hmem, h⟩ | ⟨j, n', place', hn', rfl, hplace, he⟩)
      · cases h
        exact ⟨0, n, place', rfl, rfl, mem_placed.1 hmem⟩
      · exact ⟨j + 1, n', place', hn', by rw [Nat.add_assoc, Nat.add_comm 1], hplace, he⟩
    · rintro ⟨_ | j, n', place', hn', rfl, hplace, he⟩
      · cases hn'
        exact .inl ⟨(place', e), mem_placed.2 ⟨hplace, he⟩, rfl⟩
      · exact .inr ⟨j, n', place', hn', by rw [Nat.add_assoc, Nat.add_comm 1], hplace, he⟩

end

mutual

/-- The elements are listed in document order. -/
theorem pairwise_placed : ∀ n : Node, n.placed.Pairwise fun x y => x.1 < y.1
  | .text _ => by
    rw [placed]
    exact .nil
  | .element name attributes content => by
    rw [placed]
    refine List.pairwise_cons.2 ⟨fun x hx => ?_, pairwise_placedFrom 0 content⟩
    obtain ⟨j, n, place, -, hx, -⟩ := mem_placedFrom.1 hx
    rw [hx]
    exact List.nil_lt_cons _ _

theorem pairwise_placedFrom (i : Nat) : ∀ f : List Node,
    (placedFrom i f).Pairwise fun x y => x.1 < y.1
  | [] => by
    rw [placedFrom]
    exact .nil
  | n :: rest => by
    rw [placedFrom]
    refine List.pairwise_append.2 ⟨?_, pairwise_placedFrom (i + 1) rest, fun x hx y hy => ?_⟩
    · rw [List.pairwise_map]
      exact (pairwise_placed n).imp fun h => List.cons_lt_cons_iff.2 (.inr ⟨rfl, h⟩)
    · -- what follows is below a later child
      obtain ⟨⟨place, e⟩, -, rfl⟩ := List.mem_map.1 hx
      obtain ⟨j, n', place', -, hy, -⟩ := mem_placedFrom.1 hy
      rw [hy]
      apply List.cons_lt_cons_iff.2
      left
      omega

end

/-! ## The first element of a kind -/

/-- Of a list in ascending order the first that meets a condition is the least. -/
theorem find?_eq_some_iff_of_pairwise {α : Type} {l : List (List Nat × α)}
    (hl : l.Pairwise fun x y => x.1 < y.1) {p : List Nat × α → Bool} {x : List Nat × α} :
    l.find? p = some x ↔ x ∈ l ∧ p x = true ∧ ∀ y ∈ l, p y = true → x.1 ≤ y.1 := by
  induction l with
  | nil => simp
  | cons a l ih =>
    obtain ⟨ha, hl⟩ := List.pairwise_cons.1 hl
    rw [List.find?_cons]
    cases hp : p a with
    | true =>
      constructor
      · rintro ⟨⟩
        exact ⟨List.mem_cons_self, hp, List.forall_mem_cons.2
          ⟨fun _ => le_refl _, fun y hy _ => le_of_lt (ha y hy)⟩⟩
      · rintro ⟨hx, -, hfirst⟩
        rcases List.mem_cons.1 hx with rfl | hx
        · rfl
        · exact absurd (ha x hx) (not_lt.2 (hfirst a List.mem_cons_self hp))
    | false =>
      rw [ih hl, List.mem_cons, List.forall_mem_cons]
      constructor
      · rintro ⟨hx, hpx, hfirst⟩
        exact ⟨.inr hx, hpx, fun hpa => absurd (hp.symm.trans hpa) nofun, hfirst⟩
      · rintro ⟨rfl | hx, hpx, -, hfirst⟩
        · exact absurd (hp.symm.trans hpx) nofun
        · exact ⟨hx, hpx, hfirst⟩

variable {p : Node → Bool}

/-- The first of the elements that meet a condition is the first node of that kind. -/
theorem find?_elements_eq_some_iff (hp : ∀ n, p n = true → n.isElement = true) :
    root.elements.find? p = some e ↔ ∃ place, root.IsFirst (fun n => p n = true) place e := by
  rw [← placed_map_snd, List.find?_map, Option.map_eq_some_iff]
  constructor
  · rintro ⟨⟨place, e⟩, hfind, rfl⟩
    obtain ⟨hlisted, hkind, hfirst⟩ := (find?_eq_some_iff_of_pairwise (pairwise_placed root)).1 hfind
    exact ⟨place, (mem_placed.1 hlisted).1, hkind, fun place' n' hplace' hn' =>
      hfirst (place', n') (mem_placed.2 ⟨hplace', hp n' hn'⟩) hn'⟩
  · rintro ⟨place, hat, hkind, hfirst⟩
    refine ⟨(place, e), (find?_eq_some_iff_of_pairwise (pairwise_placed root)).2 ⟨?_, hkind, ?_⟩, rfl⟩
    · exact mem_placed.2 ⟨hat, hp e hkind⟩
    · rintro ⟨place', n'⟩ hlisted hn'
      exact hfirst place' n' (mem_placed.1 hlisted).1 hn'

theorem find?_elements_eq_none_iff (hp : ∀ n, p n = true → n.isElement = true) :
    root.elements.find? p = none ↔ ∀ place n, root.at? place = some n → ¬ p n = true := by
  rw [← placed_map_snd, List.find?_eq_none]
  constructor
  · intro h place n hat hn
    exact h n (List.mem_map_of_mem (f := Prod.snd) (mem_placed.2 ⟨hat, hp n hn⟩)) hn
  · intro h n hmem
    obtain ⟨⟨place, n⟩, hlisted, rfl⟩ := List.mem_map.1 hmem
    exact h place n (mem_placed.1 hlisted).1

/-- If there is a node of a kind, there is a first one. -/
theorem exists_isFirst (hp : ∀ n, p n = true → n.isElement = true) (hat : root.at? place = some n)
    (hn : p n = true) : ∃ place' n', root.IsFirst (fun n => p n = true) place' n' := by
  cases hfind : root.elements.find? p with
  | none => exact absurd hn ((find?_elements_eq_none_iff hp).1 hfind place n hat)
  | some e =>
    obtain ⟨place', hfirst⟩ := (find?_elements_eq_some_iff hp).1 hfind
    exact ⟨place', e, hfirst⟩

end ApiDoc.Xml.Node
