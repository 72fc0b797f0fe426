import Mathlib
import ApiDoc.Proofs.DocumentOrder
import ApiDoc.Proofs.Lifecycle

/-!
# What indices hold

The entries of a source are the `member` elements of its tree that have a name, each name with the
first of its elements in document order (`Entries.exists_firsts`). So an index answers from the tree
alone, whatever state it is in (`Index.Faithful.describes`).
-/

namespace ApiDoc

open Xml (Node)

/-! ## Sources -/

namespace Source

/-- The tree of a source that is at hand. -/
inductive Holds : Source → Node → Prop
  | text {s : String} {root : Node} : Xml.readText s = .ok root → Holds (.text s) root
  | bytes {bs : List UInt8} {root : Node} : Xml.readBytes bs = .ok root → Holds (.bytes bs) root
  | element (root : Node) : Holds (.element root) root

/-- The tree of a well-formed source, which may have to be fetched. -/
inductive Provides : Source → Node → Prop
  | atHand {source : Source} {root : Node} : Holds source root → Provides source root
  | fetched {source : Source} {root : Node} : Holds source root → Provides (.fetched source) root

variable {source : Source} {root : Node}

theorem Holds.readRaw_eq (h : source.Holds root) : source.readRaw = .ok (.ofRoot root) := by
  cases h with
  | text h => simp only [readRaw, h]
  | bytes h => simp only [readRaw, h]
  | element => rfl

theorem Provides.read_eq (h : source.Provides root) : source.read = .ok (.ofRoot root) := by
  cases h with
  | fetched h => exact h.readRaw_eq
  | atHand h =>
    have hraw := h.readRaw_eq
    cases h <;> exact hraw

end Source

/-! ## Names -/

namespace Entries

/-- A `member` element that bears a name. -/
def bears (key : String) (n : Node) : Bool :=
  n.hasTag "member" && n.attribute? "name" = some key && !key.isEmpty

/-- The name that an element is entered under. -/
def key? (n : Node) : Option String :=
  if n.hasTag "member" then (n.attribute? "name").filter (!·.isEmpty) else none

variable {key : String} {n : Node} {root : Node}

theorem key?_eq_some_iff : key? n = some key ↔ bears key n = true := by
  simp only [key?, bears]
  cases n.hasTag "member" <;> simp [Option.filter_eq_some_iff]

theorem isElement_of_bears (n : Node) (h : bears key n = true) : n.isElement = true := by
  simp only [bears, Node.hasTag, Bool.and_eq_true] at h
  exact h.1.1.1

theorem named_eq (root : Node) :
    named root = root.elements.filterMap fun n => (key? n).map fun key => (key, n) := by
  rw [named, Node.elementsNamed, List.filterMap_filter]
  refine List.filterMap_congr fun n _ => ?_
  simp only [key?]
  split
  · cases n.attribute? "name" with
    | none => rfl
    | some key => cases hkey : key.isEmpty <;> simp [Option.filter, hkey]
  · rfl

/-- The entries with the places of their elements. -/
def located (root : Node) : List (List Nat × String × Node) :=
  root.placed.filterMap fun x => (key? x.2).map fun key => (x.1, key, x.2)

theorem located_map_snd (root : Node) : (located root).map Prod.snd = named root := by
  rw [named_eq, ← Node.placed_map_snd, located, List.map_filterMap, List.filterMap_map]
  refine List.filterMap_congr fun x _ => ?_
  rw [Option.map_map]
  rfl

theorem mem_located {place : List Nat} : (place, key, n) ∈ located root ↔
    root.at? place = some n ∧ bears key n = true := by
  rw [located, List.mem_filterMap]
  constructor
  · rintro ⟨⟨place', n'⟩, hmem, h⟩
    obtain ⟨key', hkey, h⟩ := Option.map_eq_some_iff.1 h
    cases h
    exact ⟨(Node.mem_placed.1 hmem).1, key?_eq_some_iff.1 hkey⟩
  · rintro ⟨hat, hbears⟩
    refine ⟨(place, n), Node.mem_placed.2 ⟨hat, isElement_of_bears n hbears⟩, ?_⟩
    rw [key?_eq_some_iff.2 hbears]
    rfl

theorem pairwise_located (root : Node) : (located root).Pairwise fun x y => x.1 < y.1 := by
  refine List.pairwise_filterMap.2 ((Node.pairwise_placed root).imp fun {x y} hlt a ha b hb => ?_)
  obtain ⟨_, -, rfl⟩ := Option.map_eq_some_iff.1 ha
  obtain ⟨_, -, rfl⟩ := Option.map_eq_some_iff.1 hb
  exact hlt

/-! ## First occurrences -/

/-- The first entries of each name in a list of entries that is in ascending order. -/
structure AreFirsts (found l : List (List Nat × String × Node)) : Prop where
  firsts_eq : found.map Prod.snd = firsts (l.map Prod.snd)
  sublist : found.Sublist l
  first : ∀ x ∈ found, ∀ y ∈ l, y.2.1 = x.2.1 → x.1 ≤ y.1
  complete : ∀ y ∈ l, ∃ x ∈ found, x.2.1 = y.2.1

theorem exists_areFirsts {l : List (List Nat × String × Node)}
    (hl : l.Pairwise fun x y => x.1 < y.1) : ∃ found, AreFirsts found l := by
  induction l with
  | nil => exact ⟨[], rfl, .slnil, nofun, nofun⟩
  | cons x l ih =>
    obtain ⟨hx, hl⟩ := List.pairwise_cons.1 hl
    obtain ⟨found, hfound⟩ := ih hl
    refine ⟨x :: found.filter fun y => y.2.1 ≠ x.2.1, ?_, ?_, ?_, ?_⟩
    · rw [List.map_cons, List.map_cons, firsts, ← hfound.firsts_eq, List.filter_map]
      rfl
    · exact (List.filter_sublist.trans hfound.sublist).cons_cons x
    · refine List.forall_mem_cons.2 ⟨?_, fun y hy => ?_⟩
      · exact List.forall_mem_cons.2 ⟨fun _ => le_refl _, fun y hy _ => le_of_lt (hx y hy)⟩
      · obtain ⟨hy, hkey⟩ := List.mem_filter.1 hy
        refine List.forall_mem_cons.2 ⟨fun h => ?_, hfound.first y hy⟩
        simp [h] at hkey
    · refine List.forall_mem_cons.2 ⟨⟨x, List.mem_cons_self, rfl⟩, fun y hy => ?_⟩
      by_cases hkey : y.2.1 = x.2.1
      · exact ⟨x, List.mem_cons_self, hkey.symm⟩
      · obtain ⟨z, hz, hzy⟩ := hfound.complete y hy
        refine ⟨z, List.mem_cons_of_mem x (List.mem_filter.2 ⟨hz, ?_⟩), hzy⟩
        simpa [hzy] using hkey

/-- The entries of a tree, each with the place of its element: the first elements of each name. -/
theorem exists_firsts (root : Node) : ∃ found : List (List Nat × String × Node),
    found.map Prod.snd = firsts (named root) ∧
    (found.map Prod.fst).Pairwise (· < ·) ∧
    found.length ≤ (named root).length ∧
    ∀ place key n, (place, key, n) ∈ found ↔
      root.IsFirst (fun m => bears key m = true) place n := by
  obtain ⟨found, hfound⟩ := exists_areFirsts (pairwise_located root)
  have heq := hfound.firsts_eq
  rw [located_map_snd] at heq
  refine ⟨found, heq, ?_, ?_, fun place key n => ⟨fun hmem => ?_, fun hfirst => ?_⟩⟩
  · rw [List.pairwise_map]
    exact (pairwise_located root).sublist hfound.sublist
  · rw [← located_map_snd, List.length_map]
    exact hfound.sublist.length_le
  · obtain ⟨hat, hbears⟩ := mem_located.1 (hfound.sublist.subset hmem)
    refine ⟨hat, hbears, fun place' n' hat' hbears' => ?_⟩
    exact hfound.first _ hmem _ (mem_located.2 ⟨hat', hbears'⟩) rfl
  · have hlocated := mem_located.2 ⟨hfirst.at_place, hfirst.of_kind⟩
    obtain ⟨⟨place', key', n'⟩, hmem, hkey⟩ := hfound.complete _ hlocated
    obtain rfl : key' = key := hkey
    obtain ⟨hat', hbears'⟩ := mem_located.1 (hfound.sublist.subset hmem)
    have hplace : place' = place :=
      le_antisymm (hfound.first _ hmem _ hlocated rfl) (hfirst.first _ _ hat' hbears')
    subst hplace
    cases hat'.symm.trans hfirst.at_place
    exact hmem

/-- A key leads to the first element that bears it. -/
theorem lookup_eq_some_iff : (firsts (named root)).lookup key = some n ↔
    ∃ place, root.IsFirst (fun m => bears key m = true) place n := by
  obtain ⟨found, hfound, -, -, hmem⟩ := exists_firsts root
  have hentry : (key, n) ∈ firsts (named root) ↔ ∃ place, (place, key, n) ∈ found := by
    rw [← hfound]
    simp
  simp only [← hmem, ← hentry]
  exact ⟨mem_of_lookup, lookup_of_mem (nodup_firsts _)⟩

theorem mem_keys_iff : key ∈ (firsts (named root)).map Prod.fst ↔
    ∃ place n, root.at? place = some n ∧ bears key n = true := by
  rw [← isSome_lookup_iff, Option.isSome_iff_exists]
  simp only [lookup_eq_some_iff]
  constructor
  · rintro ⟨n, place, hat, hbears, -⟩
    exact ⟨place, n, hat, hbears⟩
  · rintro ⟨place, n, hat, hbears⟩
    obtain ⟨place, n, hfirst⟩ := Node.exists_isFirst isElement_of_bears hat hbears
    exact ⟨n, place, hfirst⟩

/-- The keys come in the order of the first elements that bear them. -/
theorem exists_places (root : Node) : ∃ places : List (List Nat), places.Pairwise (· < ·) ∧
    List.Forall₂ (fun key place => ∃ n, root.IsFirst (fun m => bears key m = true) place n)
      ((firsts (named root)).map Prod.fst) places := by
  obtain ⟨found, hfound, hplaces, -, hmem⟩ := exists_firsts root
  refine ⟨found.map Prod.fst, hplaces, ?_⟩
  rw [← hfound, List.map_map, List.forall₂_map_left_iff, List.forall₂_map_right_iff, List.forall₂_same]
  rintro ⟨place, key, n⟩ hx
  exact ⟨n, (hmem place key n).1 hx⟩

theorem length_firsts_le (root : Node) : (firsts (named root)).length ≤ (named root).length := by
  obtain ⟨found, hfound, -, hlength, -⟩ := exists_firsts root
  rwa [← hfound, List.length_map]

/-- The number of places where an element with a name stands. -/
theorem ncard_named (root : Node) :
    {place | ∃ key n, root.at? place = some n ∧ bears key n = true}.ncard =
      (named root).length := by
  have hset : {place | ∃ key n, root.at? place = some n ∧ bears key n = true} =
      ((located root).map Prod.fst).toFinset := by
    ext place
    simp only [Set.mem_ofPred_eq, List.coe_toFinset, List.mem_map, Prod.exists, ← mem_located]
    constructor
    · rintro ⟨key, n, h⟩
      exact ⟨place, key, n, h, rfl⟩
    · rintro ⟨place, key, n, h, rfl⟩
      exact ⟨key, n, h⟩
  have hnodup : ((located root).map Prod.fst).Nodup := by
    rw [List.nodup_iff_pairwise_ne, List.pairwise_map]
    exact (pairwise_located root).imp fun hlt => ne_of_lt hlt
  rw [hset, Set.ncard_coe_finset, List.toFinset_card_of_nodup hnodup, List.length_map,
    ← located_map_snd, List.length_map]

end Entries

/-! ## Indices -/

namespace Index

variable {i : Index} {root : Node} {source : Source}

/-- What an index over a tree answers, whatever has been asked of it before. The keys are the names in
the order of their first elements, and each key has the first element of its name. What is left in
the log when the index is built counts the elements that have a name. -/
structure Describes (i : Index) (root : Node) (keys : List String) : Prop where
  keys_eq : ∀ strict, (i.keys strict).1 = .ok keys
  size_eq : ∀ strict, (i.size strict).1 = .ok keys.length
  nodup : keys.Nodup
  mem_keys_iff : ∀ key, key ∈ keys ↔ ∃ place n, root.at? place = some n ∧ Entries.bears key n = true
  order : ∃ places : List (List Nat), places.Pairwise (· < ·) ∧
    List.Forall₂ (fun key place => ∃ n, root.IsFirst (fun m => Entries.bears key m = true) place n)
      keys places
  get_eq_some_iff : ∀ strict key n, (i.get strict key).1 = .ok (some n) ↔
    ∃ place, root.IsFirst (fun m => Entries.bears key m = true) place n
  get_eq_none_iff : ∀ strict key, (i.get strict key).1 = .ok none ↔ key ∉ keys
  find_eq_get : ∀ strict key, (i.find key).1 = (i.get strict key).1
  contains_eq : ∀ key, (i.contains key).1 = .ok (decide (key ∈ keys))
  built : ∃ duplicates : Nat,
    i.renew.settle.2.2 = [{
      level := .debug, event := "documentation_index_built"
      fields := [("unit", .text i.unit), ("entries", .int keys.length),
        ("duplicates", .int duplicates)] }] ∧
    keys.length + duplicates =
      {place | ∃ key n, root.at? place = some n ∧ Entries.bears key n = true}.ncard

theorem outcome_of_provides (h : i.source.Provides root) : i.outcome = .ok (.ofRoot root) :=
  i.outcome_eq.trans h.read_eq

/-- What is left in the log when an index is settled for the first time. -/
theorem log_settle {c : Contents} (hc : i.contents = none) (ho : i.outcome = .ok c) :
    i.settle.2.2 = [report i.unit c] := by
  simp only [settle, hc, ho]

/-- Over a source that provides a tree, an index answers from the tree. -/
theorem Faithful.put_eq (hi : i.Faithful) (h : i.source.Provides root) (strict : Bool)
    (q : Index.Question) : (q.put strict i).1 = q.read strict i.unit (.ofRoot root) := by
  rw [q.put_eq]
  change i.settle.1.bind _ = _
  rw [hi.settle_eq, outcome_of_provides h]
  rfl

theorem Faithful.get_eq (hi : i.Faithful) (h : i.source.Provides root) (strict : Bool) (key : String) :
    (i.get strict key).1 = .ok ((Entries.firsts (Entries.named root)).lookup key) :=
  hi.put_eq h strict (.get key)

theorem Faithful.describes (hi : i.Faithful) (h : i.source.Provides root) :
    i.Describes root ((Entries.firsts (Entries.named root)).map Prod.fst) where
  keys_eq strict := hi.put_eq h strict .keys
  size_eq strict := by
    rw [List.length_map]
    exact hi.put_eq h strict .size
  nodup := Entries.nodup_firsts _
  mem_keys_iff key := Entries.mem_keys_iff
  order := Entries.exists_places root
  get_eq_some_iff strict key n := by
    rw [hi.get_eq h, Except.ok.injEq]
    exact Entries.lookup_eq_some_iff
  get_eq_none_iff strict key := by
    rw [hi.get_eq h, Except.ok.injEq, ← isSome_lookup_iff, Option.not_isSome_iff_eq_none]
  find_eq_get strict key := (hi.put_eq h strict (.find key)).trans (hi.get_eq h strict key).symm
  contains_eq key := by
    have hcontains : (i.contains key).1 =
        .ok ((Entries.firsts (Entries.named root)).lookup key).isSome := hi.put_eq h true (.contains key)
    rw [hcontains, Except.ok.injEq, Bool.eq_iff_iff, decide_eq_true_iff]
    exact isSome_lookup_iff
  built := by
    refine ⟨(Entries.named root).length - (Entries.firsts (Entries.named root)).length, ?_, ?_⟩
    · rw [log_settle (i := i.renew) rfl (outcome_of_provides h), List.length_map]
      rfl
    · have hle := Entries.length_firsts_le root
      rw [Entries.ncard_named, List.length_map]
      omega

end Index

end ApiDoc
