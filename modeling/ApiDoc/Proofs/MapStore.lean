import ApiDoc.Proofs.MergedMaps

/-!
# Maps in a store

Maps that can be changed lie at addresses of a store, and maps and values refer to one another by
address. A layer is merged there by copying the base and setting entries of the copy, and maps
within it in the same way (`Store.Merges`). There is one such run, all that was in the store stays
as it was, and the new map holds what the entries come to when they are merged (`exists_merges`); so
merging is the override that `merge_overrides` describes.
-/

namespace ApiDoc.Data

open Entries (merge mergeValue_of_not_map mergeValue_map mergeValue_none)

/-- What a map in a store holds at a key: another map, by its address, or a value of another kind. -/
inductive Slot where
  | map (address : Nat)
  | value (d : Data)

/-- A map in a store. -/
abbrev Cell := List (Scalar × Slot)

namespace Cell

def get? (cell : Cell) (key : Scalar) : Option Slot :=
  match cell with
  | [] => none
  | (k, slot) :: rest => if k.keyForm = key.keyForm then some slot else get? rest key

def put (cell : Cell) (key : Scalar) (slot : Slot) : Cell :=
  match cell with
  | [] => [(key, slot)]
  | (k, old) :: rest =>
    if k.keyForm = key.keyForm then (k, slot) :: rest else (k, old) :: put rest key slot

end Cell

/-- The maps that there are, by their addresses. -/
abbrev Store := List Cell

namespace Store

def set (store : Store) (address : Nat) (key : Scalar) (slot : Slot) : Store :=
  store.modify address fun cell => cell.put key slot

/-- What a map in the store holds at a key. -/
def found? (store : Store) (address : Nat) (key : Scalar) : Option Slot :=
  store[address]?.bind (·.get? key)

mutual

/-- A run that makes a copy of the base and lays the layer on it. The copy lies behind all that is in
the store. -/
inductive Merges : Store → Nat → Nat → Store → Nat → Prop
  | copy {store store' : Store} {base layer : Nat} {old given : Cell} (hold : store[base]? = some old)
    (hgiven : store[layer]? = some given) (hrun : LaysOn (store ++ [old]) store.length given store') :
    Merges store base layer store' store.length

/-- A run that sets entries in a map one by one. A map on a map is merged with it, and whatever else
is set as it is. -/
inductive LaysOn : Store → Nat → Cell → Store → Prop
  | nil {store : Store} {target : Nat} : LaysOn store target [] store
  | merge {store store' store'' : Store} {target old given merged : Nat} {key : Scalar} {rest : Cell}
    (hfound : store.found? target key = some (.map old)) (hrun : Merges store old given store' merged)
    (hrest : LaysOn (store'.set target key (.map merged)) target rest store'') :
    LaysOn store target ((key, .map given) :: rest) store''
  | set {store store' : Store} {target : Nat} {key : Scalar} {slot : Slot} {rest : Cell}
    (hslots : ∀ old given, store.found? target key = some (.map old) → slot ≠ .map given)
    (hrest : LaysOn (store.set target key slot) target rest store') :
    LaysOn store target ((key, slot) :: rest) store'

end

mutual

theorem Merges.unique {store : Store} {base layer : Nat} :
    ∀ {store₁ store₂ : Store} {merged₁ merged₂ : Nat}, Merges store base layer store₁ merged₁ →
      Merges store base layer store₂ merged₂ → store₁ = store₂ ∧ merged₁ = merged₂
  | _, _, _, _, .copy hold hgiven hrun, .copy hold' hgiven' hrun' => by
    cases hold.symm.trans hold'
    cases hgiven.symm.trans hgiven'
    exact ⟨hrun.unique hrun', rfl⟩

theorem LaysOn.unique {target : Nat} : ∀ {store : Store} {cell : Cell} {store₁ store₂ : Store},
    LaysOn store target cell store₁ → LaysOn store target cell store₂ → store₁ = store₂
  | _, _, _, _, .nil, .nil => rfl
  | _, _, _, _, .merge hfound hrun hrest, .merge hfound' hrun' hrest' => by
    cases hfound.symm.trans hfound'
    obtain ⟨rfl, rfl⟩ := hrun.unique hrun'
    exact hrest.unique hrest'
  | _, _, _, _, .merge hfound _ _, .set hslots _ => absurd rfl (hslots _ _ hfound)
  | _, _, _, _, .set hslots _, .merge hfound _ _ => absurd rfl (hslots _ _ hfound)
  | _, _, _, _, .set _ hrest, .set _ hrest' => hrest.unique hrest'

end

end Store

/-! ## Data in a store -/

mutual

/-- What a slot stands for, where maps are found by their addresses. -/
inductive Holds (find : Nat → Option Cell) : Slot → Data → Prop
  | value {d : Data} (h : d.isMap = false) : Holds find (.value d) d
  | map {address : Nat} {cell : Cell} {entries : Entries} (h : find address = some cell)
    (hcell : HoldsCell find cell entries) : Holds find (.map address) (.map entries)

inductive HoldsCell (find : Nat → Option Cell) : Cell → Entries → Prop
  | nil : HoldsCell find [] []
  | cons {key : Scalar} {slot : Slot} {d : Data} {cell : Cell} {entries : Entries}
    (hslot : Holds find slot d) (hcell : HoldsCell find cell entries) :
    HoldsCell find ((key, slot) :: cell) ((key, d) :: entries)

end

variable {find find' given seen : Nat → Option Cell} {store more extra : Store} {cell : Cell}
  {slot : Slot} {d : Data} {a b entries : Entries} {key : Scalar}

/-- Whatever is found by the one is found by the other. -/
def Within (find find' : Nat → Option Cell) : Prop :=
  ∀ address cell, find address = some cell → find' address = some cell

mutual

theorem Holds.mono (hfind : Within find find') :
    ∀ {slot : Slot} {d : Data}, Holds find slot d → Holds find' slot d
  | _, _, .value h => .value h
  | _, _, .map h hcell => .map (hfind _ _ h) (HoldsCell.mono hfind hcell)

theorem HoldsCell.mono (hfind : Within find find') :
    ∀ {cell : Cell} {entries : Entries}, HoldsCell find cell entries → HoldsCell find' cell entries
  | _, _, .nil => .nil
  | _, _, .cons hslot hcell => .cons (Holds.mono hfind hslot) (HoldsCell.mono hfind hcell)

end

/-- A slot and what it stands for are both a map, or neither is. -/
theorem Holds.map_or_value (h : Holds find slot d) :
    (∃ address inner, slot = .map address ∧ d = .map inner) ∨
      (∀ address, slot ≠ .map address) ∧ d.isMap = false := by
  cases h with
  | value h => exact .inr ⟨nofun, h⟩
  | map => exact .inl ⟨_, _, rfl, rfl⟩

namespace HoldsCell

theorem get? (h : HoldsCell find cell entries) (key : Scalar) :
    Option.Rel (Holds find) (cell.get? key) (entries.get? key) := by
  induction entries generalizing cell with
  | nil =>
    cases h
    exact .none
  | cons e rest ih =>
    cases h with
    | cons hslot hcell =>
      rw [Cell.get?, Entries.get?]
      split
      · exact .some hslot
      · exact ih hcell

/-- What is found at a key is a map in both, or in neither. -/
theorem get?_map_or_value (h : HoldsCell find cell entries) (key : Scalar) :
    (∃ address inner, cell.get? key = some (.map address) ∧ entries.get? key = some (.map inner) ∧
      Holds find (.map address) (.map inner)) ∨
    (∀ address, cell.get? key ≠ some (.map address)) ∧
      ∀ inner, entries.get? key ≠ some (.map inner) := by
  have hrel := h.get? key
  generalize cell.get? key = found, entries.get? key = x at hrel ⊢
  cases hrel with
  | none => exact .inr ⟨nofun, nofun⟩
  | some hslot =>
    cases hslot with
    | value hd => exact .inr ⟨nofun, fun inner h => ne_map hd inner (Option.some.inj h)⟩
    | map haddress hcell => exact .inl ⟨_, _, rfl, rfl, .map haddress hcell⟩

theorem put (h : HoldsCell find cell entries) (hslot : Holds find slot d) (key : Scalar) :
    HoldsCell find (cell.put key slot) (entries.put key d) := by
  induction entries generalizing cell with
  | nil =>
    cases h
    exact .cons hslot .nil
  | cons e rest ih =>
    cases h with
    | cons hold hcell =>
      rw [Cell.put, Entries.put]
      split
      · exact .cons hslot hcell
      · exact .cons hold (ih hcell)

end HoldsCell

/-! ## What can be seen of a store -/

def Store.read (store : Store) (address : Nat) : Option Cell := store[address]?

/-- What is seen below an address, and all the maps that lie from there on. -/
def visible (seen : Nat → Option Cell) (start : Nat) (more : Store) (address : Nat) : Option Cell :=
  if address < start then seen address else more[address - start]?

theorem Within.trans {find'' : Nat → Option Cell} (h : Within find find')
    (h' : Within find' find'') : Within find find'' := fun address cell hfind => h' address cell (h address cell hfind)

theorem Within.lt_length (h : Within seen store.read) {address : Nat}
    (hseen : seen address = some cell) : address < store.length :=
  (List.getElem?_eq_some_iff.1 (h _ _ hseen)).1

theorem visible_within (h : Within seen store.read) (more : Store) :
    Within (visible seen store.length more) (Store.read (store ++ more)) := by
  intro address found hfound
  rw [visible] at hfound
  rw [Store.read]
  split at hfound
  next hlt =>
    rw [List.getElem?_append_left hlt]
    exact h _ _ hfound
  next hge => rw [List.getElem?_append_right (Nat.le_of_not_lt hge), hfound]

/-- The map at the start is not seen by what is seen from the next address on. -/
theorem visible_cons (h : Within seen store.read) (cell : Cell) (more : Store) :
    Within (visible seen (store.length + 1) more) (visible seen store.length (cell :: more)) := by
  intro address found hfound
  rw [visible] at hfound ⊢
  split at hfound
  next => rw [if_pos (h.lt_length hfound), hfound]
  next hge =>
    rw [if_neg (by omega), show address - store.length = address - (store.length + 1) + 1 by omega,
      List.getElem?_cons_succ, hfound]

theorem within_visible (h : Within seen store.read) (more : Store) :
    Within seen (visible seen (store.length + 1) more) := by
  intro address found hfound
  rw [visible, if_pos (Nat.lt_succ_of_lt (h.lt_length hfound)), hfound]

theorem visible_append (seen : Nat → Option Cell) (start : Nat) (more extra : Store) :
    Within (visible seen start more) (visible seen start (more ++ extra)) := by
  intro address found hfound
  rw [visible] at hfound ⊢
  split at hfound
  next hlt => rw [if_pos hlt, hfound]
  next hge =>
    rw [if_neg hge, List.getElem?_append_left (List.getElem?_eq_some_iff.1 hfound).1, hfound]

theorem visible_visible (seen : Nat → Option Cell) (start : Nat) (more extra : Store) :
    Within (visible (visible seen start more) (start + more.length) extra)
      (visible seen start (more ++ extra)) := by
  intro address found hfound
  rw [visible] at hfound
  split at hfound
  next => exact visible_append seen start more extra _ _ hfound
  next hge =>
    rw [visible, if_neg (by omega), List.getElem?_append_right (by omega),
      show address - start - more.length = address - (start + more.length) by omega, hfound]

namespace Store

theorem set_append (store : Store) (cell : Cell) (more : Store) (key : Scalar) (slot : Slot) :
    set (store ++ cell :: more) store.length key slot = store ++ cell.put key slot :: more := by
  rw [set, List.modify_eq_take_cons_drop (by simp)]
  simp

theorem found?_append (store : Store) (cell : Cell) (more : Store) (key : Scalar) :
    found? (store ++ cell :: more) store.length key = cell.get? key := by
  rw [found?, List.getElem?_append_right (Nat.le_refl _), Nat.sub_self, List.getElem?_cons_zero,
    Option.bind_some]

/-- A map on a map is merged with it, and the merged one is set. -/
theorem LaysOn.cons_map {old given target : Nat} {rest : Cell} {store' : Store}
    (h : cell.get? key = some (.map old))
    (hrun : Merges (store ++ cell :: more) old given (store ++ cell :: more ++ extra) target)
    (hrest : LaysOn (store ++ cell.put key (.map target) :: (more ++ extra)) store.length rest store') :
    LaysOn (store ++ cell :: more) store.length ((key, .map given) :: rest) store' := by
  refine .merge ((found?_append ..).trans h) hrun ?_
  rwa [List.append_assoc, List.cons_append, set_append]

/-- What is no map, and a map that is laid on none, is set as it is. -/
theorem LaysOn.cons_of_not_map {rest : Cell} {store' : Store}
    (h : ∀ old given, cell.get? key = some (.map old) → slot ≠ .map given)
    (hrest : LaysOn (store ++ cell.put key slot :: more) store.length rest store') :
    LaysOn (store ++ cell :: more) store.length ((key, slot) :: rest) store' := by
  refine .set (fun old given hfound => h old given ?_) ?_
  · rwa [found?_append] at hfound
  · rwa [set_append]

end Store

/-! ## Merging in a store

The layer and what lies in it are maps that were `given`. The base may also be a map that was made
on the way, and of these all are `seen` but those that are still being made. -/

mutual

theorem exists_merges_within :
    ∀ {slot : Slot} {d : Data} {seen : Nat → Option Cell} {store : Store} {base layer : Nat}
      {a b : Entries}, Holds given slot d → slot = .map layer → d = .map b → Within given seen →
      Within seen store.read → Holds seen (.map base) (.map a) →
      ∃ more target, Store.Merges store base layer (store ++ more) target ∧
        Holds (visible seen store.length more) (.map target) (.map (a.merge b))
  | _, _, seen, store, base, layer, a, b, .value h, hslot, _, _, _, _ => nomatch hslot
  | _, _, seen, store, base, layer, a, b, .map h hlayer, rfl, rfl, hgiven, hseen, hbase => by
    cases hbase with
    | map hold hcell =>
      obtain ⟨cell, more, hrun, hmerged⟩ := exists_laysOn hlayer hgiven hseen
        (hcell.mono (within_visible hseen []))
      refine ⟨cell :: more, store.length, .copy (hseen _ _ hold) (hseen _ _ (hgiven _ _ h)) hrun,
        .map ?_ (hmerged.mono (visible_cons hseen cell more))⟩
      rw [visible, if_neg (Nat.lt_irrefl _), Nat.sub_self, List.getElem?_cons_zero]

theorem exists_laysOn :
    ∀ {layer : Cell} {b : Entries} {seen : Nat → Option Cell} {store more : Store} {cell : Cell}
      {a : Entries}, HoldsCell given layer b → Within given seen → Within seen store.read →
      HoldsCell (visible seen (store.length + 1) more) cell a →
      ∃ cell' more',
        Store.LaysOn (store ++ cell :: more) store.length layer (store ++ cell' :: more') ∧
        HoldsCell (visible seen (store.length + 1) more') cell' (a.merge b)
  | _, _, seen, store, more, cell, a, .nil, _, _, hcell => ⟨cell, more, .nil, by rwa [merge_nil]⟩
  | _, _, seen, store, more, cell, a, @HoldsCell.cons _ key slot d rest entries hslot hrest, hgiven,
      hseen, hcell => by
    have hwithin := within_visible hseen more
    have hset (hslots : ∀ old given, cell.get? key = some (.map old) → slot ≠ .map given)
        (hd : mergeValue (a.get? key) d = d) : ∃ cell' more',
          Store.LaysOn (store ++ cell :: more) store.length ((key, slot) :: rest)
            (store ++ cell' :: more') ∧
          HoldsCell (visible seen (store.length + 1) more') cell' (a.merge ((key, d) :: entries)) := by
      obtain ⟨cell', more', hrun, hmerged⟩ := exists_laysOn hrest hgiven hseen
        (hcell.put (hslot.mono (hgiven.trans hwithin)) key)
      refine ⟨cell', more', .cons_of_not_map hslots hrun, ?_⟩
      rwa [merge, hd]
    rcases hslot.map_or_value with ⟨address, inner, hmap, hinner⟩ | ⟨hvalue, hd⟩
    · rcases hcell.get?_map_or_value key with ⟨old, oldEntries, hold, hentries, holds⟩ | ⟨hnone, hx⟩
      · obtain ⟨extra, target, hrun, htarget⟩ := exists_merges_within hslot hmap hinner
          (hgiven.trans hwithin)
          ((visible_cons hseen cell more).trans (visible_within hseen _)) holds
        have hlength : (store ++ cell :: more).length = store.length + 1 + more.length := by
          rw [List.length_append, List.length_cons]
          omega
        rw [hlength] at htarget
        -- the map that is set here is not seen, so what is seen stays as it is
        have hput := (hcell.mono (visible_append seen (store.length + 1) more extra)).put
          (htarget.mono (visible_visible seen (store.length + 1) more extra)) key
        obtain ⟨cell', more', hrun', hmerged⟩ := exists_laysOn hrest hgiven hseen hput
        refine ⟨cell', more', hmap ▸ .cons_map hold hrun hrun', ?_⟩
        rwa [merge, hentries, hinner, mergeValue_map]
      · exact hset (fun old _ h => absurd h (hnone old)) (mergeValue_of_no_map hx d)
    · exact hset (fun _ _ _ => hvalue _) (mergeValue_of_not_map _ (ne_map hd))

end

/-- All that was in the store stays as it was, and the new map holds the merged entries. -/
theorem exists_merges {base layer : Nat} (hbase : Holds store.read (.map base) (.map a))
    (hlayer : Holds store.read (.map layer) (.map b)) :
    ∃ store' merged, store.Merges base layer store' merged ∧ store <+: store' ∧
      Holds store'.read (.map merged) (.map (a.merge b)) := by
  have hread : Within store.read store.read := fun _ _ h => h
  obtain ⟨more, merged, hrun, hmerged⟩ := exists_merges_within hlayer rfl rfl hread hread hbase
  exact ⟨store ++ more, merged, hrun, List.prefix_append store more,
    hmerged.mono (visible_within hread more)⟩

theorem Holds.of_prefix {store' : Store} (h : Holds store.read slot d) (hstore : store <+: store') :
    Holds store'.read slot d := by
  obtain ⟨more, rfl⟩ := hstore
  refine h.mono fun address found hfound => ?_
  rw [Store.read, List.getElem?_append_left (List.getElem?_eq_some_iff.1 hfound).1]
  exact hfound

/-- Merging is a layered override. What is not a map in the merged maps is what the layer holds at
its path, and what the base holds where the layer is silent. An empty layer or base, and a layer that
was laid on already, change nothing, and layers can be merged from either end if they agree on where
maps are. In a store nothing that was there changes, the base and the layer at any depth included. -/
theorem merge_overrides (ha : WellKeyed (.map a)) (hb : WellKeyed (.map b)) :
    (∀ path v, v.isMap = false → (at? (.map (merge a b)) path = some v ↔
      at? (.map b) path = some v ∨ at? (.map a) path = some v ∧ Silent (.map b) path)) ∧
    merge a [] = a ∧ merge [] b = b ∧ merge a a = a ∧ merge (merge a b) b = merge a b ∧
    (∀ c, WellKeyed (.map c) → Agree (.map b) (.map c) →
      merge (merge a b) c = merge a (merge b c)) ∧
    ∀ (store : Store) (base layer : Nat), Holds store.read (.map base) (.map a) →
      Holds store.read (.map layer) (.map b) →
      ∃ store' merged,
        (∀ store₁ merged₁, store.Merges base layer store₁ merged₁ ↔
          store₁ = store' ∧ merged₁ = merged) ∧
        store <+: store' ∧ Holds store'.read (.map merged) (.map (merge a b)) ∧
        Holds store'.read (.map base) (.map a) ∧ Holds store'.read (.map layer) (.map b) := by
  refine ⟨fun path v hv => at?_merge hb hv a, merge_nil a, nil_merge hb.distinct, merge_self ha,
    merge_merge_layer hb a, fun c hc h => merge_assoc ha hb hc h, ?_⟩
  intro store base layer hbase hlayer
  obtain ⟨store', merged, hrun, hstore, hmerged⟩ := exists_merges hbase hlayer
  refine ⟨store', merged, fun _ _ => ⟨fun h => h.unique hrun, ?_⟩, hstore, hmerged,
    hbase.of_prefix hstore, hlayer.of_prefix hstore⟩
  rintro ⟨rfl, rfl⟩
  exact hrun

/-- Settings as a base, one of which a layer gives in another way. -/
def general : Entries :=
  [(.text "render", .map [(.text "language", .text "cs"), (.text "budget", .int 40)]),
    (.text "names", .list [.text "Equals"])]

def special : Entries := [(.text "render", .map [(.text "budget", .int 80)])]

/-- Both with the maps within them, each at an address of its own. -/
def shelf : Store :=
  [[(.text "language", .value (.text "cs")), (.text "budget", .value (.int 40))],
    [(.text "render", .map 0), (.text "names", .value (.list [.text "Equals"]))],
    [(.text "budget", .value (.int 80))],
    [(.text "render", .map 2)]]

theorem merge_overrides_special :
    at? (.map (merge general special)) [.text "render", .text "language"] = some (.text "cs") ∧
    at? (.map (merge general special)) [.text "render", .text "budget"] = some (.int 80) ∧
    merge (merge general special) special = merge general (merge special special) ∧
    ∃ store' merged, shelf.Merges 1 3 store' merged ∧ shelf <+: store' ∧
      Holds store'.read (.map 1) (.map general) := by
  have hgeneral : WellKeyed (.map general) := by
    refine .map (by decide) fun e he => ?_
    simp only [general, List.mem_cons, List.not_mem_nil, or_false] at he
    rcases he with rfl | rfl
    · refine .map (by decide) fun e he => .leaf ?_
      simp only [List.mem_cons, List.not_mem_nil, or_false] at he
      rcases he with rfl | rfl <;> rfl
    · exact .leaf rfl
  have hspecial : WellKeyed (.map special) := by
    refine .map (by decide) fun e he => ?_
    obtain rfl := List.mem_singleton.1 he
    exact .map (by decide) fun e he => .leaf (by rw [List.mem_singleton.1 he]; rfl)
  have hsilent : Silent (.map special) [.text "render", .text "language"] := by
    refine silent_cons.2 fun d hd => ?_
    obtain rfl : .map [(.text "budget", .int 80)] = d := Option.some.inj hd
    exact silent_cons.2 fun d hd => by cases hd
  have hagree : Agree (.map special) (.map special) := by
    intro path v v' hv hv'
    rw [Option.some.inj (hv.symm.trans hv')]
  have hbase : Holds shelf.read (.map 1) (.map general) :=
    .map rfl (.cons (.map rfl (.cons (.value rfl) (.cons (.value rfl) .nil)))
      (.cons (.value rfl) .nil))
  have hlayer : Holds shelf.read (.map 3) (.map special) :=
    .map rfl (.cons (.map rfl (.cons (.value rfl) .nil)) .nil)
  obtain ⟨hpaths, -, -, -, -, hassoc, hstore⟩ := merge_overrides hgeneral hspecial
  refine ⟨(hpaths _ _ rfl).2 (.inr ⟨by rfl, hsilent⟩), (hpaths _ _ rfl).2 (.inl rfl),
    hassoc special hspecial hagree, ?_⟩
  obtain ⟨store', merged, hrun, hprefix, -, hkept, -⟩ := hstore shelf 1 3 hbase hlayer
  exact ⟨store', merged, (hrun store' merged).2 ⟨rfl, rfl⟩, hprefix, hkept⟩

end ApiDoc.Data
