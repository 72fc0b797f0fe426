import ApiDoc.Proofs.DataMaps

/-!
# Maps merged at every depth

A path of keys leads through maps within maps. What is found along it in a merged map and is no map
itself stands there in the layer, or in the base if the layer is `Silent` about the path
(`at?_merge`). Keys of a map are distinct at every depth (`WellKeyed`). A layer then counts once
however often it is laid on (`merge_merge_layer`), and layers can be merged from either end
(`merge_assoc`) if no path leads to a map in one and to something else in the next.
-/

namespace ApiDoc.Data

open Entries (Distinct get? keyForms get?_cons get?_merge merge mergeValue_of_not_map mergeValue_map
  mergeValue_none)

variable {a b c base layer entries rest : Entries} {d v : Data} {x : Option Data} {key : Scalar}
  {path : List Scalar}

def isMap : Data → Bool
  | .map _ => true
  | _ => false

theorem ne_map (h : d.isMap = false) (inner : Entries) : d ≠ .map inner := by
  rintro rfl
  cases h

/-- The maps that are reached through maps have distinct keys. -/
inductive WellKeyed : Data → Prop
  | leaf {d : Data} (h : d.isMap = false) : WellKeyed d
  | map {entries : Entries} (distinct : Distinct entries) (values : ∀ e ∈ entries, WellKeyed e.2) :
    WellKeyed (.map entries)

theorem WellKeyed.distinct (h : WellKeyed (.map entries)) : Distinct entries := by
  cases h with
  | leaf h => cases h
  | map distinct => exact distinct

theorem WellKeyed.of_get? (h : WellKeyed (.map entries)) (hget : get? entries key = some d) :
    WellKeyed d := by
  cases h with
  | leaf h => cases h
  | map _ values =>
    obtain ⟨k, hmem, -⟩ := Entries.exists_mem_of_get? hget
    exact values _ hmem

/-! ## Paths -/

/-- What a path of keys leads to. -/
def at? : Data → List Scalar → Option Data
  | d, [] => some d
  | .map entries, key :: path => (get? entries key).bind fun d => d.at? path
  | _, _ :: _ => none

@[simp] theorem at?_nil (d : Data) : d.at? [] = some d := by rw [at?]

@[simp] theorem at?_map_cons (entries : Entries) (key : Scalar) (path : List Scalar) :
    at? (.map entries) (key :: path) = (get? entries key).bind fun d => d.at? path := by rw [at?]

/-- Nothing is at the path or beyond it, and nothing but maps is on the way. -/
structure Silent (d : Data) (path : List Scalar) : Prop where
  unset : ∀ rest, d.at? (path ++ rest) = none
  passable : ∀ before v, before <+: path → before ≠ path → d.at? before = some v → v.isMap = true

theorem not_silent_nil (d : Data) : ¬ d.Silent [] := fun h => by
  cases (at?_nil d).symm.trans (h.unset [])

theorem Silent.isMap (h : d.Silent path) : d.isMap = true := by
  cases path with
  | nil => exact absurd h (not_silent_nil d)
  | cons key path =>
    exact h.passable [] d List.nil_prefix (List.cons_ne_nil key path).symm (at?_nil d)

theorem silent_cons : Silent (.map entries) (key :: path) ↔
    ∀ d, get? entries key = some d → d.Silent path := by
  constructor
  · rintro ⟨hunset, hpassable⟩ d hget
    constructor
    · intro rest
      simpa [hget] using hunset rest
    · intro before v hprefix hne hv
      refine hpassable (key :: before) v (List.cons_prefix_cons.2 ⟨rfl, hprefix⟩)
        (by simpa using hne) ?_
      rw [at?_map_cons, hget, Option.bind_some, hv]
  · intro h
    constructor
    · intro rest
      rw [List.cons_append, at?_map_cons, Option.bind_eq_none_iff]
      exact fun d hget => (h d hget).unset rest
    · intro before v hprefix hne hv
      cases before with
      | nil =>
        obtain rfl := Option.some.inj ((at?_nil _).symm.trans hv)
        rfl
      | cons key' before =>
        obtain ⟨rfl, hbefore⟩ := List.cons_prefix_cons.1 hprefix
        rw [at?_map_cons, Option.bind_eq_some_iff] at hv
        obtain ⟨d, hget, hv⟩ := hv
        exact (h d hget).passable before v hbefore (by simpa using hne) hv

/-! ## Entries of a merged map -/

theorem keyForm_mem {e : Scalar × Data} (h : e ∈ entries) : e.1.keyForm ∈ keyForms entries :=
  List.mem_map_of_mem (f := fun e => e.1.keyForm) h

theorem keyForms_eq (entries : Entries) :
    keyForms entries = (entries.map Prod.fst).map Scalar.keyForm := by
  rw [List.map_map]
  rfl

theorem put_of_fresh (h : key.keyForm ∉ keyForms base) :
    Entries.put base key d = base ++ [(key, d)] := by
  induction base with
  | nil => rfl
  | cons e rest ih =>
    obtain ⟨hne, hrest⟩ := not_or.1 (mt List.mem_cons.2 h)
    rw [Entries.put, if_neg (Ne.symm hne), ih hrest, List.cons_append]

/-- A value that is there already changes nothing. -/
theorem put_of_get? (h : get? base key = some d) : Entries.put base key d = base := by
  induction base with
  | nil => cases h
  | cons e rest ih =>
    rw [get?_cons] at h
    rw [Entries.put]
    split at h
    next hkey => rw [if_pos hkey, ← Option.some.inj h]
    next hkey => rw [if_neg hkey, ih h]

/-- Entries with new keys come after the others. -/
theorem merge_of_fresh (hlayer : Distinct layer) (h : ∀ e ∈ layer, e.1.keyForm ∉ keyForms base) :
    merge base layer = base ++ layer := by
  induction layer generalizing base with
  | nil => rw [merge, List.append_nil]
  | cons e rest ih =>
    obtain ⟨hnew, hrest⟩ := Entries.distinct_cons.1 hlayer
    have hfresh := h e List.mem_cons_self
    rw [merge, Entries.get?_eq_none.2 hfresh, mergeValue_none, put_of_fresh hfresh, ih hrest,
      List.append_assoc, List.singleton_append]
    intro e' he' hmem
    rw [keyForms, List.map_append, List.mem_append] at hmem
    rcases hmem with hmem | hmem
    · exact h e' (List.mem_cons_of_mem _ he') hmem
    · exact hnew ((List.mem_singleton.1 hmem : e'.1.keyForm = e.1.keyForm) ▸ keyForm_mem he')

theorem nil_merge (h : Distinct layer) : merge [] layer = layer :=
  merge_of_fresh h fun _ _ => List.not_mem_nil

theorem merge_nil (base : Entries) : merge base [] = base := by rw [merge]

/-- A layer with nothing new changes nothing. -/
theorem merge_eq_self (h : ∀ e ∈ layer, get? base e.1 = some (mergeValue (get? base e.1) e.2)) :
    merge base layer = base := by
  induction layer with
  | nil => exact merge_nil base
  | cons e rest ih =>
    rw [merge, put_of_get? (h e List.mem_cons_self)]
    exact ih fun e' he' => h e' (List.mem_cons_of_mem _ he')

theorem keys_put_of_mem (h : key.keyForm ∈ keyForms base) (d : Data) :
    (Entries.put base key d).map Prod.fst = base.map Prod.fst := by
  induction base with
  | nil => cases h
  | cons e rest ih =>
    rw [Entries.put]
    split
    next => rfl
    next hne =>
      rw [List.map_cons, List.map_cons, ih ((List.mem_cons.1 h).resolve_left (Ne.symm hne))]

/-- The keys of the base come first, and then those of the layer that are new. -/
theorem keys_merge (hlayer : Distinct layer) (base : Entries) : (merge base layer).map Prod.fst =
    base.map Prod.fst ++ (layer.map Prod.fst).filter fun key => key.keyForm ∉ keyForms base := by
  induction layer generalizing base with
  | nil => rw [merge_nil, List.map_nil, List.filter_nil, List.append_nil]
  | cons e rest ih =>
    obtain ⟨hnew, hrest⟩ := Entries.distinct_cons.1 hlayer
    have hkept : ∀ d, (rest.map Prod.fst).filter
          (fun key => key.keyForm ∉ keyForms (Entries.put base e.1 d)) =
        (rest.map Prod.fst).filter fun key => key.keyForm ∉ keyForms base := by
      refine fun d => List.filter_congr fun key hkey => ?_
      obtain ⟨e', he', rfl⟩ := List.mem_map.1 hkey
      have hne : e'.1.keyForm ≠ e.1.keyForm := fun heq => hnew (heq ▸ keyForm_mem he')
      simp only [Entries.mem_keyForms_put, hne, false_or]
    rw [merge, ih hrest, hkept, List.map_cons]
    by_cases hold : e.1.keyForm ∈ keyForms base
    · rw [keys_put_of_mem hold, List.filter_cons_of_neg (by simpa using hold)]
    · rw [put_of_fresh hold, List.map_append, List.filter_cons_of_pos (by simpa using hold),
        List.append_assoc]
      rfl

theorem mem_keyForms_merge (hlayer : Distinct layer) {form : Scalar} :
    form ∈ keyForms (merge base layer) ↔ form ∈ keyForms base ∨ form ∈ keyForms layer := by
  rw [keyForms_eq, keyForms_eq layer, keys_merge hlayer, List.map_append, List.mem_append,
    ← keyForms_eq]
  constructor
  · refine Or.imp_right fun h => ?_
    obtain ⟨key, hkey, rfl⟩ := List.mem_map.1 h
    exact List.mem_map_of_mem (List.mem_filter.1 hkey).1
  · intro h
    by_cases hold : form ∈ keyForms base
    · exact .inl hold
    · obtain ⟨key, hkey, rfl⟩ := List.mem_map.1 (h.resolve_left hold)
      exact .inr (List.mem_map_of_mem (List.mem_filter.2 ⟨hkey, by simpa using hold⟩))

/-- Entries are known by their keys and what is found at them. -/
theorem Distinct.ext {entries' : Entries} (h : Distinct entries)
    (hkeys : entries.map Prod.fst = entries'.map Prod.fst)
    (hget : ∀ key, get? entries key = get? entries' key) : entries = entries' := by
  induction entries generalizing entries' with
  | nil => exact (List.map_eq_nil_iff.1 hkeys.symm).symm
  | cons e rest ih =>
    obtain ⟨e', rest', rfl⟩ : ∃ e' rest', entries' = e' :: rest' :=
      List.exists_cons_of_ne_nil (by rintro rfl; cases hkeys)
    obtain ⟨hkey, hrest⟩ := List.cons_eq_cons.1 hkeys
    obtain ⟨hnew, hdistinct⟩ := Entries.distinct_cons.1 h
    have hvalue : e.2 = e'.2 := by
      have := hget e.1
      rwa [get?_cons, get?_cons, if_pos rfl, hkey, if_pos rfl, Option.some.injEq] at this
    rw [Prod.ext hkey hvalue, ih hdistinct hrest]
    intro key
    by_cases hform : e.1.keyForm = key.keyForm
    · have hnone : get? rest key = none := Entries.get?_eq_none.2 (hform ▸ hnew)
      rw [hnone, Entries.get?_eq_none.2]
      rwa [keyForms_eq, ← hrest, ← keyForms_eq, ← hform]
    · have := hget key
      rwa [get?_cons, get?_cons, if_neg hform, if_neg (hkey ▸ hform)] at this

/-- What a map is laid over. -/
def entriesOf : Option Data → Entries
  | some (.map entries) => entries
  | _ => []

theorem mergeValue_map_eq (h : Distinct layer) (x : Option Data) :
    mergeValue x (.map layer) = .map (merge (entriesOf x) layer) := by
  match x with
  | some (.map old) => exact mergeValue_map old layer
  | none | some (.scalar _) | some (.list _) | some (.tuple _) | some (.set _) =>
    simp only [mergeValue, entriesOf, nil_merge h]

theorem mergeValue_of_no_map (h : ∀ inner, x ≠ some (.map inner)) (d : Data) :
    mergeValue x d = d := by
  cases d with
  | map layer =>
    rw [mergeValue]
    exact h
  | _ => exact mergeValue_of_not_map x (ne_map rfl)

/-! ## Paths of a merged map -/

theorem at?_entriesOf : at? (.map (entriesOf x)) (key :: path) = some v ↔
    ∃ old, x = some old ∧ old.at? (key :: path) = some v := by
  cases x with
  | none => simp [entriesOf, get?]
  | some old =>
    cases old with
    | map entries => simp [entriesOf]
    | _ => simp [entriesOf, get?, at?]

/-- Along a path a value shows what it holds, and what it is laid over where it is silent. -/
theorem at?_mergeValue (hd : WellKeyed d) (hv : v.isMap = false) (x : Option Data) :
    (mergeValue x d).at? path = some v ↔
      d.at? path = some v ∨ (∃ old, x = some old ∧ old.at? path = some v) ∧ d.Silent path := by
  induction hd generalizing x path with
  | leaf h =>
    rw [mergeValue_of_not_map x (ne_map h), or_iff_left]
    exact fun ⟨_, hsilent⟩ => Bool.false_ne_true (h.symm.trans hsilent.isMap)
  | @map layer hdistinct hvalues ih =>
    rw [mergeValue_map_eq hdistinct]
    cases path with
    | nil =>
      have hne : ∀ entries, at? (.map entries) [] ≠ some v := fun entries heq =>
        ne_map hv entries (Option.some.inj ((at?_nil _).symm.trans heq)).symm
      exact iff_of_false (hne _) (not_or.2 ⟨hne _, fun h => not_silent_nil _ h.2⟩)
    | cons key path =>
      rw [← at?_entriesOf, at?_map_cons, at?_map_cons, at?_map_cons, silent_cons,
        get?_merge hdistinct]
      cases hget : get? layer key with
      | none => simp
      | some d =>
        obtain ⟨k, hmem, -⟩ := Entries.exists_mem_of_get? hget
        rw [Option.map_some, Option.some_or, Option.bind_some, Option.bind_some, ih _ hmem,
          Option.bind_eq_some_iff]
        simp only [Option.some.injEq, forall_eq']

theorem at?_merge (hlayer : WellKeyed (.map layer)) (hv : v.isMap = false) (base : Entries) :
    at? (.map (merge base layer)) path = some v ↔
      at? (.map layer) path = some v ∨ at? (.map base) path = some v ∧ Silent (.map layer) path := by
  have hpath : (mergeValue (some (.map base)) (.map layer)).at? path = some v ↔ _ :=
    at?_mergeValue hlayer hv (some (.map base))
  rw [mergeValue_map] at hpath
  simpa using hpath

/-! ## Layers once and again -/

/-- A value that was laid on changes nothing when it is laid on again. -/
theorem mergeValue_mergeValue (hd : WellKeyed d) (x : Option Data) :
    mergeValue (some (mergeValue x d)) d = mergeValue x d := by
  induction hd generalizing x with
  | leaf h => rw [mergeValue_of_not_map _ (ne_map h), mergeValue_of_not_map x (ne_map h)]
  | @map layer hdistinct hvalues ih =>
    rw [mergeValue_map_eq hdistinct x, mergeValue_map, merge_eq_self]
    intro e he
    rw [get?_merge hdistinct, hdistinct.get?_of_mem he, Option.map_some, Option.some_or, ih e he]

theorem merge_merge_layer (h : WellKeyed (.map layer)) (base : Entries) :
    merge (merge base layer) layer = merge base layer := by
  have := mergeValue_mergeValue h (some (.map base))
  rwa [mergeValue_map, mergeValue_map, Data.map.injEq] at this

theorem merge_self (h : WellKeyed (.map layer)) : merge layer layer = layer := by
  have := merge_merge_layer h []
  rwa [nil_merge h.distinct] at this

/-! ## Layers from either end -/

/-- No path leads to a map in one and to something else in the other. -/
def Agree (d d' : Data) : Prop :=
  ∀ path v v', d.at? path = some v → d'.at? path = some v' → v.isMap = v'.isMap

theorem Agree.isMap {d d' : Data} (h : Agree d d') : d.isMap = d'.isMap :=
  h [] d d' (at?_nil d) (at?_nil d')

theorem Agree.of_get? {d d' : Data} (h : Agree (.map b) (.map c)) (hd : get? b key = some d)
    (hd' : get? c key = some d') : Agree d d' := by
  intro path v v' hv hv'
  refine h (key :: path) v v' ?_ ?_
  · rw [at?_map_cons, hd, Option.bind_some, hv]
  · rw [at?_map_cons, hd', Option.bind_some, hv']

theorem WellKeyed.entriesOf (hx : ∀ v, x = some v → WellKeyed v) :
    WellKeyed (.map (entriesOf x)) := by
  cases x with
  | none => exact .map Entries.distinct_nil nofun
  | some v =>
    cases v with
    | map entries => exact hx _ rfl
    | _ => exact .map Entries.distinct_nil nofun

/-- Keys come in the order of the layers, whichever of them are merged first. -/
theorem keys_merge_merge (hlayer : Distinct b) (hupper : Distinct c) (base : Entries) :
    (merge (merge base b) c).map Prod.fst = (merge base (merge b c)).map Prod.fst := by
  rw [keys_merge hupper, keys_merge hlayer, keys_merge (hlayer.merge c), keys_merge hupper,
    List.filter_append, List.filter_filter, List.append_assoc]
  refine congrArg₂ _ rfl (congrArg₂ _ rfl (List.filter_congr fun key _ => ?_))
  simp only [mem_keyForms_merge hlayer, not_or, Bool.decide_and]

theorem mergeValue_assoc {y : Data} (hd : WellKeyed d) (hy : WellKeyed y)
    (hx : ∀ v, x = some v → WellKeyed v) (h : Agree y d) :
    mergeValue (some (mergeValue x y)) d = mergeValue x (mergeValue (some y) d) := by
  induction hd generalizing x y with
  | leaf hleaf =>
    rw [mergeValue_of_not_map _ (ne_map hleaf), mergeValue_of_not_map _ (ne_map hleaf),
      mergeValue_of_not_map _ (ne_map hleaf)]
  | @map upper hupper _ ih =>
    cases hy with
    | leaf hleaf => cases hleaf.symm.trans h.isMap
    | @map layer hlayer hinner =>
      have hmerged : Distinct (merge layer upper) := hlayer.merge upper
      have hbase : WellKeyed (.map (entriesOf x)) := WellKeyed.entriesOf hx
      rw [mergeValue_map_eq hlayer x, mergeValue_map, mergeValue_map, mergeValue_map_eq hmerged]
      refine congrArg Data.map (Distinct.ext ((hbase.distinct.merge layer).merge upper)
        (keys_merge_merge hlayer hupper _) fun key => ?_)
      rw [get?_merge hupper, get?_merge hlayer, get?_merge hmerged, get?_merge hupper]
      cases hu : get? upper key with
      | none => rfl
      | some u =>
        cases hl : get? layer key with
        | none => simp [mergeValue_none]
        | some l =>
          obtain ⟨k, hmem, -⟩ := Entries.exists_mem_of_get? hu
          have hassoc := ih _ hmem (x := get? (Data.entriesOf x) key)
            (WellKeyed.of_get? (.map hlayer hinner) hl) (fun _ => hbase.of_get?) (h.of_get? hl hu)
          simp only [Option.map_some, Option.some_or, hassoc]

theorem merge_assoc (ha : WellKeyed (.map a)) (hb : WellKeyed (.map b)) (hc : WellKeyed (.map c))
    (h : Agree (.map b) (.map c)) : merge (merge a b) c = merge a (merge b c) := by
  have := mergeValue_assoc (x := some (.map a)) hc hb (by rintro _ ⟨⟩; exact ha) h
  rwa [mergeValue_map, mergeValue_map, mergeValue_map, mergeValue_map, Data.map.injEq] at this

end ApiDoc.Data
