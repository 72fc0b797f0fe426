import ApiDoc.Proofs.Answer
import ApiDoc.Proofs.SettingLayers
import ApiDoc.Yaml.Load

/-!
# Maps from YAML

A mapping of a YAML text comes to a map without repeated keys, since of entries with one key the last
counts. This holds of the sections of a settings file as well as of the file itself
(`proper_of_fileEntries`), also where entries are taken over by merge keys.
-/

namespace ApiDoc.Yaml

/-- If the data is a map, then one without repeated keys. -/
def DistinctMap (d : Data) : Prop := ∀ inner, d = .map inner → Data.Entries.Distinct inner

theorem distinctMap_ofEntries (entries : Data.Entries) : DistinctMap (Data.ofEntries entries) := by
  rintro inner h
  cases h
  exact Data.Entries.distinct_nil.putAll entries

theorem distinctMap_scalar (s : Scalar) : DistinctMap (.scalar s) := fun _ h => nomatch h

/-- A scalar node stands for a scalar. -/
theorem exists_scalar_of_scalarData {tag value : String} {d : Data}
    (h : scalarData tag value = .ok d) : ∃ s, d = .scalar s := by
  simp only [scalarData, truthValue, integer, float, stamp] at h
  split_ifs at h
  all_goals first
    | cases h; exact ⟨_, rfl⟩
    | obtain ⟨x, -, rfl⟩ := map_eq_ok.1 h; exact ⟨_, rfl⟩

theorem distinctMap_of_scalarData {tag value : String} {d : Data}
    (h : scalarData tag value = .ok d) : DistinctMap d := by
  obtain ⟨s, rfl⟩ := exists_scalar_of_scalarData h
  exact distinctMap_scalar s

theorem distinctMap_of_data {n : Node} {d : Data} (h : n.data = .ok d) : DistinctMap d := by
  cases n with
  | scalar tag value =>
    rw [Node.data] at h
    exact distinctMap_of_scalarData h
  | sequence tag items =>
    rw [Node.data] at h
    split_ifs at h
    all_goals
      obtain ⟨list, -, rfl⟩ := map_eq_ok.1 h
      exact fun _ h => nomatch h
  | mapping tag entries =>
    rw [Node.data] at h
    split_ifs at h
    · obtain ⟨g, -, rfl⟩ := map_eq_ok.1 h
      exact distinctMap_ofEntries _
    · obtain ⟨g, -, rfl⟩ := map_eq_ok.1 h
      exact fun _ h => nomatch h

/-! ## Entries that are gathered -/

/-- Maps among the values have no repeated keys. -/
def DistinctMaps (entries : Data.Entries) : Prop := ∀ e ∈ entries, DistinctMap e.2

theorem distinctMaps_append {entries rest : Data.Entries} :
    DistinctMaps (entries ++ rest) ↔ DistinctMaps entries ∧ DistinctMaps rest := List.forall_mem_append

mutual

theorem distinctMaps_gather : ∀ (entries : List (Node × Node)) (g : Gathered),
    gather entries = .ok g → DistinctMaps g.merged ∧ DistinctMaps g.own
  | [], g, h => by
    rw [gather] at h
    cases h
    exact ⟨fun _ he => (nomatch he), fun _ he => (nomatch he)⟩
  | (.scalar tag label, value) :: rest, g, h => by
    have hmore : ∀ k : Data, (do
        let k ← asKey k
        let v ← value.data
        let g ← gather rest
        .ok { g with own := (k, v) :: g.own }) = .ok g → DistinctMaps g.merged ∧ DistinctMaps g.own := by
      intro k h
      obtain ⟨k', -, h⟩ := bind_eq_ok.1 h
      obtain ⟨v, hv, h⟩ := bind_eq_ok.1 h
      obtain ⟨g', hg', h⟩ := bind_eq_ok.1 h
      cases h
      obtain ⟨hmerged, hown⟩ := distinctMaps_gather rest g' hg'
      exact ⟨hmerged, List.forall_mem_cons.2 ⟨distinctMap_of_data hv, hown⟩⟩
    rw [gather] at h
    split_ifs at h
    · obtain ⟨taken, htaken, h⟩ := bind_eq_ok.1 h
      obtain ⟨g', hg', h⟩ := bind_eq_ok.1 h
      cases h
      obtain ⟨hmerged, hown⟩ := distinctMaps_gather rest g' hg'
      exact ⟨distinctMaps_append.2 ⟨distinctMaps_takenOver value taken htaken, hmerged⟩, hown⟩
    all_goals
      obtain ⟨k, -, h⟩ := bind_eq_ok.1 h
      exact hmore k h
  | (.sequence .., _) :: _, g, h | (.mapping .., _) :: _, g, h => by
    rw [gather] at h
    · cases h
    · nofun

theorem distinctMaps_takenOver : ∀ (n : Node) (entries : Data.Entries),
    takenOver n = .ok entries → DistinctMaps entries
  | .mapping _ entries, taken, h => by
    rw [takenOver] at h
    obtain ⟨g, hg, h⟩ := bind_eq_ok.1 h
    cases h
    exact distinctMaps_append.2 (distinctMaps_gather entries g hg)
  | .sequence _ items, taken, h => by
    rw [takenOver] at h
    obtain ⟨parts, hparts, h⟩ := bind_eq_ok.1 h
    cases h
    intro e he
    obtain ⟨part, hpart, he⟩ := List.mem_flatten.1 he
    exact distinctMaps_gatherEach items parts hparts part (List.mem_reverse.1 hpart) e he
  | .scalar .., taken, h => by
    rw [takenOver] at h
    cases h

theorem distinctMaps_gatherEach : ∀ (items : List Node) (parts : List Data.Entries),
    gatherEach items = .ok parts → ∀ part ∈ parts, DistinctMaps part
  | [], parts, h => by
    rw [gatherEach] at h
    cases h
    exact fun _ hpart => nomatch hpart
  | .mapping _ entries :: rest, parts, h => by
    rw [gatherEach] at h
    obtain ⟨g, hg, h⟩ := bind_eq_ok.1 h
    obtain ⟨others, hothers, h⟩ := bind_eq_ok.1 h
    cases h
    exact List.forall_mem_cons.2 ⟨distinctMaps_append.2 (distinctMaps_gather entries g hg),
      distinctMaps_gatherEach rest others hothers⟩
  | .sequence .. :: _, parts, h | .scalar .. :: _, parts, h => by
    rw [gatherEach] at h
    · cases h
    · nofun
    · nofun

end

/-! ## Files -/

/-- A map that a text stands for has no repeated keys, and neither have the maps in it. -/
theorem proper_of_data {n : Node} {entries : Data.Entries} (h : n.data = .ok (.map entries)) :
    Settings.Proper entries := by
  refine ⟨distinctMap_of_data h entries rfl, fun {key inner} hmem => ?_⟩
  cases n with
  | scalar tag value =>
    rw [Node.data] at h
    obtain ⟨s, hs⟩ := exists_scalar_of_scalarData h
    cases hs
  | sequence tag items =>
    rw [Node.data] at h
    split_ifs at h
    all_goals
      obtain ⟨list, -, hlist⟩ := map_eq_ok.1 h
      cases hlist
  | mapping tag nodes =>
    rw [Node.data] at h
    split_ifs at h
    · obtain ⟨g, hg, hentries⟩ := map_eq_ok.1 h
      cases hentries
      have hall : DistinctMaps g.all := distinctMaps_append.2 (distinctMaps_gather nodes g hg)
      obtain ⟨e, he, hvalue⟩ | he := Data.Entries.mem_putAll hmem
      · exact hall e he inner hvalue
      · cases he
    · obtain ⟨g, -, hentries⟩ := map_eq_ok.1 h
      cases hentries

/-- A text is read in steps: its tokens, the node that they make, and the data of the node. -/
theorem load_eq_ok {s : String} {tokens : List Token} {n : Node} {d : Data}
    (hprintable : (unifyBreaks s.toList).all isPrintable = true)
    (htokens : tokens? (unifyBreaks s.toList) = some tokens)
    (hnode : ((Parse.document (4 * tokens.length + 8)).run { tokens }).map Prod.fst = some (some n))
    (hdata : n.data = .ok d) : load s = .ok d := by
  have hdocument : document? (unifyBreaks s.toList) = some (some n) := by
    obtain ⟨⟨found, p⟩, hrun, rfl⟩ := Option.map_eq_some_iff.1 hnode
    simp only [document?, hprintable, htokens, Option.bind_eq_bind, Option.bind_some, hrun]
    rfl
  rw [load, hdocument]
  exact hdata

end ApiDoc.Yaml

namespace ApiDoc.Settings

theorem proper_nil : Proper [] := ⟨Data.Entries.distinct_nil, fun hmem => nomatch hmem⟩

theorem fileEntries_eq_ok {file : File} {entries : Data.Entries}
    (h : Yaml.load file.text = .ok (.map entries)) : fileEntries (some file) = .ok entries := by
  simp only [fileEntries, h]

/-- The entries of a settings file. -/
theorem proper_of_fileEntries {file : Option File} {entries : Data.Entries}
    (h : fileEntries file = .ok entries) : Proper entries := by
  unfold fileEntries at h
  split at h
  next => cases h; exact proper_nil
  next file =>
    split at h
    next => cases h
    next => cases h
    next found hload =>
      cases h
      unfold Yaml.load at hload
      split at hload
      next => cases hload
      next => cases hload
      next => exact Yaml.proper_of_data hload
    next =>
      split_ifs at h
      cases h
      exact proper_nil

end ApiDoc.Settings
