import ApiDoc.Proofs.BlankParagraphs
import ApiDoc.Proofs.LiteralText

/-!
# Runs of text

A text may be collapsed in parts: where it is cut makes no difference, not even within a run of
blanks (`Text.collapse_append`). So runs of text are merged to the collapse of the whole text
(`Document.mergeWithin_runs`), and markup whose containers hold nothing but text is rendered as that
(`Renderer.render_texts`). On one line, a text is its words joined by single spaces
(`Text.intercalate_words`).
-/

namespace ApiDoc

namespace Text

/-- What is collapsed in parts needs to be collapsed only where the parts meet. -/
theorem collapse_append (s t : String) : collapse (collapse s ++ collapse t) = collapse (s ++ t) :=
  (Alike.collapse s).append (Alike.collapse t)

/-! ## Words on one line -/

theorem of_mem_wordsFrom {word cs w : List Char} (hword : ∀ c ∈ word, isBlank c = false)
    (hw : w ∈ wordsFrom word cs) : w ≠ [] ∧ ∀ c ∈ w, isBlank c = false := by
  induction cs generalizing word with
  | nil =>
    rw [wordsFrom] at hw
    split at hw
    next => cases hw
    next hne =>
      obtain rfl := List.mem_singleton.1 hw
      exact ⟨by simpa using hne, hword⟩
  | cons c cs ih =>
    have hnone : ∀ c ∈ ([] : List Char), isBlank c = false := List.forall_mem_nil _
    rw [wordsFrom] at hw
    split at hw
    next =>
      split at hw
      next => exact ih hnone hw
      next hne =>
        rcases List.mem_cons.1 hw with rfl | hw
        · exact ⟨by simpa using hne, hword⟩
        · exact ih hnone hw
    next hc =>
      have hc : isBlank c = false := by simpa using hc
      exact ih (List.forall_mem_append.2 ⟨hword, List.forall_mem_singleton.2 hc⟩) hw

/-- A word is not empty, and it has no blanks. -/
theorem of_mem_words {s w : String} (hw : w ∈ words s) : w ≠ "" ∧ Unspaced w := by
  obtain ⟨cs, hcs, rfl⟩ := List.mem_map.1 hw
  obtain ⟨hne, hblank⟩ := of_mem_wordsFrom (List.forall_mem_nil _) hcs
  refine ⟨fun hempty => hne ?_, by rwa [Unspaced, String.toList_ofList]⟩
  rw [← String.toList_ofList (l := cs), hempty]
  rfl

/-- What has single spaces only is its words joined by them, the first of which may have begun
before it. -/
theorem intercalate_wordsFrom {word cs : List Char} (hone : OneLine cs)
    (hapart : cs.IsChain fun c d => isBlank c = true → isBlank d = false)
    (hfirst : word = [] → ∀ c ∈ cs.head?, isBlank c = false)
    (hlast : ∀ c ∈ cs.getLast?, isBlank c = false) :
    [' '].intercalate (wordsFrom word cs) = word ++ cs := by
  induction cs generalizing word with
  | nil =>
    cases word with
    | nil => rfl
    | cons d word => rw [wordsFrom, if_neg (by simp), List.intercalate_singleton, List.append_nil]
  | cons c cs ih =>
    obtain ⟨hnext, hrest⟩ := List.isChain_cons.1 hapart
    have hone' : OneLine cs := fun d hd => hone d (List.mem_cons_of_mem _ hd)
    have hlast' : ∀ d ∈ cs.getLast?, isBlank d = false := by
      intro d hd
      apply hlast d
      rw [List.getLast?_cons, Option.mem_def.1 hd]
      rfl
    cases hc : isBlank c with
    | true =>
      -- the space ends a word, and another word begins after it
      have hword : word ≠ [] := fun hnil => absurd (hfirst hnil c rfl) (by simp [hc])
      have hcs : cs ≠ [] := by
        rintro rfl
        exact absurd (hlast c rfl) (by simp [hc])
      have hjoined : [' '].intercalate (wordsFrom [] cs) = cs :=
        ih hone' hrest (fun _ d hd => hnext d hd hc) hlast'
      have hne : wordsFrom [] cs ≠ [] := by
        intro hnil
        rw [hnil] at hjoined
        exact hcs hjoined.symm
      rw [wordsFrom, if_pos hc, if_neg (by simpa using hword), List.intercalate_cons_of_ne_nil hne,
        hjoined, hone c List.mem_cons_self hc, List.append_assoc, List.singleton_append]
    | false =>
      rw [wordsFrom, if_neg (by simp [hc]), ih hone' hrest (by simp) hlast', List.append_assoc,
        List.singleton_append]

/-- On one line, a text is its words joined by single spaces. -/
theorem intercalate_words (s : String) : " ".intercalate (words s) = flat s := by
  have hsingle := singleSpaced_flat s
  have hspace : " ".toList = [' '] := rfl
  have hchars : (wordsFrom [] (flat s).toList).map (String.toList ∘ String.ofList) =
      wordsFrom [] (flat s).toList := by
    simp [Function.comp_def]
  have hjoined : [' '].intercalate (wordsFrom [] (flat s).toList) = [] ++ (flat s).toList :=
    intercalate_wordsFrom hsingle.oneLine hsingle.apart (fun _ => hsingle.leading) hsingle.trailing
  refine String.toList_injective ?_
  rw [← words_flat, String.toList_intercalate, words, List.map_map, hchars, hspace, hjoined,
    List.nil_append]

/-! ## Both ends -/

/-- It makes no difference which end is trimmed first. -/
theorem trimEnd_trimStart (s : String) : trimEnd (trimStart s) = trim s := by
  have hchars : ∀ cs : List Char, trimEndChars isBlank (cs.dropWhile isBlank) =
      (trimEndChars isBlank cs).dropWhile isBlank := by
    intro cs
    induction cs with
    | nil => rfl
    | cons c cs ih =>
      cases hc : isBlank c with
      | true => rw [List.dropWhile_cons_of_pos hc, ih, dropWhile_trimEndChars_cons hc]
      | false =>
        have hfirst : NoLeadingBlank (String.ofList (c :: cs)) := by
          rw [NoLeadingBlank, String.toList_ofList]
          rintro d ⟨⟩
          exact hc
        have hkept := hfirst.trimEnd
        rw [NoLeadingBlank, Text.trimEnd, String.toList_ofList, String.toList_ofList] at hkept
        rw [List.dropWhile_cons_of_neg (by simp [hc]), dropWhile_eq_self hkept]
  simp only [trim, trimStart, trimEnd, String.toList_ofList, hchars]

end Text

open Text

/-! ## Merging -/

namespace Document

/-- Runs of text are merged into the text before them, if there is one. -/
theorem mergeFrom_some_runs (s : String) (runs : List String) :
    mergeFrom (some (collapse s)) (runs.map fun t => .text (collapse t)) =
      [.text (collapse (s ++ String.join runs))] := by
  induction runs generalizing s with
  | nil =>
    rw [String.join_nil, String.append_empty]
    rfl
  | cons t runs ih =>
    rw [List.map_cons, mergeFrom, String.join_cons]
    split
    next ht =>
      obtain rfl := collapse_eq_empty (String.isEmpty_iff.1 ht)
      rw [String.empty_append]
      exact ih s
    next =>
      rw [collapse_append, ← String.append_assoc]
      exact ih (s ++ t)

theorem mergeFrom_runs (runs : List String) :
    mergeFrom none (runs.map fun s => .text (collapse s)) =
      textOf (collapse (String.join runs)) := by
  induction runs with
  | nil => rfl
  | cons t runs ih =>
    rw [List.map_cons, mergeFrom, String.join_cons]
    split
    next ht =>
      obtain rfl := collapse_eq_empty (String.isEmpty_iff.1 ht)
      rw [String.empty_append]
      exact ih
    next ht =>
      have hne : ¬(collapse (t ++ String.join runs)).isEmpty = true := by
        intro hempty
        have happend := collapse_eq_empty (String.isEmpty_iff.1 hempty)
        obtain ⟨rfl, -⟩ := String.append_eq_empty_iff.1 happend
        exact ht rfl
      rw [textOf, if_neg hne]
      exact mergeFrom_some_runs t runs

/-- Clean-up makes the collapse of the whole text of its runs, wherever it is cut. -/
theorem mergeWithin_runs (start stop : Bool) (runs : List String) :
    mergeWithin start stop (runs.map fun s => .text (collapse s)) =
      textOf (trimEdges start stop (collapse (String.join runs))) :=
  mergeWithin_of_mergeFrom (mergeFrom_runs runs) start stop

theorem normalize_runs (runs : List String) :
    normalize (runs.map fun s => .text (collapse s)) = textOf (flat (String.join runs)) := by
  rw [normalize_eq, mergeWithin_runs]
  exact congrArg textOf (trimEnd_trimStart _)

end Document

/-! ## Markup of texts -/

namespace Xml.Node

variable {f : List Node}

theorem innerTexts_append (f g : List Node) : innerTexts (f ++ g) = innerTexts f ++ innerTexts g := by
  induction f with
  | nil => exact String.empty_append.symm
  | cons n f ih => rw [List.cons_append, innerTexts, innerTexts, ih, String.append_assoc]

theorem innerTexts_opened (f : List Node) : innerTexts (opened f) = innerTexts f := by
  induction f using contentInduction with
  | nil => rw [opened]
  | text s rest ih => rw [opened, openedNode, List.singleton_append, innerTexts, ih, innerTexts]
  | element name attributes content rest ihcontent ih =>
    rw [opened, openedNode, innerTexts_append, ih, innerTexts, innerText]
    split
    next => rw [ihcontent]
    next => rw [innerTexts, innerText, innerTexts, String.append_empty]

/-- Nodes among which there is no element are runs of the text that they hold. -/
theorem exists_runs (h : f.any isElement = false) :
    ∃ runs, f = runs.map .text ∧ innerTexts f = String.join runs := by
  induction f with
  | nil => exact ⟨[], rfl, rfl⟩
  | cons n f ih =>
    rw [List.any_cons, Bool.or_eq_false_iff] at h
    obtain ⟨runs, rfl, hjoin⟩ := ih h.2
    cases n with
    | text s =>
      refine ⟨s :: runs, rfl, ?_⟩
      rw [innerTexts, innerText, hjoin, String.join_cons]
    | element name attributes content => cases h.1

end Xml.Node

namespace Renderer

open Markup Xml.Node
open Document (textOf normalize_runs)

/-- Markup whose containers hold nothing but text is rendered as all of that text on one line. -/
theorem render_texts (r : Renderer) (mode : Mode) {e : Xml.Node}
    (h : (opened e.content).any isElement = false) :
    r.render mode (some e) = pure (textOf (flat (innerTexts e.content))) := by
  obtain ⟨runs, hruns, hjoin⟩ := exists_runs h
  have hnodes : r.nodes mode e.content = pure (runs.map fun s => .text (collapse s)) := by
    rw [← nodes_opened, hruns, nodes_texts]
  rw [render, hnodes, ← innerTexts_opened, hjoin, ← normalize_runs]
  rfl

end Renderer

open Document Renderer Xml.Node

/-- Where a text is cut makes no difference to what its parts are collapsed to. Collapsing keeps the
words of a text and leaves no blanks but single spaces; trimmed at both ends, it is the words joined by
single spaces. That is what clean-up makes of the parts of a text, and what markup is rendered as whose
containers hold nothing but text. -/
theorem collapse_in_parts :
    (∀ s t, collapse (collapse s ++ collapse t) = collapse (s ++ t)) ∧
    (∀ s, collapse (collapse s) = collapse s ∧
      OneLine (collapse s).toList ∧
      (collapse s).toList.IsChain (fun c d => isBlank c = true → isBlank d = false) ∧
      words (collapse s) = words s ∧
      (∀ w ∈ words s, w ≠ "" ∧ Unspaced w) ∧
      trim (collapse s) = " ".intercalate (words s)) ∧
    (∀ runs : List String, normalize (runs.map fun s => .text (collapse s)) =
      textOf (trim (collapse (String.join runs)))) ∧
    ∀ (r : Renderer) (mode : Markup.Mode) (e : Xml.Node),
      (opened e.content).any isElement = false →
        r.render mode (some e) = pure (textOf (trim (collapse (innerTexts e.content)))) := by
  refine ⟨collapse_append, fun s => ?_, normalize_runs, fun r mode e he => r.render_texts mode he⟩
  have hchars : (collapse s).toList = collapseFrom false s.toList := String.toList_ofList
  rw [hchars]
  exact ⟨Alike.collapse s, oneLine_collapseFrom false s.toList,
    (isChain_collapseFrom false s.toList).1, words_collapse s, fun w => of_mem_words,
    (intercalate_words s).symm⟩

/-- A walk told in pieces that are cut within blanks. -/
def ramble : Xml.Node :=
  .element (.plain "summary") [] [
    .text " Walk \n",
    .element (.plain "remarks") [] [
      .text "\t to", .element (.plain "term") [] [.text " the\u00a0"], .text ""],
    .text "\u2003sea "]

theorem collapse_in_parts_ramble :
    ("sea" ∈ words (innerTexts ramble.content) ∧ "sea" ≠ "" ∧ Unspaced "sea") ∧
    (opened ramble.content).any isElement = false ∧
    bare.render .normal (some ramble) = pure [.text "Walk to the sea"] := by
  have hwords : words (innerTexts ramble.content) = ["Walk", "to", "the", "sea"] := by cbv
  have hword : "sea" ∈ words (innerTexts ramble.content) := by simp [hwords]
  have htexts : (opened ramble.content).any isElement = false := by cbv
  obtain ⟨-, hcollapsed, -, hrendered⟩ := collapse_in_parts
  refine ⟨⟨hword, (hcollapsed _).2.2.2.2.1 _ hword⟩, htexts, ?_⟩
  exact (hrendered bare .normal ramble htexts).trans (congrArg pure (by cbv))

end ApiDoc
