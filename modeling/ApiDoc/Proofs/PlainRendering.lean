import Mathlib
import ApiDoc.Proofs.History
import ApiDoc.Proofs.Spoken
import ApiDoc.Proofs.SummaryBudget

/-!
# Plain rendering

Plain rendering is safe to ask for anywhere. All it does is to log (`Renderer.logs_renderText`), so
the session and the links are afterwards what they were before (`Session.askWith_of_logs`). It comes
to one text at most, with no blank at its ends, and on one line only single spaces are left between
words (`Text.singleSpaced_flat`). A line that is cut keeps its budget (`Session.askWith_plain`).
-/

namespace ApiDoc

namespace Text

/-! ## Single spaces -/

/-- The only blanks of the text are single spaces between other characters. -/
structure SingleSpaced (s : String) : Prop where
  oneLine : OneLine s.toList
  apart : s.toList.IsChain fun c d => isBlank c = true → isBlank d = false
  leading : NoLeadingBlank s
  trailing : NoTrailingBlank s

/-- No two blanks follow each other once a text is collapsed, and none follows on a blank before
it. -/
theorem isChain_collapseFrom (within : Bool) (cs : List Char) :
    (collapseFrom within cs).IsChain (fun c d => isBlank c = true → isBlank d = false) ∧
      (within = true → ∀ c ∈ (collapseFrom within cs).head?, isBlank c = false) := by
  induction cs generalizing within with
  | nil => exact ⟨.nil, fun _ _ h => nomatch h⟩
  | cons c cs ih =>
    cases hc : isBlank c with
    | true =>
      obtain ⟨hchain, hhead⟩ := ih true
      rw [collapseFrom_blank within cs hc]
      cases within with
      | true => exact ⟨hchain, hhead⟩
      | false => exact ⟨List.isChain_cons.2 ⟨fun d hd _ => hhead rfl d hd, hchain⟩, nofun⟩
    | false =>
      rw [collapseFrom_other within cs hc]
      refine ⟨List.isChain_cons.2 ⟨fun d _ hblank => ?_, (ih false).1⟩, fun _ d hd => ?_⟩
      · rw [hc] at hblank
        cases hblank
      · cases hd
        exact hc

/-- What is dropped at the start does not change the end. -/
theorem NoTrailingBlank.trimStart {s : String} (h : NoTrailingBlank s) :
    NoTrailingBlank (trimStart s) := by
  rw [NoTrailingBlank, Text.trimStart, String.toList_ofList]
  obtain ⟨dropped, hdropped⟩ := List.dropWhile_suffix (l := s.toList) isBlank
  intro c hc
  apply h c
  rw [← hdropped, List.getLast?_append, Option.mem_def.1 hc]
  rfl

theorem singleSpaced_flat (s : String) : SingleSpaced (flat s) := by
  refine ⟨oneLine_flat s, ?_, noLeadingBlank_trimStart _, (noTrailingBlank_trimEnd _).trimStart⟩
  have hchain := (isChain_collapseFrom false s.toList).1
  have hkept : trimEndChars isBlank (collapseFrom false s.toList) <+: collapseFrom false s.toList := by
    rw [trimEndChars, ← List.reverse_suffix, List.reverse_reverse]
    exact List.dropWhile_suffix _
  have hstart := List.IsChain.prefix hchain hkept
  rw [toList_flat]
  exact hstart.suffix (List.dropWhile_suffix _)

end Text

/-! ## Questions that only log -/

namespace Session

variable {α : Type} {question : Context → Answer α}

theorem foldl_absorb_of_records {entries : List JournalEntry}
    (h : ∀ e ∈ entries, e.record?.isSome = true) (s : Session) (log : List Log.Record) :
    entries.foldl absorb (s, log) = (s, log ++ entries.filterMap JournalEntry.record?) := by
  induction entries generalizing log with
  | nil => rw [List.foldl_nil, List.filterMap_nil, List.append_nil]
  | cons e entries ih =>
    obtain ⟨he, hentries⟩ := List.forall_mem_cons.1 h
    cases e with
    | logged r =>
      rw [List.foldl_cons, absorb, ih hentries, List.append_assoc]
      rfl
    | consulted unit => cases he
    | dispatched interface arguments table => cases he

/-- A question that only logs leaves the session and the links as they were. -/
theorem askWith_of_logs {s : Session} (h : (question s.context).Logs) {links : Document.LinkTable}
    {x : Except Error α} {j : Journal} (hx : (question s.context).result { links } = (x, j)) :
    s.askWith links question = { result := x, session := s, links, log := j.records.reverse } := by
  obtain ⟨entries, hlogged, hj⟩ := h { links }
  rw [hx, List.append_nil] at hj
  obtain rfl : j = { links, entries } := hj
  have hreverse : ∀ e ∈ entries.reverse, e.record?.isSome = true := by simpa using hlogged
  simp only [askWith, hx, foldl_absorb_of_records hreverse, List.filterMap_reverse, List.nil_append,
    Journal.records]

end Session

/-! ## Texts -/

namespace Document

/-- A fragment that holds nothing, or a text without a blank at either end. -/
def IsTrimmedText (f : Fragment) : Prop :=
  f = [] ∨ ∃ s, f = [.text s] ∧ s ≠ "" ∧ Text.NoLeadingBlank s ∧ Text.NoTrailingBlank s

theorem AllTexts.isTrimmedText {f : Fragment} (h : AllTexts f) : IsTrimmedText (Document.normalize f) := by
  obtain ⟨s, -, hs⟩ := mergeWithin_texts h true true
  have hmerged := isMerged_textOf true true s
  rw [normalize_eq, hs]
  generalize trimEdges true true s = t at hmerged
  rw [textOf] at hmerged ⊢
  split at hmerged
  next ht => exact .inl (if_pos ht)
  next ht =>
    obtain ⟨hne, hleading, htrailing⟩ := isMerged_text.1 hmerged
    exact .inr ⟨t, if_neg ht, hne, hleading rfl, htrailing rfl⟩

end Document

namespace Renderer

open Answer

/-- Plain rendering does not fail. -/
theorem exists_render_plain (r : Renderer) (part : Option Xml.Node) (j : Journal) :
    ∃ f j', (r.render .plain part).result j = (.ok f, j') ∧ Document.IsTrimmedText f := by
  cases part with
  | none => exact ⟨[], j, rfl, .inl rfl⟩
  | some e =>
    have hspoken := r.meets_spoken e.content j
    have htexts := r.traced_nodes .plain e.content j
    cases h : (r.nodes .plain e.content).result j with
    | mk x j' =>
      rw [h] at hspoken htexts
      cases hspoken with
      | error he => exact he.elim
      | @ok inner _ =>
        cases htexts with
        | ok htraced =>
          refine ⟨Document.normalize inner, j', ?_, (htraced.texts rfl).isTrimmedText⟩
          exact result_bind_eq_ok.2 ⟨inner, j', h, rfl⟩

end Renderer

namespace Session

open Document Text

/-- Plain rendering comes to nothing or to one text, and to a line with single spaces between its
words. Asked for within a budget that has room for an ellipsis, the line fits it. The session, the
state of its indices with it, and the links are as before. -/
theorem askWith_plain (s : Session) (links : LinkTable) (current : Option TypeSymbol)
    (part : Option Xml.Node) :
    let renderer : Context → Renderer := fun ctx => { ctx with current }
    ∃ log f line,
      s.askWith links (fun ctx => (renderer ctx).render .plain part) =
        { result := .ok f, session := s, links, log } ∧
      IsTrimmedText f ∧
      s.askWith links (fun ctx => (renderer ctx).renderText part none) =
        { result := .ok line, session := s, links, log } ∧
      SingleSpaced line ∧
      ∀ n : Nat, ellipsis.length ≤ n → ∃ shown,
        s.askWith links (fun ctx => (renderer ctx).renderText part (some n)) =
          { result := .ok shown, session := s, links, log } ∧
        Fits n line shown := by
  intro renderer
  obtain ⟨f, j, hf, htext⟩ := (renderer s.context).exists_render_plain part { links }
  have hline : ∀ budget : Option Int, ((renderer s.context).renderText part budget).result { links } =
      (.ok (budget.elim (plainText f) (summarize · (plainText f))), j) :=
    fun budget => Answer.result_bind_eq_ok.2 ⟨f, j, hf, rfl⟩
  have hsingle : SingleSpaced (plainText f) := singleSpaced_flat _
  refine ⟨j.records.reverse, f, plainText f, ?_, htext, ?_, hsingle, fun n hn => ?_⟩
  · exact askWith_of_logs ((renderer s.context).logs_render part) hf
  · exact askWith_of_logs ((renderer s.context).logs_renderText part none) (hline none)
  · have hfits := fits_summarize hn (plainText f)
    rw [Text.joinLines, hsingle.oneLine.onOneLine_eq, String.ofList_toList] at hfits
    refine ⟨summarize n (plainText f), ?_, hfits⟩
    exact askWith_of_logs ((renderer s.context).logs_renderText part (some n)) (hline (some n))

end Session

end ApiDoc
