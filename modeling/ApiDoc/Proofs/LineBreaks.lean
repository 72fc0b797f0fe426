import ApiDoc.Proofs.MergedTexts

/-!
# Line breaks

The lines of a fragment are what stands between its line breaks, where anything does (`linesOf`).
Putting a fragment in order joins them by single line breaks (`dropLastBreaks_singleBreaks`) and then
merges the texts of each line on its own. A line that is merged to nothing leaves its line breaks
behind: at an edge that is a line of blanks, and within the fragment a line of empty texts
(`head?_tidy`, `getLast?_tidy`, `repeats_tidy`).
-/

namespace ApiDoc.Document

variable {f g line : Fragment} {n : Node} {lines : List Fragment} {start stop : Bool}

/-! ## Lines -/

/-- The nodes of a fragment that are no line breaks. -/
def withoutBreaks (f : Fragment) : Fragment := f.filter fun n => !n.isLineBreak

/-- There is no line break among the nodes. -/
def Unbroken (f : Fragment) : Prop := ∀ n ∈ f, n.isLineBreak = false

/-- The parts of a fragment between its line breaks that have a node in them. -/
def linesOf (f : Fragment) : List Fragment :=
  (f.splitOnP Node.isLineBreak).filter fun line => !line.isEmpty

def joinLines (lines : List Fragment) : Fragment := List.intercalate [.lineBreak] lines

theorem eq_lineBreak (hn : n.isLineBreak = true) : n = .lineBreak := by
  cases n <;> first | rfl | cases hn

/-- A fragment is one line, or it is a line, a line break, and the rest. -/
theorem lineInduction {motive : Fragment → Prop} (line : ∀ f, Unbroken f → motive f)
    (lineBreak : ∀ f rest, Unbroken f → motive rest → motive (f ++ .lineBreak :: rest))
    (f : Fragment) : motive f :=
  partInduction Node.isLineBreak line
    (fun f _ rest hf hn hrest => eq_lineBreak hn ▸ lineBreak f rest hf hrest) f

theorem linesOf_unbroken (hf : Unbroken f) (hne : f ≠ []) : linesOf f = [f] := by
  rw [linesOf, List.splitOnP_eq_singleton hf, List.filter_cons_of_pos (by simpa using hne), List.filter_nil]

theorem linesOf_append_lineBreak (hf : Unbroken f) (rest : Fragment) :
    linesOf (f ++ .lineBreak :: rest) = (if f = [] then [] else [f]) ++ linesOf rest := by
  rw [linesOf, List.splitOnP_append_cons_of_forall_mem hf _ rfl, List.filter_cons, linesOf]
  cases f <;> rfl

theorem of_mem_linesOf (h : line ∈ linesOf f) : Unbroken line ∧ line ≠ [] := by
  induction f using lineInduction with
  | line f hf =>
    rw [linesOf, List.splitOnP_eq_singleton hf] at h
    obtain ⟨hline, hne⟩ := List.mem_filter.1 h
    obtain rfl := List.mem_singleton.1 hline
    exact ⟨hf, by simpa using hne⟩
  | lineBreak f rest hf ih =>
    rw [linesOf_append_lineBreak hf] at h
    rcases List.mem_append.1 h with h | h
    · split at h
      · cases h
      next hne =>
        obtain rfl := List.mem_singleton.1 h
        exact ⟨hf, hne⟩
    · exact ih h

@[simp] theorem joinLines_nil : joinLines [] = [] := rfl

@[simp] theorem joinLines_singleton (line : Fragment) : joinLines [line] = line :=
  List.intercalate_singleton

theorem joinLines_cons (line : Fragment) (h : lines ≠ []) :
    joinLines (line :: lines) = line ++ .lineBreak :: joinLines lines := by
  obtain ⟨line', lines, rfl⟩ := List.exists_cons_of_ne_nil h
  rw [joinLines, List.intercalate_cons_cons, List.append_assoc, List.singleton_append, joinLines]

theorem joinLines_concat (h : lines ≠ []) (line : Fragment) :
    joinLines (lines ++ [line]) = joinLines lines ++ .lineBreak :: line := by
  induction lines with
  | nil => exact absurd rfl h
  | cons line' lines ih =>
    by_cases hlines : lines = []
    · simp [hlines, joinLines_cons]
    · rw [List.cons_append, joinLines_cons line' (by simp), ih hlines, joinLines_cons line' hlines,
        List.append_assoc, List.cons_append]

/-- Only no lines are joined to nothing. -/
theorem joinLines_eq_nil (h : ∀ line ∈ lines, line ≠ []) : joinLines lines = [] ↔ lines = [] := by
  cases lines with
  | nil => simp
  | cons line lines =>
    refine iff_of_false (fun hnil => ?_) (List.cons_ne_nil _ _)
    by_cases hlines : lines = []
    · rw [hlines, joinLines_singleton] at hnil
      exact h line List.mem_cons_self hnil
    · rw [joinLines_cons line hlines] at hnil
      simp at hnil

/-! ## Single line breaks -/

theorem singleBreaks_unbroken (hf : Unbroken f) (atStart : Bool) : singleBreaks atStart f = f := by
  induction f generalizing atStart with
  | nil => rfl
  | cons n f ih =>
    obtain ⟨hn, hf⟩ := List.forall_mem_cons.1 hf
    rw [singleBreaks, if_neg (by simp [hn]), ih hf]

theorem singleBreaks_append_lineBreak (hf : Unbroken f) (atStart : Bool) (rest : Fragment) :
    singleBreaks atStart (f ++ .lineBreak :: rest) =
      f ++ (if f = [] ∧ atStart = true then [] else [.lineBreak]) ++ singleBreaks true rest := by
  induction f generalizing atStart with
  | nil => cases atStart <;> rfl
  | cons n f ih =>
    obtain ⟨hn, hf⟩ := List.forall_mem_cons.1 hf
    rw [List.cons_append, singleBreaks, if_neg (by simp [hn]), ih hf]
    simp

theorem dropLastBreaks_unbroken (hf : Unbroken f) : dropLastBreaks f = f := by
  have hreverse : f.reverse.dropWhile Node.isLineBreak = f.reverse :=
    Text.dropWhile_eq_self fun n hn => hf n (List.mem_reverse.1 (List.mem_of_mem_head? hn))
  rw [dropLastBreaks, hreverse, List.reverse_reverse]

theorem dropLastBreaks_append_lineBreak (hf : Unbroken f) (rest : Fragment) :
    dropLastBreaks (f ++ .lineBreak :: rest) =
      if dropLastBreaks rest = [] then f else f ++ .lineBreak :: dropLastBreaks rest := by
  have hreverse : (f ++ Node.lineBreak :: rest).reverse = rest.reverse ++ .lineBreak :: f.reverse := by
    simp
  rw [dropLastBreaks, hreverse, List.dropWhile_append]
  simp only [dropLastBreaks, List.reverse_eq_nil_iff, List.isEmpty_iff]
  split
  · rw [List.dropWhile_cons_of_pos rfl]
    exact dropLastBreaks_unbroken hf
  · simp

/-- What is left are the lines, with one line break between each and the next. -/
theorem dropLastBreaks_singleBreaks (f : Fragment) :
    dropLastBreaks (singleBreaks true f) = joinLines (linesOf f) := by
  induction f using lineInduction with
  | line f hf =>
    rw [singleBreaks_unbroken hf, dropLastBreaks_unbroken hf]
    by_cases hne : f = []
    · rw [hne]
      rfl
    · rw [linesOf_unbroken hf hne, joinLines_singleton]
  | lineBreak f rest hf ih =>
    rw [singleBreaks_append_lineBreak hf, linesOf_append_lineBreak hf]
    by_cases hne : f = []
    · simpa [hne] using ih
    simp only [hne, false_and, if_false, List.append_assoc, List.singleton_append]
    rw [dropLastBreaks_append_lineBreak hf, ih]
    simp only [joinLines_eq_nil fun line hline => (of_mem_linesOf hline).2]
    split
    next h => rw [h, joinLines_singleton]
    next h => rw [joinLines_cons f h]

theorem Unbroken.withoutBreaks_eq (h : Unbroken f) : withoutBreaks f = f :=
  List.filter_eq_self.2 fun n hn => by simp [h n hn]

theorem withoutBreaks_append_lineBreak (f rest : Fragment) :
    withoutBreaks (f ++ .lineBreak :: rest) = withoutBreaks f ++ withoutBreaks rest := by
  rw [withoutBreaks, List.filter_append, List.filter_cons_of_neg (by decide), withoutBreaks, withoutBreaks]

/-- The lines hold all nodes that are no line breaks. -/
theorem flatten_linesOf (f : Fragment) : (linesOf f).flatten = withoutBreaks f := by
  induction f using lineInduction with
  | line f hf =>
    rw [hf.withoutBreaks_eq]
    by_cases hne : f = []
    · rw [hne]
      rfl
    · rw [linesOf_unbroken hf hne, List.flatten_singleton]
  | lineBreak f rest hf ih =>
    rw [linesOf_append_lineBreak hf, withoutBreaks_append_lineBreak, hf.withoutBreaks_eq,
      List.flatten_append, ih]
    by_cases hne : f = [] <;> simp [hne]

theorem withoutBreaks_joinLines (h : ∀ line ∈ lines, Unbroken line) :
    withoutBreaks (joinLines lines) = lines.flatten := by
  induction lines with
  | nil => rfl
  | cons line lines ih =>
    obtain ⟨hline, hlines⟩ := List.forall_mem_cons.1 h
    by_cases hne : lines = []
    · rw [hne, joinLines_singleton, hline.withoutBreaks_eq, List.flatten_singleton]
    · rw [joinLines_cons line hne, withoutBreaks_append_lineBreak, hline.withoutBreaks_eq, ih hlines,
        List.flatten_cons]

/-- Joining the lines moves no node that is no line break. -/
theorem withoutBreaks_joinLines_linesOf (f : Fragment) :
    withoutBreaks (joinLines (linesOf f)) = withoutBreaks f := by
  rw [withoutBreaks_joinLines fun line h => (of_mem_linesOf h).1, flatten_linesOf]

theorem tidy_eq (f : Fragment) : tidy f = mergeWithin true true (joinLines (linesOf f)) := by
  rw [tidy, dropLastBreaks_singleBreaks, normalize_eq]

/-- The nodes of a fragment that are neither texts nor line breaks. -/
def otherNodes (f : Fragment) : Fragment := withoutTexts (withoutBreaks f)

/-- Putting a fragment in order changes only texts and line breaks. -/
theorem otherNodes_tidy (f : Fragment) : otherNodes (tidy f) = otherNodes f := by
  have hcomm : ∀ f, withoutTexts (withoutBreaks f) = withoutBreaks (withoutTexts f) := by
    intro f
    simp only [withoutTexts, withoutBreaks, List.filter_filter, Bool.and_comm]
  rw [otherNodes, hcomm, tidy_eq, withoutTexts_mergeWithin, ← hcomm, withoutBreaks_joinLines_linesOf,
    otherNodes]

/-! ## Lines that are merged to nothing -/

/-- A line is cleaned up on its own. -/
theorem mergeWithin_joinLines (start stop : Bool) (line : Fragment) (h : lines ≠ []) :
    mergeWithin start stop (joinLines (line :: lines)) =
      mergeWithin start false line ++ .lineBreak :: mergeWithin false stop (joinLines lines) := by
  rw [joinLines_cons line h, mergeWithin_append_cons rfl]

theorem Unbroken.mergeWithin (h : Unbroken f) : Unbroken (mergeWithin start stop f) := by
  intro n hn
  rcases mem_mergeWithin hn with htext | hmem
  · obtain ⟨s, rfl⟩ := exists_text htext
    rfl
  · exact h n hmem

theorem Unbroken.not_mem (h : Unbroken f) : .lineBreak ∉ f := fun hmem => nomatch h _ hmem

/-- A line break leads exactly if the first of several lines is blank. -/
theorem head?_tidy (f : Fragment) : (tidy f).head? = some .lineBreak ↔
    ∃ first others, linesOf f = first :: others ∧ others ≠ [] ∧ AllTexts first ∧
      plainText first = "" := by
  have hlines : ∀ line ∈ linesOf f, Unbroken line := fun line h => (of_mem_linesOf h).1
  rw [tidy_eq]
  cases hf : linesOf f with
  | nil => exact iff_of_false (by simp) (by simp)
  | cons first others =>
    have hfirst : Unbroken (mergeWithin true false first) := (hlines first (by simp [hf])).mergeWithin
    by_cases hothers : others = []
    · refine iff_of_false (fun hhead => ?_) (by simp [hothers])
      rw [hothers, joinLines_singleton] at hhead
      exact (hlines first (by simp [hf])).mergeWithin.not_mem (List.mem_of_mem_head? hhead)
    rw [mergeWithin_joinLines true true first hothers]
    have hhead : (mergeWithin true false first ++ .lineBreak ::
        mergeWithin false true (joinLines others)).head? = some .lineBreak ↔
          mergeWithin true false first = [] := by
      cases hmerged : mergeWithin true false first with
      | nil => simp
      | cons n rest =>
        rw [hmerged] at hfirst
        simpa using (List.ne_of_not_mem_cons hfirst.not_mem).symm
    rw [hhead, mergeWithin_eq_nil_iff]
    simp [hothers]

/-- A line break trails exactly if the last of several lines is blank. -/
theorem getLast?_tidy (f : Fragment) : (tidy f).getLast? = some .lineBreak ↔
    ∃ others last, linesOf f = others ++ [last] ∧ others ≠ [] ∧ AllTexts last ∧
      plainText last = "" := by
  have hlines : ∀ line ∈ linesOf f, Unbroken line := fun line h => (of_mem_linesOf h).1
  rw [tidy_eq]
  rcases List.eq_nil_or_concat' (linesOf f) with hf | ⟨others, last, hf⟩
  · rw [hf]
    exact iff_of_false (by simp) (by simp)
  have hlast : Unbroken (mergeWithin false true last) := (hlines last (by simp [hf])).mergeWithin
  have honly : (∃ others' last', others ++ [last] = others' ++ [last'] ∧ others' ≠ [] ∧
      AllTexts last' ∧ plainText last' = "") ↔ others ≠ [] ∧ AllTexts last ∧ plainText last = "" := by
    refine ⟨?_, fun h => ⟨others, last, rfl, h⟩⟩
    rintro ⟨others', last', heq, h⟩
    obtain ⟨rfl, hsingle⟩ := List.append_inj' heq rfl
    exact List.singleton_inj.1 hsingle ▸ h
  rw [hf, honly]
  by_cases hothers : others = []
  · refine iff_of_false (fun hend => ?_) (by simp [hothers])
    rw [hothers, List.nil_append, joinLines_singleton] at hend
    exact (hlines last (by simp [hf])).mergeWithin.not_mem (List.mem_of_mem_getLast? hend)
  rw [joinLines_concat hothers, mergeWithin_append_cons rfl]
  have hend : (mergeWithin true false (joinLines others) ++ .lineBreak ::
      mergeWithin false true last).getLast? = some .lineBreak ↔ mergeWithin false true last = [] := by
    rw [List.getLast?_append_of_ne_nil _ (by simp), List.getLast?_cons]
    cases hmerged : (mergeWithin false true last).getLast? with
    | none => simpa using List.getLast?_eq_none_iff.1 hmerged
    | some n =>
      have hn := List.mem_of_mem_getLast? hmerged
      refine iff_of_false (fun h => hlast.not_mem ?_) (by rintro h; simp [h] at hn)
      obtain rfl : n = .lineBreak := by simpa using h
      exact hn
  rw [hend, mergeWithin_eq_nil_iff]
  simp [hothers]

/-- There are two line breaks with nothing between them. -/
def Repeats (f : Fragment) : Prop := [.lineBreak, .lineBreak] <:+: f

theorem Unbroken.repeats_append (h : Unbroken f) (g : Fragment) : Repeats (f ++ g) ↔ Repeats g := by
  induction f with
  | nil => rfl
  | cons n f ih =>
    obtain ⟨hn, hf⟩ := List.forall_mem_cons.1 h
    rw [Repeats, List.cons_append, List.infix_cons_iff]
    refine (or_iff_right fun hfirst => ?_).trans (ih hf)
    obtain rfl := (List.cons_prefix_cons.1 hfirst).1
    cases hn

/-- A line between two line breaks. -/
theorem Unbroken.repeats_between (h : Unbroken f) (g : Fragment) :
    Repeats (.lineBreak :: (f ++ .lineBreak :: g)) ↔ f = [] ∨ Repeats (.lineBreak :: g) := by
  rw [Repeats, List.infix_cons_iff]
  refine or_congr ?_ (h.repeats_append _)
  cases f with
  | nil => simp
  | cons n f =>
    refine iff_of_false (fun hfirst => h.not_mem ?_) (by simp)
    have hn := (List.cons_prefix_cons.1 (List.cons_prefix_cons.1 hfirst).2).1
    exact hn ▸ List.mem_cons_self

theorem Unbroken.not_repeats (h : Unbroken f) : ¬ Repeats (.lineBreak :: f) := by
  rw [Repeats, List.infix_cons_iff]
  rintro (hfirst | hlater)
  · obtain ⟨g, hg⟩ := (List.cons_prefix_cons.1 hfirst).2
    exact h.not_mem (hg ▸ List.mem_cons_self)
  · exact h.not_mem (hlater.subset List.mem_cons_self)

/-- After a line break, line breaks repeat exactly if some line that is not the last one is empty. -/
theorem repeats_lineBreak_joinLines (h : ∀ line ∈ lines, Unbroken line) :
    Repeats (.lineBreak :: mergeWithin false true (joinLines lines)) ↔
      ∃ before line after, lines = before ++ line :: after ∧ after ≠ [] ∧ AllTexts line ∧
        shownAll line = "" := by
  -- with the line break before them, each line but the last one is between two
  induction lines with
  | nil =>
    refine iff_of_false (Unbroken.not_repeats ?_) (by simp)
    exact fun n hn => nomatch hn
  | cons line lines ih =>
    obtain ⟨hline, hlines⟩ := List.forall_mem_cons.1 h
    rw [exists_append_cons_iff]
    by_cases hne : lines = []
    · refine iff_of_false ?_ (by simp [hne])
      rw [hne, joinLines_singleton]
      exact hline.mergeWithin.not_repeats
    · rw [mergeWithin_joinLines false true line hne, hline.mergeWithin.repeats_between, ih hlines,
        mergeWithin_eq_nil_iff]
      simp [hne]

/-- Line breaks repeat exactly if a line that is neither the first nor the last one is empty. -/
theorem repeats_tidy (f : Fragment) : Repeats (tidy f) ↔
    ∃ before line after, linesOf f = before ++ line :: after ∧ before ≠ [] ∧ after ≠ [] ∧
      AllTexts line ∧ shownAll line = "" := by
  have hlines : ∀ line ∈ linesOf f, Unbroken line := fun line h => (of_mem_linesOf h).1
  rw [tidy_eq]
  cases hf : linesOf f with
  | nil => exact iff_of_false (by simp [Repeats]) (by simp)
  | cons first others =>
    obtain ⟨hfirst, hothers⟩ := List.forall_mem_cons.1 (hf ▸ hlines)
    rw [exists_append_cons_iff]
    by_cases hne : others = []
    · refine iff_of_false (fun hrepeats => ?_) (by simp [hne])
      rw [hne, joinLines_singleton] at hrepeats
      exact hfirst.mergeWithin.not_mem (hrepeats.subset List.mem_cons_self)
    · rw [mergeWithin_joinLines true true first hne, hfirst.mergeWithin.repeats_append,
        repeats_lineBreak_joinLines hothers]
      simp

end ApiDoc.Document
