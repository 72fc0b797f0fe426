import ApiDoc.Document.Node
import ApiDoc.Proofs.Words

/-!
# The text of fragments

Clean-up keeps the text of a fragment on one line (`plainText_normalize`): it drops blanks at the
edges only, and whatever the fragment is put between, blanks at the edges make no difference there
(`alike_normalize`). The parts of a list and the cells of a table come each after a blank
(`shownEach_eq`, `shownRows_eq`).
-/

namespace ApiDoc

namespace Text

/-- The texts one after the other, each after a blank. -/
def eachAfterSpace : List String → String
  | [] => ""
  | s :: rest => " " ++ s ++ eachAfterSpace rest

theorem eachAfterSpace_append (l l' : List String) :
    eachAfterSpace (l ++ l') = eachAfterSpace l ++ eachAfterSpace l' := by
  induction l with
  | nil => exact String.empty_append.symm
  | cons s l ih => rw [List.cons_append, eachAfterSpace, ih, eachAfterSpace, ← String.append_assoc]

end Text

namespace Document

open Text

variable {f g : Fragment}

@[simp] theorem shownAll_append (f g : Fragment) : shownAll (f ++ g) = shownAll f ++ shownAll g := by
  induction f with
  | nil => exact String.empty_append.symm
  | cons n f ih => rw [List.cons_append, shownAll, shownAll, ih, String.append_assoc]

@[simp] theorem shownAll_singleton (n : Node) : shownAll [n] = n.shown := String.append_empty

theorem shownEach_eq (parts : List Fragment) :
    shownEach parts = eachAfterSpace (parts.map shownAll) := by
  induction parts with
  | nil => rfl
  | cons part parts ih => rw [shownEach, ih, List.map_cons, eachAfterSpace]

theorem shownRows_eq (rows : List (List Fragment)) :
    shownRows rows = eachAfterSpace (rows.flatten.map shownAll) := by
  induction rows with
  | nil => rfl
  | cons row rows ih =>
    rw [shownRows, shownEach_eq, ih, List.flatten_cons, List.map_append, eachAfterSpace_append]

/-! ## Clean-up -/

theorem alike_mergeFrom (run : Option String) (f : Fragment) :
    Alike (shownAll (mergeFrom run f)) (run.getD "" ++ shownAll f) := by
  have hrun : ∀ run : Option String, shownAll (run.toList.map .text) = run.getD "" := by
    intro run
    cases run with
    | none => rfl
    | some s => exact shownAll_singleton _
  induction run, f using mergeFrom.induct with
  | case1 run =>
    rw [mergeFrom, hrun]
    exact .of_eq String.append_empty.symm
  | case2 run s rest hs ih =>
    have hskip : mergeFrom run (.text s :: rest) = mergeFrom run rest := by
      cases run <;> simp [mergeFrom, hs]
    rw [hskip, shownAll, Node.shown, String.isEmpty_iff.1 hs, String.empty_append]
    exact ih
  | case3 s rest hs ih =>
    rw [mergeFrom, if_neg hs]
    exact ih.trans (.of_eq String.empty_append.symm)
  | case4 s rest hs t ih =>
    rw [mergeFrom, if_neg hs]
    exact ih.trans (((Alike.collapse (t ++ s)).append (.refl _)).trans
      (.of_eq (String.append_assoc ..)))
  | case5 run n rest hn ih =>
    rw [mergeFrom.eq_4 run n rest hn, shownAll_append, hrun, shownAll, shownAll]
    exact (Alike.refl _).append ((Alike.refl _).append (ih.trans (.of_eq String.empty_append)))

theorem alike_trimFirst (f : Fragment) : Alike (" " ++ shownAll (trimFirst f)) (" " ++ shownAll f) := by
  unfold trimFirst
  split
  next s rest =>
    rw [shownAll, shownAll, Node.shown, Node.shown, ← String.append_assoc, ← String.append_assoc]
    exact (Alike.trimStart s).append (.refl _)
  next => exact .refl _

theorem alike_trimLast (f : Fragment) : Alike (shownAll (trimLast f) ++ " ") (shownAll f ++ " ") := by
  induction f using trimLast.induct with
  | case1 => exact .refl _
  | case2 s =>
    rw [trimLast, shownAll_singleton, shownAll_singleton]
    exact Alike.trimEnd s
  | case3 n rest hn ih =>
    rw [trimLast.eq_3 n rest hn, shownAll, shownAll, String.append_assoc, String.append_assoc]
    exact (Alike.refl _).append ih

theorem shownAll_filter (f : Fragment) :
    shownAll (f.filter fun n => !isEmptyText n) = shownAll f := by
  induction f with
  | nil => rfl
  | cons n f ih =>
    rw [List.filter_cons]
    split
    · rw [shownAll, shownAll, ih]
    next hn =>
      have hempty : n.shown = "" := by
        cases n <;> simp_all [isEmptyText, Node.shown]
      rw [shownAll, hempty, String.empty_append, ih]

/-- What is cleaned up shows the same between blanks. -/
theorem alike_normalize (f : Fragment) :
    Alike (" " ++ shownAll (normalize f) ++ " ") (" " ++ shownAll f ++ " ") := by
  have hfirst := (alike_trimFirst (mergeFrom none f)).append (.refl " ")
  have hlast := (Alike.refl " ").append (alike_trimLast (trimFirst (mergeFrom none f)))
  have hmerge := ((Alike.refl " ").append ((alike_mergeFrom none f).trans
    (.of_eq String.empty_append))).append (.refl " ")
  rw [normalize, shownAll_filter]
  rw [← String.append_assoc, ← String.append_assoc] at hlast
  exact hlast.trans (hfirst.trans hmerge)

/-- Clean-up does not change the line of a fragment. -/
@[simp] theorem plainText_normalize (f : Fragment) : plainText (normalize f) = plainText f := by
  have hflat : ∀ s, Text.flat (" " ++ s ++ " ") = Text.flat s := fun s => by
    rw [flat_append_space, flat_space_append]
  rw [plainText, plainText, ← hflat, (alike_normalize f).flat_eq, hflat]

end Document
end ApiDoc
