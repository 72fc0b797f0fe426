import ApiDoc.Text.Blank
import Mathlib.Data.List.Induction

/-!
# Words

Texts are `Alike` if they are the same once their blanks are collapsed. What they are put together to
is alike again (`Alike.append`), and on one line they read the same (`Alike.flat_eq`). The words of a
text are those of its line (`words_flat`), and a blank between two texts keeps their words apart
(`words_append_space`).
-/

namespace ApiDoc.Text

theorem isBlank_space : isBlank ' ' = true := by decide

/-! ## Collapsing -/

/-- Whether a text ends within a run of blanks, given that it starts within one. -/
def withinAfter (within : Bool) : List Char → Bool
  | [] => within
  | c :: cs => withinAfter (isBlank c) cs

theorem collapseFrom_blank {c : Char} (within : Bool) (cs : List Char) (hc : isBlank c = true) :
    collapseFrom within (c :: cs) = (if within then [] else [' ']) ++ collapseFrom true cs := by
  rw [collapseFrom, if_pos hc]
  cases within <;> rfl

theorem collapseFrom_other {c : Char} (within : Bool) (cs : List Char) (hc : isBlank c = false) :
    collapseFrom within (c :: cs) = c :: collapseFrom false cs := by
  rw [collapseFrom, if_neg (by simp [hc])]

theorem collapseFrom_append (within : Bool) (cs cs' : List Char) :
    collapseFrom within (cs ++ cs') =
      collapseFrom within cs ++ collapseFrom (withinAfter within cs) cs' := by
  induction cs generalizing within with
  | nil => rfl
  | cons c cs ih =>
    cases hc : isBlank c with
    | true => simp [collapseFrom_blank, hc, withinAfter, ih]
    | false => simp [collapseFrom_other, hc, withinAfter, ih]

/-- Collapsing again changes nothing, even if the text now follows on a blank. -/
theorem collapseFrom_collapseFrom (within within' : Bool) (cs : List Char) :
    collapseFrom (within || within') (collapseFrom within' cs) =
      collapseFrom (within || within') cs := by
  induction cs generalizing within within' with
  | nil => rfl
  | cons c cs ih =>
    cases hc : isBlank c with
    | true =>
      rw [collapseFrom_blank within' cs hc, collapseFrom_blank (within || within') cs hc]
      cases within' with
      | true =>
        simpa using ih true true
      | false =>
        have := ih true true
        simp at this
        simp [collapseFrom_blank _ _ isBlank_space, this]
    | false =>
      rw [collapseFrom_other within' cs hc, collapseFrom_other _ _ hc, collapseFrom_other _ _ hc]
      simpa using ih false false

theorem withinAfter_collapseFrom (within : Bool) (cs : List Char) :
    withinAfter within (collapseFrom within cs) = withinAfter within cs := by
  induction cs generalizing within with
  | nil => rfl
  | cons c cs ih =>
    cases hc : isBlank c with
    | true =>
      rw [collapseFrom_blank within cs hc]
      cases within with
      | true => simpa [withinAfter, hc] using ih true
      | false => simpa [withinAfter, hc, isBlank_space] using ih true
    | false => rw [collapseFrom_other within cs hc, withinAfter, withinAfter, hc, ih]

/-! ## Texts that are alike -/

/-- The texts are the same once their blanks are collapsed. -/
def Alike (s s' : String) : Prop := collapse s = collapse s'

theorem alike_iff {s s' : String} :
    Alike s s' ↔ collapseFrom false s.toList = collapseFrom false s'.toList :=
  String.ofList_inj

namespace Alike

variable {s s' t t' u : String}

theorem refl (s : String) : Alike s s := rfl

theorem of_eq (h : s = s') : Alike s s' := h ▸ rfl

theorem trans (h : Alike s t) (h' : Alike t u) : Alike s u := Eq.trans h h'

theorem append (h : Alike s s') (h' : Alike t t') : Alike (s ++ t) (s' ++ t') := by
  rw [alike_iff] at h h' ⊢
  have hcollapsed : ∀ within cs, collapseFrom within (collapseFrom false cs) = collapseFrom within cs := by
    intro within cs
    simpa using collapseFrom_collapseFrom within false cs
  rw [String.toList_append, String.toList_append, collapseFrom_append, collapseFrom_append, h,
    ← withinAfter_collapseFrom, h, withinAfter_collapseFrom, ← hcollapsed _ t.toList, h', hcollapsed]

theorem collapse (s : String) : Alike (Text.collapse s) s := by
  rw [alike_iff, Text.collapse, String.toList_ofList]
  exact collapseFrom_collapseFrom false false _

theorem flat_eq (h : Alike s s') : flat s = flat s' := congrArg trim h

end Alike

/-! ## The ends of a text -/

/-- A blank at the start makes no difference to what is left between blanks. -/
theorem dropWhile_trimEndChars_cons {c : Char} (hc : isBlank c = true) (cs : List Char) :
    (trimEndChars isBlank (c :: cs)).dropWhile isBlank =
      (trimEndChars isBlank cs).dropWhile isBlank := by
  rw [trimEndChars, List.reverse_cons, List.dropWhile_append]
  split
  next h =>
    rw [trimEndChars, List.isEmpty_iff.1 h, List.dropWhile_cons_of_pos hc]
    rfl
  next => rw [List.reverse_append, List.reverse_singleton, List.singleton_append,
    List.dropWhile_cons_of_pos hc, trimEndChars]

theorem trimEndChars_concat {c : Char} (hc : isBlank c = true) (cs : List Char) :
    trimEndChars isBlank (cs ++ [c]) = trimEndChars isBlank cs := by
  rw [trimEndChars, List.reverse_concat, List.dropWhile_cons_of_pos hc, trimEndChars]

theorem toList_flat (s : String) :
    (flat s).toList = (trimEndChars isBlank (collapseFrom false s.toList)).dropWhile isBlank := by
  simp only [flat, trim, trimStart, trimEnd, collapse, String.toList_ofList]

/-- What is left between the blanks at the ends of a collapsed text does not depend on what the text
follows. -/
theorem trim_collapseFrom (cs : List Char) :
    (trimEndChars isBlank (collapseFrom true cs)).dropWhile isBlank =
      (trimEndChars isBlank (collapseFrom false cs)).dropWhile isBlank := by
  cases cs with
  | nil => rfl
  | cons c cs =>
    cases hc : isBlank c with
    | true =>
      rw [collapseFrom_blank true cs hc, collapseFrom_blank false cs hc]
      exact (dropWhile_trimEndChars_cons isBlank_space _).symm
    | false => rw [collapseFrom_other true cs hc, collapseFrom_other false cs hc]

@[simp] theorem flat_space_append (s : String) : flat (" " ++ s) = flat s := by
  refine String.toList_injective ?_
  rw [toList_flat, toList_flat, String.toList_append]
  exact (dropWhile_trimEndChars_cons isBlank_space _).trans (trim_collapseFrom s.toList)

@[simp] theorem flat_append_space (s : String) : flat (s ++ " ") = flat s := by
  refine String.toList_injective ?_
  rw [toList_flat, toList_flat, String.toList_append, collapseFrom_append]
  cases withinAfter false s.toList with
  | true => exact congrArg _ (congrArg _ (List.append_nil _))
  | false => exact congrArg _ (trimEndChars_concat isBlank_space _)

theorem trimEndChars_concat_other {c : Char} (hc : isBlank c = false) (cs : List Char) :
    trimEndChars isBlank (cs ++ [c]) = cs ++ [c] := by
  rw [trimEndChars, List.reverse_concat, List.dropWhile_cons_of_neg (by simp [hc]),
    List.reverse_cons, List.reverse_reverse]

/-- Blanks at the start of a text make no difference if a blank stands before it. -/
theorem Alike.trimStart (s : String) : Alike (" " ++ Text.trimStart s) (" " ++ s) := by
  have hdrop : ∀ cs, collapseFrom true (cs.dropWhile isBlank) = collapseFrom true cs := by
    intro cs
    induction cs with
    | nil => rfl
    | cons c cs ih =>
      cases hc : isBlank c with
      | true => rw [List.dropWhile_cons_of_pos hc, ih, collapseFrom_blank true cs hc]; rfl
      | false => rw [List.dropWhile_cons_of_neg (by simp [hc])]
  have hspace : ∀ cs, collapseFrom false (' ' :: cs) = ' ' :: collapseFrom true cs :=
    fun cs => collapseFrom_blank false cs isBlank_space
  rw [alike_iff]
  simp only [String.toList_append, Text.trimStart, String.toList_ofList]
  exact (hspace _).trans ((congrArg _ (hdrop s.toList)).trans (hspace _).symm)

/-- Blanks at the end of a text make no difference if a blank stands after it. -/
theorem Alike.trimEnd (s : String) : Alike (Text.trimEnd s ++ " ") (s ++ " ") := by
  have hdrop : ∀ cs, collapseFrom false (trimEndChars isBlank cs ++ [' ']) =
      collapseFrom false (cs ++ [' ']) := by
    intro cs
    induction cs using List.reverseRecOn with
    | nil => rfl
    | append_singleton cs c ih =>
      cases hc : isBlank c with
      | true =>
        rw [trimEndChars_concat hc, ih, collapseFrom_append, List.append_assoc, collapseFrom_append]
        cases withinAfter false cs <;> simp [collapseFrom, hc, isBlank_space]
      | false => rw [trimEndChars_concat_other hc]
  rw [alike_iff, String.toList_append, String.toList_append, Text.trimEnd, String.toList_ofList]
  exact hdrop s.toList

/-! ## Words -/

/-- A blank ends the word before it. -/
theorem wordsFrom_append_blank {c : Char} (hc : isBlank c = true) (word cs cs' : List Char) :
    wordsFrom word (cs ++ c :: cs') = wordsFrom word cs ++ wordsFrom [] cs' := by
  induction cs generalizing word with
  | nil =>
    rw [List.nil_append, wordsFrom.eq_2, if_pos hc, wordsFrom.eq_1]
    split <;> rfl
  | cons b cs ih =>
    rw [List.cons_append, wordsFrom, wordsFrom]
    simp only [ih]
    split
    · split <;> rfl
    · rfl

theorem wordsFrom_blank {c : Char} (hc : isBlank c = true) (cs : List Char) :
    wordsFrom [] (c :: cs) = wordsFrom [] cs := by
  rw [wordsFrom, if_pos hc]
  rfl

/-- Within a run of blanks there is no word that the run would end. -/
theorem wordsFrom_collapseFrom {within : Bool} {word : List Char} (h : within = true → word = [])
    (cs : List Char) : wordsFrom word (collapseFrom within cs) = wordsFrom word cs := by
  induction cs generalizing within word with
  | nil => rfl
  | cons c cs ih =>
    cases hc : isBlank c with
    | true =>
      have hrest : wordsFrom [] (collapseFrom true cs) = wordsFrom [] cs := ih fun _ => rfl
      rw [collapseFrom_blank within cs hc]
      cases within with
      | true => rw [h rfl, wordsFrom_blank hc]; exact hrest
      | false =>
        have hspace := wordsFrom_append_blank isBlank_space word [] (collapseFrom true cs)
        have hblank := wordsFrom_append_blank hc word [] cs
        exact hspace.trans ((congrArg _ hrest).trans hblank.symm)
    | false =>
      rw [collapseFrom_other within cs hc, wordsFrom, wordsFrom, if_neg (by simp [hc]),
        if_neg (by simp [hc])]
      exact ih fun h => nomatch h

theorem words_append_space (s s' : String) : words (s ++ " " ++ s') = words s ++ words s' := by
  rw [words, String.toList_append, String.toList_append, List.append_assoc]
  exact (congrArg _ (wordsFrom_append_blank isBlank_space [] s.toList s'.toList)).trans
    List.map_append

@[simp] theorem words_space_append (s : String) : words (" " ++ s) = words s := by
  have h := words_append_space "" s
  rwa [String.empty_append] at h

theorem words_space_concat (s : String) : words (s ++ " ") = words s := by
  have h := words_append_space s ""
  rw [String.append_empty] at h
  exact h.trans (List.append_nil _)

@[simp] theorem words_collapse (s : String) : words (collapse s) = words s := by
  rw [words, collapse, String.toList_ofList, wordsFrom_collapseFrom (fun _ => rfl), words]

theorem wordsFrom_dropWhile (cs : List Char) :
    wordsFrom [] (cs.dropWhile isBlank) = wordsFrom [] cs := by
  induction cs with
  | nil => rfl
  | cons c cs ih =>
    cases hc : isBlank c with
    | true => rw [List.dropWhile_cons_of_pos hc, ih, wordsFrom_blank hc]
    | false => rw [List.dropWhile_cons_of_neg (by simp [hc])]

theorem wordsFrom_trimEndChars (cs : List Char) :
    wordsFrom [] (trimEndChars isBlank cs) = wordsFrom [] cs := by
  induction cs using List.reverseRecOn with
  | nil => rfl
  | append_singleton cs c ih =>
    cases hc : isBlank c with
    | true =>
      rw [trimEndChars_concat hc, ih, wordsFrom_append_blank hc]
      exact (List.append_nil _).symm
    | false => rw [trimEndChars_concat_other hc]

/-- The words of a text are those of its line. -/
@[simp] theorem words_flat (s : String) : words (flat s) = words s := by
  rw [← words_collapse s, words, toList_flat, wordsFrom_dropWhile, wordsFrom_trimEndChars, words,
    collapse, String.toList_ofList]

/-! ## Characters that are not blanks -/

/-- The characters of a text that are not blanks. -/
def withoutBlanks (s : String) : List Char := s.toList.filter (!isBlank ·)

theorem filter_collapseFrom (within : Bool) (cs : List Char) :
    (collapseFrom within cs).filter (!isBlank ·) = cs.filter (!isBlank ·) := by
  induction cs generalizing within with
  | nil => rfl
  | cons c cs ih =>
    cases hc : isBlank c with
    | true => cases within <;> simp [collapseFrom, hc, isBlank_space, ih]
    | false => simp [collapseFrom, hc, ih]

theorem filter_dropWhile (cs : List Char) :
    (cs.dropWhile isBlank).filter (!isBlank ·) = cs.filter (!isBlank ·) := by
  induction cs with
  | nil => rfl
  | cons c cs ih =>
    cases hc : isBlank c with
    | true => simp [hc, ih]
    | false => rw [List.dropWhile_cons_of_neg (by simp [hc])]

@[simp] theorem withoutBlanks_space : withoutBlanks " " = [] := by decide

@[simp] theorem withoutBlanks_append (s s' : String) :
    withoutBlanks (s ++ s') = withoutBlanks s ++ withoutBlanks s' := by
  rw [withoutBlanks, String.toList_append, List.filter_append, withoutBlanks, withoutBlanks]

@[simp] theorem withoutBlanks_collapse (s : String) : withoutBlanks (collapse s) = withoutBlanks s := by
  rw [withoutBlanks, collapse, String.toList_ofList, filter_collapseFrom, withoutBlanks]

@[simp] theorem withoutBlanks_trimStart (s : String) :
    withoutBlanks (trimStart s) = withoutBlanks s := by
  rw [withoutBlanks, trimStart, String.toList_ofList, filter_dropWhile, withoutBlanks]

@[simp] theorem withoutBlanks_trimEnd (s : String) : withoutBlanks (trimEnd s) = withoutBlanks s := by
  rw [withoutBlanks, trimEnd, String.toList_ofList, trimEndChars, List.filter_reverse,
    filter_dropWhile, List.filter_reverse, List.reverse_reverse, withoutBlanks]

@[simp] theorem withoutBlanks_flat (s : String) : withoutBlanks (flat s) = withoutBlanks s := by
  rw [flat, trim, withoutBlanks_trimStart, withoutBlanks_trimEnd, withoutBlanks_collapse]

theorem Alike.withoutBlanks_eq {s s' : String} (h : Alike s s') : withoutBlanks s = withoutBlanks s' := by
  rw [← withoutBlanks_collapse s, h, withoutBlanks_collapse]

end ApiDoc.Text
