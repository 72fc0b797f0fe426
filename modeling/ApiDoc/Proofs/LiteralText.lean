import ApiDoc.Metadata.Declaration
import ApiDoc.Proofs.PlainRendering
import ApiDoc.Proofs.Unambiguous

/-!
# Literals

The literal of a value neither begins nor ends with a blank and is never empty (`solid_literal`): a
text stands between quotes, and numbers, dates and collections begin and end with characters of their
own. A text of this kind keeps its place when the line that it stands in is put on one line: its own
blanks are collapsed, and what stands on either side is what it is without it (`flat_around`).
-/

namespace ApiDoc

namespace Text

variable {s t : String}

/-! ## Texts without blanks at their ends -/

/-- The text has no blanks. -/
def Unspaced (s : String) : Prop := ∀ c ∈ s.toList, isBlank c = false

instance (s : String) : Decidable (Unspaced s) :=
  decidable_of_iff (s.toList.all (!isBlank ·) = true) (by simp [Unspaced])

theorem unspaced_append : Unspaced (s ++ t) ↔ Unspaced s ∧ Unspaced t := by
  rw [Unspaced, String.toList_append]
  exact List.forall_mem_append

theorem NoTrailingBlank.exists_last (hs : NoTrailingBlank s) (hne : s ≠ "") :
    ∃ cs c, s.toList = cs ++ [c] ∧ isBlank c = false := by
  have hne : s.toList ≠ [] := fun hnil => hne (String.toList_injective hnil)
  refine ⟨s.toList.dropLast, s.toList.getLast hne, (List.dropLast_concat_getLast hne).symm, ?_⟩
  exact hs _ (List.getLast?_eq_some_getLast hne)

/-- The text neither begins nor ends with a blank, and is not empty. -/
structure Solid (s : String) : Prop where
  nonempty : s ≠ ""
  leading : NoLeadingBlank s
  trailing : NoTrailingBlank s

theorem Unspaced.solid (hs : Unspaced s) (hne : s ≠ "") : Solid s :=
  ⟨hne, fun c hc => hs c (List.mem_of_mem_head? hc), fun c hc => hs c (List.mem_of_mem_getLast? hc)⟩

namespace Solid

theorem exists_first (hs : Solid s) : ∃ c cs, s.toList = c :: cs ∧ isBlank c = false := by
  cases hcs : s.toList with
  | nil => exact absurd (String.toList_injective hcs) hs.nonempty
  | cons c cs => exact ⟨c, cs, rfl, hs.leading c (by rw [hcs]; rfl)⟩

theorem exists_last (hs : Solid s) : ∃ cs c, s.toList = cs ++ [c] ∧ isBlank c = false :=
  hs.trailing.exists_last hs.nonempty

theorem of_ends (hfirst : ∃ c cs, s.toList = c :: cs ∧ isBlank c = false)
    (hlast : ∃ cs c, s.toList = cs ++ [c] ∧ isBlank c = false) : Solid s := by
  obtain ⟨c, cs, hfirst, hc⟩ := hfirst
  obtain ⟨ds, d, hlast, hd⟩ := hlast
  refine ⟨?_, fun b hb => ?_, fun b hb => ?_⟩
  · rintro rfl
    cases hfirst
  · rw [hfirst] at hb
    cases hb
    exact hc
  · rw [hlast, List.getLast?_concat] at hb
    cases hb
    exact hd

/-- What stands between two such texts makes no difference. -/
theorem around (hs : Solid s) (ht : Solid t) (between : String) : Solid (s ++ between ++ t) := by
  obtain ⟨c, cs, hfirst, hc⟩ := hs.exists_first
  obtain ⟨ds, d, hlast, hd⟩ := ht.exists_last
  refine of_ends ⟨c, cs ++ between.toList ++ t.toList, ?_, hc⟩
    ⟨s.toList ++ between.toList ++ ds, d, ?_, hd⟩
  · simp [hfirst]
  · simp [hlast]

/-- Such a text begins and ends as it does once its blanks are collapsed. -/
theorem collapse (hs : Solid s) : Solid (Text.collapse s) := by
  obtain ⟨c, cs, hfirst, hc⟩ := hs.exists_first
  obtain ⟨ds, d, hlast, hd⟩ := hs.exists_last
  have hcollapsed : (Text.collapse s).toList = collapseFrom false s.toList := String.toList_ofList
  refine of_ends ⟨c, collapseFrom false cs, ?_, hc⟩ ⟨collapseFrom false ds, d, ?_, hd⟩
  · rw [hcollapsed, hfirst, collapseFrom_other _ _ hc]
  · rw [hcollapsed, hlast, collapseFrom_append, collapseFrom_other _ _ hd]
    rfl

end Solid

/-! ## On one line -/

theorem withinAfter_concat (within : Bool) (cs : List Char) (c : Char) :
    withinAfter within (cs ++ [c]) = isBlank c := by
  induction cs generalizing within with
  | nil => rfl
  | cons b cs ih => exact ih (isBlank b)

theorem collapse_append_of_last (hs : ∃ cs c, s.toList = cs ++ [c] ∧ isBlank c = false)
    (t : String) : collapse (s ++ t) = collapse s ++ collapse t := by
  obtain ⟨cs, c, hlast, hc⟩ := hs
  have hwithin : withinAfter false s.toList = false := by rw [hlast, withinAfter_concat, hc]
  refine String.toList_injective ?_
  simp only [collapse, String.toList_append, String.toList_ofList, collapseFrom_append, hwithin]

theorem dropWhile_append_of_head {cs ds : List Char} (h : ds.dropWhile isBlank = ds) :
    (cs ++ ds).dropWhile isBlank = cs.dropWhile isBlank ++ ds := by
  rw [List.dropWhile_append]
  split
  next hnil => rw [List.isEmpty_iff.1 hnil, h, List.nil_append]
  next => rfl

theorem trimStart_around (hs : Solid s) (before after : String) :
    trimStart (before ++ s ++ after) = trimStart before ++ s ++ after := by
  obtain ⟨c, cs, hfirst, hc⟩ := hs.exists_first
  have hkept : (s.toList ++ after.toList).dropWhile isBlank = s.toList ++ after.toList := by
    rw [hfirst, List.cons_append, List.dropWhile_cons_of_neg (by simp [hc])]
  refine String.toList_injective ?_
  simp only [trimStart, String.toList_append, String.toList_ofList, List.append_assoc]
  exact dropWhile_append_of_head hkept

theorem trimEnd_around (hs : Solid s) (before after : String) :
    trimEnd (before ++ s ++ after) = before ++ s ++ trimEnd after := by
  obtain ⟨ds, d, hlast, hd⟩ := hs.exists_last
  have hkept : (s.toList.reverse ++ before.toList.reverse).dropWhile isBlank =
      s.toList.reverse ++ before.toList.reverse := by
    rw [hlast, List.reverse_concat, List.cons_append, List.dropWhile_cons_of_neg (by simp [hd])]
  refine String.toList_injective ?_
  simp only [trimEnd, trimEndChars, String.toList_append, String.toList_ofList, List.reverse_append]
  rw [dropWhile_append_of_head hkept]
  simp

/-- Such a text is collapsed apart from what stands on either side of it. -/
theorem collapse_around (hs : Solid s) (before after : String) :
    collapse (before ++ s ++ after) = collapse before ++ collapse s ++ collapse after := by
  obtain ⟨c, cs, hfirst, hc⟩ := hs.exists_first
  have hrest : collapseFrom (withinAfter false before.toList) (s.toList ++ after.toList) =
      collapseFrom false (s.toList ++ after.toList) := by
    simp only [hfirst, List.cons_append, collapseFrom_other _ _ hc]
  have hafter := congrArg String.toList (collapse_append_of_last hs.exists_last after)
  simp only [collapse, String.toList_append, String.toList_ofList] at hafter
  refine String.toList_injective ?_
  simp only [collapse, String.toList_append, String.toList_ofList, List.append_assoc]
  rw [collapseFrom_append, hrest, hafter]

/-- On one line, such a text has its own blanks collapsed and stands between what is left of the
rest. -/
theorem flat_around (hs : Solid s) (before after : String) : flat (before ++ s ++ after) =
    trimStart (collapse before) ++ collapse s ++ trimEnd (collapse after) := by
  rw [flat, trim, collapse_around hs, trimEnd_around hs.collapse, trimStart_around hs.collapse]

/-- A space after a text that shows something stays. -/
theorem trimStart_space (hs : withoutBlanks s ≠ []) :
    trimStart (s ++ " ") = trimStart s ++ " " := by
  have hleft : ¬ (s.toList.dropWhile isBlank).isEmpty = true := by
    intro hnil
    apply hs
    rw [← withoutBlanks_trimStart, trimStart, List.isEmpty_iff.1 hnil]
    rfl
  refine String.toList_injective ?_
  simp only [trimStart, String.toList_append, String.toList_ofList, List.dropWhile_append,
    if_neg hleft]

theorem exists_trimStart_collapse (hs : withoutBlanks s ≠ []) :
    ∃ front, trimStart (collapse (s ++ " ")) = front ++ " " := by
  have hne : trimEnd s ≠ "" := by
    intro hempty
    apply hs
    rw [← withoutBlanks_trimEnd, hempty]
    rfl
  have hcollapse : collapse (s ++ " ") = collapse (trimEnd s) ++ " " := by
    rw [← Alike.trimEnd s,
      collapse_append_of_last ((noTrailingBlank_trimEnd s).exists_last hne)]
    rfl
  refine ⟨trimStart (collapse (trimEnd s)), ?_⟩
  rw [hcollapse, trimStart_space]
  simpa using hs

/-- A text with single spaces only is collapsed already. -/
theorem collapseFrom_eq_self {within : Bool} {cs : List Char} (hone : OneLine cs)
    (hapart : cs.IsChain fun c d => isBlank c = true → isBlank d = false)
    (hwithin : within = true → ∀ c ∈ cs.head?, isBlank c = false) :
    collapseFrom within cs = cs := by
  induction cs generalizing within with
  | nil => rfl
  | cons c cs ih =>
    obtain ⟨hnext, hrest⟩ := List.isChain_cons.1 hapart
    have hone' : OneLine cs := fun d hd => hone d (List.mem_cons_of_mem _ hd)
    cases hc : isBlank c with
    | true =>
      cases within with
      | true => exact absurd (hwithin rfl c rfl) (by simp [hc])
      | false =>
        rw [collapseFrom_blank false cs hc, ih hone' hrest fun _ d hd => hnext d hd hc,
          hone c List.mem_cons_self hc]
        rfl
    | false => rw [collapseFrom_other within cs hc, @ih false hone' hrest fun h => nomatch h]

/-! ## Digits -/

theorem not_isBlank_of_isDigit {c : Char} (hc : c.isDigit = true) : isBlank c = false := by
  simp only [Char.isDigit, Bool.and_eq_true, decide_eq_true_eq, ge_iff_le,
    UInt32.le_iff_toNat_le] at hc
  obtain ⟨hlow, hhigh⟩ := hc
  change 48 ≤ c.toNat at hlow
  change c.toNat ≤ 57 at hhigh
  simp only [isBlank, inRanges, blankRanges, List.any_cons, List.any_nil, Bool.or_false,
    Bool.or_eq_false_iff, Bool.and_eq_false_iff, decide_eq_false_iff_not, Nat.not_le]
  omega

theorem not_isBlank_of_mem_toDigits {n : Nat} {c : Char} (hc : c ∈ Nat.toDigits 10 n) :
    isBlank c = false :=
  not_isBlank_of_isDigit (Nat.isDigit_of_mem_toDigits (by decide) (by decide) hc)

end Text

open Text

/-! ## Numbers -/

theorem solid_toString_int (n : Int) : Solid (toString n) := by
  refine Unspaced.solid (fun c hc => ?_) fun hempty => ?_
  · rcases isDigit_or_of_mem_toString hc with hdigit | rfl
    · exact not_isBlank_of_isDigit hdigit
    · decide
  · rw [Int.toString_eq_repr, Int.repr_eq_if] at hempty
    split at hempty
    · exact Nat.repr_ne_empty hempty
    · have hlist := congrArg String.toList hempty
      rw [String.toList_append] at hlist
      cases hlist

namespace Number.Binary64

theorem not_isBlank_of_mem_padLeft {width : Nat} {ds : List Char}
    (h : ∀ c ∈ ds, isBlank c = false) : ∀ c ∈ padLeft width ds, isBlank c = false := by
  refine List.forall_mem_append.2 ⟨fun c hc => ?_, h⟩
  rw [List.eq_of_mem_replicate hc]
  decide

theorem not_isBlank_of_mem_exponentText {layout : Layout} {e : Int} :
    ∀ c ∈ layout.exponentText e, isBlank c = false := by
  refine List.forall_mem_cons.2 ⟨by decide, List.forall_mem_cons.2 ⟨by split <;> decide, ?_⟩⟩
  exact not_isBlank_of_mem_padLeft fun c => not_isBlank_of_mem_toDigits

theorem not_isBlank_of_mem_digitText {layout : Layout} {ds : List Char} {point : Int}
    (hsuffix : ∀ c ∈ layout.integerSuffix, isBlank c = false) (h : ∀ c ∈ ds, isBlank c = false) :
    ∀ c ∈ layout.digitText ds point, isBlank c = false := by
  have hzeros : ∀ n : Nat, ∀ c ∈ List.replicate n '0', isBlank c = false := by
    intro n c hc
    rw [List.eq_of_mem_replicate hc]
    decide
  unfold Layout.digitText
  split
  · split
    · refine List.forall_mem_append.2 ⟨List.forall_mem_cons.2 ⟨by decide,
        List.forall_mem_cons.2 ⟨by decide, hzeros _⟩⟩, h⟩
    · split
      · exact List.forall_mem_append.2 ⟨List.forall_mem_append.2 ⟨h, hzeros _⟩, hsuffix⟩
      · refine List.forall_mem_append.2 ⟨fun c hc => h c (List.mem_of_mem_take hc),
          List.forall_mem_cons.2 ⟨by decide, fun c hc => h c (List.mem_of_mem_drop hc)⟩⟩
  · split
    · exact h
    · exact List.forall_mem_cons.2 ⟨h _ List.mem_cons_self, not_isBlank_of_mem_exponentText⟩
    next d rest _ =>
      obtain ⟨hd, hrest⟩ := List.forall_mem_cons.1 h
      exact List.forall_mem_cons.2 ⟨hd, List.forall_mem_cons.2 ⟨by decide,
        List.forall_mem_append.2 ⟨hrest, not_isBlank_of_mem_exponentText⟩⟩⟩

theorem digitText_ne_nil {layout : Layout} {ds : List Char} (h : ds ≠ []) (point : Int) :
    layout.digitText ds point ≠ [] := by
  unfold Layout.digitText
  split
  · split
    · simp
    · split
      · simp [h]
      · simp
  · split
    · exact h
    · simp
    · simp

theorem onGrid_low_pos {significand : Nat} (hs : significand ≠ 0) (exponent grid : Int) :
    0 < (onGrid (span significand exponent).low exponent grid).1 := by
  have hlow : 0 < (span significand exponent).low := by
    simp only [span]
    split <;> omega
  simp only [onGrid]
  refine Nat.mul_pos (Nat.mul_pos hlow ?_) ?_
  · split
    · exact Nat.pow_pos (by decide)
    · exact Nat.one_pos
  · split
    · exact Nat.pow_pos (by decide)
    · exact Nat.one_pos

/-- A decimal grid does not hit a positive value at zero. -/
theorem hit?_ne_zero {significand k : Nat} {exponent grid : Int} (hs : significand ≠ 0)
    (h : hit? significand exponent grid = some k) : k ≠ 0 := by
  have hlow := onGrid_low_pos hs exponent grid
  have hoff : ∀ d high : Nat, ¬ ((if (span significand exponent).closed = true then
      decide ((onGrid (span significand exponent).low exponent grid).1 ≤ 0 * d) &&
        decide (0 * d ≤ high)
    else decide ((onGrid (span significand exponent).low exponent grid).1 < 0 * d) &&
        decide (0 * d < high)) = true) := by
    intro d high hinside
    split at hinside <;>
    · simp only [Nat.zero_mul, Bool.and_eq_true, decide_eq_true_eq] at hinside
      omega
  unfold hit? at h
  simp only [] at h
  rintro rfl
  rcases ite_eq_iff.1 h with ⟨hinside, hfirst⟩ | ⟨-, h⟩
  · rw [Option.some.inj hfirst] at hinside
    exact hoff _ _ hinside
  · rcases ite_eq_iff.1 h with ⟨hinside, hsecond⟩ | ⟨-, hnone⟩
    · rw [Option.some.inj hsecond] at hinside
      exact hoff _ _ hinside
    · cases hnone

theorem shortest_digits {significand : Nat} (hs : significand ≠ 0) (exponent : Int) :
    (shortest significand exponent).digits ≠ 0 ∨ shortest significand exponent = ⟨0, 0⟩ := by
  unfold shortest
  simp only []
  split
  next k g hfind =>
    obtain ⟨grid, -, hgrid⟩ := List.exists_of_findSome?_eq_some hfind
    obtain ⟨k, hhit, hk⟩ := Option.map_eq_some_iff.1 hgrid
    cases hk
    exact .inl (hit?_ne_zero hs hhit)
  next => exact .inr rfl

theorem strip_ne_nil {n : Nat} (hn : n ≠ 0) :
    ((Nat.toDigits 10 n).reverse.dropWhile (· = '0')).reverse ≠ [] := by
  intro hnil
  have hzeros : ∀ c ∈ Nat.toDigits 10 n, c = '0' := by
    simpa [List.dropWhile_eq_nil_iff] using hnil
  have hvalue : Nat.ofDigitChars 10 (Nat.toDigits 10 n) 0 = n :=
    Nat.ofDigitChars_toDigits (by decide) (by decide)
  rw [List.eq_replicate_of_mem hzeros, Nat.ofDigitChars_replicate_zero, Nat.mul_zero] at hvalue
  exact hn hvalue.symm

end Number.Binary64

/-- A number is written without blanks. -/
theorem solid_floatLayout (x : Number.Binary64) : Solid (floatLayout.text x) := by
  have hsuffix : ∀ c ∈ floatLayout.integerSuffix, isBlank c = false :=
    List.forall_mem_cons.2 ⟨by decide, List.forall_mem_singleton.2 (by decide)⟩
  cases x with
  | nan => exact Unspaced.solid (by decide) (by decide)
  | infinite negative => cases negative <;> exact Unspaced.solid (by decide) (by decide)
  | finite negative significand exponent =>
    simp only [Number.Binary64.Layout.text]
    split
    · cases negative <;> exact Unspaced.solid (by decide) (by decide)
    next hs =>
      set decimal := Number.Binary64.shortest significand exponent with hdecimal
      have hdigits : ∀ c ∈ ((Nat.toDigits 10 decimal.digits).reverse.dropWhile (· = '0')).reverse,
          isBlank c = false := by
        intro c hc
        have hc := List.mem_reverse.1 ((List.dropWhile_suffix _).subset (List.mem_reverse.1 hc))
        exact not_isBlank_of_mem_toDigits hc
      refine Unspaced.solid (fun c hc => ?_) fun hempty => ?_
      · rw [String.toList_ofList, List.mem_append] at hc
        rcases hc with hc | hc
        · cases negative with
          | false => cases hc
          | true =>
            obtain rfl := List.mem_singleton.1 hc
            decide
        · exact Number.Binary64.not_isBlank_of_mem_digitText hsuffix hdigits c hc
      · have hnil := congrArg String.toList hempty
        rw [String.toList_ofList] at hnil
        have htext := (List.append_eq_nil_iff.1 hnil).2
        rcases Number.Binary64.shortest_digits hs exponent with hne | hzero
        · exact Number.Binary64.digitText_ne_nil (Number.Binary64.strip_ne_nil hne) _ htext
        · rw [hdecimal, hzero] at htext
          revert htext
          decide

/-! ## Dates -/

theorem unspaced_paddedDigits (width n : Nat) : Unspaced (paddedDigits width n) := by
  intro c hc
  rw [paddedDigits, String.toList_ofList] at hc
  exact Number.Binary64.not_isBlank_of_mem_padLeft (fun c => not_isBlank_of_mem_toDigits) c hc

theorem unspaced_twoDigits (n : Nat) : Unspaced (twoDigits n) := unspaced_paddedDigits 2 n

theorem paddedDigits_ne_empty (width n : Nat) : paddedDigits width n ≠ "" := by
  intro hempty
  have hnil := congrArg String.toList hempty
  rw [paddedDigits, String.toList_ofList] at hnil
  exact Nat.toDigits_ne_nil (List.append_eq_nil_iff.1 hnil).2

theorem unspaced_date (d : Date) : Unspaced d.display := by
  simp only [Date.display, unspaced_append, unspaced_paddedDigits, unspaced_twoDigits, true_and,
    and_true]
  decide

theorem solid_date (d : Date) : Solid d.display := by
  refine (unspaced_date d).solid fun hempty => paddedDigits_ne_empty 4 d.year ?_
  simp only [Date.display, String.append_eq_empty_iff] at hempty
  exact hempty.1.1.1.1

theorem unspaced_offsetText (seconds : Int) : Unspaced (offsetText seconds) := by
  simp only [offsetText, unspaced_append, unspaced_twoDigits, and_true]
  refine ⟨⟨by split <;> decide, by decide⟩, ?_⟩
  split
  · decide
  · exact unspaced_append.2 ⟨by decide, unspaced_twoDigits _⟩

/-- A moment begins with its date and ends with its second or what follows on that. -/
theorem solid_moment (m : Moment) : Solid m.display := by
  have hsolid : ∀ fraction zone, Unspaced fraction → Unspaced zone → Solid (m.date.display ++ " " ++
      twoDigits m.hour ++ ":" ++ twoDigits m.minute ++ ":" ++ twoDigits m.second ++ fraction ++
      zone) := by
    intro fraction zone hfraction hzone
    have hend : Solid (twoDigits m.second ++ fraction ++ zone) := by
      apply Unspaced.solid
      · exact unspaced_append.2 ⟨unspaced_append.2 ⟨unspaced_twoDigits _, hfraction⟩, hzone⟩
      · intro hempty
        simp only [String.append_eq_empty_iff] at hempty
        exact paddedDigits_ne_empty 2 m.second hempty.1.1
    have hall := (solid_date m.date).around hend
      (" " ++ twoDigits m.hour ++ ":" ++ twoDigits m.minute ++ ":")
    simpa only [String.append_assoc] using hall
  apply hsolid
  · split
    · decide
    · exact unspaced_append.2 ⟨by decide, unspaced_paddedDigits _ _⟩
  · split
    · decide
    · exact unspaced_offsetText _

/-! ## Values -/

/-- A text between two marks without blanks. -/
theorem solid_between (first last : String)
    (h : Unspaced first ∧ first ≠ "" ∧ Unspaced last ∧ last ≠ "") (between : String) :
    Solid (first ++ between ++ last) := by
  obtain ⟨hfirst, hne, hlast, hne'⟩ := h
  exact (hfirst.solid hne).around (hlast.solid hne') between

theorem solid_bytesLiteral (bs : List UInt8) : Solid (bytesLiteral bs) := by
  have hquote : ∀ cs, isBlank (quoteFor cs) = false := by
    intro cs
    unfold quoteFor
    split <;> decide
  let quote := quoteFor (bs.map fun b => Char.ofNat b.toNat)
  exact Solid.of_ends ⟨'b', _, String.toList_ofList, by decide⟩
    ⟨'b' :: quote :: bs.flatMap (byteChars quote), quote, String.toList_ofList, hquote _⟩

/-- The literal of a value begins and ends with a character that is no blank. -/
theorem solid_literal (d : Data) : Solid (literal d) := by
  cases d with
  | scalar s =>
    cases s with
    | null => exact Unspaced.solid (by decide) (by decide)
    | bool b => cases b <;> exact Unspaced.solid (by decide) (by decide)
    | text s => exact solid_between "\"" "\"" (by decide) s
    | int n => exact solid_toString_int n
    | float x => exact solid_floatLayout x
    | bytes bs => exact solid_bytesLiteral bs
    | date d => exact solid_date d
    | moment m => exact solid_moment m
  | list items =>
    simp only [literal, Data.display, Data.literal]
    exact solid_between "[" "]" (by decide) _
  | tuple items =>
    match items with
    | [] => exact Unspaced.solid (by decide) (by decide)
    | [item] =>
      simp only [literal, Data.display, Data.literal]
      exact solid_between "(" ",)" (by decide) _
    | first :: second :: rest =>
      simp only [literal, Data.display, Data.literal]
      exact solid_between "(" ")" (by decide) _
  | set items =>
    cases items with
    | nil => exact Unspaced.solid (by decide) (by decide)
    | cons item rest =>
      simp only [literal, Data.display, Data.literal]
      exact solid_between "\x7b" "\x7d" (by decide) _
  | map entries =>
    simp only [literal, Data.display, Data.literal]
    exact solid_between "\x7b" "\x7d" (by decide) _

end ApiDoc
