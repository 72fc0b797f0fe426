import ApiDoc.Proofs.PlainText
import Mathlib.Data.List.Chain
import Mathlib.Data.List.TakeWhile

/-!
# Merged texts

A fragment can be cleaned up in parts, cut at any node that is no text: what is merged does not reach
over such a node, and only the first and the last part have an edge of the fragment to be trimmed
(`mergeWithin_append_cons`). So clean-up keeps all nodes but the texts (`withoutTexts_normalize`), and
it brings a fragment into the only form that it leaves as it is (`IsMerged`,
`mergeWithin_eq_self`): no two texts follow each other, none is empty, and none has a blank at an edge.
-/

namespace ApiDoc

/-- A list has no separators, or it is a part without them, a separator, and the rest. -/
theorem partInduction {α : Type} (isSeparator : α → Bool) {motive : List α → Prop}
    (part : ∀ l, (∀ x ∈ l, isSeparator x = false) → motive l)
    (separated : ∀ l x rest, (∀ y ∈ l, isSeparator y = false) → isSeparator x = true → motive rest →
      motive (l ++ x :: rest)) (l : List α) : motive l := by
  -- `l` is the part that has been read, which grows until a separator ends it
  have hafter : ∀ rest l, (∀ x ∈ l, isSeparator x = false) → motive (l ++ rest) := by
    intro rest
    induction rest with
    | nil =>
      intro l hl
      rw [List.append_nil]
      exact part l hl
    | cons x rest ih =>
      intro l hl
      cases hx : isSeparator x with
      | true => exact separated l x rest hl hx (ih [] fun _ h => nomatch h)
      | false =>
        have hgrown : ∀ y ∈ l ++ [x], isSeparator y = false :=
          List.forall_mem_append.2 ⟨hl, List.forall_mem_singleton.2 hx⟩
        simpa using ih (l ++ [x]) hgrown
  exact hafter l [] fun _ h => nomatch h

/-- An item of a list is the first one, or it comes after the first one. -/
theorem exists_append_cons_iff {α : Type} {p : List α → α → List α → Prop} {x : α} {l : List α} :
    (∃ before y after, x :: l = before ++ y :: after ∧ p before y after) ↔
      p [] x l ∨ ∃ before y after, l = before ++ y :: after ∧ p (x :: before) y after := by
  constructor
  · rintro ⟨before, y, after, heq, h⟩
    cases before with
    | nil =>
      cases heq
      exact .inl h
    | cons z before =>
      cases heq
      exact .inr ⟨before, y, after, rfl, h⟩
  · rintro (h | ⟨before, y, after, rfl, h⟩)
    · exact ⟨[], x, l, rfl, h⟩
    · exact ⟨x :: before, y, after, rfl, h⟩

namespace Text

variable {s s' : String}

/-! ## The ends of texts -/

def NoLeadingBlank (s : String) : Prop := ∀ c ∈ s.toList.head?, isBlank c = false

def NoTrailingBlank (s : String) : Prop := ∀ c ∈ s.toList.getLast?, isBlank c = false

theorem head?_dropWhile {α : Type} {p : α → Bool} (l : List α) : ∀ x ∈ (l.dropWhile p).head?, p x = false := by
  intro x hx
  have h := List.head?_dropWhile_not p l
  rwa [Option.mem_def.1 hx] at h

theorem dropWhile_eq_self {α : Type} {p : α → Bool} {l : List α} (h : ∀ x ∈ l.head?, p x = false) :
    l.dropWhile p = l := by
  cases l with
  | nil => rfl
  | cons x l => exact List.dropWhile_cons_of_neg (by simp [h x rfl])

theorem noLeadingBlank_trimStart (s : String) : NoLeadingBlank (trimStart s) := by
  rw [NoLeadingBlank, trimStart, String.toList_ofList]
  exact head?_dropWhile s.toList

theorem noTrailingBlank_trimEnd (s : String) : NoTrailingBlank (trimEnd s) := by
  rw [NoTrailingBlank, trimEnd, String.toList_ofList, trimEndChars, List.getLast?_reverse]
  exact head?_dropWhile s.toList.reverse

/-- What is dropped at the end does not change the start. -/
theorem NoLeadingBlank.trimEnd (h : NoLeadingBlank s) : NoLeadingBlank (trimEnd s) := by
  rw [NoLeadingBlank, Text.trimEnd, String.toList_ofList, trimEndChars]
  have hkept : (s.toList.reverse.dropWhile isBlank).reverse <+: s.toList := by
    rw [← List.reverse_suffix, List.reverse_reverse]
    exact List.dropWhile_suffix _
  obtain ⟨rest, hrest⟩ := hkept
  intro c hc
  refine h c ?_
  rw [← hrest, List.head?_append, Option.mem_def.1 hc]
  rfl

theorem NoLeadingBlank.trimStart_eq (h : NoLeadingBlank s) : trimStart s = s := by
  rw [trimStart, dropWhile_eq_self h, String.ofList_toList]

theorem NoTrailingBlank.trimEnd_eq (h : NoTrailingBlank s) : trimEnd s = s := by
  have hreverse : s.toList.reverse.dropWhile isBlank = s.toList.reverse :=
    dropWhile_eq_self (by rwa [List.head?_reverse])
  rw [trimEnd, trimEndChars, hreverse, List.reverse_reverse, String.ofList_toList]

/-! ## Blank texts -/

/-- A text without a blank at one of its ends is blank only if it is empty. -/
theorem NoLeadingBlank.eq_empty (h : NoLeadingBlank s) (hs : withoutBlanks s = []) : s = "" := by
  refine String.toList_injective ?_
  cases hcs : s.toList with
  | nil => rfl
  | cons c cs =>
    have hc := h c (by rw [hcs]; rfl)
    rw [withoutBlanks, hcs, List.filter_cons_of_pos (by simp [hc])] at hs
    cases hs

theorem NoTrailingBlank.eq_empty (h : NoTrailingBlank s) (hs : withoutBlanks s = []) : s = "" := by
  refine String.toList_injective ?_
  cases hcs : s.toList.reverse with
  | nil => exact List.reverse_eq_nil_iff.1 hcs
  | cons c cs =>
    have hc := h c (by rw [List.getLast?_eq_head?_reverse, hcs]; rfl)
    have hreverse : (s.toList.reverse).filter (!isBlank ·) = [] := by
      rw [List.filter_reverse]
      exact congrArg List.reverse hs
    rw [hcs, List.filter_cons_of_pos (by simp [hc])] at hreverse
    cases hreverse

theorem flat_eq_empty_iff : flat s = "" ↔ withoutBlanks s = [] := by
  rw [← withoutBlanks_flat]
  refine ⟨fun h => h ▸ rfl, fun h => ?_⟩
  exact (noLeadingBlank_trimStart _).eq_empty h

theorem collapse_eq_empty (h : collapse s = "") : s = "" := by
  refine String.toList_injective ?_
  have hcs : collapseFrom false s.toList = [] := by
    rw [← String.toList_ofList (l := collapseFrom false s.toList), ← collapse, h]
    rfl
  cases hs : s.toList with
  | nil => rfl
  | cons c cs =>
    rw [hs, collapseFrom] at hcs
    split at hcs <;> cases hcs

end Text

namespace Document

open Text

variable {f g a b : Fragment} {n : Node} {start stop : Bool}

/-! ## Texts and other nodes -/

/-- A fragment of texts. -/
def AllTexts (f : Fragment) : Prop := ∀ n ∈ f, n.isText = true

/-- The nodes of a fragment that are no texts. -/
def withoutTexts (f : Fragment) : Fragment := f.filter fun n => !n.isText

theorem ne_text (hn : n.isText = false) (s : String) : n ≠ .text s := by
  rintro rfl
  cases hn

theorem exists_text (hn : n.isText = true) : ∃ s, n = .text s := by
  cases n <;> first | exact ⟨_, rfl⟩ | cases hn

/-- A fragment is all texts, or it is some texts, a node that is none, and the rest. -/
theorem textInduction {motive : Fragment → Prop} (texts : ∀ f, AllTexts f → motive f)
    (node : ∀ f n rest, AllTexts f → n.isText = false → motive rest → motive (f ++ n :: rest))
    (f : Fragment) : motive f := by
  have hnot : ∀ n : Node, (!n.isText) = false → n.isText = true := by simp
  refine partInduction (fun n => !n.isText) (fun f hf => texts f fun n hn => hnot n (hf n hn))
    (fun f n rest hf hn => node f n rest (fun n hn => hnot n (hf n hn)) (by simpa using hn)) f

/-! ## Clean-up in parts -/

/-- The fragment with each run of texts as one text, trimmed at those edges that are edges of the
whole, and without empty texts. -/
def mergeWithin (start stop : Bool) (f : Fragment) : Fragment :=
  let merged := mergeFrom none f
  let trimmed := if start then trimFirst merged else merged
  (if stop then trimLast trimmed else trimmed).filter fun n => !isEmptyText n

@[simp] theorem mergeWithin_nil (start stop : Bool) : mergeWithin start stop [] = [] := by
  cases start <;> cases stop <;> rfl

theorem normalize_eq (f : Fragment) : normalize f = mergeWithin true true f := rfl

theorem mergeFrom_append_cons (hn : n.isText = false) (run : Option String) (a b : Fragment) :
    mergeFrom run (a ++ n :: b) = mergeFrom run a ++ n :: mergeFrom none b := by
  induction run, a using mergeFrom.induct with
  | case1 run =>
    rw [List.nil_append, mergeFrom.eq_4 run n b fun s hs => ne_text hn s hs, mergeFrom]
  | case2 run s rest hs ih => simpa [mergeFrom, hs] using ih
  | case3 s rest hs ih => simpa [mergeFrom, hs] using ih
  | case4 s rest hs t ih => simpa [mergeFrom, hs] using ih
  | case5 run m rest hm ih =>
    rw [List.cons_append, mergeFrom.eq_4 run m _ hm, mergeFrom.eq_4 run m _ hm, ih, List.append_assoc,
      List.cons_append]

theorem trimFirst_append_cons (hn : n.isText = false) (a b : Fragment) :
    trimFirst (a ++ n :: b) = trimFirst a ++ n :: b := by
  cases a with
  | nil => cases n <;> first | rfl | cases hn
  | cons m a => cases m <;> rfl

theorem trimLast_append_cons (hn : n.isText = false) (a b : Fragment) :
    trimLast (a ++ n :: b) = a ++ n :: trimLast b := by
  induction a with
  | nil => exact trimLast.eq_3 n b fun s hs => absurd hs (ne_text hn s)
  | cons m a ih =>
    rw [List.cons_append, trimLast.eq_3 m _ (by simp), ih, List.cons_append]

/-- A node that is no text parts a fragment: what is merged does not reach over it. -/
theorem mergeWithin_append_cons (hn : n.isText = false) (start stop : Bool) (a b : Fragment) :
    mergeWithin start stop (a ++ n :: b) = mergeWithin start false a ++ n :: mergeWithin false stop b := by
  have hkept : (!isEmptyText n) = true := by cases n <;> first | rfl | cases hn
  simp only [mergeWithin, mergeFrom_append_cons hn]
  cases start <;> cases stop <;>
    simp [trimFirst_append_cons hn, trimLast_append_cons hn, List.filter_append, hkept]

/-- The texts of a run are merged to one text at most, which is not empty. -/
theorem exists_mergeFrom_eq (hf : AllTexts f) {run : Option String} (hrun : run ≠ some "") :
    ∃ t, mergeFrom run f = t.toList.map .text ∧ t ≠ some "" := by
  induction run, f using mergeFrom.induct with
  | case1 run => exact ⟨run, mergeFrom.eq_1 run, hrun⟩
  | case2 run s rest hs ih =>
    simpa [mergeFrom, hs] using ih (List.forall_mem_cons.1 hf).2 hrun
  | case3 s rest hs ih =>
    have hne : some s ≠ some "" := by simpa [String.isEmpty_iff] using hs
    simpa [mergeFrom, hs] using ih (List.forall_mem_cons.1 hf).2 hne
  | case4 s rest hs t ih =>
    have hne : some (collapse (t ++ s)) ≠ some "" := by
      rintro h
      have hempty := collapse_eq_empty (Option.some.inj h)
      simp_all
    simpa [mergeFrom, hs] using ih (List.forall_mem_cons.1 hf).2 hne
  | case5 run n rest hn ih =>
    obtain ⟨s, rfl⟩ := exists_text ((List.forall_mem_cons.1 hf).1)
    exact absurd rfl (hn s)

/-- A text, trimmed at those edges that are edges of the whole. -/
def trimEdges (start stop : Bool) (s : String) : String :=
  let trimmed := if start then trimStart s else s
  if stop then trimEnd trimmed else trimmed

@[simp] theorem withoutBlanks_trimEdges (start stop : Bool) (s : String) :
    withoutBlanks (trimEdges start stop s) = withoutBlanks s := by
  cases start <;> cases stop <;> simp [trimEdges]

/-- A text, unless it is empty. -/
def textOf (s : String) : Fragment := if s.isEmpty then [] else [.text s]

theorem allTexts_textOf (s : String) : AllTexts (textOf s) := by
  unfold textOf
  split
  · exact fun _ h => nomatch h
  · exact List.forall_mem_singleton.2 rfl

@[simp] theorem shownAll_textOf (s : String) : shownAll (textOf s) = s := by
  unfold textOf
  split
  next h => exact (String.isEmpty_iff.1 h).symm
  next => exact shownAll_singleton _

theorem textOf_eq_nil_iff {s : String} : textOf s = [] ↔ s = "" := by
  unfold textOf
  split <;> simp_all

/-- What is merged to one text is trimmed, and dropped if nothing of it is left. -/
theorem mergeWithin_of_mergeFrom {s : String} (h : mergeFrom none f = textOf s) (start stop : Bool) :
    mergeWithin start stop f = textOf (trimEdges start stop s) := by
  have hfilter : ∀ s, [Node.text s].filter (fun n => !isEmptyText n) = textOf s := by
    intro s
    rw [List.filter_cons, textOf, isEmptyText]
    cases s.isEmpty <;> rfl
  rw [mergeWithin, h]
  by_cases hs : s.isEmpty = true
  · obtain rfl := String.isEmpty_iff.1 hs
    cases start <;> cases stop <;> rfl
  · rw [textOf, if_neg hs]
    cases start <;> cases stop <;> exact hfilter _

/-- Texts are cleaned up to one text. -/
theorem mergeWithin_texts (hf : AllTexts f) (start stop : Bool) :
    ∃ s, Alike s (shownAll f) ∧ mergeWithin start stop f = textOf (trimEdges start stop s) := by
  have hnone : (none : Option String) ≠ some "" := nofun
  obtain ⟨t, ht, hne⟩ := exists_mergeFrom_eq hf hnone
  have hmerged : mergeFrom none f = textOf (t.getD "") := by
    rw [ht]
    cases t with
    | none => rfl
    | some s => exact (if_neg (by simpa [String.isEmpty_iff] using hne)).symm
  have halike := (alike_mergeFrom none f).trans (.of_eq String.empty_append)
  rw [hmerged, shownAll_textOf] at halike
  exact ⟨_, halike, mergeWithin_of_mergeFrom hmerged start stop⟩

/-! ## The nodes that are kept -/

@[simp] theorem withoutTexts_append (f g : Fragment) :
    withoutTexts (f ++ g) = withoutTexts f ++ withoutTexts g := List.filter_append ..

theorem AllTexts.withoutTexts_eq (h : AllTexts f) : withoutTexts f = [] :=
  List.filter_eq_nil_iff.2 fun n hn => by simp [h n hn]

theorem AllTexts.mergeWithin (h : AllTexts f) : AllTexts (mergeWithin start stop f) := by
  obtain ⟨s, -, heq⟩ := mergeWithin_texts h start stop
  rw [heq]
  exact allTexts_textOf _

/-- Clean-up changes only texts. -/
theorem withoutTexts_mergeWithin (start stop : Bool) (f : Fragment) :
    withoutTexts (mergeWithin start stop f) = withoutTexts f := by
  induction f using textInduction generalizing start with
  | texts f hf => rw [hf.mergeWithin.withoutTexts_eq, hf.withoutTexts_eq]
  | node f n rest hf hn ih =>
    rw [mergeWithin_append_cons hn, withoutTexts_append, hf.mergeWithin.withoutTexts_eq, withoutTexts_append,
      hf.withoutTexts_eq]
    simp only [withoutTexts, List.filter_cons] at ih ⊢
    rw [ih]

/-- Clean-up makes new texts and nothing else. -/
theorem mem_mergeWithin (h : n ∈ mergeWithin start stop f) : n.isText = true ∨ n ∈ f := by
  refine or_iff_not_imp_left.2 fun htext => ?_
  have hother : n ∈ withoutTexts (mergeWithin start stop f) := List.mem_filter.2 ⟨h, by simp [htext]⟩
  rw [withoutTexts_mergeWithin] at hother
  exact List.mem_of_mem_filter hother

@[simp] theorem withoutTexts_normalize (f : Fragment) : withoutTexts (normalize f) = withoutTexts f :=
  withoutTexts_mergeWithin true true f

/-- Clean-up leaves nothing of texts that are blank, or within the whole of those that are empty. -/
theorem mergeWithin_eq_nil_iff : mergeWithin start stop f = [] ↔
    AllTexts f ∧ if start || stop then plainText f = "" else shownAll f = "" := by
  have hall : mergeWithin start stop f = [] → AllTexts f := by
    intro h n hn
    have hnone : withoutTexts f = [] := by rw [← withoutTexts_mergeWithin start stop, h]; rfl
    simpa using List.filter_eq_nil_iff.1 hnone n hn
  refine ⟨fun h => ⟨hall h, ?_⟩, fun ⟨hf, h⟩ => ?_⟩
  · obtain ⟨s, hs, heq⟩ := mergeWithin_texts (hall h) start stop
    have htrimmed := textOf_eq_nil_iff.1 (heq.symm.trans h)
    split
    next =>
      rw [plainText, flat_eq_empty_iff, ← hs.withoutBlanks_eq, ← withoutBlanks_trimEdges start stop,
        htrimmed]
      rfl
    next hedge =>
      obtain ⟨rfl, rfl⟩ : start = false ∧ stop = false := by simpa using hedge
      have hempty : collapse "" = collapse (shownAll f) := (show s = "" from htrimmed) ▸ hs
      exact collapse_eq_empty hempty.symm
  · obtain ⟨s, hs, heq⟩ := mergeWithin_texts hf start stop
    rw [heq, textOf_eq_nil_iff]
    split at h
    next hedge =>
      have hblank : withoutBlanks s = [] := by rwa [hs.withoutBlanks_eq, ← flat_eq_empty_iff]
      cases stop with
      | true => exact (noTrailingBlank_trimEnd _).eq_empty (by cases start <;> simp [hblank])
      | false =>
        obtain rfl : start = true := by simpa using hedge
        exact (noLeadingBlank_trimStart _).eq_empty (by simp [hblank])
    next hedge =>
      obtain ⟨rfl, rfl⟩ : start = false ∧ stop = false := by simpa using hedge
      have hempty : collapse s = collapse "" := h ▸ hs
      exact (collapse_eq_empty hempty : s = "")

/-! ## The form of merged texts -/

/-- No two texts follow each other, none is empty, and none has a blank at an edge of the whole. -/
structure IsMerged (start stop : Bool) (f : Fragment) : Prop where
  apart : f.IsChain fun m n => ¬(m.isText = true ∧ n.isText = true)
  nonempty : .text "" ∉ f
  leading : start = true → ∀ s, f.head? = some (.text s) → NoLeadingBlank s
  trailing : stop = true → ∀ s, f.getLast? = some (.text s) → NoTrailingBlank s

theorem isMerged_nil (start stop : Bool) : IsMerged start stop [] :=
  ⟨.nil, by simp, by simp, by simp⟩

theorem isMerged_text {s : String} : IsMerged start stop [.text s] ↔
    s ≠ "" ∧ (start = true → NoLeadingBlank s) ∧ (stop = true → NoTrailingBlank s) := by
  constructor
  · intro h
    exact ⟨fun hs => h.nonempty (by simp [hs]), fun hstart => h.leading hstart s rfl,
      fun hstop => h.trailing hstop s rfl⟩
  · rintro ⟨hs, hleading, htrailing⟩
    refine ⟨.singleton _, by simpa using Ne.symm hs, fun hstart t ht => ?_, fun hstop t ht => ?_⟩
    · simp only [List.head?_cons, Option.some.injEq, Node.text.injEq] at ht
      exact ht ▸ hleading hstart
    · simp only [List.getLast?_singleton, Option.some.injEq, Node.text.injEq] at ht
      exact ht ▸ htrailing hstop

/-- A node that is no text parts a merged fragment. -/
theorem isMerged_append_cons (hn : n.isText = false) : IsMerged start stop (a ++ n :: b) ↔
    IsMerged start false a ∧ IsMerged false stop b := by
  have hhead : ∀ s, (a ++ n :: b).head? = some (.text s) ↔ a.head? = some (.text s) := by
    intro s
    cases a <;> simp [ne_text hn s]
  have hlast : ∀ s, (a ++ n :: b).getLast? = some (.text s) ↔ b.getLast? = some (.text s) := by
    intro s
    rw [List.getLast?_append, List.getLast?_cons]
    cases hb : b.getLast? <;> simp [ne_text hn s]
  constructor
  · intro h
    obtain ⟨ha, hb, -⟩ := List.isChain_append.1 h.apart
    refine ⟨⟨ha, fun hmem => h.nonempty (List.mem_append_left _ hmem), fun hstart s hs => ?_, by simp⟩,
      ⟨(List.isChain_cons.1 hb).2, fun hmem => h.nonempty (by simp [hmem]), by simp, fun hstop s hs => ?_⟩⟩
    · exact h.leading hstart s ((hhead s).2 hs)
    · exact h.trailing hstop s ((hlast s).2 hs)
  · rintro ⟨ha, hb⟩
    refine ⟨List.isChain_append.2 ⟨ha.apart, List.isChain_cons.2 ⟨by simp [hn], hb.apart⟩, ?_⟩, ?_,
      fun hstart s hs => ha.leading hstart s ((hhead s).1 hs),
      fun hstop s hs => hb.trailing hstop s ((hlast s).1 hs)⟩
    · simp [hn]
    · simp [ha.nonempty, hb.nonempty, (ne_text hn "").symm]

/-- Clean-up of texts gives them this form, whatever is around them. -/
theorem isMerged_textOf (start stop : Bool) (s : String) :
    IsMerged start stop (textOf (trimEdges start stop s)) := by
  unfold textOf
  split
  · exact isMerged_nil _ _
  next hs =>
    refine isMerged_text.2 ⟨by simpa using hs, ?_, ?_⟩
    · rintro rfl
      cases stop with
      | false => exact noLeadingBlank_trimStart s
      | true => exact (noLeadingBlank_trimStart s).trimEnd
    · rintro rfl
      exact noTrailingBlank_trimEnd _

theorem isMerged_mergeWithin (start stop : Bool) (f : Fragment) :
    IsMerged start stop (mergeWithin start stop f) := by
  have htexts : ∀ f, AllTexts f → ∀ start stop, IsMerged start stop (mergeWithin start stop f) := by
    intro f hf start stop
    obtain ⟨s, -, heq⟩ := mergeWithin_texts hf start stop
    rw [heq]
    exact isMerged_textOf start stop s
  induction f using textInduction generalizing start with
  | texts f hf => exact htexts f hf start stop
  | node f n rest hf hn ih =>
    rw [mergeWithin_append_cons hn]
    exact (isMerged_append_cons hn).2 ⟨htexts f hf start false, ih false⟩

/-- What has this form is left as it is. -/
theorem mergeWithin_eq_self (h : IsMerged start stop f) : mergeWithin start stop f = f := by
  have htexts : ∀ f, AllTexts f → ∀ start stop, IsMerged start stop f → mergeWithin start stop f = f := by
    intro f hf start stop h
    match f with
    | [] => cases start <;> cases stop <;> rfl
    | [n] =>
      obtain ⟨s, rfl⟩ := exists_text (hf n List.mem_cons_self)
      obtain ⟨hs, hleading, htrailing⟩ := isMerged_text.1 h
      cases start <;> cases stop <;>
        simp_all [mergeWithin, mergeFrom, trimFirst, trimLast, isEmptyText, NoLeadingBlank.trimStart_eq,
          NoTrailingBlank.trimEnd_eq]
    | m :: n :: rest =>
      -- two texts would follow each other
      have hapart := (List.isChain_cons_cons.1 h.apart).1
      exact absurd ⟨hf m (by simp), hf n (by simp)⟩ hapart
  induction f using textInduction generalizing start with
  | texts f hf => exact htexts f hf start stop h
  | node f n rest hf hn ih =>
    obtain ⟨hfirst, hrest⟩ := (isMerged_append_cons hn).1 h
    rw [mergeWithin_append_cons hn, htexts f hf start false hfirst, ih hrest]

/-- Clean-up brings each fragment into a form that it then leaves as it is: no two texts follow each
other, none is empty, the first node is no text that begins with a blank, and the last one no text
that ends with one. The nodes that are no texts are kept in their order, and so is the line of the
fragment. -/
theorem normalize_canonical (f : Fragment) :
    (normalize f).IsChain (fun m n => ¬(m.isText = true ∧ n.isText = true)) ∧
    .text "" ∉ normalize f ∧
    (∀ s, (normalize f).head? = some (.text s) → ∀ c ∈ s.toList.head?, isBlank c = false) ∧
    (∀ s, (normalize f).getLast? = some (.text s) → ∀ c ∈ s.toList.getLast?, isBlank c = false) ∧
    (normalize f).filter (fun n => !n.isText) = f.filter (fun n => !n.isText) ∧
    plainText (normalize f) = plainText f ∧
    normalize (normalize f) = normalize f := by
  have hmerged : IsMerged true true (normalize f) := isMerged_mergeWithin true true f
  exact ⟨hmerged.apart, hmerged.nonempty, hmerged.leading rfl, hmerged.trailing rfl,
    withoutTexts_normalize f, plainText_normalize f, mergeWithin_eq_self hmerged⟩

end Document
end ApiDoc
