import Mathlib
import ApiDoc.Text.Path

/-!
# Paths and their segments

A path is read back as it is written (`Path.parse_render`). One that is written from parts has square
brackets instead of their angle brackets and leaves their spaces out (`toList_sanitizePath`), provided
that no part holds a slash or a character that paths replace. Equal paths have equal segments
(`intercalate_inj`). Identifiers, with or without dots between them, are such parts.
-/

namespace ApiDoc.Text

/-! ## Lists with separators -/

section Separators

variable {α : Type} {sep a : α} {seps : List α} {ls ls' : List (List α)}

theorem mem_intercalate (h : a ∈ seps.intercalate ls) : a ∈ seps ∨ ∃ l ∈ ls, a ∈ l := by
  induction ls with
  | nil => cases h
  | cons l ls ih =>
    cases ls with
    | nil => exact .inr ⟨l, List.mem_cons_self, by simpa [List.intercalate] using h⟩
    | cons l' ls =>
      rw [List.intercalate_cons_cons, List.append_assoc, List.mem_append, List.mem_append] at h
      rcases h with h | h | h
      · exact .inr ⟨l, List.mem_cons_self, h⟩
      · exact .inl h
      · exact (ih h).imp_right fun ⟨l, hl, ha⟩ => ⟨l, List.mem_cons_of_mem _ hl, ha⟩

theorem flatMap_intercalate (f : α → List α) (seps : List α) (ls : List (List α)) :
    (seps.intercalate ls).flatMap f = (seps.flatMap f).intercalate (ls.map (List.flatMap f)) := by
  induction ls with
  | nil => rfl
  | cons l ls ih =>
    cases ls with
    | nil => simp [List.intercalate]
    | cons l' ls =>
      rw [List.intercalate_cons_cons, List.flatMap_append, List.flatMap_append, ih]
      simp only [List.map_cons, List.intercalate_cons_cons]

theorem intercalate_append_singleton (hne : ls ≠ []) (l : List α) :
    [sep].intercalate (ls ++ [l]) = [sep].intercalate ls ++ sep :: l := by
  induction ls with
  | nil => exact absurd rfl hne
  | cons first ls ih =>
    cases ls with
    | nil => simp [List.intercalate]
    | cons second ls =>
      have hrest := ih (List.cons_ne_nil second ls)
      rw [List.cons_append, List.cons_append, List.intercalate_cons_cons,
        List.intercalate_cons_cons, ← List.cons_append, hrest, List.append_assoc, List.append_assoc,
        List.append_assoc]

/-- Pieces that hold no separator can be told from what they are joined to. -/
theorem intercalate_inj [DecidableEq α] (hne : ls ≠ []) (hne' : ls' ≠ [])
    (hls : ∀ l ∈ ls, sep ∉ l) (hls' : ∀ l ∈ ls', sep ∉ l)
    (h : [sep].intercalate ls = [sep].intercalate ls') : ls = ls' := by
  rw [← List.splitOn_intercalate sep hls hne, h, List.splitOn_intercalate sep hls' hne']

end Separators

theorem splitAtChar_eq_splitOn (sep : Char) (cs : List Char) :
    splitAtChar sep cs = cs.splitOn sep := by
  induction cs with
  | nil => rfl
  | cons c cs ih =>
    rw [splitAtChar, List.splitOn_cons_eq_if_modifyHead, ← ih]
    by_cases hc : c = sep
    · simp [hc]
    · simp only [hc, ↓reduceIte, beq_iff_eq]
      split
      next piece rest hpieces => rw [hpieces, List.modifyHead_cons]
      next hpieces =>
        rw [ih] at hpieces
        exact absurd hpieces (List.splitOn_ne_nil _ _)

/-- Pieces hold what the list holds, without the separators. -/
theorem of_mem_splitAtChar {sep c : Char} {cs piece : List Char} (h : piece ∈ splitAtChar sep cs)
    (hc : c ∈ piece) : c ≠ sep ∧ c ∈ cs := by
  induction cs generalizing piece with
  | nil =>
    rw [List.mem_singleton.1 h] at hc
    cases hc
  | cons d cs ih =>
    have hrest {piece : List Char} (h : piece ∈ splitAtChar sep cs) (hc : c ∈ piece) :
        c ≠ sep ∧ c ∈ d :: cs := (ih h hc).imp_right (List.mem_cons_of_mem d)
    rw [splitAtChar] at h
    split_ifs at h with hd
    · rcases List.mem_cons.1 h with rfl | h
      · cases hc
      · exact hrest h hc
    · split at h
      next first rest hpieces =>
        rw [hpieces] at hrest
        rcases List.mem_cons.1 h with rfl | h
        · rcases List.mem_cons.1 hc with rfl | hc
          · exact ⟨hd, List.mem_cons_self⟩
          · exact hrest List.mem_cons_self hc
        · exact hrest (List.mem_cons_of_mem _ h) hc
      next =>
        rw [List.mem_singleton.1 h] at hc
        obtain rfl := List.mem_singleton.1 hc
        exact ⟨hd, List.mem_cons_self⟩

/-- Segments are read back from what they are joined to, without any if there are none. -/
theorem filter_splitAtChar_intercalate {segments : List (List Char)}
    (h : ∀ s ∈ segments, Path.isSegment s = true ∧ '/' ∉ s) :
    (splitAtChar '/' (['/'].intercalate segments)).filter Path.isSegment = segments := by
  cases segments with
  | nil => rfl
  | cons s rest =>
    rw [splitAtChar_eq_splitOn,
      List.splitOn_intercalate '/' (fun s hs => (h s hs).2) (List.cons_ne_nil s rest),
      List.filter_eq_self.2 fun s hs => (h s hs).1]

/-! ## Paths that are written and read -/

namespace Path

/-- A root and segments, as they are read off a text. -/
structure IsParsed (p : Path) : Prop where
  root : p.root ∈ [[], ['/'], ['/', '/']]
  segments : ∀ s ∈ p.segments, isSegment s = true ∧ '/' ∉ s

theorem isParsed_parse (cs : List Char) : (parse cs).IsParsed where
  root := by
    change rootOf cs ∈ _
    fun_cases rootOf cs <;> decide
  segments s hs := by
    obtain ⟨hpiece, hsegment⟩ := List.mem_filter.1 hs
    exact ⟨hsegment, fun hslash => (of_mem_splitAtChar hpiece hslash).1 rfl⟩

/-- What segments are joined to does not begin like a root. -/
theorem intercalate_ne_slash_cons {segments : List (List Char)}
    (h : ∀ s ∈ segments, isSegment s = true ∧ '/' ∉ s) (cs : List Char) :
    ['/'].intercalate segments ≠ '/' :: cs := by
  intro heq
  cases segments with
  | nil => cases heq
  | cons s rest =>
    obtain ⟨hsegment, hslash⟩ := h s List.mem_cons_self
    cases s with
    | nil => cases hsegment
    | cons c s =>
      have hc : c = '/' := by cases rest <;> simp_all [List.intercalate]
      exact hslash (hc ▸ List.mem_cons_self)

theorem parse_render {p : Path} (h : p.IsParsed) : parse p.render = p := by
  obtain ⟨root, segments⟩ := p
  have hhead := intercalate_ne_slash_cons h.segments
  have hread := filter_splitAtChar_intercalate h.segments
  have hroot := h.root
  simp only [List.mem_cons, List.not_mem_nil, or_false] at hroot
  -- each slash of the root leaves an empty piece, which is no segment
  rcases hroot with rfl | rfl | rfl
  all_goals
    refine congrArg₂ Path.mk ?_ hread
    simp only [render, List.cons_append, List.nil_append]
    generalize ['/'].intercalate segments = cs at hhead
    rw [rootOf] <;> simp [hhead]

end Path

/-! ## Sanitized paths -/

/-- What a character becomes in a path. A backslash becomes what it stands before. -/
def bracketed (c : Char) : List Char :=
  if c = '<' then ['['] else if c = '>' then [']'] else if c = ' ' then [] else [c]

theorem squareBrackets_cons {c : Char} (h : c ≠ '\\') (cs : List Char) :
    squareBrackets (c :: cs) = bracketed c ++ squareBrackets cs := by
  rw [squareBrackets, bracketed]
  · split_ifs <;> rfl
  · exact fun _ heq _ => h heq

theorem squareBrackets_eq_flatMap {cs : List Char} (h : '\\' ∉ cs) :
    squareBrackets cs = cs.flatMap bracketed := by
  induction cs with
  | nil => rfl
  | cons c cs ih =>
    obtain ⟨hc, hcs⟩ := not_or.1 (mt List.mem_cons.2 h)
    rw [squareBrackets_cons (Ne.symm hc), ih hcs, List.flatMap_cons]

/-- A segment that paths keep as it is. -/
structure IsClean (segment : List Char) : Prop where
  isSegment : Path.isSegment segment = true
  chars : ∀ c ∈ segment, c ≠ '/' ∧ isForbidden c = false ∧ bracketed c = [c]

theorem IsClean.cleanSegment {segment : List Char} (h : IsClean segment) :
    cleanSegment segment = segment := by
  have hkept : ∀ c ∈ segment, (if isForbidden c then '_' else c) = c := by
    intro c hc
    rw [(h.chars c hc).2.1]
    rfl
  rw [Text.cleanSegment, List.map_congr_left hkept, List.map_id']

theorem IsClean.flatMap_bracketed {segment : List Char} (h : IsClean segment) :
    segment.flatMap bracketed = segment := by
  rw [List.flatMap_congr fun c hc => (h.chars c hc).2.2, List.flatMap_singleton']

theorem IsClean.slash_notMem {segment : List Char} (h : IsClean segment) : '/' ∉ segment :=
  fun hmem => (h.chars _ hmem).1 rfl

theorem IsClean.backslash_notMem {segment : List Char} (h : IsClean segment) : '\\' ∉ segment := by
  intro hmem
  have hforbidden := (h.chars _ hmem).2.1
  revert hforbidden
  decide

/-- Clean segments are read back from the path that they make. -/
theorem parse_intercalate {segments : List (List Char)} (h : ∀ s ∈ segments, IsClean s) :
    Path.parse (['/'].intercalate segments) = { root := [], segments } :=
  Path.parse_render (p := { root := [], segments })
    ⟨List.mem_cons_self, fun s hs => ⟨(h s hs).isSegment, (h s hs).slash_notMem⟩⟩

theorem toList_sanitizePath {s : String} {parts : List (List Char)}
    (hs : s.toList = ['/'].intercalate parts) (hslash : ∀ p ∈ parts, '\\' ∉ p)
    (hclean : ∀ p ∈ parts, IsClean (p.flatMap bracketed)) :
    (sanitizePath s).toList = ['/'].intercalate (parts.map (List.flatMap bracketed)) := by
  have hnone : '\\' ∉ ['/'].intercalate parts := by
    intro hmem
    rcases mem_intercalate hmem with h | ⟨p, hp, h⟩
    · revert h
      decide
    · exact hslash p hp h
  have hall : ∀ s ∈ parts.map (List.flatMap bracketed), IsClean s := by
    simpa using hclean
  have hkept : (parts.map (List.flatMap bracketed)).map cleanSegment =
      parts.map (List.flatMap bracketed) := by
    rw [List.map_congr_left fun s hs => (hall s hs).cleanSegment, List.map_id']
  rw [sanitizePath, String.toList_ofList, sanitizeChars, hs, squareBrackets_eq_flatMap hnone,
    flatMap_intercalate, List.flatMap_singleton, show bracketed '/' = ['/'] from rfl,
    parse_intercalate hall]
  simp only [hkept, Path.render, List.nil_append]

/-! ## Identifiers -/

/-- Letters, digits and underscores. Whatever lies outside ASCII counts as a letter. -/
def isNameChar (c : Char) : Bool := c.isAlphanum || c == '_' || 128 ≤ c.toNat

structure IsName (s : String) : Prop where
  ne_nil : s.toList ≠ []
  chars : ∀ c ∈ s.toList, isNameChar c = true

/-- Identifiers with dots between them, or nothing. -/
structure IsDotted (s : String) : Prop where
  ne_dot : s.toList ≠ ['.']
  chars : ∀ c ∈ s.toList, isNameChar c = true ∨ c = '.'

instance (s : String) : Decidable (IsName s) :=
  have : Decidable (∀ c ∈ s.toList, isNameChar c = true) := List.decidableBAll _ _
  decidable_of_iff (s.toList ≠ [] ∧ ∀ c ∈ s.toList, isNameChar c = true)
    ⟨fun ⟨h, h'⟩ => ⟨h, h'⟩, fun ⟨h, h'⟩ => ⟨h, h'⟩⟩

instance (s : String) : Decidable (IsDotted s) :=
  have : Decidable (∀ c ∈ s.toList, isNameChar c = true ∨ c = '.') := List.decidableBAll _ _
  decidable_of_iff (s.toList ≠ ['.'] ∧ ∀ c ∈ s.toList, isNameChar c = true ∨ c = '.')
    ⟨fun ⟨h, h'⟩ => ⟨h, h'⟩, fun ⟨h, h'⟩ => ⟨h, h'⟩⟩

theorem IsName.isDotted {s : String} (h : IsName s) : IsDotted s := by
  refine ⟨fun hdot => ?_, fun c hc => .inl (h.chars c hc)⟩
  have := h.chars '.' (by rw [hdot]; exact List.mem_singleton_self _)
  revert this
  decide

theorem ne_of_isNameChar {c d : Char} (h : isNameChar c = true) (hd : isNameChar d = false) :
    c ≠ d := by
  rintro rfl
  cases h.symm.trans hd

theorem IsName.notMem {s : String} (h : IsName s) {d : Char} (hd : isNameChar d = false) :
    d ∉ s.toList := fun hmem => ne_of_isNameChar (h.chars d hmem) hd rfl

/-- The characters that stand between the identifiers in a segment. -/
def punctuation : List Char := ['.', '+', '[', ']', ',']

theorem bracketed_of_isNameChar {c : Char} (h : isNameChar c = true) : bracketed c = [c] := by
  have hne : ∀ d, isNameChar d = false → c ≠ d := fun d => ne_of_isNameChar h
  simp [bracketed, hne '<' (by decide), hne '>' (by decide), hne ' ' (by decide)]

theorem isForbidden_of_isNameChar {c : Char} (h : isNameChar c = true) : isForbidden c = false := by
  have hlow : ¬ c.toNat < 0x20 := by
    intro hlt
    simp only [isNameChar, Char.isAlphanum, Char.isAlpha, Char.isUpper, Char.isLower,
      Char.isDigit, Bool.or_eq_true, Bool.and_eq_true, decide_eq_true_eq, beq_iff_eq,
      UInt32.le_iff_toNat_le, ge_iff_le] at h
    have hval : c.toNat = c.val.toNat := rfl
    rcases h with (h | h) | h
    · simp at h
      omega
    · rw [h] at hlt
      revert hlt
      decide
    · omega
  have hnone : ['"', '*', ':', '?', '\\', '|'].contains c = false := by
    simp only [List.contains_eq_mem, decide_eq_false_iff_not, List.mem_cons, List.not_mem_nil,
      or_false, not_or]
    refine ⟨?_, ?_, ?_, ?_, ?_, ?_⟩ <;> exact ne_of_isNameChar h (by decide)
  simp only [isForbidden, hlow, decide_false, hnone, Bool.or_false]

theorem isClean_of_chars {segment : List Char} (hne : segment ≠ []) (hdot : segment ≠ ['.'])
    (h : ∀ c ∈ segment, isNameChar c = true ∨ c ∈ punctuation) : IsClean segment := by
  have hmarks : ∀ c ∈ punctuation, c ≠ '/' ∧ isForbidden c = false ∧ bracketed c = [c] := by
    simp [punctuation, isForbidden, bracketed]
  refine ⟨by simp [Path.isSegment, hne, hdot], fun c hc => ?_⟩
  rcases h c hc with hname | hmark
  · exact ⟨ne_of_isNameChar hname (by decide), isForbidden_of_isNameChar hname,
      bracketed_of_isNameChar hname⟩
  · exact hmarks c hmark

/-- Identifiers and the dots between them stay as they are. -/
theorem IsDotted.isClean {s : String} (h : IsDotted s) (hne : s.toList ≠ []) :
    IsClean s.toList := by
  refine isClean_of_chars hne h.ne_dot fun c hc => (h.chars c hc).imp_right ?_
  rintro rfl
  decide

end ApiDoc.Text
