import ApiDoc.Metadata.Location
import ApiDoc.Proofs.PathSegments

/-!
# Output paths

An output path is `Path.IsSanitized`: its segments are clean, and there is nothing before them but
one or two slashes. Every text comes to such a path (`Path.exists_sanitized`), and such a path is
kept as it is (`Path.sanitizeChars_render`). A name without slashes that is put after one is a
segment of its own (`Path.sanitizeChars_child`), so the page of a member lies directly below that of
its type (`settles_and_nests`).
-/

namespace ApiDoc.Text

variable {c : Char} {cs name segment : List Char}

/-! ## Brackets -/

theorem bracketed_of_mem_squareBrackets (h : c ∈ squareBrackets cs) : bracketed c = [c] := by
  fun_induction squareBrackets cs with
  | case1 => cases h
  | case2 cs ih | case3 cs _ ih | case4 cs _ _ ih =>
    rcases List.mem_cons.1 h with rfl | h
    · rfl
    · exact ih h
  | case5 cs _ _ _ ih => exact ih h
  | case6 d cs _ hopen hclose hspace ih =>
    rcases List.mem_cons.1 h with rfl | h
    · simp [bracketed, hopen, hclose, hspace]
    · exact ih h

/-- A backslash can only change what comes right after it. -/
theorem squareBrackets_append (h : '\\' ∉ cs) (cs' : List Char) :
    squareBrackets (cs ++ cs') = squareBrackets cs ++ squareBrackets cs' := by
  induction cs with
  | nil => rfl
  | cons c cs ih =>
    obtain ⟨hc, hcs⟩ := not_or.1 (mt List.mem_cons.2 h)
    rw [List.cons_append, squareBrackets_cons (Ne.symm hc), squareBrackets_cons (Ne.symm hc), ih hcs,
      List.append_assoc]

/-- Without an opening bracket spaces go and closing brackets become square, and that is all. -/
theorem squareBrackets_of_notMem (h : '<' ∉ cs) : squareBrackets cs =
    (cs.filter (· ≠ ' ')).map fun c => if c = '>' then ']' else c := by
  fun_induction squareBrackets cs with
  | case1 => rfl
  | case2 => simp at h
  | case3 => simp at h
  | case4 cs _ _ ih => simp_all
  | case5 cs _ _ _ ih => simp_all
  | case6 d cs _ hopen hclose hspace ih => simp_all

/-! ## Clean segments -/

theorem IsClean.notMem (h : IsClean segment) : segment ∉ [[], ['.']] := by
  have hsegment := h.isSegment
  simp only [Path.isSegment, Bool.and_eq_true, Bool.not_eq_eq_eq_not, Bool.not_true,
    List.isEmpty_eq_false_iff, bne_iff_ne] at hsegment
  simpa using hsegment

theorem isClean_cleanSegment (hsegment : Path.isSegment segment = true) (hslash : '/' ∉ segment)
    (hbracketed : ∀ c ∈ segment, bracketed c = [c]) : IsClean (cleanSegment segment) where
  isSegment := by
    simp only [Path.isSegment, Bool.and_eq_true, Bool.not_eq_eq_eq_not, Bool.not_true,
      List.isEmpty_eq_false_iff, bne_iff_ne] at hsegment ⊢
    refine ⟨by simpa [cleanSegment] using hsegment.1, fun hdot => hsegment.2 ?_⟩
    obtain ⟨d, rfl, hd⟩ := List.map_eq_singleton_iff.1 hdot
    split_ifs at hd with hforbidden
    · cases hd
    · rw [hd]
  chars c hc := by
    obtain ⟨d, hd, rfl⟩ := List.mem_map.1 hc
    split_ifs with hforbidden
    · exact ⟨by decide, by decide, by decide⟩
    · exact ⟨fun heq => hslash (heq ▸ hd), Bool.eq_false_iff.2 hforbidden, hbracketed d hd⟩

/-- What a name comes to is a segment of its own. -/
theorem isSegment_squareBrackets (hopen : '<' ∉ name) (hslash : '/' ∉ name)
    (hne : name.filter (· ≠ ' ') ≠ []) (hdot : name.filter (· ≠ ' ') ≠ ['.']) :
    Path.isSegment (squareBrackets name) = true ∧ '/' ∉ squareBrackets name := by
  rw [squareBrackets_of_notMem hopen]
  constructor
  · simp only [Path.isSegment, Bool.and_eq_true, Bool.not_eq_eq_eq_not, Bool.not_true,
      List.isEmpty_eq_false_iff, bne_iff_ne]
    refine ⟨by simpa using hne, fun heq => hdot ?_⟩
    obtain ⟨c, hc, hc'⟩ := List.map_eq_singleton_iff.1 heq
    split_ifs at hc' with hclose
    · cases hc'
    · rw [hc, hc']
  · intro hmem
    obtain ⟨c, hc, heq⟩ := List.mem_map.1 hmem
    split_ifs at heq with hclose
    · cases heq
    · exact hslash (heq ▸ (List.mem_filter.1 hc).1)

/-! ## Sanitized paths -/

namespace Path

variable {p : Path}

/-- Clean segments, with nothing before them but the slashes of a root. -/
structure IsSanitized (p : Path) : Prop where
  root : p.root ∈ [[], ['/'], ['/', '/']]
  segments : ∀ s ∈ p.segments, IsClean s

theorem IsSanitized.isParsed (h : p.IsSanitized) : p.IsParsed :=
  ⟨h.root, fun s hs => ⟨(h.segments s hs).isSegment, (h.segments s hs).slash_notMem⟩⟩

theorem IsSanitized.eq_slash_of_mem_root (h : p.IsSanitized) (hc : c ∈ p.root) : c = '/' := by
  have hroot := h.root
  simp only [List.mem_cons, List.not_mem_nil, or_false] at hroot
  rcases hroot with hroot | hroot | hroot <;> rw [hroot] at hc <;> simp_all

/-- Nothing in the path has to be replaced. -/
theorem IsSanitized.kept (h : p.IsSanitized) (hc : c ∈ p.render) :
    isForbidden c = false ∧ bracketed c = [c] := by
  have hslash : isForbidden '/' = false ∧ bracketed '/' = ['/'] := ⟨by decide, by decide⟩
  rcases List.mem_append.1 hc with hc | hc
  · exact h.eq_slash_of_mem_root hc ▸ hslash
  · rcases mem_intercalate hc with hc | ⟨s, hs, hc⟩
    · exact List.mem_singleton.1 hc ▸ hslash
    · exact ((h.segments s hs).chars c hc).2

theorem IsSanitized.chars (h : p.IsSanitized) (hc : c ∈ p.render) :
    0x20 ≤ c.toNat ∧ c ∉ ['<', '>', ' ', '"', '*', ':', '?', '|', '\\'] := by
  obtain ⟨hforbidden, hbracketed⟩ := h.kept hc
  simp only [isForbidden, Bool.or_eq_false_iff, decide_eq_false_iff_not, not_lt,
    List.contains_eq_mem] at hforbidden
  refine ⟨hforbidden.1, fun hmem => ?_⟩
  simp only [List.mem_cons, List.not_mem_nil, or_false] at hmem hforbidden
  rcases hmem with rfl | rfl | rfl | rfl | rfl | rfl | rfl | rfl | rfl
  -- brackets and spaces would not stand for themselves, and the others are replaced
  all_goals simp_all [bracketed]

theorem IsSanitized.backslash_notMem (h : p.IsSanitized) : '\\' ∉ p.render := by
  intro hmem
  have hkept := (h.kept hmem).1
  revert hkept
  decide

theorem IsSanitized.squareBrackets_render (h : p.IsSanitized) :
    squareBrackets p.render = p.render := by
  rw [squareBrackets_eq_flatMap h.backslash_notMem, List.flatMap_congr fun c hc => (h.kept hc).2,
    List.flatMap_singleton']

theorem IsSanitized.map_cleanSegment (h : p.IsSanitized) :
    p.segments.map cleanSegment = p.segments := by
  rw [List.map_congr_left fun s hs => (h.segments s hs).cleanSegment, List.map_id']

/-- A slash ends the path only if it belongs to the root. -/
theorem IsSanitized.getLast?_render (h : p.IsSanitized) (hne : p.segments ≠ []) :
    p.render.getLast? ≠ some '/' := by
  obtain ⟨segments, last, hlast⟩ := (List.eq_nil_or_concat' p.segments).resolve_left hne
  have hclean : IsClean last := h.segments last (by simp [hlast])
  have hlastne : last ≠ [] := fun heq => hclean.notMem (heq ▸ List.mem_cons_self)
  obtain ⟨before, hbefore⟩ : ∃ before, p.render = before ++ last := by
    cases segments with
    | nil => exact ⟨p.root, by simp [render, hlast, List.intercalate]⟩
    | cons s rest =>
      refine ⟨p.root ++ ['/'].intercalate (s :: rest) ++ ['/'], ?_⟩
      rw [render, hlast, intercalate_append_singleton (List.cons_ne_nil s rest)]
      simp
  rw [hbefore, List.getLast?_append_of_ne_nil _ hlastne]
  exact fun heq => hclean.slash_notMem (List.mem_of_getLast? heq)

theorem exists_sanitized (cs : List Char) :
    ∃ p : Path, p.IsSanitized ∧ sanitizeChars cs = p.render := by
  have hparsed := isParsed_parse (squareBrackets cs)
  refine ⟨{ parse (squareBrackets cs) with
    segments := (parse (squareBrackets cs)).segments.map cleanSegment }, ⟨hparsed.root, ?_⟩, rfl⟩
  intro s hs
  obtain ⟨piece, hpiece, rfl⟩ := List.mem_map.1 hs
  obtain ⟨hsegment, hslash⟩ := hparsed.segments piece hpiece
  refine isClean_cleanSegment hsegment hslash fun c hc => ?_
  exact bracketed_of_mem_squareBrackets (of_mem_splitAtChar (List.mem_filter.1 hpiece).1 hc).2

theorem sanitizeChars_render (h : p.IsSanitized) : sanitizeChars p.render = p.render := by
  rw [sanitizeChars, h.squareBrackets_render, parse_render h.isParsed]
  simp only [h.map_cleanSegment]

/-- A name after a path with segments is one more segment. -/
theorem sanitizeChars_child (h : p.IsSanitized) (hne : p.segments ≠ [])
    (hname : isSegment (squareBrackets name) = true ∧ '/' ∉ squareBrackets name) :
    sanitizeChars (p.render ++ '/' :: name) =
      p.render ++ '/' :: cleanSegment (squareBrackets name) := by
  have hrender : ∀ s, p.render ++ '/' :: s = render { p with segments := p.segments ++ [s] } := by
    intro s
    rw [render, render, intercalate_append_singleton hne, List.append_assoc]
  have hparsed : IsParsed { p with segments := p.segments ++ [squareBrackets name] } := by
    refine ⟨h.root, fun s hs => ?_⟩
    rcases List.mem_append.1 hs with hs | hs
    · exact h.isParsed.segments s hs
    · exact List.mem_singleton.1 hs ▸ hname
  rw [sanitizeChars, squareBrackets_append h.backslash_notMem, h.squareBrackets_render,
    squareBrackets_cons (by decide), show bracketed '/' = ['/'] from rfl, List.singleton_append,
    hrender, parse_render hparsed, hrender]
  simp only [List.map_append, h.map_cleanSegment, List.map_singleton]

/-- A name by itself is a path of one segment. -/
theorem sanitizeChars_name
    (hname : isSegment (squareBrackets name) = true ∧ '/' ∉ squareBrackets name) :
    sanitizeChars name = cleanSegment (squareBrackets name) := by
  have hrender : ∀ s, s = render { root := [], segments := [s] } := fun s => by
    simp [render, List.intercalate]
  have hparsed : IsParsed { root := [], segments := [squareBrackets name] } :=
    ⟨List.mem_cons_self, fun s hs => List.mem_singleton.1 hs ▸ hname⟩
  rw [sanitizeChars, hrender (squareBrackets name), parse_render hparsed, ← hrender]
  simp [render, List.intercalate]

end Path

theorem exists_toList_sanitizePath (s : String) :
    ∃ p : Path, p.IsSanitized ∧ (sanitizePath s).toList = p.render := by
  obtain ⟨p, hp, hs⟩ := Path.exists_sanitized s.toList
  exact ⟨p, hp, by rw [sanitizePath, String.toList_ofList, hs]⟩

end ApiDoc.Text

namespace ApiDoc

open Text (Path sanitizePath)

theorem notMem_beforeAngle (s : String) : '<' ∉ (beforeAngle s).toList := by
  rw [beforeAngle, String.toList_ofList]
  exact fun hmem => absurd (List.mem_takeWhile_imp hmem) (by decide)

theorem toList_joinPath_pair {path name : String} (hpath : path.toList ≠ [])
    (hname : name.toList ≠ []) :
    (joinPath [path, name]).toList = Text.sanitizeChars (path.toList ++ '/' :: name.toList) := by
  have hparts : [path, name].filter (fun part => !part.isEmpty) = [path, name] := by
    simp_all
  rw [joinPath, hparts, sanitizePath, String.toList_ofList, String.toList_intercalate]
  simp [List.intercalate]

theorem TypeSymbol.exists_path (t : TypeSymbol) :
    ∃ p : Path, p.IsSanitized ∧ t.path.toList = p.render :=
  Text.exists_toList_sanitizePath _

/-- A path that says something more than slashes has segments. -/
theorem Text.Path.IsSanitized.segments_ne_nil {p : Path} (h : p.IsSanitized) {c : Char}
    (hmem : c ∈ p.render) (hc : c ≠ '/') : p.segments ≠ [] := by
  intro hnil
  rw [Path.render, hnil] at hmem
  exact hc (h.eq_slash_of_mem_root (by simpa using hmem))

/-- A member lies one segment below its type. -/
theorem MemberSymbol.path_eq_child {m : MemberSymbol} {t : TypeSymbol} (howner : m.owner = some t)
    (hpath : ∃ c ∈ t.path.toList, c ≠ '/')
    (hne : (beforeAngle m.displayName).toList.filter (· ≠ ' ') ≠ [])
    (hslash : '/' ∉ (beforeAngle m.displayName).toList)
    (hdot : (beforeAngle m.displayName).toList.filter (· ≠ ' ') ≠ ['.']) :
    m.path = t.path ++ "/" ++ sanitizePath (beforeAngle m.displayName) ∧
      (sanitizePath (beforeAngle m.displayName)).toList ∉ [[], ['.']] ∧
      '/' ∉ (sanitizePath (beforeAngle m.displayName)).toList := by
  generalize hname : beforeAngle m.displayName = name at hne hslash hdot ⊢
  have hopen : '<' ∉ name.toList := hname ▸ notMem_beforeAngle _
  have hsegment := Text.isSegment_squareBrackets hopen hslash hne hdot
  have hsanitized : (sanitizePath name).toList =
      Text.cleanSegment (Text.squareBrackets name.toList) := by
    rw [sanitizePath, String.toList_ofList, Path.sanitizeChars_name hsegment]
  have hclean : Text.IsClean (sanitizePath name).toList :=
    hsanitized ▸ Text.isClean_cleanSegment hsegment.1 hsegment.2 fun _ =>
      Text.bracketed_of_mem_squareBrackets
  refine ⟨?_, hclean.notMem, hclean.slash_notMem⟩
  obtain ⟨p, hp, hrender⟩ := TypeSymbol.exists_path t
  obtain ⟨c, hc, hcslash⟩ := hpath
  have hsegments := hp.segments_ne_nil (hrender ▸ hc) hcslash
  have hnamene : name.toList ≠ [] := fun heq => hne (by rw [heq]; rfl)
  have hjoin : m.path = joinPath [t.path, name] := by
    rw [MemberSymbol.path, howner, ← hname]
  rw [← String.toList_inj, hjoin, toList_joinPath_pair (List.ne_nil_of_mem hc) hnamene, hrender,
    Path.sanitizeChars_child hp hsegments hsegment, String.toList_append, String.toList_append,
    hrender, hsanitized]
  simp

/-- Output paths settle at once, hold no character that has to be replaced and no segment that names
nothing; and a member lies one segment below its type. -/
theorem settles_and_nests :
    (∀ s : String,
      sanitizePath (sanitizePath s) = sanitizePath s ∧
        (∀ c ∈ (sanitizePath s).toList,
          0x20 ≤ c.toNat ∧ c ∉ ['<', '>', ' ', '"', '*', ':', '?', '|', '\\']) ∧
        ∃ p : Path, (sanitizePath s).toList = p.render ∧ p.root ∈ [[], ['/'], ['/', '/']] ∧
          (∀ segment ∈ p.segments, segment ∉ [[], ['.']] ∧ '/' ∉ segment) ∧
          (p.segments ≠ [] → (sanitizePath s).toList.getLast? ≠ some '/')) ∧
    ∀ (m : MemberSymbol) (t : TypeSymbol) (name : String), m.owner = some t →
      (∃ c ∈ t.path.toList, c ≠ '/') → name = beforeAngle m.displayName →
      name.toList.filter (· ≠ ' ') ≠ [] → '/' ∉ name.toList →
      name.toList.filter (· ≠ ' ') ≠ ['.'] →
        m.path = t.path ++ "/" ++ sanitizePath name ∧
          (sanitizePath name).toList ∉ [[], ['.']] ∧ '/' ∉ (sanitizePath name).toList := by
  constructor
  · intro s
    obtain ⟨p, hp, hs⟩ := Text.exists_toList_sanitizePath s
    refine ⟨?_, fun c hc => hp.chars (hs ▸ hc), p, hs, hp.root, fun segment hsegment => ?_,
      fun hne => hs ▸ hp.getLast?_render hne⟩
    · rw [← String.toList_inj, sanitizePath, String.toList_ofList, hs, Path.sanitizeChars_render hp]
    · have hclean := hp.segments segment hsegment
      exact ⟨hclean.notMem, hclean.slash_notMem⟩
  · rintro m t _ howner hpath rfl hne hslash hdot
    exact MemberSymbol.path_eq_child howner hpath hne hslash hdot

/-- A type with a parameter, in a namespace whose name is written with a space. -/
def pen : TypeSymbol where
  address := ⟨.declared 0 0, []⟩
  unit := "Zoo"
  decl := { ref := .named "Big Zoo" "Pen" [{ shape := .parameter, name := "T" }] none }

/-- A method of that type with a colon in its name. -/
def penSwap : MemberSymbol where
  address := pen.address
  owner := pen
  decl := .method { name := "Swap:all", typeParameters := [{ shape := .parameter, name := "S" }] }

/-- The method lies below its type, and its path is one that settles. -/
theorem settles_and_nests_penSwap :
    penSwap.path = "Zoo/BigZoo/Pen[T]" ++ "/" ++ "Swap_all" ∧
    sanitizePath penSwap.path = penSwap.path := by
  have hpath : pen.path = "Zoo/BigZoo/Pen[T]" := by cbv
  have hname : "Swap:all" = beforeAngle penSwap.displayName := by cbv
  obtain ⟨hchild, -⟩ := settles_and_nests.2 penSwap pen "Swap:all" rfl
    ⟨'Z', by simp [hpath], by decide⟩ hname (by decide) (by decide) (by decide)
  have hsanitized : sanitizePath "Swap:all" = "Swap_all" := by cbv
  rw [hpath, hsanitized] at hchild
  refine ⟨hchild, ?_⟩
  exact (settles_and_nests.1 _).1

end ApiDoc
