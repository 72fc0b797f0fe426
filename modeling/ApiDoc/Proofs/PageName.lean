import ApiDoc.Proofs.PathSegments
import ApiDoc.Proofs.Unambiguous
import ApiDoc.Proofs.WellBuilt
import ApiDoc.Metadata.Location

/-!
# What paths call types

The last segment of the path of a type is its name for readers, with plus signs for dots and square
brackets for angle brackets (`TypeRef.pageName`). Definitions whose names are identifiers can be
told by it: together with the namespace it determines the full name (`IsDefinition.fullName_eq`). So
does the keyword of a type that has one, since no definition is named like a keyword.
-/

namespace ApiDoc

open Text (IsName isNameChar bracketed)

/-! ## Arity markers -/

/-- The arity marker of a definition with some number of type parameters. -/
def arityMarker (n : Nat) : String := if n = 0 then "" else "`" ++ toString n

theorem isDigit_of_isDigit {c : Char} (h : c.isDigit = true) : Text.isDigit c = true := by
  simp only [Char.isDigit, Bool.and_eq_true, decide_eq_true_eq, UInt32.le_iff_toNat_le,
    ge_iff_le] at h
  have hval : c.toNat = c.val.toNat := rfl
  have hlow : c.toNat < 128 := by
    simp at h
    omega
  rw [Text.isDigit, if_pos hlow]
  simpa [Char.isDigit, UInt32.le_iff_toNat_le] using h

/-- An identifier is what is left of it with an arity marker. -/
theorem stripArity_append_arityMarker {name : String} (h : IsName name) (n : Nat) :
    Text.stripArity (name ++ arityMarker n) = name := by
  have hquote : '`' ∉ name.toList := h.notMem (by decide)
  refine String.toList_inj.1 ?_
  rw [Text.stripArity, String.toList_ofList]
  by_cases hn : n = 0
  · rw [hn, arityMarker, if_pos rfl, String.append_empty]
    rcases Text.stripArityChars_cases name.toList with heq | ⟨before, digits, feed, heq, -⟩
    · exact heq
    · rw [heq] at hquote
      simp at hquote
  · have hdigits : ∀ c ∈ (toString n).toList.reverse, c.isDigit = true := fun c hc =>
      isDigit_of_mem_repr (List.mem_reverse.1 hc)
    have hreverse : (name ++ arityMarker n).toList.reverse =
        (toString n).toList.reverse ++ '`' :: name.toList.reverse := by
      rw [arityMarker, if_neg hn]
      simp
    obtain ⟨d, ds, hds⟩ : ∃ d ds, (toString n).toList.reverse = d :: ds := by
      refine List.exists_cons_of_ne_nil ?_
      rw [ne_eq, List.reverse_eq_nil_iff, Nat.toString_eq_repr, Nat.toList_repr]
      exact Nat.toDigits_ne_nil
    have hfeed : Text.splitFinalFeed (name ++ arityMarker n).toList =
        ((name ++ arityMarker n).toList, []) := by
      rw [Text.splitFinalFeed, List.getLast?_eq_head?_reverse, hreverse, hds, if_neg]
      rintro heq
      obtain rfl : d = '\n' := by simpa using heq
      have := hdigits '\n' (hds ▸ List.mem_cons_self)
      revert this
      decide
    have hall := fun c hc => isDigit_of_isDigit (hdigits c hc)
    rw [Text.stripArityChars, hfeed]
    simp only [hreverse]
    rw [List.takeWhile_append_of_pos hall, List.dropWhile_append_of_pos hall, hds]
    simp [show Text.isDigit '`' = false from by decide]

namespace TypeRef

variable {r r' outer : TypeRef} {name name' : String}

/-! ## Definitions -/

/-- The reference goes by an identifier, with an arity marker if it has type parameters, and lists
its type parameters. It is not named like a keyword. -/
structure IsNamed (r : TypeRef) (name : String) : Prop where
  shape : r.shape = .named
  isName : IsName name
  name_eq : r.name = name ++ arityMarker r.arguments.length
  not_keyword : r.name ∉ typeKeywords.map Prod.snd
  parameters : ∀ a ∈ r.arguments, a.shape = .parameter ∧ IsName a.name

/-- The reference of a definition. One within another lies in the same namespace. -/
inductive IsDefinition : TypeRef → Prop
  | outermost {r : TypeRef} {name : String} : r.IsNamed name → r.declaring = none → IsDefinition r
  | nested {r outer : TypeRef} {name : String} : r.IsNamed name → r.declaring = some outer →
    outer.space = r.space → IsDefinition outer → IsDefinition r

theorem displayName_parameter (h : r.shape = .parameter) : r.displayName = r.name := by
  obtain ⟨shape, name, space, declaring, arguments, element, rank, position, methodLevel⟩ := r
  cases h
  rfl

theorem displayNames_eq_map (l : List TypeRef) : displayNames l = l.map displayName := by
  induction l with
  | nil => rfl
  | cons r l ih => rw [displayNames, ih, List.map_cons]

theorem displayName_named (h : r.shape = .named) : r.displayName =
    match if r.arguments.isEmpty then typeKeywords.lookup r.fullName else none with
    | some word => word
    | none => displayOuter r.declaring ++ Text.stripArity (Text.replaceChar '+' '.' r.name) ++
        if r.arguments.isEmpty then ""
        else "<" ++ String.intercalate ", " (r.arguments.map displayName) ++ ">" := by
  obtain ⟨shape, name, space, declaring, arguments, element, rank, position, methodLevel⟩ := r
  cases h
  rw [← displayNames_eq_map]
  rfl

theorem fullName_named (h : r.shape = .named) : r.fullName =
    match r.declaring with
    | some outer => outer.fullName ++ "." ++ Text.replaceChar '+' '.' r.name
    | none => if r.space.isEmpty then Text.replaceChar '+' '.' r.name
      else r.space ++ "." ++ Text.replaceChar '+' '.' r.name := by
  obtain ⟨shape, name, space, declaring, arguments, element, rank, position, methodLevel⟩ := r
  cases h
  cases declaring <;> rfl

/-- The list of type parameters after a name, empty if there are none. -/
def parameterList (names : List String) : String :=
  if names.isEmpty then "" else "<" ++ String.intercalate ", " names ++ ">"

namespace IsNamed

/-- A name without plus signs is kept. -/
theorem replaceChar_name (h : r.IsNamed name) : Text.replaceChar '+' '.' r.name = r.name := by
  have hmarker : '+' ∉ (arityMarker r.arguments.length).toList := by
    rw [arityMarker]
    split
    · exact List.not_mem_nil
    · rw [String.toList_append, List.mem_append]
      rintro (hmem | hmem)
      · revert hmem
        decide
      · have := isDigit_of_mem_repr hmem
        revert this
        decide
  have hkept : ∀ c ∈ r.name.toList, (if c = '+' then '.' else c) = c := by
    intro c hc
    rw [if_neg]
    rintro rfl
    rw [h.name_eq, String.toList_append, List.mem_append] at hc
    exact hc.elim (h.isName.notMem (by decide)) hmarker
  rw [Text.replaceChar, List.map_congr_left hkept, List.map_id', String.ofList_toList]

/-- A definition goes by its keyword, or by its name after that of the definition around it. -/
theorem displayName_cases (h : r.IsNamed name) :
    (r.fullName, r.displayName) ∈ typeKeywords ∨ r.displayName =
      displayOuter r.declaring ++ name ++ parameterList (r.arguments.map TypeRef.name) := by
  have hnames : r.arguments.map displayName = r.arguments.map TypeRef.name :=
    List.map_congr_left fun a ha => displayName_parameter (h.parameters a ha).1
  rw [displayName_named h.shape, h.replaceChar_name, h.name_eq,
    stripArity_append_arityMarker h.isName, hnames]
  split
  next word hword =>
    split at hword
    · exact .inl (mem_of_lookup hword)
    · cases hword
  next => exact .inr (by simp [parameterList])

theorem isName_parameter (h : r.IsNamed name) :
    ∀ s ∈ r.arguments.map TypeRef.name, IsName s := by
  intro s hs
  obtain ⟨a, ha, rfl⟩ := List.mem_map.1 hs
  exact (h.parameters a ha).2

end IsNamed

/-! ## Names in paths -/

/-- What a character of a name becomes in a path. -/
def pathChar (c : Char) : List Char := bracketed (if c = '.' then '+' else c)

/-- The last segment of the path of a type. -/
def pageName (r : TypeRef) : List Char := r.displayName.toList.flatMap pathChar

theorem pathChar_of_isNameChar {c : Char} (h : isNameChar c = true) : pathChar c = [c] := by
  rw [pathChar, if_neg (Text.ne_of_isNameChar h (by decide)), Text.bracketed_of_isNameChar h]

theorem flatMap_pathChar {s : String} (h : ∀ c ∈ s.toList, isNameChar c = true) :
    s.toList.flatMap pathChar = s.toList := by
  rw [List.flatMap_congr fun c hc => pathChar_of_isNameChar (h c hc), List.flatMap_singleton']

/-- The characters of a list of type parameters in a path. -/
def parameterChars (names : List String) : List Char :=
  if names.isEmpty then [] else '[' :: [','].intercalate (names.map String.toList) ++ [']']

theorem flatMap_parameterList {names : List String} (h : ∀ s ∈ names, IsName s) :
    (parameterList names).toList.flatMap pathChar = parameterChars names := by
  unfold parameterList parameterChars
  split
  · rfl
  · have hkept : ∀ s ∈ names, s.toList.flatMap pathChar = s.toList :=
      fun s hs => flatMap_pathChar (h s hs).chars
    have hlist : (String.intercalate ", " names).toList.flatMap pathChar =
        [','].intercalate (names.map String.toList) := by
      rw [String.toList_intercalate, Text.flatMap_intercalate, List.map_map]
      exact congrArg _ (List.map_congr_left hkept)
    simp only [String.toList_append, List.flatMap_append, hlist]
    rfl

/-- The characters of a definition by itself. -/
def ownChars (r : TypeRef) (name : String) : List Char :=
  name.toList ++ parameterChars (r.arguments.map TypeRef.name)

/-- What comes in a path before the name of a definition within another. -/
def outerChars : Option TypeRef → List Char
  | none => []
  | some outer => outer.pageName ++ ['+']

theorem isName_of_mem_typeKeywords {e : String × String} (h : e ∈ typeKeywords) : IsName e.2 := by
  have hall : ∀ e ∈ typeKeywords, IsName e.2 := by decide
  exact hall e h

theorem IsNamed.pageName_cases (h : r.IsNamed name) :
    (∃ word, (r.fullName, word) ∈ typeKeywords ∧ r.pageName = word.toList) ∨ r.pageName = outerChars r.declaring ++ r.ownChars name := by
  rcases h.displayName_cases with hword | hname
  · exact .inl ⟨_, hword, flatMap_pathChar (isName_of_mem_typeKeywords hword).chars⟩
  · refine .inr ?_
    have houter : (displayOuter r.declaring).toList.flatMap pathChar = outerChars r.declaring := by
      cases r.declaring with
      | none => rfl
      | some outer =>
        simp only [displayOuter, String.toList_append, List.flatMap_append]
        rfl
    rw [pageName, hname, String.toList_append, String.toList_append, List.flatMap_append,
      List.flatMap_append, houter, flatMap_pathChar h.isName.chars,
      flatMap_parameterList h.isName_parameter, ownChars, List.append_assoc]

theorem IsDefinition.isNamed (h : r.IsDefinition) : ∃ name, r.IsNamed name := by
  cases h with
  | outermost h | nested h => exact ⟨_, h⟩

/-- The characters between the identifiers in a name for readers. -/
def nameMarks : List Char := ['.', '<', '>', ',', ' ']

/-- The characters between the identifiers in the name of a type in a path. -/
def pathMarks : List Char := ['+', '[', ']', ',']

theorem chars_parameterList {names : List String} (h : ∀ s ∈ names, IsName s) {c : Char}
    (hc : c ∈ (parameterList names).toList) : isNameChar c = true ∨ c ∈ ['<', '>', ',', ' '] := by
  unfold parameterList at hc
  split at hc
  · cases hc
  · rw [String.toList_append, String.toList_append, String.toList_intercalate, List.mem_append,
      List.mem_append] at hc
    rcases hc with (hc | hc) | hc
    · exact .inr (by revert hc; simp +contextual)
    · rcases Text.mem_intercalate hc with hc | ⟨l, hl, hc⟩
      · refine .inr (List.mem_of_mem_drop (i := 2) ?_)
        exact hc
      · obtain ⟨s, hs, rfl⟩ := List.mem_map.1 hl
        exact .inl ((h s hs).chars c hc)
    · exact .inr (by revert hc; simp +contextual)

theorem IsDefinition.chars_displayName (h : r.IsDefinition) : ∀ c ∈ r.displayName.toList,
    isNameChar c = true ∨ c ∈ nameMarks := by
  have hown : ∀ {r : TypeRef} {name : String}, r.IsNamed name →
      (∀ c ∈ (displayOuter r.declaring).toList, isNameChar c = true ∨ c ∈ nameMarks) →
      ∀ c ∈ r.displayName.toList, isNameChar c = true ∨ c ∈ nameMarks := by
    intro r name h houter c hc
    rcases h.displayName_cases with hword | heq
    · exact .inl ((isName_of_mem_typeKeywords hword).chars c hc)
    · rw [heq, String.toList_append, String.toList_append, List.mem_append, List.mem_append] at hc
      rcases hc with (hc | hc) | hc
      · exact houter c hc
      · exact .inl (h.isName.chars c hc)
      · exact (chars_parameterList h.isName_parameter hc).imp_right (List.mem_cons_of_mem _)
  induction h with
  | outermost h hnone =>
    refine hown h fun c hc => ?_
    rw [hnone] at hc
    cases hc
  | nested h hsome _ _ ih =>
    refine hown h fun c hc => ?_
    rw [hsome, displayOuter, String.toList_append, List.mem_append] at hc
    rcases hc with hc | hc
    · exact ih c hc
    · exact .inr (by revert hc; simp +contextual [nameMarks])

/-! ## Reading names back -/

namespace IsDefinition

theorem not_mem_backslash (h : r.IsDefinition) : '\\' ∉ r.displayName.toList := by
  intro hmem
  rcases h.chars_displayName _ hmem with hc | hc <;> revert hc <;> decide

theorem chars_pageName (h : r.IsDefinition) : ∀ c ∈ r.pageName,
    isNameChar c = true ∨ c ∈ pathMarks := by
  have hmarks : ∀ d ∈ nameMarks, ∀ c ∈ pathChar d, c ∈ pathMarks := by
    simp [nameMarks, pathMarks, pathChar, bracketed]
  intro c hc
  obtain ⟨d, hd, hc⟩ := List.mem_flatMap.1 hc
  rcases h.chars_displayName d hd with hname | hmark
  · rw [pathChar_of_isNameChar hname] at hc
    exact .inl (List.mem_singleton.1 hc ▸ hname)
  · exact .inr (hmarks d hmark c hc)

theorem pageName_ne_nil (h : r.IsDefinition) : r.pageName ≠ [] := by
  obtain ⟨name, hname⟩ := h.isNamed
  rcases hname.pageName_cases with ⟨word, hword, heq⟩ | heq
  · rw [heq]
    exact (isName_of_mem_typeKeywords hword).ne_nil
  · simp [heq, ownChars, hname.isName.ne_nil]

theorem dot_notMem_pageName (h : r.IsDefinition) : '.' ∉ r.pageName := by
  intro hmem
  rcases h.chars_pageName _ hmem with hc | hc <;> revert hc <;> decide

theorem isClean_pageName (h : r.IsDefinition) : Text.IsClean r.pageName := by
  have hmarks : ∀ c ∈ pathMarks, c ∈ Text.punctuation := by
    simp [pathMarks, Text.punctuation]
  refine Text.isClean_of_chars h.pageName_ne_nil (fun hdot => ?_) fun c hc =>
    (h.chars_pageName c hc).imp_right (hmarks c)
  exact h.dot_notMem_pageName (by rw [hdot]; exact List.mem_singleton_self _)

/-- Only an identifier comes into a path as one. -/
theorem toList_displayName (h : r.IsDefinition) (hplain : ∀ c ∈ r.pageName, isNameChar c = true) :
    r.displayName.toList = r.pageName := by
  have hnone : ∀ d, isNameChar d = false → ∀ c ∈ r.displayName.toList, d ∈ pathChar c → False :=
    fun d hd c hc hmem =>
      Text.ne_of_isNameChar (hplain d (List.mem_flatMap.2 ⟨c, hc, hmem⟩)) hd rfl
  have hdot := fun hc => hnone '+' (by decide) '.' hc (by decide)
  have hangle := fun hc => hnone '[' (by decide) '<' hc (by decide)
  obtain ⟨name, hname⟩ := h.isNamed
  rcases hname.displayName_cases with hword | heq
  · exact (flatMap_pathChar (isName_of_mem_typeKeywords hword).chars).symm
  have houter : displayOuter r.declaring = "" := by
    cases hdeclaring : r.declaring with
    | none => rfl
    | some outer =>
      refine (hdot ?_).elim
      rw [heq, hdeclaring, displayOuter]
      simp
  have hlist : parameterList (r.arguments.map TypeRef.name) = "" := by
    unfold parameterList at heq ⊢
    split at heq
    next hempty => rw [if_pos hempty]
    next =>
      refine (hangle ?_).elim
      rw [heq]
      simp
  rw [houter, hlist, String.empty_append, String.append_empty] at heq
  rw [pageName, heq]
  exact (flatMap_pathChar hname.isName.chars).symm

end IsDefinition

theorem parameterChars_inj {names names' : List String} (h : ∀ s ∈ names, IsName s)
    (h' : ∀ s ∈ names', IsName s) (heq : parameterChars names = parameterChars names') :
    names = names' := by
  have hcomma : ∀ names : List String, (∀ s ∈ names, IsName s) →
      ∀ l ∈ names.map String.toList, ',' ∉ l := by
    intro names h l hl hmem
    obtain ⟨s, hs, rfl⟩ := List.mem_map.1 hl
    exact (h s hs).notMem (by decide) hmem
  unfold parameterChars at heq
  split at heq <;> split at heq
  next hempty hempty' => rw [List.isEmpty_iff.1 hempty, List.isEmpty_iff.1 hempty']
  next => cases heq
  next => cases heq
  next hne hne' =>
    simp only [List.isEmpty_iff] at hne hne'
    simp only [List.cons_append, List.cons.injEq, true_and, List.append_cancel_right_eq] at heq
    have hlists := Text.intercalate_inj (by simpa using hne) (by simpa using hne') (hcomma _ h)
      (hcomma _ h') heq
    exact List.map_injective_iff.2 (fun _ _ => String.toList_inj.1) hlists

/-- A name ends where its list of type parameters begins. -/
theorem append_parameterChars_inj {names names' : List String} (hname : IsName name)
    (hname' : IsName name') (h : ∀ s ∈ names, IsName s) (h' : ∀ s ∈ names', IsName s)
    (heq : name.toList ++ parameterChars names = name'.toList ++ parameterChars names') :
    name = name' ∧ names = names' := by
  have hhead : ∀ names, ∀ c ∈ (parameterChars names).head?, ¬ isNameChar c = true := by
    intro names c hc
    unfold parameterChars at hc
    split at hc
    · cases hc
    · obtain rfl : '[' = c := by simpa using hc
      decide
  obtain ⟨hlist, hrest⟩ := append_inj_of_head? hname.chars hname'.chars (hhead names)
    (hhead names') heq
  exact ⟨String.toList_inj.1 hlist, parameterChars_inj h h' hrest⟩

theorem IsNamed.name_eq_of_ownChars_eq (h : r.IsNamed name) (h' : r'.IsNamed name')
    (heq : r.ownChars name = r'.ownChars name') : r.name = r'.name := by
  obtain ⟨hname, hparameters⟩ := append_parameterChars_inj h.isName h'.isName h.isName_parameter
    h'.isName_parameter heq
  have hlength : r.arguments.length = r'.arguments.length := by
    simpa using congrArg List.length hparameters
  rw [h.name_eq, h'.name_eq, hname, hlength]

theorem IsNamed.plus_notMem_ownChars (h : r.IsNamed name) : '+' ∉ r.ownChars name := by
  have hplus : ∀ {s : String}, IsName s → '+' ∉ s.toList := fun hs => hs.notMem (by decide)
  rw [ownChars, List.mem_append]
  rintro (hmem | hmem)
  · exact hplus h.isName hmem
  · unfold parameterChars at hmem
    split at hmem
    · cases hmem
    · simp only [List.cons_append, List.mem_cons, List.mem_append, List.not_mem_nil] at hmem
      rcases hmem with hmem | hmem | hmem | hmem
      · revert hmem
        decide
      · rcases Text.mem_intercalate hmem with hmem | ⟨l, hl, hmem⟩
        · revert hmem
          decide
        · obtain ⟨s, hs, rfl⟩ := List.mem_map.1 hl
          exact hplus (h.isName_parameter s hs) hmem
      · revert hmem
        decide
      · cases hmem

namespace IsDefinition

/-- Only a type that has a keyword is called like it. -/
theorem mem_typeKeywords (h : r.IsDefinition) {e : String × String} (he : e ∈ typeKeywords)
    (heq : r.pageName = e.2.toList) : (r.fullName, e.2) ∈ typeKeywords := by
  obtain ⟨name, hname⟩ := h.isNamed
  rcases hname.pageName_cases with ⟨word, hword, hpage⟩ | hpage
  · rwa [← String.toList_inj.1 (hpage.symm.trans heq)]
  · have hplus : '+' ∉ r.pageName := by
      rw [heq]
      exact (isName_of_mem_typeKeywords he).notMem (by decide)
    have hnone : outerChars r.declaring = [] := by
      cases hdeclaring : r.declaring with
      | none => rfl
      | some outer =>
        rw [hpage, hdeclaring] at hplus
        simp [outerChars] at hplus
    rw [hnone, List.nil_append, heq] at hpage
    -- the name would be the keyword, without an arity marker
    have hword := isName_of_mem_typeKeywords he
    have hown : e.2.toList ++ parameterChars [] = r.ownChars name := by
      rw [← hpage]
      exact List.append_nil _
    obtain ⟨rfl, hparameters⟩ := append_parameterChars_inj hword hname.isName (by simp)
      hname.isName_parameter hown
    have harguments : r.arguments = [] := List.map_eq_nil_iff.1 hparameters.symm
    have hkeyword : r.name = e.2 := by
      rw [hname.name_eq, harguments]
      exact String.append_empty
    exact absurd (List.mem_map.2 ⟨e, he, hkeyword.symm⟩) hname.not_keyword

/-- Types that paths call the same have one keyword, or their names are written the same. -/
theorem fullName_eq_or (h : r.IsDefinition) (h' : r'.IsDefinition) (hname : r.IsNamed name)
    (hname' : r'.IsNamed name') (heq : r.pageName = r'.pageName) : r.fullName = r'.fullName ∨
      outerChars r.declaring ++ r.ownChars name = outerChars r'.declaring ++ r'.ownChars name' := by
  have hunique : ∀ e ∈ typeKeywords, ∀ e' ∈ typeKeywords, e.2 = e'.2 → e.1 = e'.1 := by decide
  rcases hname.pageName_cases with ⟨word, hword, hpage⟩ | hpage
  · exact .inl (hunique _ hword _ (h'.mem_typeKeywords hword (heq.symm.trans hpage)) rfl)
  rcases hname'.pageName_cases with ⟨word, hword, hpage'⟩ | hpage'
  · exact .inl (hunique _ (h.mem_typeKeywords hword (heq.trans hpage')) _ hword rfl)
  · exact .inr (by rw [← hpage, ← hpage', heq])

/-- A definition is known by its namespace and by what paths call it. -/
theorem fullName_eq (h : r.IsDefinition) (h' : r'.IsDefinition) (hspace : r.space = r'.space)
    (heq : r.pageName = r'.pageName) : r.fullName = r'.fullName := by
  induction h generalizing r' with
  | @outermost r name hname hnone =>
    obtain ⟨name', hname'⟩ := h'.isNamed
    rcases (outermost hname hnone).fullName_eq_or h' hname hname' heq with hfull | hchars
    · exact hfull
    cases h' with
    | outermost _ hnone' =>
      rw [hnone, hnone'] at hchars
      have hown := hname.name_eq_of_ownChars_eq hname' hchars
      rw [fullName_named hname.shape, fullName_named hname'.shape, hnone, hnone', hspace, hown]
    | nested _ hsome' =>
      -- a definition within another is written with a plus sign
      refine absurd ?_ hname.plus_notMem_ownChars
      rw [hnone, hsome'] at hchars
      change r.ownChars name = _ at hchars
      rw [hchars]
      simp [outerChars]
  | @nested r outer name hname hsome houter hdefinition ih =>
    obtain ⟨name', hname'⟩ := h'.isNamed
    have hself : r.IsDefinition := nested hname hsome houter hdefinition
    rcases hself.fullName_eq_or h' hname hname' heq with hfull | hchars
    · exact hfull
    cases h' with
    | outermost _ hnone' =>
      refine absurd ?_ hname'.plus_notMem_ownChars
      rw [hsome, hnone'] at hchars
      change _ = r'.ownChars name' at hchars
      rw [← hchars]
      simp [outerChars]
    | @nested _ outer' _ _ hsome' houter' hdefinition' =>
      rw [hsome, hsome', outerChars, outerChars, List.append_assoc, List.append_assoc] at hchars
      obtain ⟨hpage, hown⟩ := append_cons_inj hname.plus_notMem_ownChars
        hname'.plus_notMem_ownChars hchars
      have hfull := ih hdefinition' (by rw [houter, houter', hspace]) hpage
      rw [fullName_named hname.shape, fullName_named hname'.shape, hsome, hsome']
      simp only [hfull, hname.name_eq_of_ownChars_eq hname' hown]

end IsDefinition

end TypeRef

end ApiDoc
