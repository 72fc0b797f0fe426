import ApiDoc.Proofs.Words
import ApiDoc.Xml.Name
import ApiDoc.Xml.Writer
import Mathlib.Data.List.Basic

/-!
# The text of written elements

Of an element that is written out, tags and escaped characters can be told apart again: without the
tags, and with the escapes undone (`Xml.bareText`), the text of the element is left. Collapsing blanks
in the written element does not get in the way, since neither tags nor escapes come or go by it. So
what is left of a collapsed element is its text up to blanks (`Xml.alike_bareText`).
-/

namespace ApiDoc

namespace Xml

open Text (Alike collapse collapseFrom isBlank)

/-! ## Reading written elements -/

/-- The characters outside of tags. `inTag` holds within a tag, up to its closing bracket. -/
def outsideTags (inTag : Bool) : List Char → List Char
  | [] => []
  | c :: cs =>
    if inTag then outsideTags (c ≠ '>') cs
    else if c = '<' then outsideTags true cs
    else c :: outsideTags false cs

/-- The characters with the escapes of texts undone. -/
def unescape : List Char → List Char
  | [] => []
  | '&' :: 'a' :: 'm' :: 'p' :: ';' :: cs => '&' :: unescape cs
  | '&' :: 'l' :: 't' :: ';' :: cs => '<' :: unescape cs
  | '&' :: 'g' :: 't' :: ';' :: cs => '>' :: unescape cs
  | c :: cs => c :: unescape cs

/-- What is left of markup without its tags and with its escapes undone. -/
def bareText (markup : String) : String := String.ofList (unescape (outsideTags false markup.toList))

/-- A name outside all namespaces, made up of the characters of names. -/
structure Name.IsPlain (n : Name) : Prop where
  space : n.space = ""
  label : n.label.toList.all isNameChar = true

/-- The names in the tag of an element are outside all namespaces. -/
def Node.HasPlainTag : Node → Prop
  | .text _ => True
  | .element name attributes _ => name.IsPlain ∧ ∀ a ∈ attributes, a.1.IsPlain

/-- Nodes without namespaces. -/
def HasPlainNames (f : List Node) : Prop := ∀ e ∈ Node.elementsOf f, e.HasPlainTag

/-! ## Tags -/

/-- A tag ends at its first closing bracket. -/
theorem outsideTags_tag {cs : List Char} (h : '>' ∉ cs) (rest : List Char) :
    outsideTags false ('<' :: (cs ++ '>' :: rest)) = outsideTags false rest := by
  have hinner : outsideTags true (cs ++ '>' :: rest) = outsideTags false rest := by
    induction cs with
    | nil => rfl
    | cons c cs ih =>
      obtain ⟨hc, hcs⟩ := not_or.1 (mt List.mem_cons.2 h)
      rw [List.cons_append, outsideTags, if_pos rfl, decide_eq_true (Ne.symm hc), ih hcs]
  rw [outsideTags, if_neg Bool.false_ne_true, if_pos rfl, hinner]

theorem outsideTags_text {cs : List Char} (h : '<' ∉ cs) (rest : List Char) :
    outsideTags false (cs ++ rest) = cs ++ outsideTags false rest := by
  induction cs with
  | nil => rfl
  | cons c cs ih =>
    obtain ⟨hc, hcs⟩ := not_or.1 (mt List.mem_cons.2 h)
    rw [List.cons_append, outsideTags, if_neg Bool.false_ne_true, if_neg (Ne.symm hc), ih hcs,
      List.cons_append]

/-- No escaped character is left as it was. -/
theorem not_mem_escapeTextChar (c : Char) : '<' ∉ escapeTextChar c ∧ '>' ∉ escapeTextChar c := by
  unfold escapeTextChar
  split
  · decide
  · decide
  · decide
  next hless hgreater => simp [Ne.symm hless, Ne.symm hgreater]

theorem not_mem_escapeAttribute (s : String) : '>' ∉ (escapeAttribute s).toList := by
  rw [escapeAttribute, String.toList_ofList]
  refine fun h => ?_
  obtain ⟨c, -, hc⟩ := List.mem_flatMap.1 h
  revert hc
  unfold escapeAttributeChar
  split
  · decide
  · decide
  · decide
  · decide
  · exact (not_mem_escapeTextChar _).2

namespace Name.IsPlain

variable {n : Name}

theorem write_eq (h : n.IsPlain) (prefixes : Prefixes) : prefixes.write n = n.label := by
  rw [Prefixes.write, h.space]
  rfl

theorem meet_eq (h : n.IsPlain) (prefixes : Prefixes) : prefixes.meet n = prefixes := by
  rw [Prefixes.meet, h.space]
  rfl

/-- A name does not end the tag that it stands in. -/
theorem not_mem_label (h : n.IsPlain) : '>' ∉ n.label.toList := by
  intro hmem
  have hchar := List.all_eq_true.1 h.label _ hmem
  revert hchar
  decide

end Name.IsPlain

namespace HasPlainNames

variable {n : Node} {f : List Node}

theorem head (h : HasPlainNames (n :: f)) : HasPlainNames [n] := by
  rw [HasPlainNames, Node.elementsOf] at h
  rw [HasPlainNames, Node.elementsOf, Node.elementsOf, List.append_nil]
  exact (List.forall_mem_append.1 h).1

theorem tail (h : HasPlainNames (n :: f)) : HasPlainNames f := by
  rw [HasPlainNames, Node.elementsOf] at h
  exact (List.forall_mem_append.1 h).2

theorem element {name : Name} {attributes : Attributes} {content : List Node}
    (h : HasPlainNames (.element name attributes content :: f)) :
    (Node.element name attributes content).HasPlainTag ∧ HasPlainNames content := by
  have hhead := h.head
  rw [HasPlainNames, Node.elementsOf, Node.elementsOf, List.append_nil, Node.elements] at hhead
  exact List.forall_mem_cons.1 hhead

/-- Elements without namespaces need no declarations. -/
theorem prefixesOf_eq (h : HasPlainNames [n]) : prefixesOf n = [] := by
  have hattributes : ∀ attributes : Attributes, (∀ a ∈ attributes, a.1.IsPlain) →
      attributes.foldl (fun p a => Prefixes.meet p a.1) [] = [] := by
    intro attributes hall
    induction attributes with
    | nil => rfl
    | cons a attributes ih =>
      obtain ⟨ha, hall⟩ := List.forall_mem_cons.1 hall
      rw [List.foldl_cons, ha.meet_eq, ih hall]
  rw [HasPlainNames, Node.elementsOf, Node.elementsOf, List.append_nil] at h
  rw [prefixesOf]
  generalize n.elements = elements at h
  induction elements with
  | nil => rfl
  | cons e elements ih =>
    obtain ⟨he, helements⟩ := List.forall_mem_cons.1 h
    rw [List.foldl_cons]
    cases e with
    | text s => exact ih helements
    | element name attributes content =>
      obtain ⟨hname, hall⟩ := he
      simp only [hname.meet_eq, hattributes attributes hall]
      exact ih helements

end HasPlainNames

/-! ## Without tags -/

/-- The attributes of a tag do not end it. -/
theorem not_mem_attributes {attributes : Attributes} (h : ∀ a ∈ attributes, a.1.IsPlain)
    (prefixes : Prefixes) :
    '>' ∉ (String.join (attributes.map fun (n, v) => writeAttribute (prefixes.write n) v)).toList := by
  rw [String.toList_join]
  refine fun hmem => ?_
  obtain ⟨s, hs, hmem⟩ := List.mem_flatMap.1 hmem
  obtain ⟨a, ha, rfl⟩ := List.mem_map.1 hs
  have hname := (h a ha).not_mem_label
  have hvalue := not_mem_escapeAttribute a.2
  simp only [(h a ha).write_eq, writeAttribute] at hmem
  simp only [String.toList_append, List.mem_append, hname, hvalue, or_false] at hmem
  revert hmem
  decide

mutual

/-- Without its tags, a written element is its text, escaped. -/
theorem outsideTags_writeNode (prefixes : Prefixes) : ∀ n : Node, HasPlainNames [n] → ∀ rest,
    outsideTags false ((writeNode prefixes "" n).toList ++ rest) =
      n.innerText.toList.flatMap escapeTextChar ++ outsideTags false rest
  | .text s, _, rest => by
    rw [writeNode, escapeText, String.toList_ofList, Node.innerText]
    refine outsideTags_text (fun hmem => ?_) rest
    obtain ⟨c, -, hc⟩ := List.mem_flatMap.1 hmem
    exact (not_mem_escapeTextChar c).1 hc
  | .element name attributes content, h, rest => by
    obtain ⟨⟨hname, hattributes⟩, hcontent⟩ := h.element
    have hend := hname.not_mem_label
    have hopen : '>' ∉ name.label.toList ++
        (String.join (attributes.map fun (n, v) => writeAttribute (prefixes.write n) v)).toList :=
      fun hmem => (List.mem_append.1 hmem).elim hend (not_mem_attributes hattributes prefixes)
    have hslash : ∀ {cs : List Char}, '>' ∉ cs → '>' ∉ cs ++ [' ', '/'] :=
      fun hcs hmem => (List.mem_append.1 hmem).elim hcs (by decide)
    rw [writeNode, Node.innerText, hname.write_eq, String.append_empty]
    split
    next hempty =>
      rw [List.isEmpty_iff.1 hempty, Node.innerTexts]
      simpa using outsideTags_tag (hslash hopen) rest
    next =>
      have hcontent := outsideTags_writeNodes prefixes content hcontent
        ('<' :: ('/' :: name.label.toList ++ '>' :: rest))
      rw [outsideTags_tag (by simpa using hend)] at hcontent
      rw [← hcontent]
      simpa using outsideTags_tag hopen _

theorem outsideTags_writeNodes (prefixes : Prefixes) : ∀ f : List Node, HasPlainNames f → ∀ rest,
    outsideTags false ((writeNodes prefixes f).toList ++ rest) =
      (Node.innerTexts f).toList.flatMap escapeTextChar ++ outsideTags false rest
  | [], _, rest => by
    rw [writeNodes, Node.innerTexts]
    rfl
  | n :: f, h, rest => by
    rw [writeNodes, Node.innerTexts, String.toList_append, List.append_assoc,
      outsideTags_writeNode prefixes n h.head, outsideTags_writeNodes prefixes f h.tail,
      String.toList_append, List.flatMap_append, List.append_assoc]

end

/-! ## Blanks -/

/-- Tags stand out just as well once blanks are collapsed. -/
theorem collapseFrom_outsideTags (cs : List Char) (inTag : Bool) {within within' : Bool}
    (h : within = true → inTag = false → within' = true) :
    collapseFrom within' (outsideTags inTag (collapseFrom within cs)) =
      collapseFrom within' (outsideTags inTag cs) := by
  induction cs generalizing inTag within within' with
  | nil => rfl
  | cons c cs ih =>
    cases hc : isBlank c with
    | true =>
      have hless : c ≠ '<' := by
        rintro rfl
        exact absurd hc (by decide)
      have hgreater : c ≠ '>' := by
        rintro rfl
        exact absurd hc (by decide)
      rw [Text.collapseFrom_blank within cs hc]
      cases inTag with
      | true =>
        have hrest : outsideTags true (c :: cs) = outsideTags true cs := by
          rw [outsideTags, if_pos rfl, decide_eq_true hgreater]
        rw [hrest]
        cases within with
        | true => exact ih true (by simp)
        | false => exact ih true (by simp)
      | false =>
        have hrest : outsideTags false (c :: cs) = c :: outsideTags false cs := by
          rw [outsideTags, if_neg Bool.false_ne_true, if_neg hless]
        have hagain : collapseFrom true (outsideTags false (collapseFrom true cs)) =
            collapseFrom true (outsideTags false cs) := ih false fun _ _ => rfl
        rw [hrest, Text.collapseFrom_blank within' _ hc]
        cases within with
        | true =>
          rw [h rfl rfl, if_pos rfl]
          exact hagain
        | false =>
          rw [if_neg Bool.false_ne_true, ← hagain]
          exact Text.collapseFrom_blank within' _ Text.isBlank_space
    | false =>
      rw [Text.collapseFrom_other within cs hc]
      cases inTag with
      | true =>
        rw [outsideTags, outsideTags, if_pos rfl, if_pos rfl]
        exact ih _ (by simp)
      | false =>
        rw [outsideTags, outsideTags, if_neg Bool.false_ne_true, if_neg Bool.false_ne_true]
        split
        · exact ih true (by simp)
        · rw [Text.collapseFrom_other within' _ hc, Text.collapseFrom_other within' _ hc,
            ih false (by simp)]

/-- What a collapsed text begins with, if it holds no blank, was there before. -/
theorem exists_of_collapseFrom {word : List Char} (hword : word.any isBlank = false)
    {cs rest : List Char} (h : collapseFrom false cs = word ++ rest) : ∃ rest', cs = word ++ rest' := by
  induction word generalizing cs with
  | nil => exact ⟨cs, rfl⟩
  | cons d word ih =>
    rw [List.any_cons, Bool.or_eq_false_iff] at hword
    obtain ⟨hd, hrest⟩ := hword
    cases cs with
    | nil => cases h
    | cons c cs =>
      cases hc : isBlank c with
      | true =>
        rw [Text.collapseFrom_blank false cs hc] at h
        obtain ⟨rfl, -⟩ := List.cons.inj h
        rw [Text.isBlank_space] at hd
        cases hd
      | false =>
        rw [Text.collapseFrom_other false cs hc] at h
        obtain ⟨rfl, htail⟩ := List.cons.inj h
        obtain ⟨rest', rfl⟩ := ih hrest htail
        exact ⟨rest', rfl⟩

/-- Escapes hold no blanks, so they are the same once blanks are collapsed. -/
theorem unescape_collapseFrom (within : Bool) (cs : List Char) :
    unescape (collapseFrom within cs) = collapseFrom within (unescape cs) := by
  induction cs using unescape.induct generalizing within with
  | case1 => rfl
  | case2 cs ih => exact congrArg ('&' :: ·) (ih false)
  | case3 cs ih => exact congrArg ('<' :: ·) (ih false)
  | case4 cs ih => exact congrArg ('>' :: ·) (ih false)
  | case5 c cs hamp hless hgreater ih =>
    have hself : unescape (c :: cs) = c :: unescape cs := by
      rw [unescape] <;> assumption
    rw [hself]
    cases hc : isBlank c with
    | true =>
      rw [Text.collapseFrom_blank within cs hc, Text.collapseFrom_blank within _ hc, ← ih]
      cases within with
      | true => rfl
      | false => rfl
    | false =>
      rw [Text.collapseFrom_other within cs hc, Text.collapseFrom_other within _ hc, ← ih]
      have hescape : ∀ word : List Char, word.any isBlank = false →
          (∀ rest, c = '&' → cs = word ++ rest → False) →
          ∀ rest, c = '&' → collapseFrom false cs = word ++ rest → False := by
        intro word hword hnot rest hand hrest
        obtain ⟨rest', hrest'⟩ := exists_of_collapseFrom hword hrest
        exact hnot rest' hand hrest'
      rw [unescape]
      · exact hescape ['a', 'm', 'p', ';'] rfl hamp
      · exact hescape ['l', 't', ';'] rfl hless
      · exact hescape ['g', 't', ';'] rfl hgreater

/-! ## What is left -/

theorem unescape_escaped (cs : List Char) : unescape (cs.flatMap escapeTextChar) = cs := by
  induction cs with
  | nil => rfl
  | cons c cs ih =>
    rw [List.flatMap_cons]
    by_cases hand : c = '&'
    · subst hand
      exact congrArg ('&' :: ·) ih
    by_cases hless : c = '<'
    · subst hless
      exact congrArg ('<' :: ·) ih
    by_cases hgreater : c = '>'
    · subst hgreater
      exact congrArg ('>' :: ·) ih
    have hplain : escapeTextChar c = [c] := by
      rw [escapeTextChar] <;> assumption
    rw [hplain, List.singleton_append, unescape, ih]
    · exact fun _ h => absurd h hand
    · exact fun _ h => absurd h hand
    · exact fun _ h => absurd h hand

/-- Of a written element its text is left, however blanks are collapsed. -/
theorem alike_bareText {e : Node} (h : HasPlainNames [e]) :
    Alike (bareText (collapse (write e))) e.innerText := by
  have hwritten : outsideTags false (write e).toList = e.innerText.toList.flatMap escapeTextChar := by
    have hwrite := outsideTags_writeNode [] e h []
    rw [List.append_nil] at hwrite
    simpa [write, h.prefixesOf_eq, outsideTags] using hwrite
  simp only [Alike, bareText, collapse, String.toList_ofList]
  congr 1
  calc collapseFrom false (unescape (outsideTags false (collapseFrom false (write e).toList)))
      = unescape (collapseFrom false (outsideTags false (collapseFrom false (write e).toList))) :=
        (unescape_collapseFrom _ _).symm
    _ = unescape (collapseFrom false (outsideTags false (write e).toList)) := by
        rw [collapseFrom_outsideTags _ _ (by simp)]
    _ = collapseFrom false e.innerText.toList := by
        rw [unescape_collapseFrom, hwritten, unescape_escaped]

end Xml
end ApiDoc
