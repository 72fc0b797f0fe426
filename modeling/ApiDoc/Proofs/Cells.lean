import Mathlib
import ApiDoc.Proofs.Tables

/-!
# Cells

What stands in a cell of a table is put on one line. No mark is lost, made or moved by that, and no
character of a text that is not a blank: the pieces of the fragment, marks and characters in document
order, stay the same (`piecesOf_inlineRun`, `content_inlineRun`). What is put on one line is inline,
and a line break leads, trails or repeats in it only where a line is left empty by the merging of
texts, which comes after the line breaks are cleaned up (`lineBreaks_inlineRun`).
-/

namespace ApiDoc.Document

open Text (withoutBlanks Alike)

variable {f g : Fragment} {n : Node} {start stop : Bool}

/-! ## Line breaks -/

/-- A fragment whose cells are inline is put on one line of inline nodes. A line break leads or trails
there exactly if the first or the last one of several lines is blank, and line breaks repeat exactly
if a line between two others has only empty texts. -/
theorem lineBreaks_inlineRun (h : InlineCells f) :
    (∀ n ∈ inlineRun f, n.isInline = true) ∧
    ((inlineRun f).head? = some .lineBreak ↔ ∃ first others,
      linesOf (inlinedAll f) = first :: others ∧ others ≠ [] ∧ AllTexts first ∧ plainText first = "") ∧
    ((inlineRun f).getLast? = some .lineBreak ↔ ∃ others last,
      linesOf (inlinedAll f) = others ++ [last] ∧ others ≠ [] ∧ AllTexts last ∧ plainText last = "") ∧
    ([.lineBreak, .lineBreak] <:+: inlineRun f ↔ ∃ before line after,
      linesOf (inlinedAll f) = before ++ line :: after ∧ before ≠ [] ∧ after ≠ [] ∧ AllTexts line ∧
        shownAll line = "") :=
  ⟨isLine_inlineRun h, head?_tidy _, getLast?_tidy _, repeats_tidy _⟩

/-- A table after a blank line, and an empty line and a blank one after that. -/
def gaps : Fragment :=
  [.text " ", .table ["Pet", "Food"] [[[.code "Dog"], [.text "bones"]]], .text "", .divider, .bold "Cat",
    .paragraph [.text " "], .text " "]

theorem lineBreaks_inlineRun_gaps :
    InlineCells gaps ∧ (∀ n ∈ inlineRun gaps, n.isInline = true) ∧
    (inlineRun gaps).head? = some .lineBreak ∧ (inlineRun gaps).getLast? = some .lineBreak ∧
    [.lineBreak, .lineBreak] <:+: inlineRun gaps := by
  have hcells : InlineCells gaps := by
    simp [InlineCells, gaps, nodesOf, Node.within, nodesOfRows, nodesOfParts, Node.HasInlineCells, IsLine]
  have hlines : linesOf (inlinedAll gaps) = [[.text " "], [.code "Dog", .text " ", .text "bones"],
      [.text ""], [.bold "Cat"], [.text " "]] := by cbv
  have htexts : ∀ s : String, AllTexts [.text s] := fun s => List.forall_mem_singleton.2 rfl
  have hblank : plainText [.text " "] = "" := by cbv
  obtain ⟨hinline, hleads, htrails, hrepeats⟩ := lineBreaks_inlineRun hcells
  refine ⟨hcells, hinline, hleads.2 ?_, htrails.2 ?_, hrepeats.2 ?_⟩
  · exact ⟨_, _, hlines, List.cons_ne_nil _ _, htexts " ", hblank⟩
  · exact ⟨[_, _, _, _], _, hlines, List.cons_ne_nil _ _, htexts " ", hblank⟩
  · exact ⟨[_, _], [.text ""], _, hlines, List.cons_ne_nil _ _, List.cons_ne_nil _ _, htexts "", rfl⟩

/-! ## Marks and characters -/

/-- Code, a link, bold text or a badge. -/
def Node.isMark : Node → Bool
  | .code _ | .link _ _ _ | .bold _ | .badge _ => true
  | _ => false

/-- The mark that a node makes on one line: itself, or code if it is a block of code. -/
def Node.mark? : Node → Option Node
  | .codeBlock s _ => some (.code (Text.flat s))
  | n => if n.isMark then some n else none

/-- What a reader finds in a fragment: a character, or a mark as a whole. -/
inductive Piece where
  | char (c : Char)
  | mark (n : Node)

def Piece.mark? : Piece → Option Node
  | .char _ => none
  | .mark n => some n

/-- The pieces of a node, those within it left out. -/
def Node.ownPieces (n : Node) : List Piece :=
  match n with
  | .text s => (withoutBlanks s).map .char
  | n => n.mark?.toList.map .mark

/-- The marks of a fragment and the characters of its texts that are not blanks, in document order. -/
def piecesOf (f : Fragment) : List Piece := (nodesOf f).flatMap Node.ownPieces

theorem nodesOf_append (f g : Fragment) : nodesOf (f ++ g) = nodesOf f ++ nodesOf g := by
  induction f with
  | nil => rfl
  | cons n f ih => rw [List.cons_append, nodesOf, nodesOf, ih, List.cons_append, List.append_assoc]

@[simp] theorem piecesOf_append (f g : Fragment) : piecesOf (f ++ g) = piecesOf f ++ piecesOf g := by
  rw [piecesOf, nodesOf_append, List.flatMap_append, piecesOf, piecesOf]

theorem piecesOf_cons (n : Node) (f : Fragment) : piecesOf (n :: f) = piecesOf [n] ++ piecesOf f :=
  piecesOf_append [n] f

theorem piecesOf_singleton (n : Node) :
    piecesOf [n] = n.ownPieces ++ n.within.flatMap Node.ownPieces := by
  rw [piecesOf, nodesOf, nodesOf, List.append_nil, List.flatMap_cons]

@[simp] theorem piecesOf_text (s : String) : piecesOf [.text s] = (withoutBlanks s).map .char :=
  (piecesOf_singleton _).trans (List.append_nil _)

@[simp] theorem piecesOf_lineBreak : piecesOf [.lineBreak] = [] := rfl

theorem piecesOf_heading (level : Nat) (f : Fragment) : piecesOf [.heading level f] = piecesOf f :=
  piecesOf_singleton _

theorem piecesOf_paragraph (f : Fragment) : piecesOf [.paragraph f] = piecesOf f := piecesOf_singleton _

theorem piecesOf_quote (f : Fragment) : piecesOf [.quote f] = piecesOf f := piecesOf_singleton _

theorem piecesOf_bullets (items : List Fragment) :
    piecesOf [.bullets items] = (nodesOfParts items).flatMap Node.ownPieces := piecesOf_singleton _

theorem piecesOf_table (heads : List String) (rows : List (List Fragment)) :
    piecesOf [.table heads rows] = (nodesOfRows rows).flatMap Node.ownPieces := piecesOf_singleton _

/-! ### Clean-up -/

/-- Nodes without pieces may be left out. -/
theorem piecesOf_withoutBreaks (f : Fragment) : piecesOf (withoutBreaks f) = piecesOf f := by
  induction f with
  | nil => rfl
  | cons n f ih =>
    rw [withoutBreaks, List.filter_cons, ← withoutBreaks]
    cases hn : n.isLineBreak with
    | true => rw [eq_lineBreak hn, piecesOf_cons, piecesOf_lineBreak, List.nil_append, ← ih]; rfl
    | false =>
      simp only [Bool.not_false, if_true]
      rw [piecesOf_cons n, ih, ← piecesOf_cons]

theorem AllTexts.piecesOf_eq (h : AllTexts f) :
    piecesOf f = (withoutBlanks (shownAll f)).map .char := by
  induction f with
  | nil => rfl
  | cons n f ih =>
    obtain ⟨hn, hf⟩ := List.forall_mem_cons.1 h
    obtain ⟨s, rfl⟩ := exists_text hn
    rw [piecesOf_cons, piecesOf_text, ih hf, shownAll, Text.withoutBlanks_append, List.map_append]
    rfl

theorem piecesOf_mergeWithin (start stop : Bool) (f : Fragment) :
    piecesOf (mergeWithin start stop f) = piecesOf f := by
  -- a run of texts loses blanks only, and what is no text parts the runs
  have htexts : ∀ f, AllTexts f → ∀ start stop, piecesOf (mergeWithin start stop f) = piecesOf f := by
    intro f hf start stop
    obtain ⟨s, hs, heq⟩ := mergeWithin_texts hf start stop
    rw [hf.mergeWithin.piecesOf_eq, hf.piecesOf_eq, heq, shownAll_textOf, withoutBlanks_trimEdges,
      hs.withoutBlanks_eq]
  induction f using textInduction generalizing start with
  | texts f hf => exact htexts f hf start stop
  | node f n rest hf hn ih =>
    rw [mergeWithin_append_cons hn, piecesOf_append, piecesOf_append, piecesOf_cons n, ih,
      ← piecesOf_cons n, htexts f hf]

theorem piecesOf_tidy (f : Fragment) : piecesOf (tidy f) = piecesOf f := by
  rw [tidy_eq, piecesOf_mergeWithin, ← piecesOf_withoutBreaks, withoutBreaks_joinLines_linesOf,
    piecesOf_withoutBreaks]

/-! ### One line -/

/-- The rows of a table in lines of their own, with blanks between the cells. -/
theorem piecesOf_rowLines (rows : List (List Fragment)) :
    piecesOf (rows.flatMap fun row => .lineBreak :: List.intercalate [.text " "] row) =
      (nodesOfRows rows).flatMap Node.ownPieces := by
  have hrow : ∀ row : List Fragment, piecesOf (List.intercalate [.text " "] row) =
      (nodesOfParts row).flatMap Node.ownPieces := by
    intro row
    induction row with
    | nil => rfl
    | cons cell row ih =>
      cases row with
      | nil => simp [nodesOfParts, piecesOf]
      | cons cell' row =>
        rw [List.intercalate_cons_cons, piecesOf_append, piecesOf_append, ih, piecesOf_text,
          Text.withoutBlanks_space, nodesOfParts.eq_2 cell, List.flatMap_append, ← piecesOf]
        simp
  induction rows with
  | nil => rfl
  | cons row rows ih =>
    rw [List.flatMap_cons, piecesOf_append, piecesOf_cons, ih, hrow, nodesOfRows, List.flatMap_append]
    rfl

theorem piecesOf_between (f : Fragment) :
    piecesOf (.lineBreak :: tidy f ++ [.lineBreak]) = piecesOf f := by
  rw [piecesOf_append, piecesOf_cons, piecesOf_tidy]
  simp

mutual

theorem piecesOf_inlined : ∀ n : Node, piecesOf n.inlined = piecesOf [n]
  | .text _ | .code _ | .link _ _ _ | .bold _ | .badge _ | .lineBreak | .codeBlock _ _ | .divider => rfl
  | .heading _ content => by
    rw [Node.inlined, piecesOf_between, piecesOf_inlinedAll content, piecesOf_heading]
  | .paragraph content => by
    rw [Node.inlined, piecesOf_between, piecesOf_inlinedAll content, piecesOf_paragraph]
  | .quote content => by
    rw [Node.inlined, piecesOf_between, piecesOf_inlinedAll content, piecesOf_quote]
  | .bullets items => by
    rw [Node.inlined, piecesOf_append, piecesOf_inlinedItems items, piecesOf_lineBreak, List.append_nil,
      piecesOf_bullets]
  | .table _ rows => by
    rw [Node.inlined, piecesOf_append, piecesOf_rowLines, piecesOf_lineBreak, List.append_nil,
      piecesOf_table]

theorem piecesOf_inlinedAll : ∀ f : Fragment, piecesOf (inlinedAll f) = piecesOf f
  | [] => rfl
  | n :: rest => by
    rw [inlinedAll, piecesOf_append, piecesOf_inlined n, piecesOf_inlinedAll rest, ← piecesOf_cons]

theorem piecesOf_inlinedItems : ∀ items : List Fragment,
    piecesOf (inlinedItems items) = (nodesOfParts items).flatMap Node.ownPieces
  | [] => rfl
  | item :: rest => by
    rw [inlinedItems, piecesOf_append, piecesOf_cons, piecesOf_tidy, piecesOf_inlinedAll item,
      piecesOf_inlinedItems rest, nodesOfParts, List.flatMap_append]
    rfl

end

theorem piecesOf_inlineRun (f : Fragment) : piecesOf (inlineRun f) = piecesOf f := by
  rw [inlineRun, piecesOf_tidy, piecesOf_inlinedAll]

/-! ### What is read from pieces -/

/-- The characters of a piece that are not blanks. -/
def Piece.shown : Piece → List Char
  | .char c => [c]
  | .mark n => withoutBlanks n.shown

mutual

theorem shown_pieces : ∀ n : Node, (piecesOf [n]).flatMap Piece.shown = withoutBlanks n.shown
  | .text s => by
    rw [piecesOf_text, Node.shown]
    induction withoutBlanks s with
    | nil => rfl
    | cons c cs ih => exact congrArg (c :: ·) ih
  | .code _ | .link _ _ _ | .bold _ | .badge _ => List.append_nil _
  | .lineBreak => Text.withoutBlanks_space.symm
  | .codeBlock s language => by
    have hcode : (piecesOf [.codeBlock s language]).flatMap Piece.shown = withoutBlanks (Text.flat s) :=
      List.append_nil _
    rw [hcode, Node.shown]
    simp
  | .divider => rfl
  | .heading _ content => by simp [piecesOf_heading, Node.shown, shownAll_pieces content]
  | .paragraph content => by simp [piecesOf_paragraph, Node.shown, shownAll_pieces content]
  | .quote content => by simp [piecesOf_quote, Node.shown, shownAll_pieces content]
  | .bullets items => by rw [piecesOf_bullets, Node.shown, shownEach_pieces items]
  | .table _ rows => by rw [piecesOf_table, Node.shown, shownRows_pieces rows]

theorem shownAll_pieces : ∀ f : Fragment,
    (piecesOf f).flatMap Piece.shown = withoutBlanks (shownAll f)
  | [] => rfl
  | n :: rest => by
    rw [piecesOf_cons, List.flatMap_append, shown_pieces n, shownAll_pieces rest, shownAll,
      Text.withoutBlanks_append]

theorem shownEach_pieces : ∀ parts : List Fragment,
    ((nodesOfParts parts).flatMap Node.ownPieces).flatMap Piece.shown = withoutBlanks (shownEach parts)
  | [] => rfl
  | part :: rest => by
    rw [nodesOfParts, List.flatMap_append, List.flatMap_append, shownEach_pieces rest, ← piecesOf,
      shownAll_pieces part, shownEach]
    simp

theorem shownRows_pieces : ∀ rows : List (List Fragment),
    ((nodesOfRows rows).flatMap Node.ownPieces).flatMap Piece.shown = withoutBlanks (shownRows rows)
  | [] => rfl
  | row :: rest => by
    rw [nodesOfRows, List.flatMap_append, List.flatMap_append, shownEach_pieces row,
      shownRows_pieces rest, shownRows, Text.withoutBlanks_append]

end

theorem filterMap_pieces (f : Fragment) :
    (piecesOf f).filterMap Piece.mark? = (nodesOf f).filterMap Node.mark? := by
  have htext : ∀ cs : List Char, (cs.map Piece.char).filterMap Piece.mark? = [] := by
    intro cs
    induction cs with
    | nil => rfl
    | cons c cs ih => exact ih
  have hown : ∀ n : Node, n.ownPieces.filterMap Piece.mark? = n.mark?.toList := by
    intro n
    cases n <;> first | rfl | exact htext _
  rw [piecesOf]
  induction nodesOf f with
  | nil => rfl
  | cons n l ih =>
    rw [List.flatMap_cons, List.filterMap_append, hown, ih, List.filterMap_cons]
    cases n.mark? <;> rfl

/-- Inline nodes make no mark but themselves. -/
theorem IsLine.filterMap_mark? (h : IsLine f) :
    (nodesOf f).filterMap Node.mark? = f.filter Node.isMark := by
  induction f with
  | nil => rfl
  | cons n f ih =>
    obtain ⟨hn, hf⟩ := isLine_cons.1 h
    rw [nodesOf, within_of_isInline hn, List.nil_append, List.filterMap_cons, List.filter_cons, ih hf]
    cases n <;> first | rfl | cases hn

/-- Clean-up drops no letters, and none are lost on one line. -/
@[simp] theorem withoutBlanks_mergeWithin (start stop : Bool) (f : Fragment) :
    withoutBlanks (shownAll (mergeWithin start stop f)) = withoutBlanks (shownAll f) := by
  rw [← shownAll_pieces, piecesOf_mergeWithin, shownAll_pieces]

@[simp] theorem withoutBlanks_normalize (f : Fragment) :
    withoutBlanks (shownAll (normalize f)) = withoutBlanks (shownAll f) :=
  withoutBlanks_mergeWithin true true f

@[simp] theorem withoutBlanks_inlineRun (f : Fragment) :
    withoutBlanks (shownAll (inlineRun f)) = withoutBlanks (shownAll f) := by
  rw [← shownAll_pieces, piecesOf_inlineRun, shownAll_pieces]

/-- Putting a fragment on one line loses nothing: its code, links, bold texts and badges are kept in
document order, with code for each block of code in its place, and so is every character of it that is
not a blank. -/
theorem content_inlineRun (h : InlineCells f) :
    (inlineRun f).filter Node.isMark = (nodesOf f).filterMap Node.mark? ∧
    withoutBlanks (shownAll (inlineRun f)) = withoutBlanks (shownAll f) ∧
    piecesOf (inlineRun f) = piecesOf f := by
  have hpieces := piecesOf_inlineRun f
  refine ⟨?_, withoutBlanks_inlineRun f, hpieces⟩
  rw [← (isLine_inlineRun h).filterMap_mark?, ← filterMap_pieces, hpieces, filterMap_pieces]

/-- Code in a list, and a link and bold text in a table. -/
def crate : Fragment :=
  [.text "Use", .bullets [[.codeBlock "feed( );\n  sit( );" "cs"], [.paragraph [.badge "Old", .text " it"]]],
    .table ["Pet", "Food"] [[[.link "Dog" "Zoo/Dog" 0], [.text " bones "]], [[.bold "Cat"], []]]]

theorem content_inlineRun_crate :
    InlineCells crate ∧ (inlineRun crate).filter Node.isMark =
      [.code "feed( ); sit( );", .badge "Old", .link "Dog" "Zoo/Dog" 0, .bold "Cat"] ∧
    String.ofList (withoutBlanks (shownAll (inlineRun crate))) = "Usefeed();sit();OlditDogbonesCat" ∧
    piecesOf (inlineRun crate) = piecesOf crate := by
  have hcells : InlineCells crate := by
    simp [InlineCells, crate, nodesOf, Node.within, nodesOfRows, nodesOfParts, Node.HasInlineCells, IsLine,
      Node.isInline]
  obtain ⟨hmarks, htext, hpieces⟩ := content_inlineRun hcells
  refine ⟨hcells, hmarks.trans (by cbv), ?_, hpieces⟩
  rw [htext]
  cbv

end ApiDoc.Document
