import ApiDoc.Proofs.PageBlocks
import ApiDoc.Proofs.Words

/-!
# The room of summaries

A text that is cut to a budget is the whole of it if that fits, and else as much of its start as
leaves room for an ellipsis (`Text.Fits`, `Text.fits_summarize`). Documentation that is shown as text
is one line (`Text.OneLine`). So each row of a table that a page builds ends with one line that keeps
its budget, and the name of a method keeps its own (`Renderer.rowFits_of_tabulates`). The values of
an enumeration are left out: what is said of them is not cut, however long it is
(`Context.summary_over_budget`).
-/

namespace ApiDoc

open Document (Node Page)

namespace Text

/-! ## One line -/

/-- Characters of one line: there are no blanks but spaces, and so no line breaks. -/
def OneLine (cs : List Char) : Prop := ∀ c ∈ cs, isBlank c = true → c = ' '

theorem OneLine.subset {cs cs' : List Char} (h : OneLine cs) (hsub : cs' ⊆ cs) : OneLine cs' :=
  fun c hc => h c (hsub hc)

theorem oneLine_collapseFrom (within : Bool) (cs : List Char) : OneLine (collapseFrom within cs) := by
  induction cs generalizing within with
  | nil => exact fun c h => nomatch h
  | cons c cs ih =>
    rw [collapseFrom]
    split
    · split
      · exact ih true
      · exact List.forall_mem_cons.2 ⟨fun _ => rfl, ih true⟩
    next hc => exact List.forall_mem_cons.2 ⟨fun h => absurd h hc, ih false⟩

theorem oneLine_flat (s : String) : OneLine (flat s).toList := by
  rw [toList_flat]
  refine (oneLine_collapseFrom false s.toList).subset fun c hc => ?_
  have hc := (List.dropWhile_sublist _).subset hc
  rw [trimEndChars, List.mem_reverse] at hc
  exact List.mem_reverse.1 ((List.dropWhile_sublist _).subset hc)

theorem OneLine.onOneLine_eq {cs : List Char} (h : OneLine cs) : onOneLine cs = cs := by
  have hkept : ∀ c ∈ cs, (if c = '\r' ∨ c = '\n' then ' ' else c) = c := by
    intro c hc
    split
    next hbreak =>
      have hblank : isBlank c = true := by
        rcases hbreak with rfl | rfl <;> rfl
      exact (h c hc hblank).symm
    next => rfl
  rw [onOneLine, List.map_congr_left hkept, List.map_id']

theorem oneLine_ellipsis : OneLine ellipsis := by
  have hdot : isBlank '.' = false := rfl
  simp [OneLine, ellipsis, hdot]

/-! ## Fitting -/

/-- What is shown of a text within a budget: the whole of it if that fits, and else as much of its
start as leaves room for an ellipsis, and the ellipsis. -/
structure Fits (budget : Nat) (whole shown : String) : Prop where
  length_le : shown.length ≤ budget
  eq_of_le : whole.length ≤ budget → shown = whole
  cut_of_lt : budget < whole.length → ∃ kept rest : String, whole = kept ++ rest ∧
    shown = kept ++ String.ofList ellipsis ∧ kept.length + ellipsis.length = budget

/-- The text as `summarize` takes it, with its lines joined by spaces. -/
def joinLines (s : String) : String := String.ofList (onOneLine s.toList)

theorem length_ellipsis_le {budget : Nat} (hbudget : leastBudget ≤ budget) :
    ellipsis.length ≤ budget := Nat.le_trans (by decide) hbudget

theorem fits_summarize {budget : Nat} (hroom : ellipsis.length ≤ budget) (s : String) :
    Fits budget (joinLines s) (summarize budget s) := by
  generalize hcs : onOneLine s.toList = cs
  have hwhole : joinLines s = String.ofList cs := by rw [joinLines, hcs]
  have hlength : (joinLines s).length = cs.length := by rw [hwhole, String.length_ofList]
  have hshown : summarize budget s = String.ofList
      (if budget < cs.length then cs.take (budget - ellipsis.length) ++ ellipsis else cs) := by
    have hkept : ((budget : Int) - ellipsis.length).toNat = budget - ellipsis.length := by omega
    simp only [summarize, hcs, cut, hkept, gt_iff_lt, Int.ofNat_lt]
  by_cases hlong : budget < cs.length
  · rw [if_pos hlong] at hshown
    have hkept : (cs.take (budget - ellipsis.length)).length = budget - ellipsis.length :=
      List.length_take_of_le (by omega)
    refine ⟨?_, fun hle => absurd hle (by omega), fun _ => ?_⟩
    · rw [hshown, String.length_ofList, List.length_append, hkept]
      omega
    · refine ⟨String.ofList (cs.take (budget - ellipsis.length)),
        String.ofList (cs.drop (budget - ellipsis.length)), ?_, ?_, ?_⟩
      · rw [hwhole, ← String.ofList_append, List.take_append_drop]
      · rw [hshown, String.ofList_append]
      · rw [String.length_ofList, hkept]
        omega
  · rw [if_neg hlong] at hshown
    refine ⟨?_, fun _ => hshown.trans hwhole.symm, fun hlt => absurd hlt (by omega)⟩
    rw [hshown, String.length_ofList]
    omega

theorem Fits.oneLine {budget : Nat} {whole shown : String} (h : Fits budget whole shown)
    (hwhole : OneLine whole.toList) : OneLine shown.toList := by
  by_cases hlong : budget < whole.length
  · obtain ⟨kept, rest, rfl, rfl, -⟩ := h.cut_of_lt hlong
    rw [String.toList_append] at hwhole ⊢
    have hkept := hwhole.subset (List.subset_append_left _ _)
    rw [String.toList_ofList]
    exact List.forall_mem_append.2 ⟨hkept, oneLine_ellipsis⟩
  · rw [h.eq_of_le (by omega)]
    exact hwhole

end Text

namespace Renderer

open Answer Markup

variable {r : Renderer} {part : Option Xml.Node} {kind : TableKind} {s : String}

/-! ## Cells -/

theorem comes_renderText {budget : Option Int} (h : (r.renderText part budget).Comes s) :
    ∃ line, (r.renderText part none).Comes line ∧ Text.OneLine line.toList ∧
      s = budget.elim line (Text.summarize · line) := by
  obtain ⟨f, ⟨j, j', hf⟩, h⟩ := h.bind
  refine ⟨Document.plainText f, ⟨j, j', ?_⟩, Text.oneLine_flat _, h.eq.symm⟩
  exact result_bind_eq_ok.2 ⟨f, j', hf, rfl⟩

/-- Documentation that is cut to a budget is one line that fits it. -/
theorem fits_renderText {budget : Nat} (hroom : Text.ellipsis.length ≤ budget)
    (h : (r.renderText part (some budget)).Comes s) :
    ∃ line, (r.renderText part none).Comes line ∧ Text.OneLine s.toList ∧
      Text.Fits budget line s := by
  obtain ⟨line, hline, hone, rfl⟩ := comes_renderText h
  have hfits := Text.fits_summarize hroom line
  rw [Text.joinLines, hone.onOneLine_eq, String.ofList_toList] at hfits
  exact ⟨line, hline, hfits.oneLine hone, hfits⟩

/-- A cell shows the name that it is made for, whether it is a link or not. -/
theorem shown_of_nameCell {name : String} {s : Symbol} {n : Node} (h : (r.nameCell name s).Comes n) :
    n.shown = name := by
  obtain ⟨indexed, -, h⟩ := h.bind
  split at h
  · obtain ⟨path, -, h⟩ := h.bind
    obtain ⟨index, rfl⟩ := h.link
    rfl
  · rw [← h.eq]
    rfl

/-! ## Rows -/

/-- The part of an entry that the last cell of a row is taken from: the summary of the symbol that the
row is for, or what the entry of a member says of its parameter. -/
inductive Says (r : Renderer) : TableKind → List (List Node) → Option Xml.Node → Prop
  | type {t : TypeSymbol} {row : List (List Node)} {entry : Option Xml.Node} :
    (r.typeRow t).Comes row → (r.resolve (.type t)).Comes entry →
    Says r .types row (Entry.sectionOf? entry "summary")
  | value {m : MemberSymbol} {row : List (List Node)} {entry : Option Xml.Node} :
    (r.valueRow m).Comes row → (r.resolve (.member m)).Comes entry →
    Says r .values row (Entry.sectionOf? entry "summary")
  | parameter {m : MemberSymbol} {p : Parameter} {row : List (List Node)}
      {entry : Option Xml.Node} :
    (r.parameterRow entry p).Comes row → (r.resolve (.member m)).Comes entry →
    Says r .parameters row (Entry.parameter? entry p.name)
  | member {m : MemberSymbol} {kind : MemberKind} {row : List (List Node)}
      {entry : Option Xml.Node} : m.decl.kind? = some kind →
    (r.memberRow m).Comes row → (r.resolve (.member m)).Comes entry →
    Says r (.members kind) row (Entry.sectionOf? entry "summary")

/-- The last cell of a row is one line of documentation that fits the room for summaries. Of the
values of an enumeration it is the whole line. -/
def SummaryFits (r : Renderer) (kind : TableKind) (row : List (List Node)) : Prop :=
  ∃ part line shown, r.Says kind row part ∧ (r.renderText part none).Comes line ∧
    row.getLast? = some [.text shown] ∧ Text.OneLine shown.toList ∧
    (kind ≠ .values → Text.Fits r.settings.render.summaryBudget line shown) ∧
    (kind = .values → shown = line)

/-- The first cell of a row for a method shows its signature in the room for signatures. -/
def SignatureFits (r : Renderer) (row : List (List Node)) : Prop :=
  ∃ m cell, (r.memberRow m).Comes row ∧ row.head? = some [cell] ∧
    Text.Fits r.settings.render.signatureBudget (Text.joinLines m.compactSignature) cell.shown

/-- A row of a table that keeps its budgets. -/
structure RowFits (r : Renderer) (kind : TableKind) (row : List (List Node)) : Prop where
  width : row.length = kind.heads.length
  summary : r.SummaryFits kind row
  signature : kind = .members .method → r.SignatureFits row

theorem summaryFits_of_says (cells : List Node) (hkind : kind ≠ .values)
    (hpart : r.Says kind (row (cells ++ [.text s])) part)
    (htext : (r.renderText part (some r.settings.render.summaryBudget)).Comes s) :
    r.SummaryFits kind (row (cells ++ [.text s])) := by
  have hroom := Text.length_ellipsis_le r.settings.render.summary_room
  obtain ⟨line, hline, hone, hfits⟩ := fits_renderText hroom htext
  exact ⟨part, line, s, hpart, hline, by simp [row], hone, fun _ => hfits, fun h => absurd h hkind⟩

theorem rowFits_typeRow {t : TypeSymbol} {cells : List (List Node)} (h : (r.typeRow t).Comes cells) :
    r.RowFits .types cells := by
  obtain ⟨name, text, rfl, -, htext⟩ := comes_typeRow h
  obtain ⟨entry, hentry, htext⟩ := comes_summaryText htext
  exact ⟨rfl, summaryFits_of_says [name] nofun (.type h hentry) htext, nofun⟩

theorem rowFits_parameterRow {m : MemberSymbol} {entry : Option Xml.Node} {p : Parameter}
    {cells : List (List Node)} (hentry : (r.resolve (.member m)).Comes entry)
    (h : (r.parameterRow entry p).Comes cells) : r.RowFits .parameters cells := by
  obtain ⟨type, text, rfl, -, htext⟩ := comes_parameterRow h
  exact ⟨rfl, summaryFits_of_says [.text p.name, type] nofun (.parameter h hentry) htext, nofun⟩

theorem signatureFits_memberRow {m : MemberSymbol} {cells : List (List Node)}
    (hm : m.decl.kind? = some .method) (h : (r.memberRow m).Comes cells) : r.SignatureFits cells := by
  obtain ⟨name, type, text, rfl, hname, -, -⟩ := comes_memberRow h
  have hshown : r.shownName m =
      some (Text.summarize r.settings.render.signatureBudget m.compactSignature) := by
    obtain ⟨address, owner, decl⟩ := m
    cases decl <;> first | rfl | exact nomatch hm
  refine ⟨m, name, h, rfl, ?_⟩
  rw [shown_of_nameCell hname, hshown, Option.getD_some]
  exact Text.fits_summarize (Text.length_ellipsis_le r.settings.render.signature_room) _

theorem rowFits_memberRow {m : MemberSymbol} {kind : MemberKind} {cells : List (List Node)}
    (hm : m.decl.kind? = some kind) (h : (r.memberRow m).Comes cells) :
    r.RowFits (.members kind) cells := by
  have hsignature : TableKind.members kind = .members .method → r.SignatureFits cells := by
    intro hkind
    cases hkind
    exact signatureFits_memberRow hm h
  obtain ⟨name, type, text, rfl, -, -, htext⟩ := comes_memberRow h
  obtain ⟨entry, hentry, htext⟩ := comes_summaryText htext
  exact ⟨rfl, summaryFits_of_says [name, type] nofun (.member hm h hentry) htext, hsignature⟩

/-- What is said of a value of an enumeration is not cut. -/
theorem rowFits_valueRow {m : MemberSymbol} {cells : List (List Node)}
    (h : (r.valueRow m).Comes cells) : r.RowFits .values cells := by
  obtain ⟨entry, text, rfl, hentry, htext⟩ := comes_valueRow h
  obtain ⟨line, -, hone, hline⟩ := comes_renderText htext
  obtain rfl : text = line := hline
  exact ⟨rfl, ⟨_, _, _, .value h hentry, htext, rfl, hone, fun hkind => absurd rfl hkind,
    fun _ => rfl⟩, nofun⟩

/-- Each row of a table that a page builds keeps its budgets. -/
theorem rowFits_of_tabulates {rows : List (List (List Node))} (h : r.Tabulates kind rows) :
    ∀ cells ∈ rows, r.RowFits kind cells := by
  intro cells hcells
  cases h with
  | types h =>
    obtain ⟨t, -, hrow⟩ := exists_of_mem_right h hcells
    exact rowFits_typeRow hrow
  | values h =>
    obtain ⟨m, -, hrow⟩ := exists_of_mem_right h hcells
    exact rowFits_valueRow hrow
  | parameters hentry h =>
    obtain ⟨p, -, hrow⟩ := exists_of_mem_right h hcells
    exact rowFits_parameterRow hentry hrow
  | members ht h =>
    obtain ⟨m, hm, hrow⟩ := exists_of_mem_right h hcells
    have hmember := TypeSymbol.mem_membersOf_of_visible (List.mem_of_mem_filter hm)
    exact rowFits_memberRow (of_decide_eq_true (List.mem_filter.1 hmember).2) hrow

end Renderer

namespace Context

open Answer

variable {ctx : Context} {u : UnitSymbol} {pages : List (String × Page)}

/-- Every table on the pages of a unit stands in the documentation of a symbol that its page shows,
or is one that the page builds; and each row of such a table keeps its budgets, except that what is
said of the values of an enumeration is one line of any length. -/
theorem rowFits_of_unitPages (hctx : ctx.WellBuilt) (hu : u ∈ ctx.catalog.unitSymbols)
    (h : (ctx.unitPages u).Comes pages) : ∀ d ∈ pages, ∃ a current shows,
    (ctx.withFramework u.decl).Composes u a current shows ∧ a.Comes d.2 ∧
    let r : Renderer := { ctx.withFramework u.decl with current }
    (∀ kind rows, r.Tabulates kind rows → ∀ row ∈ rows, r.RowFits kind row) ∧
    ∀ heads rows, .table heads rows ∈ d.2.blocks →
      (∃ s tag f, shows s ∧ (r.sectionBlocks s tag).Comes f ∧ .table heads rows ∈ f) ∨
      ∃ kind : Renderer.TableKind, heads = kind.heads ∧ r.Tabulates kind rows := by
  intro d hd
  obtain ⟨a, current, shows, ha, hcomes⟩ := composes_of_unitPages h d hd
  refine ⟨a, current, shows, ha, hcomes, fun kind rows => Renderer.rowFits_of_tabulates, ?_⟩
  have hwellBuilt : (ctx.withFramework u.decl).WellBuilt := { hctx with }
  intro heads rows htable
  cases ha.written hwellBuilt hu hcomes _ htable with
  | documentation hs hf hn => exact .inl ⟨_, _, _, hs, hf, hn⟩
  | table hrows => exact .inr ⟨_, rfl, hrows⟩

/-- A documentation file with summaries of an enumeration and of its value. -/
def sizesDocumentation : Xml.Node :=
  .element (.plain "doc") [] [.element (.plain "members") [] [
    .element (.plain "member") [(.plain "name", "T:Zoo.Size")] [
      .element (.plain "summary") [] [.text "Sizes"]],
    .element (.plain "member") [(.plain "name", "F:Zoo.Size.L")] [
      .element (.plain "summary") [] [.text "Large"]]]]

def sizesValue : Field := { name := "L", type := .named "Zoo" "Size" [] none }

def sizesType : TypeSymbol :=
  { address := { root := .declared 0 0 }, unit := "Zoo"
    decl := { ref := .named "Zoo" "Size" [] none, category := .enumType
              members := [.field sizesValue] } }

/-- A unit whose only type is that enumeration. -/
def sizesUnit : UnitSymbol := ⟨0, { name := "Zoo", types := [sizesType.decl] }⟩

/-- Summaries have room for four characters. -/
def sizes : Context :=
  { catalog := { units := [sizesUnit.decl] }
    hierarchy := (Hierarchy.build { units := [sizesUnit.decl] }).toOption.getD {}
    outcomes := [("Zoo", (Source.element sizesDocumentation).read)]
    settings := {
      render := { summaryBudget := 4, signature_room := Settings.usual.render.signature_room } } }

/-- The tables on a page. -/
def tables (p : Page) : List Node := p.blocks.filter fun n => n matches .table ..

theorem sizes_unitPages : ((sizes.unitPages sizesUnit).result {}).1.map
    (fun pages => pages.map fun d => tables d.2) = .ok [
      [.table ["Name", "Summary"] [[[.link "Size" "Zoo/Zoo/Size" 1], [.text "S..."]]]],
      [.table ["Name", "Summary"] [[[.text "L"], [.text "Large"]]]]] := by
  cbv

theorem rowFits_of_unitPages_sizes : ∃ pages, (sizes.unitPages sizesUnit).Comes pages ∧
    ∀ d ∈ pages, ∃ current : Option TypeSymbol,
      let r : Renderer := { sizes.withFramework sizesUnit.decl with current }
      ∀ kind rows, r.Tabulates kind rows → ∀ row ∈ rows, r.RowFits kind row := by
  have hctx : sizes.WellBuilt := ⟨by cbv, by simp [sizes]⟩
  obtain ⟨pages, hpages, -⟩ := map_eq_ok.1 sizes_unitPages
  have hcomes : (sizes.unitPages sizesUnit).Comes pages := ⟨_, _, Prod.ext hpages rfl⟩
  refine ⟨pages, hcomes, fun d hd => ?_⟩
  obtain ⟨a, current, shows, -, -, hrows, -⟩ :=
    rowFits_of_unitPages hctx List.mem_cons_self hcomes d hd
  exact ⟨current, hrows⟩

/-- A summary of a value of an enumeration is longer than the room for summaries. -/
theorem summary_over_budget : sizes.settings.render.summaryBudget = 4 ∧
    ∃ pages, (sizes.unitPages sizesUnit).Comes pages ∧ ∃ d ∈ pages,
      .table Renderer.TableKind.values.heads [[[.text "L"], [.text "Large"]]] ∈ d.2.blocks ∧
      Renderer.Tabulates { sizes.withFramework sizesUnit.decl with current := some sizesType } .values
        [[[.text "L"], [.text "Large"]]] ∧ 4 < "Large".length := by
  obtain ⟨pages, hpages, htables⟩ := map_eq_ok.1 sizes_unitPages
  have hcomes : (sizes.unitPages sizesUnit).Comes pages := ⟨_, _, Prod.ext hpages rfl⟩
  have hmem : [Node.table ["Name", "Summary"] [[[.text "L"], [.text "Large"]]]] ∈
      pages.map fun d => tables d.2 := by
    rw [htables]
    exact List.mem_cons_of_mem _ List.mem_cons_self
  obtain ⟨d, hd, htable⟩ := List.mem_map.1 hmem
  have hblock : Node.table ["Name", "Summary"] [[[.text "L"], [.text "Large"]]] ∈ tables d.2 :=
    htable ▸ List.mem_cons_self
  let r : Renderer := { sizes.withFramework sizesUnit.decl with current := some sizesType }
  let m : MemberSymbol := ⟨sizesType.address.under (.member 0), sizesType, .field sizesValue⟩
  have hvisible : sizesType.visible r.settings.render .field = [m] := by cbv
  have hresult : ((r.valueRow m).result {}).1 = .ok [[.text "L"], [.text "Large"]] := by cbv
  have hrow : (r.valueRow m).Comes [[.text "L"], [.text "Large"]] := ⟨_, _, Prod.ext hresult rfl⟩
  refine ⟨rfl, pages, hcomes, d, hd, List.mem_of_mem_filter hblock, ?_, by decide⟩
  exact .values (t := sizesType) (hvisible ▸ .cons hrow .nil)

end Context

end ApiDoc
