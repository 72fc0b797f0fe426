import Mathlib.Logic.Relation
import ApiDoc.Proofs.Candidates
import ApiDoc.Proofs.Entries

/-!
# Depth-first order of candidates

A deferring symbol leads to its candidates, and a candidate without an entry of its own to its
candidates in turn. `Preorder` lists the symbols met that way, depth first and each before those
below it; a key is entered once, and a symbol with an entry of its own is not gone beyond. The
order is unique (`Preorder.unique`), it consists of symbols that can be reached
(`Preorder.reaches`), and what it has entered at the end is closed under candidates
(`Preorder.closed`), so that it misses nothing that can be reached.
-/

namespace ApiDoc.Context

variable {ctx : Context} {m m' s : MemberSymbol} {key : String} {entered after : List String}
  {symbols order : List MemberSymbol}

/-! ## The graph -/

/-- The entry of a member that documents it on its own, which one that defers does not. -/
def content? (ctx : Context) (m : MemberSymbol) : Option Xml.Node :=
  ((ctx.foreignEntry (.member m)).value.toOption.join).filter fun node =>
    !Entry.isDeferred (some node) ctx.settings.documentation.deferTag

theorem content?_eq_some {node : Xml.Node} : ctx.content? m = some node ↔
    (ctx.foreignEntry (.member m)).value = .ok (some node) ∧
      Entry.isDeferred (some node) ctx.settings.documentation.deferTag = false := by
  rw [content?, Option.filter_eq_some_iff]
  cases (ctx.foreignEntry (.member m)).value <;> simp [Except.toOption]

/-- One member is a candidate of another. -/
def Leads (ctx : Context) (m m' : MemberSymbol) : Prop :=
  ∃ next, (ctx.candidates m).value = .ok next ∧ m' ∈ next

/-- A member is reached through candidates, in any number of steps. -/
abbrev Reaches (ctx : Context) : MemberSymbol → MemberSymbol → Prop :=
  Relation.ReflTransGen ctx.Leads

theorem Reaches.inherits (hctx : ctx.WellBuilt) (hs : ctx.catalog.Inherits s)
    (h : ctx.Reaches s m) :
    ctx.catalog.Inherits m := by
  cases h with
  | refl => exact hs
  | tail _ hl =>
    obtain ⟨next, hn, hm⟩ := hl
    exact inherits_of_mem_candidates hctx hn hm

/-- `Preorder entered symbols order after`: going through the symbols one after the other with some
keys entered already, depth first, the symbols entered are `order`, and then the keys entered are
`after`. -/
inductive Preorder (ctx : Context) :
    List String → List MemberSymbol → List MemberSymbol → List String → Prop
  | nil {entered : List String} : Preorder ctx entered [] [] entered
  | again {m : MemberSymbol} {key : String} {entered after : List String}
      {rest order : List MemberSymbol} :
    m.documentationKey = .ok key → key ∈ entered →
    Preorder ctx entered rest order after → Preorder ctx entered (m :: rest) order after
  /-- An entry that documents a symbol is a place to stop. -/
  | leaf {m : MemberSymbol} {key : String} {node : Xml.Node} {entered after : List String}
      {rest order : List MemberSymbol} :
    m.documentationKey = .ok key → key ∉ entered → ctx.content? m = some node →
    Preorder ctx (key :: entered) rest order after →
    Preorder ctx entered (m :: rest) (m :: order) after
  | inner {m : MemberSymbol} {key : String} {entered between after : List String}
      {next rest below order : List MemberSymbol} :
    m.documentationKey = .ok key → key ∉ entered → ctx.content? m = none →
    (ctx.candidates m).value = .ok next →
    Preorder ctx (key :: entered) next below between → Preorder ctx between rest order after →
    Preorder ctx entered (m :: rest) (m :: below ++ order) after

namespace Preorder

theorem unique {order' : List MemberSymbol} {after' : List String}
    (h : Preorder ctx entered symbols order after)
    (h' : Preorder ctx entered symbols order' after') :
    order = order' ∧ after = after' := by
  induction h generalizing order' after' with
  | nil =>
    cases h'
    exact ⟨rfl, rfl⟩
  | again hk hmem _ ih =>
    cases h' <;> simp_all
    exact ih ‹_›
  | leaf hk hmem hc _ ih =>
    cases h' <;> simp_all
    exact ih ‹_›
  | inner hk hmem hc hn _ _ ih₁ ih₂ =>
    cases h' <;> simp_all
    obtain ⟨rfl, rfl⟩ := ih₁ ‹_›
    obtain ⟨rfl, rfl⟩ := ih₂ ‹_›
    exact ⟨rfl, rfl⟩

/-- The keys entered in the end are those entered before and those of the order. -/
theorem mem_after (h : Preorder ctx entered symbols order after) :
    key ∈ after ↔ key ∈ entered ∨ ∃ m ∈ order, m.documentationKey = .ok key := by
  induction h with
  | nil => simp
  | again _ _ _ ih => exact ih
  | leaf hk _ _ _ ih =>
    rw [ih]
    simp [hk, eq_comm, or_assoc, or_left_comm]
  | inner hk _ _ _ _ _ ih₁ ih₂ =>
    rw [ih₂, ih₁]
    simp only [List.mem_cons, List.mem_append, List.cons_append]
    grind

/-- The keys of the symbols gone through are entered in the end. -/
theorem entered_of_mem (h : Preorder ctx entered symbols order after) (hm : m ∈ symbols)
    (hk : m.documentationKey = .ok key) : key ∈ after := by
  induction h with
  | nil => cases hm
  | again hk' hmem h ih =>
    rcases List.mem_cons.1 hm with rfl | hm
    · rw [hk] at hk'
      cases hk'
      exact h.mem_after.2 (.inl hmem)
    · exact ih hm
  | leaf hk' _ _ h ih =>
    rcases List.mem_cons.1 hm with rfl | hm
    · rw [hk] at hk'
      cases hk'
      exact h.mem_after.2 (.inl List.mem_cons_self)
    · exact ih hm
  | inner hk' _ _ _ h₁ h₂ _ ih =>
    rcases List.mem_cons.1 hm with rfl | hm
    · rw [hk] at hk'
      cases hk'
      exact h₂.mem_after.2 (.inl (h₁.mem_after.2 (.inl List.mem_cons_self)))
    · exact ih hm

/-- The candidates of a symbol gone beyond are entered in the end. -/
theorem closed (h : Preorder ctx entered symbols order after) (hm : m ∈ order)
    (hc : ctx.content? m = none) (hl : ctx.Leads m m') (hk : m'.documentationKey = .ok key) :
    key ∈ after := by
  induction h with
  | nil => cases hm
  | again _ _ _ ih => exact ih hm
  | leaf _ _ hc' _ ih =>
    rcases List.mem_cons.1 hm with rfl | hm
    · rw [hc] at hc'
      cases hc'
    · exact ih hm
  | inner _ _ _ hn h₁ h₂ ih₁ ih₂ =>
    rcases List.mem_cons.1 hm with rfl | hm
    · obtain ⟨next, hn', hm'⟩ := hl
      rw [hn] at hn'
      cases hn'
      exact h₂.mem_after.2 (.inl (h₁.entered_of_mem hm' hk))
    · rcases List.mem_append.1 hm with hm | hm
      · exact h₂.mem_after.2 (.inl (ih₁ hm))
      · exact ih₂ hm

/-- The order holds nothing that cannot be reached from the symbols gone through. -/
theorem reaches (h : Preorder ctx entered symbols order after) (hm : m ∈ order) :
    ∃ m' ∈ symbols, ctx.Reaches m' m := by
  induction h with
  | nil => cases hm
  | again _ _ _ ih =>
    obtain ⟨m', hm', hr⟩ := ih hm
    exact ⟨m', List.mem_cons_of_mem _ hm', hr⟩
  | leaf _ _ _ _ ih =>
    rcases List.mem_cons.1 hm with rfl | hm
    · exact ⟨m, List.mem_cons_self, .refl⟩
    · obtain ⟨m', hm', hr⟩ := ih hm
      exact ⟨m', List.mem_cons_of_mem _ hm', hr⟩
  | inner _ _ _ hn _ _ ih₁ ih₂ =>
    rcases List.mem_cons.1 hm with rfl | hm
    · exact ⟨m, List.mem_cons_self, .refl⟩
    rcases List.mem_append.1 hm with hm | hm
    · obtain ⟨m', hm', hr⟩ := ih₁ hm
      exact ⟨_, List.mem_cons_self, .head ⟨_, hn, hm'⟩ hr⟩
    · obtain ⟨m', hm', hr⟩ := ih₂ hm
      exact ⟨m', List.mem_cons_of_mem _ hm', hr⟩

end Preorder

end ApiDoc.Context
