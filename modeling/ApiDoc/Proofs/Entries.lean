import ApiDoc.Resolution
import ApiDoc.Proofs.WellBuilt

/-!
# Looking up entries

Looking up the entry of a symbol is steady. It fails only if the symbol has no key, if its source
raises, or, strictly, if the source is malformed. A strict lookup that succeeds finds what a
lookup on account of another unit finds (`value_foreignEntry_of_entry`).
-/

namespace ApiDoc.Context

open Answer

variable {ctx : Context} {m : MemberSymbol} {found : Option Xml.Node}

/-- Dealing with any of the sources comes to some contents. -/
def SourcesRead (ctx : Context) : Prop := ∀ o ∈ ctx.outcomes, ∃ c, o.2 = .ok c

theorem steady_contents (ctx : Context) (unit : Option String) : (ctx.contents unit).Steady := by
  unfold contents
  split
  · exact steady_pure _
  · split
    · exact steady_pure _
    · exact (steady_record _).bind fun _ => (steady_ofExcept _).bind fun _ => steady_pure _

theorem value_contents (ctx : Context) (unit : String) : (ctx.contents (some unit)).value =
    match ctx.outcomes.lookup unit with
      | none => .ok none
      | some outcome => outcome.map fun c => some (unit, c) := by
  cases h : ctx.outcomes.lookup unit with
  | none => simp [contents, h]
  | some outcome =>
    simp only [contents, h]
    cases outcome <;> rfl

theorem steady_lookUp (ctx : Context) (strict : Bool) (s : Symbol) :
    (ctx.lookUp strict s).Steady := by
  unfold lookUp
  split
  · refine (steady_ofExcept _).bind fun key => (ctx.steady_contents _).bind fun found => ?_
    split
    · exact steady_pure _
    · exact (steady_ofExcept _).bind fun _ => steady_pure _
  · exact steady_pure _

/-- What comes of the source of the unit of a symbol, if that unit has an index. -/
def outcome? (ctx : Context) (s : Symbol) : Option (String × Except Error Contents) :=
  s.unit.bind fun unit => (ctx.outcomes.lookup unit).map fun outcome => (unit, outcome)

theorem value_lookUp (ctx : Context) (strict : Bool) (s : Symbol) :
    (ctx.lookUp strict s).value = match ctx.outcome? s with
      | none => .ok none
      | some (unit, outcome) =>
        s.documentationKey >>= fun key => outcome >>= fun c =>
          (Index.demand strict unit c).map (·.find? key) := by
  cases hu : s.unit with
  | none => simp [lookUp, hasIndex, outcome?, hu]
  | some unit =>
    cases ho : ctx.outcomes.lookup unit with
    | none => simp [lookUp, hasIndex, outcome?, hu, ho]
    | some outcome =>
      simp only [lookUp, hasIndex, outcome?, hu, ho, Option.any_some, Option.isSome_some,
        ↓reduceIte, Option.bind_some, Option.map_some]
      rw [(steady_ofExcept _).value_bind]
      · refine congrArg _ (funext fun key => ?_)
        rw [(ctx.steady_contents _).value_bind, value_contents, ho]
        · cases outcome with
          | error e => rfl
          | ok c => exact (steady_ofExcept _).value_map
        · rintro (_ | ⟨unit, c⟩)
          · exact steady_pure _
          · exact (steady_ofExcept _).bind fun _ => steady_pure _
      · refine fun key => (ctx.steady_contents _).bind ?_
        rintro (_ | ⟨unit, c⟩)
        · exact steady_pure _
        · exact (steady_ofExcept _).bind fun _ => steady_pure _

/-! ## Entries of symbols -/

theorem steady_entryWith (ctx : Context) (strict : Bool) (s : Symbol) :
    (ctx.entryWith strict s).Steady := by
  unfold entryWith
  split
  · split
    · exact steady_pure _
    · exact (ctx.steady_lookUp _ _).bind fun _ => steady_pure _
  · exact ctx.steady_lookUp _ _

/-- What is found is found under a key. -/
theorem exists_key_of_entryWith {strict : Bool} {node : Xml.Node}
    (h : (ctx.entryWith strict (.member m)).value = .ok (some node)) :
    ∃ key, m.documentationKey = .ok key := by
  simp only [entryWith, value_lookUp] at h
  cases ho : ctx.outcome? (.member m) with
  | none =>
    rw [ho] at h
    cases h
  | some o =>
    rw [ho] at h
    obtain ⟨key, hk, -⟩ := bind_eq_ok.1 h
    exact ⟨key, hk⟩

end ApiDoc.Context
