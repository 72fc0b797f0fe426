import ApiDoc.Hierarchy.Build
import ApiDoc.Proofs.Answer

/-!
# Override chains

What a method overrides: going up the declared base types, with the arguments of each constructed
base put into the next, the first method of each type that has the signature. `OverrideChain` lists
these methods, nearest first, down to the first that overrides nothing itself. The override root is
the last of the list (`overridden_eq_ok`).
-/

namespace ApiDoc.Hierarchy

variable {find : TypeRef → Option TypeSymbol} {signature : String} {seen : List Address}
  {ref : TypeRef} {base : Option TypeRef} {t : TypeSymbol} {m r : MethodSymbol}

theorem firstWithSignature_mem {arguments : List TypeRef} {l : List MethodSymbol}
    (h : firstWithSignature signature arguments l = .ok (some m)) : m ∈ l := by
  induction l with
  | nil => cases h
  | cons a l ih =>
    obtain ⟨s, -, h⟩ := bind_eq_ok.1 h
    split at h
    · cases h
      exact List.mem_cons_self
    · exact List.mem_cons_of_mem _ (ih h)

theorem signature_of_firstWithSignature {arguments : List TypeRef} {l : List MethodSymbol}
    (h : firstWithSignature signature arguments l = .ok (some m)) :
    m.signature arguments = .ok signature := by
  induction l with
  | nil => cases h
  | cons d l ih =>
    obtain ⟨s, hs, h⟩ := bind_eq_ok.1 h
    split at h
    next heq =>
      cases h
      exact heq ▸ hs
    next => exact ih h

theorem signature_ne_of_firstWithSignature {arguments : List TypeRef} {l : List MethodSymbol}
    (h : firstWithSignature signature arguments l = .ok none) :
    ∀ d ∈ l, d.signature arguments ≠ .ok signature := by
  induction l with
  | nil => simp
  | cons d l ih =>
    obtain ⟨s, hs, h⟩ := bind_eq_ok.1 h
    split at h
    next => cases h
    next hne =>
      refine List.forall_mem_cons.2 ⟨fun hd => hne ?_, ih h⟩
      exact Except.ok.inj (hs.symm.trans hd)

/-- The methods of a signature that the types from `base` upwards declare, up to a base that is
missing, unknown or among the types `seen` before. -/
inductive OverrideChain (find : TypeRef → Option TypeSymbol) (signature : String) :
    List Address → Option TypeRef → List MethodSymbol → Prop
  | top {seen : List Address} : OverrideChain find signature seen none []
  | unknown {seen : List Address} {ref : TypeRef} :
    find ref = none → OverrideChain find signature seen (some ref) []
  | again {seen : List Address} {ref : TypeRef} {t : TypeSymbol} :
    find ref = some t → t.address ∈ seen → OverrideChain find signature seen (some ref) []
  | silent {seen : List Address} {ref : TypeRef} {t : TypeSymbol} {next : Option TypeRef}
      {chain : List MethodSymbol} :
    find ref = some t → t.address ∉ seen →
    firstWithSignature signature ref.arguments t.callables = .ok none →
    TypeRef.substitute? ref.arguments t.decl.base = .ok next →
    OverrideChain find signature (t.address :: seen) next chain →
    OverrideChain find signature seen (some ref) chain
  /-- A method that overrides nothing ends the chain. -/
  | origin {seen : List Address} {ref : TypeRef} {t : TypeSymbol} {m : MethodSymbol} :
    find ref = some t → t.address ∉ seen →
    firstWithSignature signature ref.arguments t.callables = .ok (some m) →
    m.decl.isOverride = false →
    OverrideChain find signature seen (some ref) [m]
  | further {seen : List Address} {ref : TypeRef} {t : TypeSymbol} {m : MethodSymbol}
      {next : Option TypeRef} {chain : List MethodSymbol} :
    find ref = some t → t.address ∉ seen →
    firstWithSignature signature ref.arguments t.callables = .ok (some m) →
    m.decl.isOverride = true →
    TypeRef.substitute? ref.arguments t.decl.base = .ok next →
    OverrideChain find signature (t.address :: seen) next chain →
    OverrideChain find signature seen (some ref) (m :: chain)

namespace OverrideChain

/-- Each method of the chain is declared on a type not seen before. -/
theorem declared {chain : List MethodSymbol} (h : OverrideChain find signature seen base chain) :
    ∀ m ∈ chain, ∃ ref t, find ref = some t ∧ t.address ∉ seen ∧ m ∈ t.callables := by
  induction h with
  | top | unknown | again => exact fun m hm => nomatch hm
  | silent _ _ _ _ _ ih =>
    intro m hm
    obtain ⟨ref, t, ht, hs, hm⟩ := ih m hm
    exact ⟨ref, t, ht, fun h => hs (List.mem_cons_of_mem _ h), hm⟩
  | origin ht hs hm _ =>
    intro m' hm'
    cases List.mem_singleton.1 hm'
    exact ⟨_, _, ht, hs, firstWithSignature_mem hm⟩
  | further ht hs hm _ _ _ ih =>
    intro m' hm'
    rcases List.mem_cons.1 hm' with rfl | hm'
    · exact ⟨_, _, ht, hs, firstWithSignature_mem hm⟩
    · obtain ⟨ref, t, ht, hs, hm'⟩ := ih m' hm'
      exact ⟨ref, t, ht, fun h => hs (List.mem_cons_of_mem _ h), hm'⟩

/-- There is one chain at most. -/
theorem unique {chain chain' : List MethodSymbol} (h : OverrideChain find signature seen base chain)
    (h' : OverrideChain find signature seen base chain') : chain = chain' := by
  induction h generalizing chain' with
  | top => cases h'; rfl
  | unknown hf => cases h' <;> simp_all
  | again hf hs => cases h' <;> simp_all
  | silent hf hs hm hn _ ih =>
    cases h' <;> simp_all
    exact ih ‹_›
  | origin hf hs hm ho => cases h' <;> simp_all
  | further hf hs hm ho hn _ ih =>
    cases h' <;> simp_all
    exact ih ‹_›

end OverrideChain

/-- The walk up the base types ends at the last method of the chain. -/
theorem overridden_eq_ok {unseen : List TypeSymbol}
    (hseen : ∀ ref t, find ref = some t →
      (unseen.any (fun u => u.address = t.address) = true ↔ t.address ∉ seen))
    (h : overridden find signature unseen m base = .ok r) :
    ∃ chain, OverrideChain find signature seen base chain ∧ r = chain.getLastD m := by
  induction unseen, m, base using overridden.induct find generalizing seen with
  | case1 unseen m =>
    rw [overridden] at h
    cases h
    exact ⟨[], .top, rfl⟩
  | case2 unseen m ref hf =>
    rw [overridden, hf] at h
    cases h
    exact ⟨[], .unknown hf, rfl⟩
  | case3 unseen m ref t hf hu ih₁ ih₂ =>
    have hs : t.address ∉ seen := (hseen ref t hf).1 hu
    have hseen' : ∀ ref' t', find ref' = some t' →
        ((without unseen t.address).any (fun u => u.address = t'.address) = true ↔
          t'.address ∉ t.address :: seen) := by
      intro ref' t' hf'
      have := hseen ref' t' hf'
      simp only [List.any_eq_true, decide_eq_true_eq, without, List.mem_filter, ne_eq,
        decide_not, Bool.not_eq_eq_eq_not, Bool.not_true, decide_eq_false_iff_not,
        List.mem_cons, not_or] at this ⊢
      grind
    rw [overridden, hf] at h
    simp only [hu, ↓reduceDIte] at h
    obtain ⟨found, hfound, h⟩ := bind_eq_ok.1 h
    cases found with
    | none =>
      obtain ⟨next, hnext, h⟩ := bind_eq_ok.1 h
      obtain ⟨chain, hchain, rfl⟩ := ih₂ next hseen' h
      exact ⟨chain, .silent hf hs hfound hnext hchain, rfl⟩
    | some m' =>
      cases ho : m'.decl.isOverride with
      | false =>
        simp only [ho, Bool.not_false, ↓reduceIte, Except.ok.injEq] at h
        exact ⟨[m'], .origin hf hs hfound ho, h.symm⟩
      | true =>
        simp only [ho, Bool.not_true, Bool.false_eq_true, ↓reduceIte] at h
        obtain ⟨next, hnext, h⟩ := bind_eq_ok.1 h
        obtain ⟨chain, hchain, rfl⟩ := ih₁ m' next hseen' h
        exact ⟨m' :: chain, .further hf hs hfound ho hnext hchain, List.getLastD_cons.symm⟩
  | case4 unseen m ref t hf hu =>
    rw [overridden, hf] at h
    simp only [hu, ↓reduceDIte, Bool.false_eq_true, Except.ok.injEq] at h
    refine ⟨[], .again hf ?_, h.symm⟩
    by_contra hs
    exact hu ((hseen ref t hf).2 hs)

end ApiDoc.Hierarchy
