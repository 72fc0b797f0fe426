import ApiDoc.Text.Letter
import Mathlib.Data.List.Basic

/-!
# Lowercase text

Lowercase text has no ASCII capitals, nor the sign for Kelvin, which is lowered to a letter as well
(`not_isCapital_of_mem_lower`). So if text is in lowercase, and lowering it again comes to ASCII, then
it was that text already (`lowerText_eq_self`). The facts about the case table that this rests on are
read off its runs.
-/

namespace ApiDoc.Text

/-! ## Runs -/

/-- The characters that are lowered to ASCII letters. -/
def IsCapital (code : Nat) : Prop := 0x41 ≤ code ∧ code ≤ 0x5a ∨ code = 0x212a

/-- The images of a run are characters. -/
theorem lowerRuns_isChar : ∀ r ∈ lowerRuns, 0 ≤ r.first + r.distance ∧
    (r.last + r.distance < 0xd800 ∨ 0xdfff < r.first + r.distance ∧ r.last + r.distance < 0x110000) := by
  decide +kernel

theorem lowerRuns_ascii : ∀ r ∈ lowerRuns, 0x80 ≤ r.first + r.distance ∨
    r.first = 0x41 ∧ r.last = 0x5a ∨ r.first = 0x212a ∧ r.last = 0x212a := by decide +kernel

theorem lowerRuns_notCapital : ∀ r ∈ lowerRuns,
    (r.last + r.distance < 0x41 ∨ 0x5a < r.first + r.distance) ∧
      (r.last + r.distance < 0x212a ∨ 0x212a < r.first + r.distance) := by decide +kernel

theorem lowerRuns_capitals :
    (∃ r ∈ lowerRuns, r.first = 0x41 ∧ r.last = 0x5a ∧ r.stride = 1) ∧
      ∃ r ∈ lowerRuns, r.first = 0x212a ∧ r.last = 0x212a ∧ r.stride = 1 := by decide +kernel

theorem toNat_ofNat {n : Nat} (h : n.isValidChar) : (Char.ofNat n).toNat = n := by
  rw [Char.ofNat, dif_pos h]
  rfl

theorem bounds_of_image? {r : CaseRun} {code : Nat} {c : Char} (h : r.image? code = some c) :
    r.first ≤ code ∧ code ≤ r.last := by
  rw [CaseRun.image?] at h
  split_ifs at h with hin
  simp only [Bool.and_eq_true, decide_eq_true_eq] at hin
  exact hin.1

/-- A run moves a character by its distance. -/
theorem toNat_of_image? {r : CaseRun} (hr : r ∈ lowerRuns) {code : Nat} {c : Char}
    (h : r.image? code = some c) : (c.toNat : Int) = code + r.distance := by
  obtain ⟨hfirst, hlast⟩ := bounds_of_image? h
  rw [CaseRun.image?] at h
  split_ifs at h
  cases h
  have hchar := lowerRuns_isChar r hr
  have hvalid : ((code : Int) + r.distance).toNat.isValidChar := by
    simp only [Nat.isValidChar]
    omega
  rw [toNat_ofNat hvalid]
  omega

/-- No run takes a character to a capital. -/
theorem not_isCapital_of_image? {r : CaseRun} (hr : r ∈ lowerRuns) {code : Nat} {c : Char}
    (h : r.image? code = some c) : ¬ IsCapital c.toNat := by
  have hcode := toNat_of_image? hr h
  have hbounds := bounds_of_image? h
  have hruns := lowerRuns_notCapital r hr
  simp only [IsCapital]
  omega

/-- A run that takes a character to ASCII starts from a capital. -/
theorem isCapital_of_image? {r : CaseRun} (hr : r ∈ lowerRuns) {code : Nat} {c : Char}
    (h : r.image? code = some c) (hascii : c.toNat < 0x80) : IsCapital code := by
  have hcode := toNat_of_image? hr h
  have hbounds := bounds_of_image? h
  have hruns := lowerRuns_ascii r hr
  simp only [IsCapital]
  omega

/-- Capitals lie on a run. -/
theorem exists_image?_of_isCapital {code : Nat} (h : IsCapital code) :
    ∃ r ∈ lowerRuns, (r.image? code).isSome := by
  have hon : ∀ r : CaseRun, r.first ≤ code → code ≤ r.last → r.stride = 1 → (r.image? code).isSome := by
    intro r hfirst hlast hstride
    simp [CaseRun.image?, hfirst, hlast, hstride, Nat.mod_one]
  obtain ⟨⟨r, hr, hfirst, hlast, hstride⟩, ⟨r', hr', hfirst', hlast', hstride'⟩⟩ := lowerRuns_capitals
  rcases h with ⟨hlow, hhigh⟩ | hkelvin
  · exact ⟨r, hr, hon r (hfirst ▸ hlow) (hlast ▸ hhigh) hstride⟩
  · exact ⟨r', hr', hon r' (by omega) (by omega) hstride'⟩

/-! ## Characters -/

/-- One character has a mapping of its own, to two characters. The others lie on a run or stay. -/
theorem lower_cases (c : Char) : lower c = ['i', '\u0307'] ∨
    (∃ r ∈ lowerRuns, ∃ d, r.image? c.toNat = some d ∧ lower c = [d]) ∨
    (∀ r ∈ lowerRuns, r.image? c.toNat = none) ∧ lower c = [c] := by
  simp only [lower, mapCase]
  split
  next codes hcodes =>
    left
    simp only [lowerSpecials, List.lookup_cons, List.lookup_nil] at hcodes
    split at hcodes
    · cases hcodes
      rfl
    · cases hcodes
  next =>
    right
    cases hfind : lowerRuns.findSome? (·.image? c.toNat) with
    | some d =>
      obtain ⟨r, hr, hd⟩ := List.exists_of_findSome?_eq_some hfind
      exact .inl ⟨r, hr, d, hd, rfl⟩
    | none => exact .inr ⟨List.findSome?_eq_none_iff.1 hfind, rfl⟩

/-- Nothing is lowered to a capital. -/
theorem not_isCapital_of_mem_lower {c c' : Char} (h : c ∈ lower c') : ¬ IsCapital c.toNat := by
  obtain hspecial | ⟨r, hr, d, hd, hlower⟩ | ⟨hnone, hlower⟩ := lower_cases c'
  · rw [hspecial] at h
    simp only [List.mem_cons, List.not_mem_nil, or_false] at h
    rcases h with rfl | rfl <;> simp only [IsCapital] <;> decide
  · rw [hlower, List.mem_singleton] at h
    exact h ▸ not_isCapital_of_image? hr hd
  · rw [hlower, List.mem_singleton] at h
    intro hcapital
    obtain ⟨r, hr, hsome⟩ := exists_image?_of_isCapital (h ▸ hcapital)
    rw [hnone r hr] at hsome
    cases hsome

/-- What is no capital and is lowered to ASCII stays as it is. -/
theorem lower_eq_self {c : Char} (h : ¬ IsCapital c.toNat) (hascii : ∀ d ∈ lower c, d.toNat < 0x80) :
    lower c = [c] := by
  obtain hspecial | ⟨r, hr, d, hd, hlower⟩ | ⟨-, hlower⟩ := lower_cases c
  · have hdot := hascii '\u0307' (by rw [hspecial]; simp)
    exact absurd hdot (by decide)
  · exact absurd (isCapital_of_image? hr hd (hascii d (by rw [hlower]; simp))) h
  · exact hlower

/-! ## Text -/

/-- Part of a text in lowercase. -/
def IsLowered (cs : List Char) : Prop := ∀ c ∈ cs, ∃ c', c ∈ lower c'

theorem isLowered_lowerText (s : String) : IsLowered (lowerText s).toList := by
  intro c hc
  rw [lowerText, String.toList_ofList] at hc
  obtain ⟨c', -, hc'⟩ := List.mem_flatMap.1 hc
  exact ⟨c', hc'⟩

theorem lowerText_eq_self {s : String} (hs : IsLowered s.toList)
    (hascii : ∀ c ∈ (lowerText s).toList, c.toNat < 0x80) : lowerText s = s := by
  have hself : ∀ c ∈ s.toList, lower c = [c] := by
    intro c hc
    obtain ⟨c', hc'⟩ := hs c hc
    refine lower_eq_self (not_isCapital_of_mem_lower hc') fun d hd => hascii d ?_
    rw [lowerText, String.toList_ofList]
    exact List.mem_flatMap.2 ⟨c, hc, hd⟩
  rw [lowerText, List.flatMap_congr hself, List.flatMap_singleton', String.ofList_toList]

end ApiDoc.Text
