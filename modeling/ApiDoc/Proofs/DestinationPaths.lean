import ApiDoc.Proofs.Answer
import ApiDoc.Proofs.PathSegments
import ApiDoc.Settings.Check

/-!
# Destinations

No home stands in for the first segment of an absolute path. A destination that has been checked is
therefore settled (`Settings.IsSettled`): checked once more it stays as it is
(`Settings.destination_text`).
-/

namespace ApiDoc.Settings

open Text (Path)

variable {home s : String} {d : Data}

/-! ## Destinations -/

theorem isParsed_of_expandHome? {p q : Path} (hp : p.IsParsed) (h : expandHome? home p = some q) :
    q.IsParsed := by
  simp only [expandHome?] at h
  split at h
  next name rest hsegments =>
    split_ifs at h with habsolute hname
    · cases h
      exact hp
    · cases h
      refine ⟨(Path.isParsed_parse home.toList).root, fun s hs => ?_⟩
      rcases List.mem_append.1 hs with hs | hs
      · exact (Path.isParsed_parse home.toList).segments s hs
      · exact hp.segments s (by rw [hsegments]; exact List.mem_cons_of_mem _ hs)
  next =>
    cases h
    exact hp

theorem expandHome?_of_isAbsolute {p : Path} (h : p.isAbsolute = true) :
    expandHome? home p = some p := by
  simp only [expandHome?, h, if_true]
  split <;> rfl

/-- `stderr`, `stdout`, or an absolute path in its normal form. -/
def IsSettled (s : String) : Prop :=
  s = "stderr" ∨ s = "stdout" ∨ ∃ p : Path, p.IsParsed ∧ p.isAbsolute = true ∧ p.toText = s

theorem isSettled_of_destination (h : destination home d = .ok s) : IsSettled s := by
  obtain ⟨given, -, h⟩ := bind_eq_ok.1 h
  split_ifs at h with hstream
  · cases h
    rw [Bool.or_eq_true, decide_eq_true_eq, decide_eq_true_eq] at hstream
    exact hstream.imp_right .inl
  · split at h
    next => cases h
    next p hp =>
      split_ifs at h with habsolute
      · cases h
        have hparsed := isParsed_of_expandHome? (Path.isParsed_parse given.toList) hp
        exact .inr (.inr ⟨p, hparsed, habsolute, rfl⟩)
      · cases h

theorem IsSettled.destination (h : IsSettled s) : destination home (.text s) = .ok s := by
  rcases h with rfl | rfl | ⟨p, hparsed, habsolute, rfl⟩
  · rfl
  · rfl
  · have hread : Path.parse p.toText.toList = p := by
      rw [Path.toText, if_neg (by simp_all [Path.isAbsolute]), String.toList_ofList,
        Path.parse_render hparsed]
    have htext : text (.text p.toText) = .ok p.toText := rfl
    rw [Settings.destination, htext]
    simp only [bind, Except.bind, hread, expandHome?_of_isAbsolute habsolute, habsolute, if_true]
    split <;> rfl

/-- A destination that has passed is what the same text comes to. -/
theorem destination_text (h : destination home d = .ok s) : destination home (.text s) = .ok s :=
  (isSettled_of_destination h).destination

end ApiDoc.Settings
