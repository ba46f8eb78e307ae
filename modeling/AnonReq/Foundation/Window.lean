import Mathlib.Data.List.DropRight
import Mathlib.Data.List.Infix

/-!
# The end of a list

A window over a list that grows at its end keeps the last elements. What the window holds depends
on the whole list alone, and an infix is in the window if the list ends soon enough after its
beginning.

* `rtake_append_rtake`: a window that is moved on holds the end of the longer list.
* `infix_rtake_iff`: the infixes of the window.
-/

namespace List

variable {α : Type*}

theorem rtake_suffix (n : ℕ) (l : List α) : l.rtake n <:+ l := drop_suffix _ l

theorem length_rtake (n : ℕ) (l : List α) : (l.rtake n).length = min n l.length := by
  rw [rtake, length_drop]
  omega

theorem rtake_of_length_le {n : ℕ} {l : List α} (h : l.length ≤ n) : l.rtake n = l := by
  rw [rtake, Nat.sub_eq_zero_of_le h, drop_zero]

/-- The suffixes of the window are the suffixes of the list that fit it. -/
theorem suffix_rtake_iff {n : ℕ} {s l : List α} : s <:+ l.rtake n ↔ s <:+ l ∧ s.length ≤ n := by
  constructor
  · intro h
    refine ⟨h.trans (rtake_suffix n l), h.length_le.trans ?_⟩
    rw [length_rtake]
    exact Nat.min_le_left _ _
  · rintro ⟨h, hlength⟩
    refine suffix_of_suffix_length_le h (rtake_suffix n l) ?_
    rw [length_rtake]
    exact Nat.le_min.mpr ⟨hlength, h.length_le⟩

/-- **A window that is moved on.** -/
theorem rtake_append_rtake (n : ℕ) (a b : List α) :
    (a.rtake n ++ b).rtake n = (a ++ b).rtake n := by
  have hsuffix : a.rtake n ++ b <:+ a ++ b := by
    obtain ⟨front, hfront⟩ := rtake_suffix n a
    exact ⟨front, by rw [← append_assoc, hfront]⟩
  refine IsSuffix.eq_of_length (suffix_rtake_iff.mpr ⟨(rtake_suffix n _).trans hsuffix, ?_⟩) ?_
  · rw [length_rtake]
    exact Nat.min_le_left _ _
  · rw [length_rtake, length_rtake, length_append, length_append, length_rtake]
    omega

/-- **The infixes of the window** are those the list ends after soon enough. -/
theorem infix_rtake_iff {n : ℕ} {s l : List α} :
    s <:+: l.rtake n ↔ ∃ pre post, l = pre ++ s ++ post ∧ (s ++ post).length ≤ n := by
  constructor
  · rintro ⟨pre, post, h⟩
    rw [append_assoc] at h
    obtain ⟨⟨front, hfront⟩, hlength⟩ := suffix_rtake_iff.mp ⟨pre, h⟩
    exact ⟨front, post, by rw [append_assoc, hfront], hlength⟩
  · rintro ⟨pre, post, rfl, hlength⟩
    have hsuffix : s ++ post <:+ pre ++ s ++ post := ⟨pre, by rw [append_assoc]⟩
    exact (prefix_append s post).isInfix.trans (suffix_rtake_iff.mpr ⟨hsuffix, hlength⟩).isInfix

end List
