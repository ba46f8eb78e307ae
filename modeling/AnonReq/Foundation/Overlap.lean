import Mathlib.Data.List.Nodup
import Mathlib.Data.List.TakeDrop

/-!
# Overlapping windows

Windows of a list arrive one after the other, and each is added without its longest overlap with
the piece that was added before it.

* `fresh_window`: what is added of a window, when the items are distinct.
* `Flush` says of the windows that none reaches back beyond the end of the one two before it, nor
  ends before the one before it.
* `flatten_pieces_iff`: the pieces are the list if and only if the windows are flush.
-/

namespace Overlap

variable {β : Type*}

/-- The items of a list from one position to another. -/
structure Window where
  lo : ℕ
  hi : ℕ
deriving DecidableEq

/-- The items of a window. -/
def Window.of (w : Window) (l : List β) : List β := (l.take w.hi).drop w.lo

variable {l : List β} {v w : Window}

theorem length_of (h : w.hi ≤ l.length) : (w.of l).length = w.hi - w.lo := by
  rw [Window.of, List.length_drop, List.length_take, Nat.min_eq_left h]

/-- The first item of a window. -/
theorem head?_of (h : w.lo < w.hi) : (w.of l).head? = l[w.lo]? := by
  rw [Window.of, List.head?_drop, List.getElem?_take_of_lt h]

/-- What a window starts with. -/
theorem take_of {n : ℕ} (h : w.lo + n ≤ w.hi) :
    (w.of l).take n = Window.of ⟨w.lo, w.lo + n⟩ l := by
  rw [Window.of, Window.of, List.take_drop, List.take_take, Nat.min_eq_left h]

/-- What a window ends with. -/
theorem drop_of (n : ℕ) : (w.of l).drop n = Window.of ⟨w.lo + n, w.hi⟩ l := by
  rw [Window.of, Window.of, List.drop_drop]

/-- A window lengthens what is there up to its start. -/
theorem take_append_of (h : w.lo ≤ w.hi) : l.take w.lo ++ w.of l = l.take w.hi := by
  calc l.take w.lo ++ w.of l
      = (l.take w.hi).take w.lo ++ (l.take w.hi).drop w.lo := by
        rw [List.take_take, Nat.min_eq_left h, Window.of]
    _ = l.take w.hi := List.take_append_drop w.lo (l.take w.hi)

/-- Windows of distinct items that are equal start at one position. -/
theorem lo_eq_of_eq (hl : l.Nodup) (hv : v.lo < v.hi) (hw : w.lo < w.hi) (hlength : w.hi ≤ l.length)
    (h : v.of l = w.of l) : v.lo = w.lo := by
  have hheads : l[v.lo]? = l[w.lo]? := by rw [← head?_of hv, ← head?_of hw, h]
  have hlt : w.lo < l.length := by omega
  exact ((List.getElem?_inj hlt hl).mp hheads.symm).symm

/-! ### The longest overlap -/

variable [DecidableEq β]

/-- The longest overlap of at most so many items. -/
def overlap (previous current : List β) : ℕ → ℕ
  | 0 => 0
  | size + 1 =>
    if previous.drop (previous.length - (size + 1)) = current.take (size + 1) then size + 1
    else overlap previous current size

/-- What is new in a list after another one. -/
def fresh (previous current : List β) : List β :=
  current.drop (overlap previous current (min previous.length current.length))

/-- The pieces that are added, each after the one before it. -/
def pieces : List β → List (List β) → List (List β)
  | _, [] => []
  | previous, current :: rest =>
    fresh previous current :: pieces (fresh previous current) rest

/-- After nothing all is new. -/
@[simp]
theorem fresh_nil (current : List β) : fresh [] current = current := by
  rw [fresh, List.length_nil, Nat.zero_min, overlap, List.drop_zero]

/-- The longest overlap of two windows, the second starting in the first or at its end. -/
theorem overlap_window (hl : l.Nodup) (hv : v.hi ≤ l.length) (hw : w.hi ≤ l.length)
    (hstart : w.lo ≤ v.hi) {m : ℕ} (hmv : m ≤ v.hi - v.lo) (hmw : m ≤ w.hi - w.lo) :
    overlap (v.of l) (w.of l) m =
      if v.lo ≤ w.lo ∧ v.hi ≤ w.hi ∧ v.hi - w.lo ≤ m then v.hi - w.lo else 0 := by
  induction m with
  | zero =>
    rw [overlap]
    split_ifs <;> omega
  | succ m ih =>
    -- the overlap has this size if and only if both sides start at one position
    have hiff : (v.of l).drop ((v.of l).length - (m + 1)) = (w.of l).take (m + 1) ↔
        v.hi - w.lo = m + 1 := by
      rw [length_of hv, drop_of, take_of (by omega)]
      constructor
      · intro heq
        have hlo := lo_eq_of_eq hl (show v.lo + (v.hi - v.lo - (m + 1)) < v.hi by omega)
          (show w.lo < w.lo + (m + 1) by omega) (show w.lo + (m + 1) ≤ l.length by omega) heq
        dsimp only at hlo
        omega
      · intro hsize
        rw [show v.lo + (v.hi - v.lo - (m + 1)) = w.lo by omega,
          show w.lo + (m + 1) = v.hi by omega]
    rw [overlap]
    by_cases hsize : v.hi - w.lo = m + 1
    · rw [if_pos (hiff.mpr hsize), if_pos (by omega), hsize]
    · rw [if_neg (mt hiff.mp hsize), ih (by omega) (by omega)]
      split_ifs <;> omega

/-- **What is new in a window.** It is found if the piece before does not start after the window
and does not end after it; else all of the window is taken to be new. -/
theorem fresh_window (hl : l.Nodup) (hv : v.lo ≤ v.hi ∧ v.hi ≤ l.length)
    (hw : w.lo < w.hi ∧ w.hi ≤ l.length) (hstart : w.lo ≤ v.hi) :
    fresh (v.of l) (w.of l) =
      if v.lo ≤ w.lo ∧ v.hi ≤ w.hi then Window.of ⟨v.hi, w.hi⟩ l else w.of l := by
  rw [fresh, length_of hv.2, length_of hw.2,
    overlap_window hl hv.2 hw.2 hstart (Nat.min_le_left _ _) (Nat.min_le_right _ _), drop_of]
  by_cases hreach : v.lo ≤ w.lo ∧ v.hi ≤ w.hi
  · rw [if_pos hreach, if_pos ⟨hreach.1, hreach.2, by omega⟩, Nat.add_sub_cancel' hstart]
  · rw [if_neg hreach, if_neg fun h => hreach ⟨h.1, h.2.1⟩, Nat.add_zero]

/-! ### Windows one after the other -/

/-- Each window lies in the list and starts at or before the end of the one before it. -/
def Chained (length : ℕ) : ℕ → List Window → Prop
  | _, [] => True
  | d, w :: rest => w.lo ≤ d ∧ w.lo < w.hi ∧ w.hi ≤ length ∧ Chained length w.hi rest

/-- No window starts before the end `c` of the one two before it, or ends before the end `d` of the
one before it. -/
def Flush : ℕ → ℕ → List Window → Prop
  | _, _, [] => True
  | c, d, w :: rest => c ≤ w.lo ∧ d ≤ w.hi ∧ Flush d w.hi rest

instance Flush.decidable : ∀ (c d : ℕ) (windows : List Window), Decidable (Flush c d windows)
  | _, _, [] => isTrue trivial
  | c, d, w :: rest =>
    have := Flush.decidable d w.hi rest
    inferInstanceAs (Decidable (c ≤ w.lo ∧ d ≤ w.hi ∧ Flush d w.hi rest))

/-- The end of the last window, or `d` if there is none. -/
def reach : ℕ → List Window → ℕ
  | d, [] => d
  | _, w :: rest => reach w.hi rest

theorem reach_le {length d : ℕ} (hd : d ≤ length) {windows : List Window}
    (h : Chained length d windows) : reach d windows ≤ length := by
  induction windows generalizing d with
  | nil => exact hd
  | cons w rest ih => exact ih h.2.2.1 h.2.2.2

/-- Where windows are flush, none ends after the last. -/
theorem Flush.le_reach {c d : ℕ} {windows : List Window} (h : Flush c d windows) :
    d ≤ reach d windows ∧ ∀ w ∈ windows, w.hi ≤ reach d windows := by
  induction windows generalizing c d with
  | nil => exact ⟨Nat.le_refl d, fun w hw => absurd hw List.not_mem_nil⟩
  | cons v rest ih =>
    obtain ⟨hv, hrest⟩ := ih h.2.2
    refine ⟨Nat.le_trans h.2.1 hv, fun w hw => ?_⟩
    obtain rfl | hw := List.mem_cons.mp hw
    · exact hv
    · exact hrest w hw

/-- **The pieces are the list if and only if the windows are flush** and reach its end. The list is
there up to `d`, and the last piece is what is there from `c` on. -/
theorem flatten_pieces_iff (hl : l.Nodup) {c d : ℕ} (hcd : c ≤ d) (hd : d ≤ l.length)
    {windows : List Window} (h : Chained l.length d windows) :
    l.take d ++ (pieces (Window.of ⟨c, d⟩ l) (windows.map fun w => w.of l)).flatten = l ↔
      Flush c d windows ∧ reach d windows = l.length := by
  induction windows generalizing c d with
  | nil =>
    rw [List.map_nil, pieces, List.flatten_nil, List.append_nil, Flush, reach, true_and,
      List.take_eq_self_iff]
    omega
  | cons w rest ih =>
    obtain ⟨hstart, hlt, hhi, hrest⟩ := h
    rw [List.map_cons, pieces, List.flatten_cons, Flush, reach,
      fresh_window hl ⟨hcd, hd⟩ ⟨hlt, hhi⟩ hstart]
    dsimp only
    by_cases hreach : c ≤ w.lo ∧ d ≤ w.hi
    · rw [if_pos hreach, ← List.append_assoc, take_append_of (w := ⟨d, w.hi⟩) hreach.2,
        ih hreach.2 hhi hrest]
      exact ⟨fun h => ⟨⟨hreach.1, hreach.2, h.1⟩, h.2⟩, fun h => ⟨h.1.2.2, h.2⟩⟩
    · rw [if_neg hreach]
      refine iff_of_false (fun heq => ?_) fun h => hreach ⟨h.1.1, h.1.2.1⟩
      -- the first item of the window is there twice
      have hlo : w.lo < d := by omega
      have hlength : w.lo < l.length := by omega
      have hmem : l[w.lo] ∈ w.of l :=
        List.mem_of_mem_head? (by rw [head?_of hlt, List.getElem?_eq_getElem hlength]; rfl)
      have hbefore : l[w.lo] ∈ l.take d := List.mem_take_iff_getElem.mpr ⟨w.lo, by omega, rfl⟩
      rw [← heq] at hl
      exact (List.nodup_append.mp hl).2.2 _ hbefore _ (List.mem_append_left _ hmem) rfl

end Overlap
