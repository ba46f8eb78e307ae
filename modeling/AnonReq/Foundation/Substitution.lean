import Mathlib.Data.List.Basic

/-!
# Substituting matches in a text

Reading a text from left to right, replacing what a matcher finds. The matcher sees the character
before the position and the text after it, so that it may look around; it returns how many
characters it takes and what they are replaced by. What has been matched is not read again, and
what is inserted is not read at all.

* `subst_append`: at a clean cut, a text can be substituted piece by piece.
* `subst_eq_self`: a matcher that replaces every match by itself changes nothing.
-/

namespace Substitution

variable {α : Type*}

/-- What is found at a position: the number of characters taken, and their replacement. -/
abbrev Matcher (α : Type*) := Option α → List α → Option (ℕ × List α)

/-- Substitute the matches of a text, passing over the first `skip` characters. -/
def subst (m : Matcher α) : Option α → ℕ → List α → List α
  | _, _, [] => []
  | _, skip + 1, c :: rest => subst m (some c) skip rest
  | prev, 0, c :: rest =>
    match m prev (c :: rest) with
    | none => c :: subst m (some c) 0 rest
    | some (n, out) => out ++ subst m (some c) (n - 1) rest

/-- The character before the position after `text`. -/
def lastOf (prev : Option α) (text : List α) : Option α := text.getLast?.or prev

@[simp] theorem lastOf_nil (prev : Option α) : lastOf prev [] = prev := rfl

@[simp] theorem lastOf_cons (prev : Option α) (c : α) (text : List α) :
    lastOf prev (c :: text) = lastOf (some c) text := by
  cases text with
  | nil => rfl
  | cons d text =>
    rw [lastOf, lastOf, List.getLast?_cons_cons, List.getLast?_cons]
    rfl

theorem lastOf_append (prev : Option α) (a b : List α) :
    lastOf prev (a ++ b) = lastOf (lastOf prev a) b := by
  induction a generalizing prev with
  | nil => rfl
  | cons c a ih => rw [List.cons_append, lastOf_cons, lastOf_cons, ih]

variable {m : Matcher α} {prev : Option α}

theorem subst_cons_of_none {c : α} {rest : List α} (h : m prev (c :: rest) = none) :
    subst m prev 0 (c :: rest) = c :: subst m (some c) 0 rest := by
  rw [subst, h]

theorem subst_cons_of_some {c : α} {rest out : List α} {n : ℕ}
    (h : m prev (c :: rest) = some (n, out)) :
    subst m prev 0 (c :: rest) = out ++ subst m (some c) (n - 1) rest := by
  rw [subst, h]

/-- The character before a text matters at its first position only. -/
theorem subst_eq_of_prev {prev' : Option α} {text : List α} (h : m prev text = m prev' text) :
    subst m prev 0 text = subst m prev' 0 text := by
  cases text with
  | nil => rw [subst, subst]
  | cons c text =>
    cases hm : m prev (c :: text) with
    | none => rw [subst_cons_of_none hm, subst_cons_of_none (h ▸ hm)]
    | some found => rw [subst_cons_of_some hm, subst_cons_of_some (h ▸ hm)]

/-- Passing over the first characters of a text. -/
theorem subst_append_skip {skip : ℕ} {a b : List α} (h : a.length = skip) :
    subst m prev skip (a ++ b) = subst m (lastOf prev a) 0 b := by
  induction a generalizing prev skip with
  | nil => subst h; rfl
  | cons c a ih =>
    subst h
    rw [List.cons_append, List.length_cons, subst, lastOf_cons]
    exact ih rfl

/-- A match at the front of a text is replaced, and the rest is read after it. -/
theorem subst_append_of_some {a b out : List α} (ha : a ≠ [])
    (h : m prev (a ++ b) = some (a.length, out)) :
    subst m prev 0 (a ++ b) = out ++ subst m (lastOf prev a) 0 b := by
  obtain ⟨c, a, rfl⟩ := List.exists_cons_of_ne_nil ha
  rw [List.cons_append] at h ⊢
  rw [subst_cons_of_some h, lastOf_cons, List.length_cons, Nat.add_sub_cancel,
    subst_append_skip rfl]

/-- The text is cut cleanly between `a` and `b`: reading `a`, the same is found whether or not `b`
follows, and no match runs over the cut. -/
def CleanCut (m : Matcher α) : Option α → ℕ → List α → List α → Prop
  | _, skip, [], _ => skip = 0
  | _, skip + 1, c :: a, b => CleanCut m (some c) skip a b
  | prev, 0, c :: a, b =>
    m prev (c :: a ++ b) = m prev (c :: a) ∧
      match m prev (c :: a) with
      | none => CleanCut m (some c) 0 a b
      | some (n, _) => CleanCut m (some c) (n - 1) a b

instance decidableCleanCut [DecidableEq α] (m : Matcher α) :
    ∀ (prev : Option α) (skip : ℕ) (a b : List α), Decidable (CleanCut m prev skip a b)
  | _, skip, [], _ => inferInstanceAs (Decidable (skip = 0))
  | _, skip + 1, c :: a, b => decidableCleanCut m (some c) skip a b
  | prev, 0, c :: a, b =>
    match hm : m prev (c :: a) with
    | none =>
      have := decidableCleanCut m (some c) 0 a b
      decidable_of_iff (m prev (c :: a ++ b) = none ∧ CleanCut m (some c) 0 a b) <| by
        rw [CleanCut, hm]
    | some (n, _) =>
      have := decidableCleanCut m (some c) (n - 1) a b
      decidable_of_iff (m prev (c :: a ++ b) = m prev (c :: a) ∧ CleanCut m (some c) (n - 1) a b) <|
        by rw [CleanCut, hm]

theorem subst_append_of_cleanCut {skip : ℕ} {a b : List α} (h : CleanCut m prev skip a b) :
    subst m prev skip (a ++ b) = subst m prev skip a ++ subst m (lastOf prev a) 0 b := by
  induction a generalizing prev skip with
  | nil =>
    rw [CleanCut] at h
    subst h
    rw [List.nil_append, lastOf_nil, subst, List.nil_append]
  | cons c a ih =>
    rw [List.cons_append, lastOf_cons]
    cases skip with
    | succ skip => exact ih h
    | zero =>
      obtain ⟨hsame, hrest⟩ := h
      rw [List.cons_append] at hsame
      cases hm : m prev (c :: a) with
      | none =>
        rw [hm] at hsame hrest
        rw [subst_cons_of_none hsame, subst_cons_of_none hm, ih hrest, List.cons_append]
      | some found =>
        rw [hm] at hsame hrest
        rw [subst_cons_of_some hsame, subst_cons_of_some hm, ih hrest, List.append_assoc]

/-- **Cutting a text.** At a clean cut, the text before it can be substituted without the text
after it. -/
theorem subst_append {a b : List α} (h : CleanCut m prev 0 a b) :
    subst m prev 0 (a ++ b) = subst m prev 0 a ++ subst m (lastOf prev a) 0 b :=
  subst_append_of_cleanCut h

/-- A cut is clean if at every position before it the same match is found with and without the
text after it, and ends before it. -/
theorem cleanCut_of_forall {a b : List α}
    (h : ∀ pre s, a = pre ++ s → s ≠ [] → m (lastOf prev pre) (s ++ b) = m (lastOf prev pre) s ∧
      ∀ found ∈ m (lastOf prev pre) s, found.1 ≤ s.length) {skip : ℕ} (hskip : skip ≤ a.length) :
    CleanCut m prev skip a b := by
  induction a generalizing prev skip with
  | nil => exact Nat.le_zero.mp hskip
  | cons c a ih =>
    have htail : ∀ pre s, a = pre ++ s → s ≠ [] →
        m (lastOf (some c) pre) (s ++ b) = m (lastOf (some c) pre) s ∧
          ∀ found ∈ m (lastOf (some c) pre) s, found.1 ≤ s.length := by
      intro pre s ha hs
      have hpre := h (c :: pre) s (by rw [ha, List.cons_append]) hs
      rwa [lastOf_cons] at hpre
    cases skip with
    | succ skip => exact ih htail (by simpa using hskip)
    | zero =>
      obtain ⟨hsame, hlength⟩ := h [] (c :: a) rfl (List.cons_ne_nil _ _)
      refine ⟨hsame, ?_⟩
      cases hm : m prev (c :: a) with
      | none => exact ih htail (Nat.zero_le _)
      | some found =>
        have hfound : found.1 ≤ (c :: a).length := hlength found hm
        exact ih htail (by simp at hfound; omega)

/-- A matcher that replaces every match by itself changes nothing. -/
theorem subst_eq_self {a : List α}
    (h : ∀ pre s, a = pre ++ s → ∀ found ∈ m (lastOf prev pre) s,
      0 < found.1 ∧ found.2 = s.take found.1) : subst m prev 0 a = a := by
  have hskip : ∀ (a : List α) (prev : Option α) (skip : ℕ),
      (∀ pre s, a = pre ++ s → ∀ found ∈ m (lastOf prev pre) s,
        0 < found.1 ∧ found.2 = s.take found.1) → subst m prev skip a = a.drop skip := by
    intro a
    induction a with
    | nil =>
      intro prev skip _
      rw [subst, List.drop_nil]
    | cons c a ih =>
      intro prev skip h
      have htail : ∀ pre s, a = pre ++ s → ∀ found ∈ m (lastOf (some c) pre) s,
          0 < found.1 ∧ found.2 = s.take found.1 := by
        intro pre s ha
        have hpre := h (c :: pre) s (by rw [ha, List.cons_append])
        rwa [lastOf_cons] at hpre
      cases skip with
      | succ skip => exact ih (some c) skip htail
      | zero =>
        cases hm : m prev (c :: a) with
        | none => rw [subst_cons_of_none hm, ih _ _ htail, List.drop_zero, List.drop_zero]
        | some found =>
          obtain ⟨n, out⟩ := found
          obtain ⟨hpos, hout⟩ := h [] (c :: a) rfl (n, out) hm
          obtain ⟨n, rfl⟩ : ∃ k, n = k + 1 := ⟨n - 1, by simp at hpos; omega⟩
          have hout : out = (c :: a).take (n + 1) := hout
          rw [subst_cons_of_some hm, ih _ _ htail, hout, List.drop_zero, Nat.add_sub_cancel,
            List.take_succ_cons, List.cons_append, List.take_append_drop]
  exact (hskip a prev 0 h).trans List.drop_zero

/-! ### Tags -/

/-- A matcher that reads the characters of a tagged text, and tags what it inserts by `false`. -/
def tagged (m : Matcher α) : Matcher (α × Bool) := fun prev text =>
  (m (prev.map Prod.fst) (text.map Prod.fst)).map fun found =>
    (found.1, found.2.map fun c => (c, false))

end Substitution
