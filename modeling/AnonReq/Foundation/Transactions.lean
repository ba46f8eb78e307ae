import Mathlib.Data.List.Basic
import Mathlib.Data.Option.Basic

/-!
# Statements after a failure

Statements run one after the other in a session. Each is known by whether it would succeed on its
own, or is not issued at all. One that fails spoils the session, which rejects every later one.

* `allCommitted_iff`: everything that would succeed is committed if and only if nothing that
  fails stands before it, nor has the session failed before.
-/

namespace Transactions

/-- Which statements are committed, in a session that is spoiled or not. -/
def committed : Bool → List (Option Bool) → List Bool
  | _, [] => []
  | spoiled, none :: rest => false :: committed spoiled rest
  | true, some _ :: rest => false :: committed true rest
  | false, some ok :: rest => ok :: committed (!ok) rest

/-- Every statement that would succeed is marked. -/
def Marked (statements : List (Option Bool)) (marks : List Bool) : Prop :=
  ∀ i : ℕ, statements[i]? = some (some true) → marks[i]? = some true

/-- Every statement that would succeed is committed. -/
def AllCommitted (s : Bool) (statements : List (Option Bool)) : Prop :=
  Marked statements (committed s statements)

variable {s : Bool} {statements : List (Option Bool)}

theorem length_committed : (committed s statements).length = statements.length := by
  induction statements generalizing s with
  | nil => rfl
  | cons statement rest ih =>
    match s, statement with
    | s, none => exact congrArg (· + 1) ih
    | true, some ok => exact congrArg (· + 1) ih
    | false, some ok => exact congrArg (· + 1) ih

theorem marked_append_iff {a b : List (Option Bool)} {c d : List Bool}
    (hlength : a.length = c.length) : Marked (a ++ b) (c ++ d) ↔ Marked a c ∧ Marked b d := by
  constructor
  · refine fun h => ⟨fun i hi => ?_, fun i hi => ?_⟩
    · have hlt := (List.getElem?_eq_some_iff.mp hi).1
      have hmark := h i (by rw [List.getElem?_append_left hlt, hi])
      rwa [List.getElem?_append_left (hlength ▸ hlt)] at hmark
    · have hmark := h (a.length + i) (by
        rw [List.getElem?_append_right (Nat.le_add_right _ _), Nat.add_sub_cancel_left, hi])
      rwa [hlength, List.getElem?_append_right (Nat.le_add_right _ _),
        Nat.add_sub_cancel_left] at hmark
  · rintro ⟨hac, hbd⟩ i hi
    by_cases hlt : i < a.length
    · rw [List.getElem?_append_left hlt] at hi
      rw [List.getElem?_append_left (hlength ▸ hlt)]
      exact hac i hi
    · rw [List.getElem?_append_right (Nat.le_of_not_lt hlt)] at hi
      rw [List.getElem?_append_right (hlength ▸ Nat.le_of_not_lt hlt), ← hlength]
      exact hbd _ hi

/-- A spoiled session commits nothing. -/
theorem not_mem_committed_true : true ∉ committed true statements := by
  induction statements with
  | nil => exact List.not_mem_nil
  | cons statement rest ih =>
    cases statement with
    | none => simpa [committed] using ih
    | some ok => simpa [committed] using ih

/-- What is left to commit in a spoiled session. -/
theorem allCommitted_true_iff : AllCommitted true statements ↔ some true ∉ statements := by
  constructor
  · intro h hmem
    obtain ⟨i, hi⟩ := List.mem_iff_getElem?.mp hmem
    exact not_mem_committed_true (List.mem_iff_getElem?.mpr ⟨i, h i hi⟩)
  · intro h i hi
    exact absurd (List.mem_iff_getElem?.mpr ⟨i, hi⟩) h

/-- One more statement in front. -/
theorem allCommitted_cons_iff {statement : Option Bool} {rest : List (Option Bool)} {c s' : Bool}
    (h : committed s (statement :: rest) = c :: committed s' rest)
    (hc : statement = some true → c = true) :
    AllCommitted s (statement :: rest) ↔ AllCommitted s' rest := by
  unfold AllCommitted Marked
  rw [h]
  constructor
  · exact fun hall i hi => hall (i + 1) hi
  · intro hall i hi
    cases i with
    | zero => exact congrArg some (hc (Option.some.inj hi))
    | succ i => exact hall i hi

/-- **Nothing is lost** in a session if and only if no statement that fails stands before one that
would succeed. -/
theorem allCommitted_false_iff :
    AllCommitted false statements ↔
      statements.Pairwise fun a b => a = some false → b ≠ some true := by
  induction statements with
  | nil => exact iff_of_true (fun i hi => by cases hi) List.Pairwise.nil
  | cons statement rest ih =>
    rw [List.pairwise_cons]
    match statement with
    | none =>
      -- what is not issued leaves the session as it is
      have hcons : AllCommitted false (none :: rest) ↔ AllCommitted false rest := by
        refine allCommitted_cons_iff rfl fun h => ?_
        cases h
      rw [hcons, ih, and_iff_right]
      intro b _ h
      cases h
    | some true =>
      have hcons : AllCommitted false (some true :: rest) ↔ AllCommitted false rest :=
        allCommitted_cons_iff rfl fun _ => rfl
      rw [hcons, ih, and_iff_right]
      intro b _ h
      cases h
    | some false =>
      -- from here on everything is rejected, so that nothing else may succeed on its own
      have hcons : AllCommitted false (some false :: rest) ↔ AllCommitted true rest := by
        refine allCommitted_cons_iff rfl fun h => ?_
        cases h
      rw [hcons, allCommitted_true_iff]
      constructor
      · intro hnone
        have hb : ∀ b ∈ rest, b ≠ some true := fun b hb heq => hnone (by rwa [← heq])
        refine ⟨fun b hmem _ => hb b hmem, ?_⟩
        exact List.pairwise_of_forall_mem_list fun a _ b hmem _ => hb b hmem
      · exact fun h hmem => h.1 _ hmem rfl rfl

/-- **Nothing is lost**, in a session that may be spoiled from the beginning. -/
theorem allCommitted_iff :
    AllCommitted s statements ↔ (s = true → some true ∉ statements) ∧
      statements.Pairwise fun a b => a = some false → b ≠ some true := by
  cases s with
  | false =>
    rw [allCommitted_false_iff]
    exact (and_iff_right fun h => by cases h).symm
  | true =>
    rw [allCommitted_true_iff]
    constructor
    · intro hnone
      refine ⟨fun _ => hnone, List.pairwise_of_forall_mem_list fun a _ b hb _ heq => hnone ?_⟩
      rwa [← heq]
    · exact fun h => h.1 rfl

end Transactions
