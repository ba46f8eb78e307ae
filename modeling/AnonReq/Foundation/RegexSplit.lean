import AnonReq.Foundation.Regex
import AnonReq.Foundation.Words

/-!
# Splitting a text at the matches of a regular expression

The pieces of a text are what stands between the matches of an expression. An expression is within
a class of characters if it takes no other characters; what it tests before and after a match makes
no difference.

* `of_mem_ends`: a match of an expression within a class has characters of the class only.
* `parted_split`: an expression within a class of separators parts a text at separators.
-/

namespace Regex

universe v

variable {α : Type v}

/-- `re.split`: the pieces of a text, where the next `skip` characters belong to a match. The
expression takes at least one character. -/
def split (r : Regex α) : Option α → ℕ → List α → List (List α)
  | _, _, [] => [[]]
  | _, skip + 1, c :: text => split r (some c) skip text
  | prev, 0, c :: text =>
    match (r.ends prev (c :: text)).head? with
    | some (n + 1) => [] :: split r (some c) n text
    | _ => (split r (some c) 0 text).modifyHead (c :: ·)

/-- The expression takes characters of a class only. -/
def Within (cls : α → Bool) : Regex α → Prop
  | .empty => True
  | .one cls' => ∀ c, cls' c = true → cls c = true
  | .seq r s => r.Within cls ∧ s.Within cls
  | .alt r s => r.Within cls ∧ s.Within cls
  | .rep r _ _ _ => r.Within cls
  | .test _ => True
  | .notAhead _ => True

variable {cls : α → Bool} {r : Regex α}

theorem forall_mem_take_add {p : α → Prop} {text : List α} {m n : ℕ}
    (hm : ∀ c ∈ text.take m, p c) (hn : ∀ c ∈ (text.drop m).take n, p c) :
    ∀ c ∈ text.take (m + n), p c := by
  intro c hc
  rw [List.take_add, List.mem_append] at hc
  exact hc.elim (hm c) (hn c)

/-- **A match has characters of the class only.** -/
theorem of_mem_ends (hr : r.Within cls) {prev : Option α} {text : List α} {n : ℕ}
    (h : n ∈ r.ends prev text) : ∀ c ∈ text.take n, cls c = true := by
  induction r generalizing prev text n with
  | empty =>
    rw [List.mem_singleton.mp h]
    exact fun c hc => absurd hc List.not_mem_nil
  | one cls' =>
    cases text with
    | nil => exact absurd h List.not_mem_nil
    | cons d rest =>
      rw [ends] at h
      split_ifs at h with hd
      · rw [List.mem_singleton.mp h]
        intro c hc
        rw [List.take_succ_cons, List.take_zero, List.mem_singleton] at hc
        exact hc ▸ hr d hd
      · exact absurd h List.not_mem_nil
  | seq r s ihr ihs =>
    obtain ⟨first, hfirst, h⟩ := List.mem_flatMap.mp h
    obtain ⟨rest, hrest, rfl⟩ := List.mem_map.mp h
    exact forall_mem_take_add (ihr hr.1 hfirst) (ihs hr.2 hrest)
  | alt r s ihr ihs => exact (List.mem_append.mp h).elim (ihr hr.1 ·) (ihs hr.2 ·)
  | rep r least most greedy ih =>
    -- round after round: the text after a round is what the other rounds take from
    refine rounds_induction (motive := fun text n => ∀ c ∈ text.take n, cls c = true)
      (fun _ c hc => absurd hc List.not_mem_nil) (fun _ _ _ _ hn hm => ?_) h
    exact forall_mem_take_add (ih hr hn) hm
  | test p =>
    rw [ends] at h
    split_ifs at h
    · rw [List.mem_singleton.mp h]
      exact fun c hc => absurd hc List.not_mem_nil
    · exact absurd h List.not_mem_nil
  | notAhead r =>
    rw [ends] at h
    split_ifs at h
    · rw [List.mem_singleton.mp h]
      exact fun c hc => absurd hc List.not_mem_nil
    · exact absurd h List.not_mem_nil

/-- **An expression within a class of separators parts a text at separators.** -/
theorem parted_split (hr : r.Within cls) (prev : Option α) (skip : ℕ) (text : List α) :
    Words.Parted cls (r.split prev skip text) (text.drop skip) := by
  induction text generalizing prev skip with
  | nil =>
    rw [split, List.drop_nil]
    exact Words.Parted.last []
  | cons c text ih =>
    cases skip with
    | succ skip =>
      rw [split, List.drop_succ_cons]
      exact ih (some c) skip
    | zero =>
      rw [split, List.drop_zero]
      split
      · next n hn =>
        -- a match: an empty rest of the piece before it, and the text after it
        have hsep := of_mem_ends hr (List.mem_of_mem_head? hn)
        rw [List.take_succ_cons] at hsep
        have hcut := Words.Parted.cut [] (List.cons_ne_nil c (text.take n)) hsep (ih (some c) n)
        rwa [List.nil_append, List.cons_append, List.take_append_drop] at hcut
      · exact (ih (some c) 0).cons c

end Regex
