import AnonReq.Foundation.Substitution

/-!
# Regular expressions

Regular expressions with bounded repetition and tests of what stands before and after, as a
backtracking matcher runs them: the lengths of the matches at a position are listed in the order in
which they are tried, and a scan takes the first one.

* `rounds_induction`: what holds of rounds.
* `rounds_stable`: more fuel than a repetition gets makes no difference.
* `le_length_of_mem_ends`: a match lies in the text.
* `bounds_of_mem_findAll`: so does everything that a scan finds.
-/

universe v

/-- A regular expression. -/
inductive Regex (α : Type v) where
  /-- Nothing. -/
  | empty
  /-- One character of a class. -/
  | one (cls : α → Bool)
  | seq (r s : Regex α)
  | alt (r s : Regex α)
  /-- So many rounds: as many as possible, or as few as possible. -/
  | rep (r : Regex α) (least : ℕ) (most : Option ℕ) (greedy : Bool)
  /-- A test of the characters before and after a position. -/
  | test (p : Option α → Option α → Bool)
  /-- The expression does not match here. -/
  | notAhead (r : Regex α)

namespace Regex

open Substitution (lastOf)

variable {α : Type v}

/-! ### Derived expressions -/

/-- One after the other. -/
def seqs : List (Regex α) → Regex α
  | [] => .empty
  | r :: rs => .seq r (seqs rs)

/-- One of some expressions, the first ones preferred. The last one is given apart. -/
def alts : List (Regex α) → Regex α → Regex α
  | [], last => last
  | r :: rs, last => .alt r (alts rs last)

/-- `r?` -/
def opt (r : Regex α) : Regex α := .rep r 0 (some 1) true

/-- `r{least,}` -/
def atLeast (least : ℕ) (r : Regex α) : Regex α := .rep r least none true

/-- `r{least,most}` -/
def between (least most : ℕ) (r : Regex α) : Regex α := .rep r least (some most) true

/-- `r{n}` -/
def times (n : ℕ) (r : Regex α) : Regex α := .rep r n (some n) true

/-- These characters, as far as a test of two characters goes. -/
def word (same : α → α → Bool) (chars : List α) : Regex α := seqs (chars.map fun c => .one (same c))

/-! ### Matching -/

section

variable (step : Option α → List α → List ℕ) (greedy : Bool)

/-- The lengths of the rounds of a repetition. A round that takes nothing is not made once there
are enough of them, so that `least + text.length` rounds are all that can be made. -/
def rounds : ℕ → ℕ → Option ℕ → Option α → List α → List ℕ
  | 0, least, _, _, _ => if least = 0 then [0] else []
  | fuel + 1, least, most, prev, text =>
    -- one more round, and what can be made after it
    let more :=
      if most = some 0 then []
      else
        (step prev text).flatMap fun n =>
          if n = 0 ∧ least = 0 then []
          else
            (rounds fuel (least - 1) (most.map (· - 1)) (lastOf prev (text.take n))
              (text.drop n)).map (n + ·)
    let stop := if least = 0 then [0] else []
    if greedy then more ++ stop else stop ++ more

end

/-- The lengths of the matches at the front of a text, the preferred one first, after a
character. -/
def ends : Regex α → Option α → List α → List ℕ
  | .empty, _, _ => [0]
  | .one _, _, [] => []
  | .one cls, _, c :: _ => if cls c then [1] else []
  | .seq r s, prev, text =>
    (r.ends prev text).flatMap fun n =>
      (s.ends (lastOf prev (text.take n)) (text.drop n)).map (n + ·)
  | .alt r s, prev, text => r.ends prev text ++ s.ends prev text
  | .rep r least most greedy, prev, text =>
    rounds r.ends greedy (least + text.length) least most prev text
  | .test p, prev, text => if p prev text.head? then [0] else []
  | .notAhead r, prev, text => if (r.ends prev text).isEmpty then [0] else []

/-- The matches in a text from left to right, each after the one before it, with their positions
from `pos` on, where the next `skip` characters belong to a match. The expression takes at least
one character. -/
def findAll (r : Regex α) : Option α → ℕ → ℕ → List α → List (ℕ × ℕ)
  | _, _, _, [] => []
  | _, skip + 1, pos, c :: text => findAll r (some c) skip (pos + 1) text
  | prev, 0, pos, c :: text =>
    match (r.ends prev (c :: text)).head? with
    | some (n + 1) => (pos, pos + (n + 1)) :: findAll r (some c) n (pos + 1) text
    | _ => findAll r (some c) 0 (pos + 1) text

/-! ### Groups -/

/-- The parts of the matches of some expressions one after the other, the preferred match first. -/
def splits : List (Regex α) → Option α → List α → List (List (List α))
  | [], _, _ => [[]]
  | r :: rs, prev, text =>
    (r.ends prev text).flatMap fun n =>
      (splits rs (lastOf prev (text.take n)) (text.drop n)).map (text.take n :: ·)

/-- The parts of the first match in a text. -/
def searchParts (rs : List (Regex α)) : Option α → List α → Option (List (List α))
  | prev, [] => (splits rs prev []).head?
  | prev, c :: text =>
    match (splits rs prev (c :: text)).head? with
    | some parts => some parts
    | none => searchParts rs (some c) text

/-! ### Bounds -/

/-- What holds of no round, and is kept by one more round in front, holds of all rounds. -/
theorem rounds_induction {step : Option α → List α → List ℕ} {greedy : Bool}
    {motive : List α → ℕ → Prop} (stop : ∀ text, motive text 0)
    (more : ∀ prev text n m, n ∈ step prev text → motive (text.drop n) m → motive text (n + m))
    {fuel least : ℕ} {most : Option ℕ} {prev : Option α} {text : List α} {n : ℕ}
    (h : n ∈ rounds step greedy fuel least most prev text) : motive text n := by
  have hstop : ∀ (least : ℕ) (text : List α), ∀ m ∈ (if least = 0 then [0] else []),
      motive text m := by
    intro least text m hm
    split_ifs at hm
    · exact List.mem_singleton.mp hm ▸ stop text
    · exact absurd hm List.not_mem_nil
  induction fuel generalizing least most prev text n with
  | zero => exact hstop least text n h
  | succ fuel ih =>
    have hmore : ∀ m ∈ (step prev text).flatMap fun n =>
        if n = 0 ∧ least = 0 then []
        else (rounds step greedy fuel (least - 1) (most.map (· - 1))
          (lastOf prev (text.take n)) (text.drop n)).map (n + ·), motive text m := by
      intro m hm
      obtain ⟨first, hfirst, hm⟩ := List.mem_flatMap.mp hm
      split_ifs at hm
      · exact absurd hm List.not_mem_nil
      · obtain ⟨rest, hrest, rfl⟩ := List.mem_map.mp hm
        exact more prev text first rest hfirst (ih hrest)
    rw [rounds] at h
    -- the order in which the lengths are tried does not matter
    have hcases : n ∈ (if most = some 0 then [] else (step prev text).flatMap fun n =>
        if n = 0 ∧ least = 0 then []
        else (rounds step greedy fuel (least - 1) (most.map (· - 1))
          (lastOf prev (text.take n)) (text.drop n)).map (n + ·)) ∨
        n ∈ (if least = 0 then [0] else []) := by
      cases greedy with
      | true => exact List.mem_append.mp h
      | false => exact (List.mem_append.mp h).symm
    obtain hn | hn := hcases
    · split_ifs at hn
      · exact absurd hn List.not_mem_nil
      · exact hmore n hn
    · exact hstop least text n hn

theorem le_length_of_mem_rounds {step : Option α → List α → List ℕ} {greedy : Bool}
    (hstep : ∀ prev text, ∀ n ∈ step prev text, n ≤ text.length) {fuel least : ℕ}
    {most : Option ℕ} {prev : Option α} {text : List α} {n : ℕ}
    (h : n ∈ rounds step greedy fuel least most prev text) : n ≤ text.length := by
  refine rounds_induction (motive := fun text n => n ≤ text.length) (fun _ => Nat.zero_le _)
    (fun prev text n m hn hm => ?_) h
  have hle := hstep prev text n hn
  rw [List.length_drop] at hm
  omega

/-- **Enough rounds.** As many rounds as are needed and the text has characters are enough. -/
theorem rounds_stable {step : Option α → List α → List ℕ} (greedy : Bool)
    (hstep : ∀ prev text, ∀ n ∈ step prev text, n ≤ text.length) {fuel least : ℕ}
    (most : Option ℕ) (prev : Option α) {text : List α} (hfuel : least + text.length ≤ fuel) :
    rounds step greedy (fuel + 1) least most prev text =
      rounds step greedy fuel least most prev text := by
  induction fuel generalizing least most prev text with
  | zero =>
    obtain rfl : least = 0 := by omega
    have hnone : (step prev text).flatMap (fun n =>
        if n = 0 ∧ (0 : ℕ) = 0 then []
        else (rounds step greedy 0 (0 - 1) (most.map (· - 1)) (lastOf prev (text.take n))
          (text.drop n)).map (n + ·)) = [] := by
      refine List.flatMap_eq_nil_iff.mpr fun n hn => if_pos ?_
      have hle := hstep prev text n hn
      omega
    conv_lhs => rw [rounds, hnone, ite_self, if_pos rfl]
    cases greedy <;> rfl
  | succ fuel ih =>
    have hmore : (step prev text).flatMap (fun n =>
        if n = 0 ∧ least = 0 then []
        else (rounds step greedy (fuel + 1) (least - 1) (most.map (· - 1))
          (lastOf prev (text.take n)) (text.drop n)).map (n + ·)) =
        (step prev text).flatMap (fun n =>
          if n = 0 ∧ least = 0 then []
          else (rounds step greedy fuel (least - 1) (most.map (· - 1))
            (lastOf prev (text.take n)) (text.drop n)).map (n + ·)) := by
      refine List.flatMap_congr fun n hn => ?_
      by_cases hempty : n = 0 ∧ least = 0
      · rw [if_pos hempty, if_pos hempty]
      · -- the round has counted, or it has taken a character
        have hle := hstep prev text n hn
        rw [if_neg hempty, if_neg hempty, ih _ _ (by rw [List.length_drop]; omega)]
    rw [rounds, hmore]
    conv_rhs => rw [rounds]

/-- **A match lies in the text.** -/
theorem le_length_of_mem_ends {r : Regex α} {prev : Option α} {text : List α} {n : ℕ}
    (h : n ∈ r.ends prev text) : n ≤ text.length := by
  induction r generalizing prev text n with
  | empty => exact List.mem_singleton.mp h ▸ Nat.zero_le _
  | one cls =>
    cases text with
    | nil => exact absurd h List.not_mem_nil
    | cons c rest =>
      rw [ends] at h
      split_ifs at h
      · rw [List.mem_singleton.mp h, List.length_cons]
        omega
      · exact absurd h List.not_mem_nil
  | seq r s ihr ihs =>
    obtain ⟨first, hfirst, h⟩ := List.mem_flatMap.mp h
    obtain ⟨rest, hrest, rfl⟩ := List.mem_map.mp h
    have hfirst := ihr hfirst
    have hrest := ihs hrest
    rw [List.length_drop] at hrest
    omega
  | alt r s ihr ihs => exact (List.mem_append.mp h).elim (ihr ·) (ihs ·)
  | rep r least most greedy ih => exact le_length_of_mem_rounds (fun _ _ _ h => ih h) h
  | test p =>
    rw [ends] at h
    split_ifs at h
    · exact List.mem_singleton.mp h ▸ Nat.zero_le _
    · exact absurd h List.not_mem_nil
  | notAhead r =>
    rw [ends] at h
    split_ifs at h
    · exact List.mem_singleton.mp h ▸ Nat.zero_le _
    · exact absurd h List.not_mem_nil

/-- **What a scan finds lies in the text.** -/
theorem bounds_of_mem_findAll {r : Regex α} {prev : Option α} {skip pos : ℕ} {text : List α}
    {m : ℕ × ℕ} (h : m ∈ r.findAll prev skip pos text) :
    m.1 ≤ m.2 ∧ m.2 ≤ pos + text.length := by
  induction text generalizing prev skip pos with
  | nil =>
    rw [findAll] at h
    exact absurd h List.not_mem_nil
  | cons c text ih =>
    rw [List.length_cons]
    cases skip with
    | succ skip =>
      rw [findAll] at h
      have hm := ih h
      omega
    | zero =>
      rw [findAll] at h
      split at h
      · next n hn =>
        obtain rfl | h := List.mem_cons.mp h
        · have hlength := le_length_of_mem_ends (List.mem_of_mem_head? hn)
          rw [List.length_cons] at hlength
          omega
        · have hm := ih h
          omega
      · have hm := ih h
        omega

end Regex
