import Mathlib.Data.List.Infix

/-!
# Patterns

A pattern is a sequence of items. An item is a class of characters: it takes as many of them as it
can, between two bounds, and gives some of them back where the rest of the pattern matches only
then. The lengths of the matches at a position are listed in the order in which they are tried.
-/

namespace Pattern

variable {α : Type*}

/-- One item of a pattern: characters of a class, at least `least` and at most `most` of them. -/
structure Item (α : Type*) where
  cls : α → Bool
  least : ℕ := 1
  most : Option ℕ := some 1

/-- How many characters an item takes at the front of a text, the most first. -/
def Item.counts (item : Item α) (text : List α) : List ℕ :=
  let run := (text.takeWhile item.cls).length
  let most := (item.most.map (min run)).getD run
  (List.range' item.least (most + 1 - item.least)).reverse

/-- The lengths of the matches at the front of a text, the preferred one first. -/
def lengths : List (Item α) → List α → List ℕ
  | [], _ => [0]
  | item :: items, text =>
    (item.counts text).flatMap fun n => (lengths items (text.drop n)).map (n + ·)

/-- The pattern matches somewhere in a text, with an accepted text after the match. -/
def search (items : List (Item α)) (accept : List α → Bool) (text : List α) : Bool :=
  text.tails.any fun s => (lengths items s).any fun n => accept (s.drop n)

/-! ### What a pattern matches -/

/-- An item takes all of a text. -/
def Item.Takes (item : Item α) (part : List α) : Prop :=
  (∀ c ∈ part, item.cls c = true) ∧ item.least ≤ part.length ∧ ∀ m ∈ item.most, part.length ≤ m

/-- A pattern matches a text in whole. -/
def Matches : List (Item α) → List α → Prop
  | [], part => part = []
  | item :: items, part => ∃ a b, part = a ++ b ∧ item.Takes a ∧ Matches items b

variable {items : List (Item α)}

/-- An item for one character. -/
theorem matches_one_iff {cls : α → Bool} {part : List α} :
    Matches ({ cls := cls } :: items) part ↔
      ∃ c rest, part = c :: rest ∧ cls c = true ∧ Matches items rest := by
  constructor
  · rintro ⟨a, b, rfl, ⟨hcls, hleast, hmost⟩, hrest⟩
    obtain ⟨c, rfl⟩ := List.length_eq_one_iff.mp (Nat.le_antisymm (hmost 1 rfl) hleast)
    exact ⟨c, b, rfl, hcls c List.mem_cons_self, hrest⟩
  · rintro ⟨c, rest, rfl, hcls, hrest⟩
    refine ⟨[c], rest, rfl, ⟨List.forall_mem_singleton.mpr hcls, le_refl 1, fun m hm => ?_⟩, hrest⟩
    exact (Option.some.inj hm).le

theorem le_length_takeWhile_iff {p : α → Bool} {text : List α} {n : ℕ} :
    n ≤ (text.takeWhile p).length ↔ n ≤ text.length ∧ ∀ c ∈ text.take n, p c = true := by
  induction text generalizing n with
  | nil => simp
  | cons d text ih =>
    obtain rfl | ⟨n, rfl⟩ : n = 0 ∨ ∃ k, n = k + 1 := by
      cases n with
      | zero => exact Or.inl rfl
      | succ k => exact Or.inr ⟨k, rfl⟩
    · simp
    · by_cases hd : p d = true
      · simp [hd, ih]
      · simp [hd]

theorem Item.mem_counts {item : Item α} {text : List α} {n : ℕ} :
    n ∈ item.counts text ↔ n ≤ text.length ∧ item.Takes (text.take n) := by
  have hbounds : n ∈ item.counts text ↔
      item.least ≤ n ∧ n ≤ (text.takeWhile item.cls).length ∧ ∀ m ∈ item.most, n ≤ m := by
    obtain ⟨cls, least, most⟩ := item
    rw [counts, List.mem_reverse, List.mem_range'_1]
    cases most with
    | none => simp; omega
    | some m => simp; omega
  rw [hbounds, le_length_takeWhile_iff, Takes]
  constructor
  · rintro ⟨hleast, ⟨hlength, hcls⟩, hmost⟩
    rw [List.length_take_of_le hlength]
    exact ⟨hlength, hcls, hleast, hmost⟩
  · rintro ⟨hlength, hcls, hleast, hmost⟩
    rw [List.length_take_of_le hlength] at hleast hmost
    exact ⟨hleast, ⟨hlength, hcls⟩, hmost⟩

/-- **The lengths of the matches** at the front of a text. -/
theorem mem_lengths_iff {text : List α} {n : ℕ} :
    n ∈ lengths items text ↔ n ≤ text.length ∧ Matches items (text.take n) := by
  induction items generalizing text n with
  | nil =>
    rw [lengths, List.mem_singleton, Matches, List.take_eq_nil_iff]
    constructor
    · rintro rfl
      exact ⟨Nat.zero_le _, Or.inl rfl⟩
    · rintro ⟨hlength, rfl | rfl⟩
      · rfl
      · exact Nat.le_zero.mp hlength
  | cons item items ih =>
    simp only [lengths, List.mem_flatMap, List.mem_map, Item.mem_counts, ih]
    constructor
    · rintro ⟨k, ⟨hk, htakes⟩, m, ⟨hm, hmatches⟩, rfl⟩
      rw [List.length_drop] at hm
      exact ⟨by omega, text.take k, (text.drop k).take m, List.take_add, htakes, hmatches⟩
    · rintro ⟨hlength, a, b, hsplit, htakes, hmatches⟩
      have htext : text = a ++ (b ++ text.drop n) := by
        rw [← List.append_assoc, ← hsplit, List.take_append_drop]
      have htotal : n = a.length + b.length := by
        rw [← List.length_append, ← hsplit, List.length_take_of_le hlength]
      generalize text.drop n = rest at htext
      subst htext
      refine ⟨a.length, ⟨by simp, ?_⟩, b.length, ⟨by simp, ?_⟩, htotal.symm⟩
      · rwa [List.take_left]
      · rwa [List.drop_left, List.take_left]

/-- **What a search finds**: a match with an accepted text after it. -/
theorem search_eq_true_iff {accept : List α → Bool} {text : List α} :
    search items accept text = true ↔
      ∃ front part back, text = front ++ part ++ back ∧ Matches items part ∧
        accept back = true := by
  simp only [search, List.any_eq_true, List.mem_tails, mem_lengths_iff]
  constructor
  · rintro ⟨s, ⟨front, rfl⟩, n, ⟨hn, hmatches⟩, haccept⟩
    exact ⟨front, s.take n, s.drop n, by rw [List.append_assoc, List.take_append_drop], hmatches,
      haccept⟩
  · rintro ⟨front, part, back, rfl, hmatches, haccept⟩
    refine ⟨part ++ back, ⟨front, by rw [List.append_assoc]⟩, part.length, ⟨by simp, ?_⟩, ?_⟩
    · rwa [List.take_left]
    · rwa [List.drop_left]

/-- What is found at the end of a text is found in the text. -/
theorem search_of_suffix {accept : List α → Bool} {s text : List α} (hsuffix : s <:+ text)
    (h : search items accept s = true) :
    search items accept text = true := by
  obtain ⟨before, rfl⟩ := hsuffix
  obtain ⟨front, part, back, rfl, hmatches, haccept⟩ := search_eq_true_iff.mp h
  exact search_eq_true_iff.mpr ⟨before ++ front, part, back, by simp, hmatches, haccept⟩

/-! ### Scans -/

/-- The matches in a text from left to right, each after the one before it, with their positions
from `pos` on, where the next `skip` characters belong to a match. The pattern takes at least one
character. -/
def findAll (items : List (Item α)) : ℕ → ℕ → List α → List (ℕ × ℕ)
  | _, _, [] => []
  | skip + 1, pos, _ :: text => findAll items skip (pos + 1) text
  | 0, pos, c :: text =>
    match (lengths items (c :: text)).head? with
    | some (n + 1) => (pos, pos + (n + 1)) :: findAll items n (pos + 1) text
    | _ => findAll items 0 (pos + 1) text

/-- What a scan finds lies in the text. -/
theorem bounds_of_mem_findAll {skip pos : ℕ} {text : List α} {m : ℕ × ℕ}
    (h : m ∈ findAll items skip pos text) : m.1 ≤ m.2 ∧ m.2 ≤ pos + text.length := by
  induction text generalizing skip pos with
  | nil =>
    rw [findAll] at h
    exact absurd h List.not_mem_nil
  | cons c text ih =>
    rw [List.length_cons]
    cases skip with
    | succ skip =>
      rw [findAll] at h
      have hm := ih h
      omega
    | zero =>
      rw [findAll] at h
      split at h
      · next n hn =>
        obtain rfl | h := List.mem_cons.mp h
        · have hlength := (mem_lengths_iff.mp (List.mem_of_mem_head? hn)).1
          rw [List.length_cons] at hlength
          omega
        · have hm := ih h
          omega
      · have hm := ih h
        omega

/-- **A scan finds a match** into which no match runs that begins before it. -/
theorem mem_findAll {front part back : List α} {skip pos : ℕ} (hpart : part ≠ [])
    (hfound : (lengths items (part ++ back)).head? = some part.length)
    (hbefore : ∀ a b, front = a ++ b → b ≠ [] →
      ∀ n ∈ lengths items (b ++ (part ++ back)), n ≤ b.length) (hskip : skip ≤ front.length) :
    (pos + front.length, pos + front.length + part.length) ∈
      findAll items skip pos (front ++ (part ++ back)) := by
  induction front generalizing skip pos with
  | nil =>
    obtain rfl : skip = 0 := Nat.le_zero.mp hskip
    obtain ⟨c, part, rfl⟩ := List.exists_cons_of_ne_nil hpart
    rw [List.nil_append, List.cons_append, findAll, ← List.cons_append, hfound, List.length_cons]
    exact List.mem_cons_self
  | cons c front ih =>
    have hlater : ∀ a b, front = a ++ b → b ≠ [] →
        ∀ n ∈ lengths items (b ++ (part ++ back)), n ≤ b.length :=
      fun a b hsplit => hbefore (c :: a) b (by rw [hsplit]; rfl)
    have hnext : ∀ k ≤ front.length,
        (pos + (c :: front).length, pos + (c :: front).length + part.length) ∈
          findAll items k (pos + 1) (front ++ (part ++ back)) := by
      intro k hk
      have hmem : (pos + 1 + front.length, pos + 1 + front.length + part.length) ∈
          findAll items k (pos + 1) (front ++ (part ++ back)) := ih hlater hk
      rwa [Nat.add_assoc pos 1, Nat.add_comm 1, ← List.length_cons (a := c)] at hmem
    rw [List.cons_append]
    cases skip with
    | succ skip =>
      rw [findAll]
      exact hnext skip (Nat.le_of_succ_le_succ hskip)
    | zero =>
      rw [findAll]
      have hfirst : ∀ n ∈ (lengths items (c :: (front ++ (part ++ back)))).head?,
          n ≤ (c :: front).length := fun n hn =>
        hbefore [] (c :: front) rfl (List.cons_ne_nil c front) n (List.mem_of_head? hn)
      split
      · next n hn => exact List.mem_cons_of_mem _ (hnext n (Nat.le_of_succ_le_succ (hfirst _ hn)))
      · exact hnext 0 (Nat.zero_le _)

end Pattern
