import Mathlib.Data.List.Forall2
import Mathlib.Order.Nat
import AnonReq.Foundation.Regex

/-!
# Matches of regular expressions

The parts of a text that an expression matches, between the character before them and the text
behind them, and what `re.search` finds.

* `matches_one_iff` to `matches_rep_iff`: the parts that each kind of expression matches.
* `matches_word_iff`, `matches_cls_iff`: words, and characters of a class one after the other.
* `matches_start_iff`, `matches_finish_iff`: the anchors `^` and `$`.
* `search_iff`: a search finds something exactly if some part of the text is matched.
* `exists_of_mem_splits`: the parts of a match.
-/

namespace Regex

open Substitution (lastOf lastOf_nil lastOf_cons lastOf_append)

universe v

variable {α : Type v} {prev : Option α} {part back : List α}

/-- An expression matches a part of a text. -/
def Matches (r : Regex α) (prev : Option α) (part back : List α) : Prop :=
  part.length ∈ r.ends prev (part ++ back)

/-- `re.search`: an expression matches somewhere in a text. -/
def search (r : Regex α) : Option α → List α → Bool
  | prev, [] => !(r.ends prev []).isEmpty
  | prev, c :: text => !(r.ends prev (c :: text)).isEmpty || search r (some c) text

/-! ### What each expression matches -/

theorem matches_empty_iff : Matches (.empty : Regex α) prev part back ↔ part = [] := by
  rw [Matches, ends, List.mem_singleton, List.length_eq_zero_iff]

theorem matches_one_iff {cls : α → Bool} :
    Matches (.one cls) prev part back ↔ ∃ c, cls c = true ∧ part = [c] := by
  rw [Matches]
  cases part with
  | nil =>
    refine iff_of_false (fun h => ?_) (by simp)
    cases back with
    | nil => exact absurd h List.not_mem_nil
    | cons c back =>
      rw [List.nil_append, ends] at h
      split_ifs at h
      · exact absurd (List.mem_singleton.mp h) (by simp)
      · exact absurd h List.not_mem_nil
  | cons c part =>
    rw [List.cons_append, ends]
    split_ifs with hc
    · rw [List.mem_singleton, List.length_cons, Nat.add_eq_right, List.length_eq_zero_iff]
      simp [hc]
    · simp [hc]

variable {r : Regex α} {text : List α}

/-- A number in the list of lengths is the length of a part. -/
theorem mem_ends_iff {n : ℕ} :
    n ∈ r.ends prev text ↔ ∃ a b, text = a ++ b ∧ a.length = n ∧ Matches r prev a b := by
  constructor
  · intro h
    have hlength : (text.take n).length = n :=
      List.length_take_of_le (le_length_of_mem_ends h)
    refine ⟨text.take n, text.drop n, (List.take_append_drop n text).symm, hlength, ?_⟩
    rwa [Matches, List.take_append_drop, hlength]
  · rintro ⟨a, b, rfl, rfl, h⟩
    exact h

theorem matches_seq_iff {r s : Regex α} :
    Matches (.seq r s) prev part back ↔ ∃ a b, part = a ++ b ∧ Matches r prev a (b ++ back) ∧
      Matches s (lastOf prev a) b back := by
  rw [Matches, ends, List.mem_flatMap]
  constructor
  · rintro ⟨n, hn, h⟩
    obtain ⟨m, hm, hlength⟩ := List.mem_map.mp h
    obtain ⟨a, rest, htext, rfl, ha⟩ := mem_ends_iff.mp hn
    rw [htext, List.take_left, List.drop_left] at hm
    obtain ⟨b, rest', hrest, rfl, hb⟩ := mem_ends_iff.mp hm
    rw [hrest, ← List.append_assoc] at htext
    obtain ⟨rfl, rfl⟩ := List.append_inj htext (by rw [List.length_append, hlength])
    exact ⟨a, b, rfl, hrest ▸ ha, hb⟩
  · rintro ⟨a, b, rfl, ha, hb⟩
    rw [List.append_assoc]
    refine ⟨a.length, ha, List.mem_map.mpr ⟨b.length, ?_, (List.length_append).symm⟩⟩
    rw [List.take_left, List.drop_left]
    exact hb

theorem matches_alt_iff {r s : Regex α} :
    Matches (.alt r s) prev part back ↔ Matches r prev part back ∨ Matches s prev part back := by
  rw [Matches, ends, List.mem_append]
  rfl

theorem matches_test_iff {p : Option α → Option α → Bool} :
    Matches (.test p) prev part back ↔ part = [] ∧ p prev back.head? = true := by
  rw [Matches, ends]
  constructor
  · intro h
    split_ifs at h with hp
    · obtain rfl := List.length_eq_zero_iff.mp (List.mem_singleton.mp h)
      exact ⟨rfl, hp⟩
    · exact absurd h List.not_mem_nil
  · rintro ⟨rfl, hp⟩
    rw [List.nil_append, if_pos hp]
    exact List.mem_singleton.mpr rfl

/-- An expression matches nothing at the front of a text exactly if it has no lengths there. -/
theorem ends_eq_nil_iff : r.ends prev text = [] ↔ ∀ a b, text = a ++ b → ¬ Matches r prev a b := by
  rw [List.eq_nil_iff_forall_not_mem]
  constructor
  · rintro h a b rfl hmatch
    exact h a.length hmatch
  · intro h n hn
    obtain ⟨a, b, htext, -, hmatch⟩ := mem_ends_iff.mp hn
    exact h a b htext hmatch

theorem matches_notAhead_iff :
    Matches (.notAhead r) prev part back ↔
      part = [] ∧ ∀ a b, back = a ++ b → ¬ Matches r prev a b := by
  rw [Matches, ends, ← ends_eq_nil_iff]
  constructor
  · intro h
    split_ifs at h with hempty
    · obtain rfl := List.length_eq_zero_iff.mp (List.mem_singleton.mp h)
      exact ⟨rfl, List.isEmpty_iff.mp hempty⟩
    · exact absurd h List.not_mem_nil
  · rintro ⟨rfl, hnone⟩
    rw [List.nil_append, hnone]
    exact List.mem_singleton.mpr rfl

/-! ### Repetitions -/

/-- With enough fuel there are all rounds. -/
theorem rounds_eq_of_le {step : Option α → List α → List ℕ} (greedy : Bool)
    (hstep : ∀ prev text, ∀ n ∈ step prev text, n ≤ text.length) {fuel least : ℕ} (most : Option ℕ)
    (prev : Option α) (hfuel : least + text.length ≤ fuel) :
    rounds step greedy fuel least most prev text =
      rounds step greedy (least + text.length) least most prev text := by
  induction hfuel with
  | refl => rfl
  | step hle ih => rw [rounds_stable greedy hstep most prev hle, ih]

/-- **A repetition** matches nothing, or what its expression matches and then what is left to
repeat. -/
theorem matches_rep_iff {least : ℕ} {most : Option ℕ} {greedy : Bool} :
    Matches (.rep r least most greedy) prev part back ↔
      (least = 0 ∧ part = []) ∨
        (most ≠ some 0 ∧ ∃ a b, part = a ++ b ∧ ¬ (a = [] ∧ least = 0) ∧
          Matches r prev a (b ++ back) ∧
            Matches (.rep r (least - 1) (most.map (· - 1)) greedy) (lastOf prev a) b back) := by
  have hstep : ∀ prev text, ∀ n ∈ r.ends prev text, n ≤ text.length :=
    fun _ _ _ h => le_length_of_mem_ends h
  rw [Matches, ends]
  obtain ⟨text, htext⟩ : ∃ text, text = part ++ back := ⟨_, rfl⟩
  rw [← htext]
  -- one more unit of fuel, so that there is a first round to look at
  rw [← rounds_stable greedy hstep most prev (Nat.le_refl _), rounds]
  have hstop : part.length ∈ (if least = 0 then [0] else []) ↔ least = 0 ∧ part = [] := by
    split_ifs with h <;> simp [h]
  have hmore : (part.length ∈ if most = some 0 then [] else (r.ends prev text).flatMap fun n =>
        if n = 0 ∧ least = 0 then []
        else (rounds r.ends greedy (least + text.length) (least - 1) (most.map (· - 1))
          (lastOf prev (text.take n)) (text.drop n)).map (n + ·)) ↔
      most ≠ some 0 ∧ ∃ a b, part = a ++ b ∧ ¬ (a = [] ∧ least = 0) ∧
        Matches r prev a (b ++ back) ∧
          Matches (.rep r (least - 1) (most.map (· - 1)) greedy) (lastOf prev a) b back := by
    split_ifs with hmost
    · simp [hmost]
    rw [and_iff_right hmost, List.mem_flatMap]
    constructor
    · rintro ⟨n, hn, h⟩
      split_ifs at h with hempty
      · exact absurd h List.not_mem_nil
      obtain ⟨m, hm, hlength⟩ := List.mem_map.mp h
      obtain ⟨a, rest, hsplit, rfl, ha⟩ := mem_ends_iff.mp hn
      rw [hsplit, List.take_left, List.drop_left, rounds_eq_of_le greedy hstep _ _
        (by rw [List.length_append]; omega)] at hm
      obtain ⟨b, rest', hrest, rfl, hb⟩ :=
        (mem_ends_iff (r := .rep r (least - 1) (most.map (· - 1)) greedy)).mp hm
      rw [htext, hrest, ← List.append_assoc] at hsplit
      obtain ⟨rfl, rfl⟩ := List.append_inj hsplit (by rw [List.length_append, hlength])
      rw [List.length_eq_zero_iff] at hempty
      exact ⟨a, b, rfl, hempty, hrest ▸ ha, hb⟩
    · rintro ⟨a, b, rfl, hempty, ha, hb⟩
      rw [List.append_assoc] at htext
      subst htext
      refine ⟨a.length, ha, ?_⟩
      rw [if_neg fun h => hempty ⟨List.length_eq_zero_iff.mp h.1, h.2⟩, List.take_left,
        List.drop_left]
      refine List.mem_map.mpr ⟨b.length, ?_, List.length_append.symm⟩
      have hfuel : (least - 1) + (b ++ back).length ≤ least + (a ++ (b ++ back)).length := by
        have hlength : (a ++ (b ++ back)).length = a.length + (b ++ back).length :=
          List.length_append
        omega
      rw [rounds_eq_of_le greedy hstep _ _ hfuel]
      exact hb
  rw [or_comm, ← hstop, ← hmore]
  cases greedy with
  | true => exact List.mem_append
  | false => exact List.mem_append.trans or_comm

/-- **Characters of a class**, so many of them. -/
theorem matches_cls_iff {cls : α → Bool} {least : ℕ} {most : Option ℕ} {greedy : Bool} :
    Matches (.rep (.one cls) least most greedy) prev part back ↔
      (∀ c ∈ part, cls c = true) ∧ least ≤ part.length ∧ ∀ m ∈ most, part.length ≤ m := by
  induction part generalizing prev least most with
  | nil =>
    rw [matches_rep_iff]
    constructor
    · rintro (⟨rfl, -⟩ | ⟨-, a, b, hsplit, -, ha, -⟩)
      · exact ⟨fun c hc => absurd hc List.not_mem_nil, le_rfl, fun m _ => Nat.zero_le m⟩
      · obtain ⟨c, -, rfl⟩ := matches_one_iff.mp ha
        exact absurd hsplit (by simp)
    · rintro ⟨-, hleast, -⟩
      exact Or.inl ⟨Nat.le_zero.mp hleast, rfl⟩
  | cons c part ih =>
    rw [matches_rep_iff, List.forall_mem_cons, List.length_cons]
    constructor
    · rintro (⟨-, hnil⟩ | ⟨hmost, a, b, hsplit, -, ha, hb⟩)
      · exact absurd hnil (List.cons_ne_nil c part)
      · obtain ⟨d, hd, rfl⟩ := matches_one_iff.mp ha
        obtain ⟨rfl, rfl⟩ := List.cons.inj hsplit
        obtain ⟨hall, hleast, hle⟩ := ih.mp hb
        refine ⟨⟨hd, hall⟩, by omega, fun m hm => ?_⟩
        obtain rfl := Option.mem_def.mp hm
        have hpos : m ≠ 0 := fun h => hmost (h ▸ rfl)
        have hrest := hle (m - 1) rfl
        omega
    · rintro ⟨⟨hc, hall⟩, hleast, hle⟩
      refine Or.inr ⟨fun h => ?_, [c], part, rfl, fun h => List.cons_ne_nil c [] h.1,
        matches_one_iff.mpr ⟨c, hc, rfl⟩, ih.mpr ⟨hall, by omega, fun m hm => ?_⟩⟩
      · exact absurd (hle 0 h) (by omega)
      · obtain ⟨m', hm', rfl⟩ := Option.map_eq_some_iff.mp hm
        have hrest := hle m' hm'
        omega

/-- `r?` -/
theorem matches_opt_iff :
    Matches (opt r) prev part back ↔ part = [] ∨ Matches r prev part back := by
  rw [opt, matches_rep_iff]
  constructor
  · rintro (⟨-, h⟩ | ⟨-, a, b, rfl, -, ha, hb⟩)
    · exact Or.inl h
    · have hlast := matches_rep_iff.mp hb
      obtain ⟨-, rfl⟩ := hlast.resolve_right fun h => h.1 rfl
      rw [List.append_nil]
      exact Or.inr ha
  · intro h
    by_cases hpart : part = []
    · exact Or.inl ⟨rfl, hpart⟩
    · refine Or.inr ⟨by simp, part, [], (List.append_nil part).symm, fun h => hpart h.1,
        h.resolve_left hpart, matches_rep_iff.mpr (Or.inl ⟨rfl, rfl⟩)⟩

/-! ### Words and choices -/

theorem matches_seqs_cons_iff {rs : List (Regex α)} :
    Matches (seqs (r :: rs)) prev part back ↔ ∃ a b, part = a ++ b ∧
      Matches r prev a (b ++ back) ∧ Matches (seqs rs) (lastOf prev a) b back :=
  matches_seq_iff

theorem matches_seqs_nil_iff : Matches (seqs ([] : List (Regex α))) prev part back ↔ part = [] :=
  matches_empty_iff

/-- **A word** matches what is the same, character by character. -/
theorem matches_word_iff {same : α → α → Bool} {chars : List α} :
    Matches (word same chars) prev part back ↔
      List.Forall₂ (fun c d => same c d = true) chars part := by
  induction chars generalizing prev part with
  | nil => rw [word, List.map_nil, matches_seqs_nil_iff, List.forall₂_nil_left_iff]
  | cons c chars ih =>
    rw [word, List.map_cons, matches_seqs_cons_iff, List.forall₂_cons_left_iff]
    constructor
    · rintro ⟨a, b, rfl, ha, hb⟩
      obtain ⟨d, hd, rfl⟩ := matches_one_iff.mp ha
      exact ⟨d, b, hd, ih.mp hb, rfl⟩
    · rintro ⟨d, b, hd, hb, rfl⟩
      exact ⟨[d], b, rfl, matches_one_iff.mpr ⟨d, hd, rfl⟩, ih.mpr hb⟩

/-- One of some expressions. -/
theorem matches_alts_iff {rs : List (Regex α)} {last : Regex α} :
    Matches (alts rs last) prev part back ↔
      (∃ r ∈ rs, Matches r prev part back) ∨ Matches last prev part back := by
  induction rs with
  | nil => simp [alts]
  | cons r rs ih => rw [alts, matches_alt_iff, ih, List.exists_mem_cons_iff, or_assoc]

/-! ### Anchors -/

/-- `^` -/
def start : Regex α := .test fun before _ => before.isNone

/-- `$`: at the end, or before a line feed at the end. -/
def finish : Regex Char :=
  .notAhead (.alt (.one fun c => c != '\n') (.seq (.one fun _ => true) (.one fun _ => true)))

theorem matches_start_iff : Matches (start : Regex α) prev part back ↔ part = [] ∧ prev = none := by
  rw [start, matches_test_iff, Option.isNone_iff_eq_none]

theorem matches_finish_iff {prev : Option Char} {part back : List Char} :
    Matches finish prev part back ↔ part = [] ∧ (back = [] ∨ back = ['\n']) := by
  rw [finish, matches_notAhead_iff]
  refine and_congr_right fun _ => ⟨fun h => ?_, ?_⟩
  · cases back with
    | nil => exact Or.inl rfl
    | cons c back =>
      refine Or.inr ?_
      have hc : c = '\n' := by
        by_contra hne
        refine h [c] back rfl (matches_alt_iff.mpr (Or.inl (matches_one_iff.mpr ⟨c, ?_, rfl⟩)))
        exact bne_iff_ne.mpr hne
      cases back with
      | nil => rw [hc]
      | cons d back =>
        refine absurd (matches_alt_iff.mpr (Or.inr ?_)) (h [c, d] back rfl)
        exact matches_seq_iff.mpr ⟨[c], [d], rfl, matches_one_iff.mpr ⟨c, rfl, rfl⟩,
          matches_one_iff.mpr ⟨d, rfl, rfl⟩⟩
  · rintro hback a b hsplit hmatch
    have hlength : back.length ≤ 1 := by
      obtain rfl | rfl := hback <;> decide
    obtain hone | htwo := matches_alt_iff.mp hmatch
    · obtain ⟨c, hc, rfl⟩ := matches_one_iff.mp hone
      obtain rfl | rfl := hback
      · exact absurd hsplit (by simp)
      · obtain ⟨rfl, -⟩ := List.cons.inj hsplit
        exact absurd hc (by decide)
    · obtain ⟨_, _, rfl, hfirst, hsecond⟩ := matches_seq_iff.mp htwo
      obtain ⟨c, -, rfl⟩ := matches_one_iff.mp hfirst
      obtain ⟨d, -, rfl⟩ := matches_one_iff.mp hsecond
      rw [hsplit] at hlength
      exact absurd hlength (by simp)

/-! ### Searching -/

/-- Something is matched at the front of a text. -/
theorem isEmpty_ends_iff :
    (!(r.ends prev text).isEmpty) = true ↔ ∃ a b, text = a ++ b ∧ Matches r prev a b := by
  rw [Bool.not_eq_true', ← Bool.not_eq_true, List.isEmpty_iff, ends_eq_nil_iff]
  simp only [not_forall, not_not, exists_prop]

/-- **A search** finds something exactly if some part of the text is matched. -/
theorem search_iff :
    r.search prev text = true ↔ ∃ front part back, text = front ++ (part ++ back) ∧
      Matches r (lastOf prev front) part back := by
  induction text generalizing prev with
  | nil =>
    rw [search, isEmpty_ends_iff]
    constructor
    · rintro ⟨a, b, htext, h⟩
      exact ⟨[], a, b, htext, h⟩
    · rintro ⟨front, part, back, htext, h⟩
      obtain ⟨rfl, hrest⟩ := List.append_eq_nil_iff.mp htext.symm
      exact ⟨part, back, hrest.symm, h⟩
  | cons c text ih =>
    rw [search, Bool.or_eq_true, isEmpty_ends_iff, ih]
    constructor
    · rintro (⟨a, b, htext, h⟩ | ⟨front, part, back, rfl, h⟩)
      · exact ⟨[], a, b, htext, h⟩
      · exact ⟨c :: front, part, back, rfl, by rwa [lastOf_cons]⟩
    · rintro ⟨front, part, back, htext, h⟩
      cases front with
      | nil => exact Or.inl ⟨part, back, htext, h⟩
      | cons d front =>
        obtain ⟨rfl, rfl⟩ := List.cons.inj htext
        exact Or.inr ⟨front, part, back, rfl, by rwa [lastOf_cons] at h⟩

/-- What starts at the front is searched there only. -/
theorem search_start_iff {rs : List (Regex α)} :
    (seqs (start :: rs)).search none text = true ↔
      ∃ part back, text = part ++ back ∧ Matches (seqs rs) none part back := by
  rw [search_iff]
  simp only [matches_seqs_cons_iff, matches_start_iff]
  constructor
  · rintro ⟨front, _, back, htext, _, part, rfl, ⟨rfl, hfront⟩, hpart⟩
    rw [hfront] at hpart
    have hnil : front = [] := by
      cases front with
      | nil => rfl
      | cons c front => simp [lastOf, List.getLast?_cons] at hfront
    rw [hnil, List.nil_append, List.nil_append] at htext
    exact ⟨part, back, htext, hpart⟩
  · rintro ⟨part, back, htext, hpart⟩
    exact ⟨[], part, back, htext, [], part, rfl, ⟨rfl, rfl⟩, hpart⟩

/-! ### Groups -/

/-- **The parts of a match** of some expressions one after the other stand at the front of the text,
each matched by its expression. -/
theorem exists_of_mem_splits {rs : List (Regex α)} {parts : List (List α)}
    (h : parts ∈ splits rs prev text) :
    ∃ rest, text = parts.flatten ++ rest ∧
      List.Forall₂ (fun r part => ∃ before behind, Matches r before part behind) rs parts := by
  induction rs generalizing prev text parts with
  | nil =>
    obtain rfl := List.mem_singleton.mp h
    exact ⟨text, rfl, List.Forall₂.nil⟩
  | cons r rs ih =>
    obtain ⟨n, hn, h⟩ := List.mem_flatMap.mp h
    obtain ⟨parts, hparts, rfl⟩ := List.mem_map.mp h
    obtain ⟨a, b, rfl, rfl, ha⟩ := mem_ends_iff.mp hn
    rw [List.take_left, List.drop_left] at hparts
    obtain ⟨rest, rfl, hall⟩ := ih hparts
    rw [List.take_left]
    exact ⟨rest, (List.append_assoc a _ _).symm, List.Forall₂.cons ⟨_, _, ha⟩ hall⟩

end Regex
