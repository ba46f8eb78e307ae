import AnonReq.Foundation.Substitution

/-!
# Replacing a literal

`replace` puts a new text in place of every occurrence of an old one, from left to right; an empty
old text occurs before every character and at the end.

* `replaceAll_flatten`: a text can be replaced piece by piece, if no occurrence lies over a cut.
* `replace_append_cons`: a character that the literal does not contain separates a text.
* `mem_replace`, `not_mem_replace`: characters a replacement keeps, and does not bring in.
-/

namespace Substitution

variable {α : Type*} [DecidableEq α]

/-- A literal at a position, and what it is replaced by. -/
def literalMatcher (old new : List α) : Matcher α := fun _ text =>
  if old.isPrefixOf text then some (old.length, new) else none

/-- `text.replace(old, new)`. -/
def replace (old new text : List α) : List α :=
  if old = [] then new ++ text.flatMap fun c => c :: new
  else subst (literalMatcher old new) none 0 text

/-- No match lies over the cut after any of the pieces. -/
def CleanCuts (m : Matcher α) : List (List α) → Prop
  | [] => True
  | piece :: pieces => CleanCut m none 0 piece pieces.flatten ∧ CleanCuts m pieces

/-- The literal is not found over a cut; an empty literal, which is found at every cut, is replaced
by nothing. -/
def Unsplit (old new : List α) (pieces : List (List α)) : Prop :=
  if old = [] then new = [] ∨ pieces.length = 1 else CleanCuts (literalMatcher old new) pieces

instance decidableCleanCuts (m : Matcher α) : ∀ pieces, Decidable (CleanCuts m pieces)
  | [] => inferInstanceAs (Decidable True)
  | _ :: pieces =>
    have := decidableCleanCuts m pieces
    inferInstanceAs (Decidable (_ ∧ _))

instance decidableUnsplit (old new : List α) (pieces : List (List α)) :
    Decidable (Unsplit old new pieces) := by
  unfold Unsplit
  infer_instance

variable {old new : List α}

theorem literalMatcher_of_starts {text : List α} (prev : Option α) (h : old <+: text) :
    literalMatcher old new prev text = some (old.length, new) :=
  if_pos (List.isPrefixOf_iff_prefix.mpr h)

theorem literalMatcher_of_not_starts {text : List α} (prev : Option α) (h : ¬ old <+: text) :
    literalMatcher old new prev text = none :=
  if_neg (mt List.isPrefixOf_iff_prefix.mp h)

/-- What stands before a text does not matter to a literal. -/
theorem subst_literalMatcher (prev : Option α) (text : List α) :
    subst (literalMatcher old new) prev 0 text = subst (literalMatcher old new) none 0 text :=
  subst_eq_of_prev rfl

theorem replace_of_ne_nil (h : old ≠ []) (text : List α) :
    replace old new text = subst (literalMatcher old new) none 0 text :=
  if_neg h

theorem replace_nil_left (new text : List α) :
    replace [] new text = new ++ text.flatMap fun c => c :: new :=
  if_pos rfl

/-- Nothing is replaced by nothing. -/
theorem replace_nil_nil (text : List α) : replace [] [] text = text := by
  rw [replace_nil_left, List.nil_append]
  exact List.flatMap_singleton' text

theorem replace_nil_right (h : old ≠ []) : replace old new [] = [] := by
  rw [replace_of_ne_nil h, subst]

/-! ### Cuts -/

/-- **Replacing piece by piece.** -/
theorem replace_flatten {pieces : List (List α)} (h : Unsplit old new pieces) :
    replace old new pieces.flatten = (pieces.map (replace old new)).flatten := by
  by_cases hold : old = []
  · subst hold
    rw [Unsplit, if_pos rfl] at h
    obtain rfl | hone := h
    · rw [replace_nil_nil, funext replace_nil_nil, List.map_id']
    · obtain ⟨piece, rfl⟩ := List.length_eq_one_iff.mp hone
      simp
  · rw [Unsplit, if_neg hold] at h
    induction pieces with
    | nil => exact replace_nil_right hold
    | cons piece pieces ih =>
      obtain ⟨hcut, hcuts⟩ := h
      rw [List.flatten_cons, List.map_cons, List.flatten_cons, ← ih hcuts, replace_of_ne_nil hold,
        subst_append hcut, subst_literalMatcher (lastOf none piece), ← replace_of_ne_nil hold,
        ← replace_of_ne_nil hold]

/-- Several literals, one after the other. -/
def replaceAll (passes : List (List α × List α)) (text : List α) : List α :=
  passes.foldl (fun text pass => replace pass.1 pass.2 text) text

/-- No literal is found over a cut, in the pieces as the literals before it have left them. -/
def UnsplitAll : List (List α × List α) → List (List α) → Prop
  | [], _ => True
  | pass :: passes, pieces => Unsplit pass.1 pass.2 pieces ∧
      UnsplitAll passes (pieces.map (replace pass.1 pass.2))

instance decidableUnsplitAll : ∀ (passes : List (List α × List α)) (pieces : List (List α)),
    Decidable (UnsplitAll passes pieces)
  | [], _ => inferInstanceAs (Decidable True)
  | pass :: passes, pieces =>
    have := decidableUnsplitAll passes (pieces.map (replace pass.1 pass.2))
    inferInstanceAs (Decidable (_ ∧ _))

theorem replaceAll_cons (pass : List α × List α) (passes : List (List α × List α))
    (text : List α) :
    replaceAll (pass :: passes) text = replaceAll passes (replace pass.1 pass.2 text) :=
  rfl

/-- **Replacing several literals piece by piece.** -/
theorem replaceAll_flatten {passes : List (List α × List α)} {pieces : List (List α)}
    (h : UnsplitAll passes pieces) :
    replaceAll passes pieces.flatten = (pieces.map (replaceAll passes)).flatten := by
  induction passes generalizing pieces with
  | nil =>
    have hid : replaceAll ([] : List (List α × List α)) = id := rfl
    rw [hid, List.map_id, id]
  | cons pass passes ih =>
    obtain ⟨hpass, hpasses⟩ := h
    rw [replaceAll_cons, replace_flatten hpass, ih hpasses, List.map_map]
    rfl

/-! ### What a replacement keeps -/

/-- A literal that does not occur in a text is not replaced in it. -/
theorem replace_of_not_isInfix {text : List α} (hold : old ≠ []) (h : ¬ old <:+: text) :
    replace old new text = text := by
  rw [replace_of_ne_nil hold]
  refine subst_eq_self fun pre s hs found hfound => ?_
  have hnot : ¬ old <+: s := fun hstarts =>
    h (hstarts.isInfix.trans (hs ▸ List.suffix_append pre s).isInfix)
  rw [literalMatcher_of_not_starts _ hnot] at hfound
  exact absurd hfound (Option.not_mem_none found)

/-- A character that the literal does not contain separates a text. -/
theorem replace_append_cons (hold : old ≠ []) {c : α} (hc : c ∉ old) (a b : List α) :
    replace old new (a ++ c :: b) = replace old new a ++ c :: replace old new b := by
  have hnone : ¬ old <+: c :: b := fun hstarts => by
    obtain ⟨d, rest, rfl⟩ := List.exists_cons_of_ne_nil hold
    obtain ⟨rfl, -⟩ := List.cons_prefix_cons.mp hstarts
    exact hc List.mem_cons_self
  have hcut : CleanCut (literalMatcher old new) none 0 a (c :: b) := by
    refine cleanCut_of_forall (fun pre s _ _ => ?_) (Nat.zero_le _)
    have hiff : old <+: s ++ c :: b ↔ old <+: s := by
      refine ⟨fun hstarts => ?_, fun hstarts => hstarts.trans (List.prefix_append s _)⟩
      obtain hle | hlt := Nat.lt_or_ge s.length old.length |>.symm
      · exact List.prefix_of_prefix_length_le hstarts (List.prefix_append s _) hle
      · -- A longer literal would contain the character after `s`.
        have hs : s ++ [c] <+: old :=
          List.prefix_of_prefix_length_le ⟨b, by simp⟩ hstarts <| by
            rw [List.length_append, List.length_singleton]
            exact hlt
        exact absurd (hs.subset (List.mem_append_right s List.mem_cons_self)) hc
    by_cases hstarts : old <+: s
    · rw [literalMatcher_of_starts _ hstarts, literalMatcher_of_starts _ (hiff.mpr hstarts)]
      refine ⟨rfl, fun found hfound => ?_⟩
      obtain rfl := Option.mem_some_iff.mp hfound
      exact hstarts.length_le
    · rw [literalMatcher_of_not_starts _ hstarts,
        literalMatcher_of_not_starts _ (mt hiff.mp hstarts)]
      exact ⟨rfl, fun found hfound => absurd hfound (Option.not_mem_none found)⟩
  rw [replace_of_ne_nil hold, subst_append hcut, subst_literalMatcher (lastOf none a),
    subst_cons_of_none (literalMatcher_of_not_starts none hnone), subst_literalMatcher (some c),
    ← replace_of_ne_nil hold, ← replace_of_ne_nil hold]

/-- A character that the literal does not contain is kept. -/
theorem mem_replace (hold : old ≠ []) {c : α} (hc : c ∉ old) {text : List α} (h : c ∈ text) :
    c ∈ replace old new text := by
  obtain ⟨a, b, rfl⟩ := List.append_of_mem h
  rw [replace_append_cons hold hc]
  exact List.mem_append_right _ List.mem_cons_self

/-- A character that neither the text nor the new text contains is not brought in. -/
theorem not_mem_replace {c : α} (hnew : c ∉ new) {text : List α} (h : c ∉ text) :
    c ∉ replace old new text := by
  have hsubst : ∀ (text : List α) (prev : Option α) (skip : ℕ), c ∉ text →
      c ∉ subst (literalMatcher old new) prev skip text := by
    intro text
    induction text with
    | nil => exact fun _ _ h => h
    | cons d text ih =>
      intro prev skip h
      obtain ⟨hd, htext⟩ := not_or.mp (mt List.mem_cons.mpr h)
      obtain _ | skip := skip
      · by_cases hstarts : old <+: d :: text
        · rw [subst_cons_of_some (literalMatcher_of_starts prev hstarts), List.mem_append, not_or]
          exact ⟨hnew, ih _ _ htext⟩
        · rw [subst_cons_of_none (literalMatcher_of_not_starts prev hstarts), List.mem_cons,
            not_or]
          exact ⟨hd, ih _ _ htext⟩
      · exact ih _ _ htext
  unfold replace
  split_ifs
  · simp only [List.mem_append, List.mem_flatMap, List.mem_cons, not_or, not_exists, not_and]
    exact ⟨hnew, fun d hd => ⟨fun hcd => h (hcd ▸ hd), hnew⟩⟩
  · exact hsubst text none 0 h

/-- A text without the first character of the literal is passed over. -/
theorem replace_append_of_not_mem {c : α} {rest a : List α} (ha : c ∉ a) (b : List α) :
    replace (c :: rest) new (a ++ b) = a ++ replace (c :: rest) new b := by
  rw [replace_of_ne_nil (List.cons_ne_nil c rest), replace_of_ne_nil (List.cons_ne_nil c rest)]
  suffices hprev : ∀ prev, subst (literalMatcher (c :: rest) new) prev 0 (a ++ b) =
      a ++ subst (literalMatcher (c :: rest) new) none 0 b from hprev none
  induction a with
  | nil => exact fun prev => subst_literalMatcher prev b
  | cons d a ih =>
    intro prev
    obtain ⟨hd, ha⟩ := not_or.mp (mt List.mem_cons.mpr ha)
    have hnot : ¬ c :: rest <+: d :: (a ++ b) := fun hstarts =>
      hd (List.cons_prefix_cons.mp hstarts).1
    rw [List.cons_append, subst_cons_of_none (literalMatcher_of_not_starts prev hnot), ih ha,
      List.cons_append]

/-- A literal at the front of a text is replaced. -/
theorem replace_append_self (hold : old ≠ []) (b : List α) :
    replace old new (old ++ b) = new ++ replace old new b := by
  have hmatch : literalMatcher old new none (old ++ b) = some (old.length, new) :=
    literalMatcher_of_starts none (List.prefix_append old b)
  rw [replace_of_ne_nil hold, subst_append_of_some hold hmatch, subst_literalMatcher,
    ← replace_of_ne_nil hold]

/-- A character in the place of which a text comes. -/
theorem replace_singleton (c : α) (new text : List α) :
    replace [c] new text = text.flatMap fun d => if d = c then new else [d] := by
  induction text with
  | nil => exact replace_nil_right (List.cons_ne_nil c [])
  | cons d text ih =>
    rw [List.flatMap_cons, ← ih]
    split_ifs with hd
    · rw [hd]
      exact replace_append_self (List.cons_ne_nil c []) text
    · have hnot : d ∉ [c] := fun hmem => hd (List.mem_singleton.mp hmem)
      have hcut := @replace_append_cons _ _ _ new (List.cons_ne_nil c []) d hnot [] text
      rwa [List.nil_append, replace_nil_right (List.cons_ne_nil c []), List.nil_append] at hcut

end Substitution
