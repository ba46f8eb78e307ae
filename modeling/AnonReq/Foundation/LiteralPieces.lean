import AnonReq.Foundation.Dict
import AnonReq.Foundation.Replace
import Mathlib.Data.List.Sections

/-!
# Literals that are replaced one after the other, as if at once

A text is cut into pieces, each of which is a literal or contains none. Replacing the literals one
after the other replaces the pieces at once, if no literal is found in a later one or in what a
literal is replaced by, and none is found over a cut, whichever pieces have been replaced.

* `replaceAll_piece`: what becomes of one piece. `replaceAll_prefix`: halfway it is as it was, or
  replaced.
* `Independent.replaceAll_flatten`: the pieces are replaced at once.
-/

namespace Substitution

variable {α : Type*} [DecidableEq α]

/-- What a piece is replaced by. -/
def restored (passes : List (List α × List α)) (piece : List α) : List α :=
  (Dict.get passes piece).getD piece

/-- The pieces of a text of which some have been replaced. -/
def mixtures (passes : List (List α × List α)) (pieces : List (List α)) :
    List (List (List α)) :=
  (pieces.map fun piece => [piece, restored passes piece]).sections

/-- Literals that do not meet. -/
structure Independent (passes : List (List α × List α)) : Prop where
  ne_nil : ∀ pass ∈ passes, pass.1 ≠ []
  /-- A literal is not found in a later one. -/
  order : passes.Pairwise fun pass later => ¬ pass.1 <:+: later.1
  /-- No literal is found in what a literal is replaced by. -/
  new : ∀ pass ∈ passes, ∀ other ∈ passes, ¬ pass.1 <:+: other.2

/-- Pieces that the literals can be replaced in one after the other. -/
structure Separated (passes : List (List α × List α)) (pieces : List (List α)) : Prop where
  /-- A piece is a literal, or no literal is found in it. -/
  piece : ∀ piece ∈ pieces,
    piece ∈ passes.map Prod.fst ∨ ∀ pass ∈ passes, ¬ pass.1 <:+: piece
  /-- No literal is found over a cut. -/
  unsplit : ∀ texts ∈ mixtures passes pieces, ∀ pass ∈ passes, Unsplit pass.1 pass.2 texts

variable {passes before : List (List α × List α)} {pieces : List (List α)}

theorem replaceAll_append (before after : List (List α × List α)) (text : List α) :
    replaceAll (before ++ after) text = replaceAll after (replaceAll before text) :=
  List.foldl_append

/-- Literals that are not found are not replaced. -/
theorem replaceAll_of_not_isInfix {text : List α} (hne : ∀ pass ∈ passes, pass.1 ≠ [])
    (h : ∀ pass ∈ passes, ¬ pass.1 <:+: text) : replaceAll passes text = text := by
  induction passes with
  | nil => rfl
  | cons pass passes ih =>
    obtain ⟨hpass, hne⟩ := List.forall_mem_cons.mp hne
    obtain ⟨hnot, h⟩ := List.forall_mem_cons.mp h
    rw [replaceAll_cons, replace_of_not_isInfix hpass hnot]
    exact ih hne h

/-- A literal is replaced by what replaces it. -/
theorem replace_self {old : List α} (hold : old ≠ []) (new : List α) :
    replace old new old = new := by
  have h : replace old new (old ++ []) = new ++ replace old new [] := replace_append_self hold []
  rwa [replace_nil_right hold, List.append_nil, List.append_nil] at h

/-- A piece without literals stays as it is. -/
theorem restored_of_not_isInfix {piece : List α} (hnot : ∀ pass ∈ passes, ¬ pass.1 <:+: piece) :
    restored passes piece = piece := by
  rw [restored, Dict.get_eq_none_iff.mpr, Option.getD_none]
  intro hmem
  obtain ⟨pass, hpass, rfl⟩ := List.mem_map.mp hmem
  exact hnot pass hpass List.infix_rfl

namespace Independent

variable (h : Independent passes)
include h

omit [DecidableEq α] in
theorem nodup : (passes.map Prod.fst).Nodup :=
  List.pairwise_map.mpr <| h.order.imp fun {pass later} hnot (heq : pass.1 = later.1) =>
    hnot (heq ▸ List.infix_rfl)

theorem restored_of_mem {pass : List α × List α} (hpass : pass ∈ passes) :
    restored passes pass.1 = pass.2 := by
  rw [restored, (Dict.get_eq_some_iff h.nodup).mpr hpass, Option.getD_some]

/-- **Halfway** a piece is as it was, or replaced. -/
theorem replaceAll_prefix (hstart : before <+: passes) {piece : List α}
    (hpiece : piece ∈ passes.map Prod.fst ∨ ∀ pass ∈ passes, ¬ pass.1 <:+: piece) :
    (replaceAll before piece = piece ∧ piece ∉ before.map Prod.fst) ∨
      replaceAll before piece = restored passes piece := by
  have hne : ∀ pass ∈ before, pass.1 ≠ [] := fun pass hpass =>
    h.ne_nil pass (hstart.subset hpass)
  by_cases hbefore : piece ∈ before.map Prod.fst
  · -- nothing before the literal is found in it, and nothing after it in what replaces it
    obtain ⟨pass, hpass, rfl⟩ := List.mem_map.mp hbefore
    obtain ⟨front, back, rfl⟩ := List.append_of_mem hpass
    obtain ⟨after, rfl⟩ := hstart
    have horder := List.pairwise_append.mp (List.pairwise_append.mp h.order).1
    have hfront : replaceAll front pass.1 = pass.1 := by
      refine replaceAll_of_not_isInfix (fun p hp => hne p (List.mem_append_left _ hp)) ?_
      exact fun p hp => horder.2.2 p hp pass List.mem_cons_self
    have hback : replaceAll back pass.2 = pass.2 := by
      have hmem : ∀ p ∈ back, p ∈ front ++ pass :: back := fun p hp =>
        List.mem_append_right _ (List.mem_cons_of_mem _ hp)
      refine replaceAll_of_not_isInfix (fun p hp => hne p (hmem p hp)) fun p hp => ?_
      exact h.new p (List.mem_append_left _ (hmem p hp)) pass (List.mem_append_left _ hpass)
    refine Or.inr ?_
    rw [h.restored_of_mem (List.mem_append_left _ hpass), replaceAll_append, hfront,
      replaceAll_cons, replace_self (hne pass hpass), hback]
  · refine Or.inl ⟨replaceAll_of_not_isInfix hne fun pass hpass => ?_, hbefore⟩
    obtain hmem | hnot := hpiece
    · obtain ⟨later, hlater, rfl⟩ := List.mem_map.mp hmem
      obtain ⟨after, rfl⟩ := hstart
      have hafter : later ∈ after := (List.mem_append.mp hlater).resolve_left fun hin =>
        hbefore (List.mem_map_of_mem hin)
      exact (List.pairwise_append.mp h.order).2.2 pass hpass later hafter
    · exact hnot pass (hstart.subset hpass)

/-- **One piece** is replaced by what replaces it. -/
theorem replaceAll_piece {piece : List α}
    (hpiece : piece ∈ passes.map Prod.fst ∨ ∀ pass ∈ passes, ¬ pass.1 <:+: piece) :
    replaceAll passes piece = restored passes piece := by
  obtain ⟨hsame, hnot⟩ | hrestored := h.replaceAll_prefix (List.prefix_refl passes) hpiece
  · rw [hsame, restored_of_not_isInfix (hpiece.resolve_left hnot)]
  · exact hrestored

/-- No literal is found over a cut when its turn comes. -/
theorem unsplitAll (hs : Separated passes pieces) {after : List (List α × List α)}
    (hpasses : before ++ after = passes) :
    UnsplitAll after (pieces.map (replaceAll before)) := by
  induction after generalizing before with
  | nil => trivial
  | cons pass after ih =>
    have hstart : before <+: passes := ⟨pass :: after, hpasses⟩
    refine ⟨hs.unsplit _ ?_ pass (hpasses ▸ List.mem_append_right _ List.mem_cons_self), ?_⟩
    · rw [mixtures, List.mem_sections, List.forall₂_map_left_iff, List.forall₂_map_right_iff,
        List.forall₂_same]
      intro piece hmem
      obtain ⟨hsame, -⟩ | hrestored := h.replaceAll_prefix hstart (hs.piece piece hmem)
      · rw [hsame]
        exact List.mem_cons_self
      · rw [hrestored]
        exact List.mem_cons_of_mem _ (List.mem_singleton_self _)
    · have hstep : (pieces.map (replaceAll before)).map (replace pass.1 pass.2) =
          pieces.map (replaceAll (before ++ [pass])) := by
        rw [List.map_map]
        exact List.map_congr_left fun piece _ => (replaceAll_append before [pass] piece).symm
      rw [hstep]
      exact ih (by rw [List.append_assoc, List.singleton_append, hpasses])

/-- **The pieces are replaced at once.** -/
theorem replaceAll_flatten (hs : Separated passes pieces) :
    replaceAll passes pieces.flatten = (pieces.map (restored passes)).flatten := by
  have hunsplit := h.unsplitAll hs (List.nil_append passes)
  have hstart : pieces.map (replaceAll ([] : List (List α × List α))) = pieces :=
    List.map_id pieces
  rw [hstart] at hunsplit
  rw [Substitution.replaceAll_flatten hunsplit]
  exact congrArg List.flatten (List.map_congr_left fun piece hmem =>
    h.replaceAll_piece (hs.piece piece hmem))

end Independent

end Substitution
