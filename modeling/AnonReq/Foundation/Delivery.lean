import Mathlib.Data.List.Perm.Basic
import Mathlib.Data.List.Nodup

/-!
# Deliveries

Items that are put into a queue one after the other are taken from its front, and delivered or
lost; those at the front may also be evicted. Where they are is a `Line`, and `Move` says how one
line leads to another.

* `Tallies` is the invariant: the items that have been put are in one place each, and those that are
  delivered, in flight and queued stand in the order in which they were put. `Tallies.move` is its
  step lemma.
* `Tallies.existsUnique_place`: of items put once, each is in exactly one place.
-/

namespace Delivery

universe u

variable {α : Type u}

/-- Where the items are. -/
structure Line (α : Type u) where
  queued : List α
  inFlight : List α
  delivered : List α
  lost : List α
  evicted : List α

/-- One of the places. -/
inductive Place where
  | queued
  | inFlight
  | delivered
  | lost
  | evicted
deriving DecidableEq

namespace Line

/-- What is at a place. -/
def contents (l : Line α) : Place → List α
  | .queued => l.queued
  | .inFlight => l.inFlight
  | .delivered => l.delivered
  | .lost => l.lost
  | .evicted => l.evicted

/-- All that is at one of the places. -/
def everything (l : Line α) : List α :=
  l.evicted ++ l.lost ++ (l.delivered ++ l.inFlight ++ l.queued)

end Line

/-- How one line leads to another, with the items that are put. -/
inductive Move : Line α → List α → Line α → Prop where
  | stay (l : Line α) : Move l [] l
  | put (l : Line α) (x : α) : Move l [x] { l with queued := l.queued ++ [x] }
  | take (l : Line α) {x : α} {rest : List α} (hqueued : l.queued = x :: rest)
      (hfree : l.inFlight = []) : Move l [] { l with queued := rest, inFlight := [x] }
  | deliver (l : Line α) {x : α} (hflight : l.inFlight = [x]) :
      Move l [] { l with inFlight := [], delivered := l.delivered ++ [x] }
  | lose (l : Line α) {x : α} (hflight : l.inFlight = [x]) :
      Move l [] { l with inFlight := [], lost := l.lost ++ [x] }
  | evict (l : Line α) {x : α} {rest : List α} (hqueued : l.queued = x :: rest) :
      Move l [] { l with queued := rest, evicted := l.evicted ++ [x] }

/-- The items that were put are in one place each, and in order where none is missing. -/
structure Tallies (puts : List α) (l : Line α) : Prop where
  perm : l.everything.Perm puts
  order : (l.delivered ++ l.inFlight ++ l.queued).Sublist puts

variable {puts : List α} {l l' : Line α}

/-- An item that goes to the front of what is behind it. -/
theorem perm_moved (a b c : List α) (x : α) : (a ++ x :: (b ++ c)).Perm (a ++ (b ++ x :: c)) :=
  List.Perm.append_left a List.perm_middle.symm

/-- **A move.** What is put comes to the end, and nothing else comes or goes. -/
theorem Tallies.move (h : Tallies puts l) {new : List α} (hmove : Move l new l') :
    Tallies (puts ++ new) l' := by
  obtain ⟨hperm, horder⟩ := h
  rw [Line.everything] at hperm
  cases hmove with
  | stay => exact ⟨by rwa [List.append_nil], by rwa [List.append_nil]⟩
  | put x =>
    refine ⟨?_, ?_⟩
    · simp only [Line.everything, ← List.append_assoc]
      simp only [← List.append_assoc] at hperm
      exact hperm.append_right [x]
    · rw [← List.append_assoc]
      exact horder.append (List.Sublist.refl [x])
  | @take x rest hqueued hfree =>
    rw [List.append_nil]
    rw [hqueued, hfree, List.append_nil, List.append_cons] at hperm horder
    exact ⟨hperm, horder⟩
  | @deliver x hflight =>
    rw [List.append_nil]
    rw [hflight] at hperm horder
    refine ⟨?_, ?_⟩
    · rwa [Line.everything, List.append_nil]
    · rwa [List.append_nil]
  | @lose x hflight =>
    rw [List.append_nil]
    rw [hflight] at hperm horder
    refine ⟨List.Perm.trans ?_ hperm, List.Sublist.trans ?_ horder⟩
    · -- the item leaves its place between those delivered and those queued
      simpa [Line.everything] using perm_moved (l.evicted ++ l.lost) l.delivered l.queued x
    · simp
  | @evict x rest hqueued =>
    rw [List.append_nil]
    rw [hqueued] at hperm horder
    refine ⟨List.Perm.trans ?_ hperm, List.Sublist.trans ?_ horder⟩
    · simpa [Line.everything] using
        perm_moved l.evicted (l.lost ++ (l.delivered ++ l.inFlight)) rest x
    · exact (List.Sublist.refl _).append (List.sublist_cons_self x rest)

/-- What is in two places stands twice among everything. -/
theorem Line.two_le_count [DecidableEq α] {x : α} {p q : Place} (hp : x ∈ l.contents p)
    (hq : x ∈ l.contents q) (hne : p ≠ q) : 2 ≤ l.everything.count x := by
  have hcount : ∀ place, x ∈ l.contents place → 0 < (l.contents place).count x := fun place h =>
    List.count_pos_iff.mpr h
  have hp := hcount p hp
  have hq := hcount q hq
  simp only [Line.everything, List.count_append]
  cases p <;> cases q <;> simp only [Line.contents] at hp hq <;>
    first | omega | exact absurd rfl hne

theorem Line.mem_everything_iff {x : α} : x ∈ l.everything ↔ ∃ place, x ∈ l.contents place := by
  simp only [Line.everything, List.mem_append]
  constructor
  · rintro ((h | h) | ((h | h) | h))
    exacts [⟨.evicted, h⟩, ⟨.lost, h⟩, ⟨.delivered, h⟩, ⟨.inFlight, h⟩, ⟨.queued, h⟩]
  · rintro ⟨place, h⟩
    cases place <;> simp only [Line.contents] at h <;> simp [h]

/-- Each place holds some of everything, in this order. -/
theorem Line.contents_sublist (l : Line α) (place : Place) :
    (l.contents place).Sublist l.everything := by
  simp only [Line.everything, List.append_assoc]
  cases place with
  | evicted => exact List.sublist_append_left _ _
  | lost => exact (List.sublist_append_left _ _).trans (List.sublist_append_right _ _)
  | delivered =>
    exact ((List.sublist_append_left _ _).trans (List.sublist_append_right _ _)).trans
      (List.sublist_append_right _ _)
  | inFlight =>
    exact (((List.sublist_append_left _ _).trans (List.sublist_append_right _ _)).trans
      (List.sublist_append_right _ _)).trans (List.sublist_append_right _ _)
  | queued =>
    exact (((List.sublist_append_right _ _).trans (List.sublist_append_right _ _)).trans
      (List.sublist_append_right _ _)).trans (List.sublist_append_right _ _)

/-- **One place.** Of items that were put once, each is in exactly one place. -/
theorem Tallies.existsUnique_place (h : Tallies puts l) (hnodup : puts.Nodup) {x : α}
    (hx : x ∈ puts) : ∃! place, x ∈ l.contents place := by
  classical
  obtain ⟨place, hplace⟩ := Line.mem_everything_iff.mp (h.perm.mem_iff.mpr hx)
  refine ⟨place, hplace, fun other hother => ?_⟩
  by_contra hne
  have htwice := Line.two_le_count hother hplace hne
  have honce := List.nodup_iff_count_le_one.mp (h.perm.nodup_iff.mpr hnodup) x
  omega

/-- In each place an item stands once. -/
theorem Tallies.nodup_contents (h : Tallies puts l) (hnodup : puts.Nodup) (place : Place) :
    (l.contents place).Nodup :=
  (h.perm.nodup_iff.mpr hnodup).sublist (l.contents_sublist place)

/-- Nothing is in a place that was not put. -/
theorem Tallies.mem_of_mem_contents (h : Tallies puts l) {place : Place} {x : α}
    (hx : x ∈ l.contents place) : x ∈ puts :=
  h.perm.mem_iff.mp (Line.mem_everything_iff.mpr ⟨place, hx⟩)

end Delivery
