import AnonReq.Detection.SpanArbiter
import AnonReq.Foundation.Components

/-!
# What a merge of spans gives

The postcondition of `SpanArbiter.merge` (`detection/span_arbiter.py`), for spans that cover
something: the merged spans are sorted and disjoint, each stands for one connected component of
overlapping input spans, and it has the flags of all of them and the type of one of them.

* `placed_place`: the loop ends, whatever has been accepted.
* `merge_correct`: the postcondition.
-/

namespace AnonReq.Detection

open Fusion

/-! ### The loop ends -/

/-- A run of the `while` loop of `merge` with a pending span, from the accepted spans to those
accepted at its end. -/
inductive Placed : Span → List Span → List Span → Prop where
  | last {pending : Span} {merged : List Span} (hnone : firstOverlap pending merged = none) :
      Placed pending merged (merged ++ [pending])
  | round {pending accepted : Span} {merged result : List Span} {index : ℕ} {overlap : Overlap}
      (hfirst : firstOverlap pending merged = some (index, accepted, overlap))
      (hrest : Placed (resolve pending accepted overlap) (merged.eraseIdx index) result) :
      Placed pending merged result

theorem firstOverlap_lt {pending accepted : Span} {merged : List Span} {index : ℕ}
    {overlap : Overlap} (h : firstOverlap pending merged = some (index, accepted, overlap)) :
    index < merged.length := by
  induction merged generalizing index with
  | nil => exact absurd h (by simp [firstOverlap])
  | cons a merged ih =>
    rw [firstOverlap] at h
    split at h
    · obtain ⟨rfl, -⟩ := Prod.mk.inj (Option.some.inj h)
      exact Nat.succ_pos _
    · obtain ⟨⟨i, b, o⟩, hi, hindex⟩ := Option.map_eq_some_iff.mp h
      obtain ⟨rfl, hb⟩ := Prod.mk.inj hindex
      obtain ⟨rfl, rfl⟩ := Prod.mk.inj hb
      exact Nat.succ_lt_succ (ih hi)

/-- **The loop ends.** Every round takes an accepted span out, so as many rounds as there are
accepted spans are enough. -/
theorem placed_place (merged : List Span) (span : Span) :
    Placed span merged (place merged span) := by
  suffices h : ∀ (rounds : ℕ) (pending : Span) (merged : List Span), merged.length ≤ rounds →
      Placed pending merged (placeWithin rounds pending merged) from
    h _ span merged (le_refl _)
  intro rounds
  induction rounds with
  | zero =>
    intro pending merged hlength
    obtain rfl := List.eq_nil_of_length_eq_zero (Nat.le_zero.mp hlength)
    exact .last rfl
  | succ rounds ih =>
    intro pending merged hlength
    rw [placeWithin]
    split
    · next hnone => exact .last hnone
    · next index accepted overlap hfirst =>
      refine .round hfirst (ih _ _ ?_)
      have hindex := firstOverlap_lt hfirst
      rw [List.length_eraseIdx_of_lt hindex]
      omega

/-! ### The postcondition -/

/-- What the merged spans are, given the input spans with their flags. -/
structure Merged (spans merged : List Span) : Prop where
  /-- They are sorted by start. -/
  sorted : merged.Pairwise fun a b => a.start ≤ b.start
  /-- Each ends before the next begins. -/
  disjoint : merged.Pairwise fun a b => a.stop ≤ b.start
  /-- They cover the characters that the input spans cover. -/
  covers : ∀ p, (∃ d ∈ merged, d.extent.Covers p) ↔ ∃ s ∈ spans, s.extent.Covers p
  /-- Every input span lies in one of them. -/
  within : ∀ s ∈ spans, ∃ d ∈ merged, s.extent.Within d.extent
  /-- The input spans in one of them are those that a chain of overlaps links to one of these. -/
  component : ∀ d ∈ merged, ∃ s ∈ spans, s.extent.Within d.extent ∧
    ∀ t ∈ spans, t.extent.Within d.extent ↔ Linked Span.extent spans s t
  /-- It begins and ends where input spans in it begin and end. -/
  hull : ∀ d ∈ merged, (∃ s ∈ spans, s.extent.Within d.extent ∧ s.start = d.start) ∧
    ∃ s ∈ spans, s.extent.Within d.extent ∧ s.stop = d.stop
  isProtected : ∀ d ∈ merged, d.isProtected = true ↔
    ∃ s ∈ spans, s.extent.Within d.extent ∧ s.isProtected = true
  irreversible : ∀ d ∈ merged, d.irreversible = true ↔
    ∃ s ∈ spans, s.extent.Within d.extent ∧ s.irreversible = true
  entityType : ∀ d ∈ merged, ∃ s ∈ spans, s.extent.Within d.extent ∧ s.entityType = d.entityType

instance : IsTrans Span startsBefore where
  trans a b c hab hbc := by
    unfold startsBefore at *
    omega

instance : Std.Total startsBefore where
  total a b := by
    unfold startsBefore
    omega

section Merge

variable {regexResults nerResults : List Span} {additionalResults : List (List Span)}

theorem exists_of_mem_combined {s : Span}
    (hs : s ∈ combined regexResults nerResults additionalResults) :
    ∃ d ∈ regexResults ++ nerResults ++ additionalResults.flatten, s.extent = d.extent := by
  rw [combined, List.mem_insertionSort] at hs
  simp only [List.mem_append, List.mem_map, List.mem_flatMap] at hs
  obtain (⟨d, hd, rfl⟩ | ⟨d, hd, rfl⟩) | ⟨extra, hextra, d, hd, rfl⟩ := hs
  · exact ⟨d, by simp [hd], rfl⟩
  · exact ⟨d, by simp [hd], rfl⟩
  · exact ⟨d, List.mem_append_right _ (List.mem_flatten_of_mem hextra hd), rfl⟩

variable (hpos : ∀ d ∈ regexResults ++ nerResults ++ additionalResults.flatten, d.start < d.stop)

include hpos

theorem extent_pos {s : Span} (hs : s ∈ combined regexResults nerResults additionalResults) :
    s.extent.lo < s.extent.hi := by
  obtain ⟨d, hd, hextent⟩ := exists_of_mem_combined hs
  rw [hextent]
  exact hpos d hd

/-- The members of a cluster are the input spans that lie in its summary. -/
theorem mem_members_iff {c : Cluster Span}
    (hc : c ∈ spanClusters regexResults nerResults additionalResults) {s : Span} :
    s ∈ c.members ↔ s ∈ combined regexResults nerResults additionalResults ∧
      s.extent.Within (summary c).extent := by
  have hsorted := combined_pairwise regexResults nerResults additionalResults
  rw [summary_extent]
  constructor
  · intro hs
    have hmem := (Cluster.mem_members_clusters Span.extent).mp ⟨c, hc, hs⟩
    exact ⟨hmem, Cluster.within_hull hs⟩
  · rintro ⟨hmem, hwithin⟩
    exact (Cluster.mem_members_iff_within hsorted (fun _ => extent_pos hpos) hc hmem).mpr hwithin

/-- A flag of a summary is a flag of an input span that lies in it. -/
theorem any_members_iff {c : Cluster Span}
    (hc : c ∈ spanClusters regexResults nerResults additionalResults) (flag : Span → Bool) :
    c.members.any flag = true ↔ ∃ s ∈ combined regexResults nerResults additionalResults,
      s.extent.Within (summary c).extent ∧ flag s = true := by
  simp only [List.any_eq_true, mem_members_iff hpos hc, and_assoc]

theorem start_lt_stop_of_mem_merge {d : Span}
    (hd : d ∈ merge regexResults nerResults additionalResults) : d.start < d.stop := by
  obtain ⟨c, hc, rfl⟩ := (mem_merge_iff _ _ _).mp hd
  obtain ⟨s, hs, hlo⟩ := Cluster.exists_mem_lo Span.extent c
  obtain ⟨hmem, hwithin⟩ := (mem_members_iff hpos hc).mp hs
  have hspan := extent_pos hpos hmem
  have hstart : (summary c).start = s.extent.lo := by
    rw [hlo, ← summary_extent]
    rfl
  have hstop : s.extent.hi ≤ (summary c).stop := hwithin.2
  omega

/-- The postcondition holds of the merged spans. -/
theorem merged_merge :
    Merged (combined regexResults nerResults additionalResults)
      (merge regexResults nerResults additionalResults) := by
  have hsorted := combined_pairwise regexResults nerResults additionalResults
  have hstarts : (merge regexResults nerResults additionalResults).Pairwise
      fun a b => a.start ≤ b.start := by
    rw [merge_eq]
    refine (List.pairwise_insertionSort startsBefore _).imp fun h => ?_
    unfold startsBefore at h
    omega
  have hapart : (merge regexResults nerResults additionalResults).Pairwise
      fun a b => ¬ a.extent.Meets b.extent := by
    rw [merge_eq]
    refine (List.perm_insertionSort startsBefore _).symm.pairwise ?_ fun h hm => h hm.symm
    exact List.pairwise_map.mpr <|
      (spanClusters_disjoint regexResults nerResults additionalResults).imp fun h => by
        simpa using h
  refine ⟨hstarts, ?_, fun p => merge_covers_iff _ _ _ p, fun s hs => ?_, fun d hd => ?_,
    fun d hd => ?_, fun d hd => ?_, fun d hd => ?_, fun d hd => ?_⟩
  · refine (hstarts.and hapart).imp_of_mem fun {a b} ha hb h => ?_
    have hb := start_lt_stop_of_mem_merge hpos hb
    have hmeets : ¬ (a.start < b.stop ∧ b.start < a.stop) := h.2
    omega
  · obtain ⟨c, hc, hmem⟩ := (Cluster.mem_members_clusters Span.extent).mpr hs
    exact ⟨summary c, (mem_merge_iff _ _ _).mpr ⟨c, hc, rfl⟩, ((mem_members_iff hpos hc).mp hmem).2⟩
  · obtain ⟨c, hc, rfl⟩ := (mem_merge_iff _ _ _).mp hd
    obtain ⟨hmem, hwithin⟩ := (mem_members_iff hpos hc).mp (leader_mem_members c)
    refine ⟨leader c, hmem, hwithin, fun t ht => ?_⟩
    rw [summary_extent]
    exact Cluster.within_iff_linked hsorted (fun _ => extent_pos hpos) hc (leader_mem_members c) ht
  · obtain ⟨c, hc, rfl⟩ := (mem_merge_iff _ _ _).mp hd
    obtain ⟨s, hs, hlo⟩ := Cluster.exists_mem_lo Span.extent c
    obtain ⟨t, ht, hhi⟩ := Cluster.exists_mem_hi Span.extent c
    rw [← summary_extent] at hlo hhi
    obtain ⟨hsmem, hswithin⟩ := (mem_members_iff hpos hc).mp hs
    obtain ⟨htmem, htwithin⟩ := (mem_members_iff hpos hc).mp ht
    exact ⟨⟨s, hsmem, hswithin, hlo⟩, t, htmem, htwithin, hhi⟩
  · obtain ⟨c, hc, rfl⟩ := (mem_merge_iff _ _ _).mp hd
    rw [summary_isProtected]
    exact any_members_iff hpos hc Span.isProtected
  · obtain ⟨c, hc, rfl⟩ := (mem_merge_iff _ _ _).mp hd
    rw [summary_irreversible]
    exact any_members_iff hpos hc Span.irreversible
  · obtain ⟨c, hc, rfl⟩ := (mem_merge_iff _ _ _).mp hd
    obtain ⟨hmem, hwithin⟩ := (mem_members_iff hpos hc).mp (leader_mem_members c)
    exact ⟨leader c, hmem, hwithin, by rw [summary_entityType]⟩

/-- **The postcondition of `merge`**, for spans that cover something: its loops end, and what it
returns stands for the components of overlapping spans. -/
theorem merge_correct :
    (∀ merged span, Placed span merged (place merged span)) ∧
      Merged (combined regexResults nerResults additionalResults)
        (merge regexResults nerResults additionalResults) :=
  ⟨placed_place, merged_merge hpos⟩

end Merge

/-- A mail address. -/
def sampleMail : Span := { entityType := "EMAIL_ADDRESS", start := 0, stop := 5, score := 1 }

/-- A name that overlaps the mail address and the secret. -/
def sampleName : Span := { entityType := "PERSON", start := 3, stop := 9, score := 1 / 2 }

/-- A secret. -/
def sampleSecret : Span := { entityType := "API_KEY", start := 8, stop := 12, score := 1 }

theorem merge_correct_sample :
    (∀ merged span, Placed span merged (place merged span)) ∧
      Merged (combined [sampleMail] [sampleName] [[sampleSecret]])
        (merge [sampleMail] [sampleName] [[sampleSecret]]) :=
  merge_correct (by decide)

end AnonReq.Detection
