import Mathlib.Data.List.Basic
import Mathlib.Data.List.Pairwise

/-!
# Redacted texts

A text is redacted if the marked characters are replaced by placeholders, and the others are kept
in their places. Replacing disjoint spans of a text, the last one first, redacts it: the positions
of a span are not moved by the replacements behind it.

* `foldr_splice`: what replacing the spans from the last to the first gives.
* `redacted_foldr_splice`: it is redacted, with the characters of the spans as the marked ones.
* `Redacted.congr`: only the marks of the characters of the text matter.
* `exists_core_of_infix_weave`: what occurs in a text in which spans are replaced, and is not made
  of placeholders, has a part that occurs in the text, apart from the spans, up to an end of a
  placeholder before it and a start of one behind it. `infix_weave`: what occurs apart from the
  spans is left.
-/

namespace Redaction

variable {α : Type*}

/-- The text is the second one with each run of marked characters in pieces, each replaced by a
placeholder; the first of its characters has the given position. -/
inductive Redacted (marked : ℕ → Prop) (placeholder : List α → Prop) :
    ℕ → List α → List α → Prop
  | nil (i : ℕ) : Redacted marked placeholder i [] []
  | keep {i : ℕ} (c : α) {rest out : List α} (unmarked : ¬ marked i)
      (tail : Redacted marked placeholder (i + 1) rest out) :
      Redacted marked placeholder i (c :: rest) (c :: out)
  | replace {i : ℕ} {piece rest token out : List α} (ne_nil : piece ≠ [])
      (marks : ∀ k < piece.length, marked (i + k)) (isPlaceholder : placeholder token)
      (tail : Redacted marked placeholder (i + piece.length) rest out) :
      Redacted marked placeholder i (piece ++ rest) (token ++ out)

variable {marked marked' : ℕ → Prop} {placeholder : List α → Prop}

/-- Only the marks of the characters of the text matter. -/
theorem Redacted.congr {i : ℕ} {text out : List α} (h : Redacted marked placeholder i text out)
    (hiff : ∀ k < text.length, marked (i + k) ↔ marked' (i + k)) :
    Redacted marked' placeholder i text out := by
  induction h with
  | nil i => exact .nil i
  | @keep i c rest out hunmarked _ ih =>
    refine .keep c (fun hmarked => hunmarked ((hiff 0 (Nat.succ_pos _)).mpr hmarked)) ?_
    refine ih fun k hk => ?_
    have hnext := hiff (k + 1) (Nat.succ_lt_succ hk)
    rwa [Nat.add_comm k, ← Nat.add_assoc] at hnext
  | @replace i piece rest token out hne hmarks hplaceholder _ ih =>
    rw [List.length_append] at hiff
    refine .replace hne (fun k hk => (hiff k (by omega)).mp (hmarks k hk)) hplaceholder ?_
    refine ih fun k hk => ?_
    have hnext := hiff (piece.length + k) (by omega)
    rwa [← Nat.add_assoc] at hnext

/-- A first character that is not marked is kept. -/
theorem Redacted.of_cons {i : ℕ} {c : α} {rest out : List α} (hi : ¬ marked i)
    (h : Redacted marked placeholder i (c :: rest) out) :
    ∃ out', out = c :: out' ∧ Redacted marked placeholder (i + 1) rest out' := by
  generalize htext : c :: rest = text at h
  cases h with
  | nil => cases htext
  | keep c' _ htail =>
    obtain ⟨rfl, rfl⟩ := List.cons.inj htext
    exact ⟨_, rfl, htail⟩
  | replace hne hmarks _ _ => exact absurd (hmarks 0 (List.length_pos_of_ne_nil hne)) hi

/-- A first character that is marked is replaced. -/
theorem Redacted.exists_placeholder {i : ℕ} {c : α} {rest out : List α} (hi : marked i)
    (h : Redacted marked placeholder i (c :: rest) out) :
    ∃ token, placeholder token ∧ token <+: out := by
  generalize htext : c :: rest = text at h
  cases h with
  | nil => cases htext
  | keep _ hunmarked _ => exact absurd hi hunmarked
  | replace _ _ hplaceholder _ => exact ⟨_, hplaceholder, List.prefix_append _ _⟩

/-- Characters that are not marked are kept. -/
theorem Redacted.keep_append {i : ℕ} {front rest out : List α}
    (hfront : ∀ k < front.length, ¬ marked (i + k))
    (h : Redacted marked placeholder (i + front.length) rest out) :
    Redacted marked placeholder i (front ++ rest) (front ++ out) := by
  induction front generalizing i with
  | nil => exact h
  | cons c front ih =>
    refine .keep c (hfront 0 (Nat.succ_pos _)) (ih (fun k hk => ?_) ?_)
    · have hnext := hfront (k + 1) (Nat.succ_lt_succ hk)
      rwa [Nat.add_comm k, ← Nat.add_assoc] at hnext
    · rwa [List.length_cons, Nat.add_comm front.length, ← Nat.add_assoc] at h

/-! ### Replacing spans -/

/-- A span of positions, and what replaces it. -/
structure Patch (α : Type*) where
  start : ℕ
  stop : ℕ
  token : List α

/-- Position `j` lies in a patch. -/
def Patched (patches : List (Patch α)) (j : ℕ) : Prop :=
  ∃ p ∈ patches, p.start ≤ j ∧ j < p.stop

/-- The text with a span replaced. -/
def splice (p : Patch α) (text : List α) : List α :=
  text.take p.start ++ p.token ++ text.drop p.stop

/-- The text from a cursor on, with the spans replaced from left to right. -/
def weave (text : List α) : ℕ → List (Patch α) → List α
  | cursor, [] => text.drop cursor
  | cursor, p :: patches =>
    (text.take p.start).drop cursor ++ p.token ++ weave text p.stop patches

/-- The patches stand apart, from left to right, and each begins in a text of this length. -/
structure Apart (length : ℕ) (patches : List (Patch α)) : Prop where
  pairwise : patches.Pairwise fun p q => p.stop ≤ q.start
  ne_empty : ∀ p ∈ patches, p.start < p.stop
  starts : ∀ p ∈ patches, p.start < length

variable {patches : List (Patch α)}

theorem Apart.tail {length : ℕ} {p : Patch α} (h : Apart length (p :: patches)) :
    Apart length patches where
  pairwise := (List.pairwise_cons.mp h.pairwise).2
  ne_empty q hq := h.ne_empty q (List.mem_cons_of_mem p hq)
  starts q hq := h.starts q (List.mem_cons_of_mem p hq)

theorem Apart.eq_nil_of_stop {length : ℕ} {p : Patch α} (h : Apart length (p :: patches))
    (hlong : length < p.stop) : patches = [] := by
  refine List.eq_nil_iff_forall_not_mem.mpr fun q hq => ?_
  have hapart := (List.pairwise_cons.mp h.pairwise).1 q hq
  have hbegins := h.tail.starts q hq
  omega

theorem drop_eq_append (text : List α) {m n : ℕ} (h : m ≤ n) :
    text.drop m = (text.take n).drop m ++ text.drop n := by
  conv_lhs => rw [← List.take_append_drop n text]
  rw [List.drop_append, List.length_take]
  congr 1
  by_cases hlong : n ≤ text.length
  · rw [Nat.min_eq_left hlong, Nat.sub_eq_zero_of_le h, List.drop_zero]
  · rw [List.drop_eq_nil_of_le (Nat.le_of_not_le hlong), List.drop_nil]

/-- **From the last to the first.** Replacing the spans backwards gives the text up to a cursor
before them, and then the text in which they are replaced from left to right. -/
theorem foldr_splice {text : List α} (h : Apart text.length patches) {cursor : ℕ}
    (hcursor : ∀ p ∈ patches, cursor ≤ p.start) :
    patches.foldr splice text = text.take cursor ++ weave text cursor patches := by
  induction patches generalizing cursor with
  | nil => exact (List.take_append_drop cursor text).symm
  | cons p patches ih =>
    have hstart := h.starts p List.mem_cons_self
    have hstop := h.ne_empty p List.mem_cons_self
    have hle := hcursor p List.mem_cons_self
    have hrest := ih h.tail (List.pairwise_cons.mp h.pairwise).1
    rw [List.foldr_cons, hrest, splice, weave]
    have hfront : (text.take p.stop ++ weave text p.stop patches).take p.start =
        text.take p.start := by
      rw [List.take_append_of_le_length (by rw [List.length_take]; omega), List.take_take,
        Nat.min_eq_left (Nat.le_of_lt hstop)]
    have hback : (text.take p.stop ++ weave text p.stop patches).drop p.stop =
        weave text p.stop patches := by
      by_cases hlong : p.stop ≤ text.length
      · rw [List.drop_append_of_le_length (by rw [List.length_take]; omega),
          List.drop_eq_nil_of_le (by rw [List.length_take]; omega), List.nil_append]
      · -- a span that reaches over the end of the text is the last one
        obtain rfl := h.eq_nil_of_stop (Nat.lt_of_not_le hlong)
        rw [weave, List.take_append_drop]
    have hsplit : text.take p.start = text.take cursor ++ (text.take p.start).drop cursor := by
      conv_lhs => rw [← List.take_append_drop cursor (text.take p.start)]
      rw [List.take_take, Nat.min_eq_left hle]
    rw [hfront, hback]
    conv_lhs => rw [hsplit]
    simp only [List.append_assoc]

/-- What is replaced from left to right is redacted. -/
theorem redacted_weave {text : List α} (h : Apart text.length patches)
    (htokens : ∀ p ∈ patches, placeholder p.token) {cursor : ℕ}
    (hcursor : ∀ p ∈ patches, cursor ≤ p.start) :
    Redacted (Patched patches) placeholder cursor (text.drop cursor)
      (weave text cursor patches) := by
  induction patches generalizing cursor with
  | nil =>
    have hkeep : Redacted (Patched ([] : List (Patch α))) placeholder cursor
        (text.drop cursor ++ []) (text.drop cursor ++ []) :=
      .keep_append (fun k _ => by simp [Patched]) (.nil _)
    rwa [List.append_nil] at hkeep
  | cons p patches ih =>
    have hstart := h.starts p List.mem_cons_self
    have hstop := h.ne_empty p List.mem_cons_self
    have hle := hcursor p List.mem_cons_self
    have hapart := (List.pairwise_cons.mp h.pairwise).1
    have hpatched : ∀ j, Patched (p :: patches) j ↔
        (p.start ≤ j ∧ j < p.stop) ∨ Patched patches j := fun j => by
      simp [Patched]
    have hafter : ∀ j, Patched patches j → p.stop ≤ j := by
      rintro j ⟨q, hq, hqj, -⟩
      exact Nat.le_trans (hapart q hq) hqj
    -- before the span, the span, and what follows it
    rw [weave, drop_eq_append text hle, drop_eq_append text (Nat.le_of_lt hstop),
      List.append_assoc]
    have hfront : ((text.take p.start).drop cursor).length = p.start - cursor := by
      rw [List.length_drop, List.length_take, Nat.min_eq_left (Nat.le_of_lt hstart)]
    have hpiece : ((text.take p.stop).drop p.start).length =
        min p.stop text.length - p.start := by
      rw [List.length_drop, List.length_take]
    refine .keep_append (fun k hk => ?_) (.replace ?_ (fun k hk => ?_) ?_ ?_)
    · rw [hpatched]
      rintro (⟨hp, -⟩ | hlater)
      · omega
      · have := hafter _ hlater
        omega
    · rw [ne_eq, ← List.length_eq_zero_iff, hpiece]
      omega
    · rw [hpatched]
      exact Or.inl (by omega)
    · exact htokens p List.mem_cons_self
    · rw [hfront, hpiece, Nat.add_sub_cancel' hle]
      by_cases hlong : p.stop ≤ text.length
      · rw [Nat.min_eq_left hlong, Nat.add_sub_cancel' (Nat.le_of_lt hstop)]
        refine (ih h.tail (fun q hq => htokens q (List.mem_cons_of_mem p hq)) hapart).congr
          fun k _ => ?_
        rw [hpatched]
        exact ⟨Or.inr, fun hmarked => hmarked.resolve_left (by omega)⟩
      · -- a span that reaches over the end of the text is the last one
        obtain rfl := h.eq_nil_of_stop (Nat.lt_of_not_le hlong)
        rw [weave, List.drop_eq_nil_of_le (by omega)]
        exact .nil _

/-- **Redaction.** Replacing spans that stand apart, the last one first, redacts a text. -/
theorem redacted_foldr_splice {text : List α} (h : Apart text.length patches)
    (htokens : ∀ p ∈ patches, placeholder p.token) :
    Redacted (Patched patches) placeholder 0 text (patches.foldr splice text) := by
  have hzero : ∀ p ∈ patches, 0 ≤ p.start := fun p _ => Nat.zero_le p.start
  rw [foldr_splice h hzero]
  exact redacted_weave h htokens hzero

/-! ### What is left -/

/-- A text that holds no placeholder and is no part of two of them, one behind the other. -/
structure Foreign (placeholder : List α → Prop) (x : List α) : Prop where
  not_holds : ∀ t, placeholder t → ¬ t <:+: x
  not_part : ∀ t t', placeholder t → placeholder t' → ¬ x <:+: t ++ t'

/-- What is left of a text without an end of a placeholder in front of it, and without a start of
one behind it. Both may be empty. -/
def Core (placeholder : List α → Prop) (x w : List α) : Prop :=
  w ≠ [] ∧ ∃ front back, x = front ++ w ++ back ∧ (∃ t, placeholder t ∧ front <:+ t) ∧
    ∃ t, placeholder t ∧ back <+: t

theorem infix_append_cons {c : α} {x a b : List α} (hc : c ∉ x) (h : x <:+: a ++ c :: b) :
    x <:+: a ∨ x <:+: b := by
  have hnil : ∀ {y : List α}, c ∉ y → y <+: c :: b → y = [] := by
    intro y hy hprefix
    cases y with
    | nil => rfl
    | cons d y => exact absurd (List.cons_prefix_cons.mp hprefix).1 (by simp_all [eq_comm])
  obtain h | h | ⟨y, z, rfl, hy, hz⟩ := List.infix_append_iff.mp h
  · exact Or.inl h
  · obtain h | h := List.infix_cons_iff.mp h
    · exact Or.inr (hnil hc h ▸ List.nil_infix)
    · exact Or.inr h
  · rw [List.mem_append, not_or] at hc
    rw [hnil hc.2 hz, List.append_nil]
    exact Or.inl hy.isInfix

theorem infix_append_cons_iff {c : α} {x a b : List α} (hc : c ∉ x) :
    x <:+: a ++ c :: b ↔ x <:+: a ∨ x <:+: b := by
  constructor
  · exact infix_append_cons hc
  · rintro (h | h)
    · exact h.trans (List.prefix_append _ _).isInfix
    · exact h.trans ((List.suffix_cons c b).trans (List.suffix_append _ _)).isInfix

/-- What begins with a character that is not in `a` does not begin there. -/
theorem cons_infix_append_iff {c : α} {x a b : List α} (hc : c ∉ a) :
    c :: x <:+: a ++ b ↔ c :: x <:+: b := by
  induction a with
  | nil => rfl
  | cons d a ih =>
    obtain ⟨hd, ha⟩ := not_or.mp (mt List.mem_cons.mpr hc)
    rw [List.cons_append, List.infix_cons_iff, ih ha]
    exact or_iff_right fun hprefix => hd (List.cons_prefix_cons.mp hprefix).1

/-- What ends with a character that is not in `b` does not end there. -/
theorem concat_infix_append_iff {c : α} {x a b : List α} (hc : c ∉ b) :
    x ++ [c] <:+: a ++ b ↔ x ++ [c] <:+: a := by
  rw [← List.reverse_infix, List.reverse_append, List.reverse_append, List.reverse_singleton,
    List.singleton_append, cons_infix_append_iff (mt List.mem_reverse.mp hc),
    ← List.reverse_infix, List.reverse_reverse, List.reverse_cons, List.reverse_reverse]

/-- What occurs in a text from a position on. -/
theorem infix_drop_iff {x text : List α} {start : ℕ} :
    x <:+: text.drop start ↔ ∃ i, start ≤ i ∧ x <+: text.drop i := by
  constructor
  · rintro ⟨u, v, h⟩
    refine ⟨start + u.length, Nat.le_add_right _ _, v, ?_⟩
    rw [← List.drop_drop, ← h, List.append_assoc, List.drop_left]
  · rintro ⟨i, hi, hx⟩
    refine hx.isInfix.trans (List.IsSuffix.isInfix ?_)
    rw [← Nat.add_sub_cancel' hi, ← List.drop_drop]
    exact List.drop_suffix _ _

/-- What occurs in a text between two positions. -/
theorem infix_drop_take_iff {x text : List α} (hx : x ≠ []) {start stop : ℕ} :
    x <:+: (text.take stop).drop start ↔
      ∃ i, start ≤ i ∧ i + x.length ≤ stop ∧ x <+: text.drop i := by
  have hpos := List.length_pos_of_ne_nil hx
  rw [infix_drop_iff]
  refine exists_congr fun i => and_congr_right fun _ => ?_
  rw [List.drop_take, List.prefix_take_iff, and_comm]
  exact and_congr_left fun _ => by omega

/-- An end of the text that a placeholder and what follows it begin with lies in the placeholder. -/
theorem Foreign.prefix_of_append {x y z t rest : List α} (hx : Foreign placeholder x)
    (ht : placeholder t) (hsplit : x = y ++ z) (hz : z <+: t ++ rest) : z <+: t :=
  (List.prefix_or_prefix_of_prefix hz (List.prefix_append t rest)).resolve_right fun h =>
    hx.not_holds t ht (hsplit ▸ h.isInfix.trans (List.suffix_append y z).isInfix)

section

variable {x text t₀ : List α} {patches : List (Patch α)} {cursor : ℕ}

/-- What a text with replaced spans begins with stands in front of the spans, up to a start of a
placeholder. -/
theorem exists_of_prefix_weave (hx : Foreign placeholder x) (ht₀ : placeholder t₀)
    (htokens : ∀ p ∈ patches, placeholder p.token)
    (hpairwise : patches.Pairwise fun p q => p.stop ≤ q.start)
    (hbounds : ∀ p ∈ patches, p.start ≤ p.stop) (hcursor : ∀ p ∈ patches, cursor ≤ p.start)
    {y z : List α} (hsplit : x = y ++ z) (hz : z <+: weave text cursor patches) :
    ∃ w back, z = w ++ back ∧ (∃ t, placeholder t ∧ back <+: t) ∧ w <+: text.drop cursor ∧
      ∀ p ∈ patches, cursor + w.length ≤ p.start := by
  cases patches with
  | nil =>
    exact ⟨z, [], (List.append_nil z).symm, ⟨t₀, ht₀, List.nil_prefix⟩, hz,
      fun p hp => absurd hp List.not_mem_nil⟩
  | cons p patches =>
    have hp := hcursor p List.mem_cons_self
    have hlater : ∀ w : List α, cursor + w.length ≤ p.start →
        ∀ q ∈ p :: patches, cursor + w.length ≤ q.start := by
      intro w hw q hq
      obtain rfl | hq := List.mem_cons.mp hq
      · exact hw
      · have := (List.pairwise_cons.mp hpairwise).1 q hq
        have := hbounds p List.mem_cons_self
        omega
    have hgap : (text.take p.start).drop cursor <+: text.drop cursor := by
      rw [List.drop_take]
      exact List.take_prefix _ _
    have hlength : ((text.take p.start).drop cursor).length ≤ p.start - cursor := by
      rw [List.length_drop, List.length_take]
      omega
    rw [weave, List.append_assoc] at hz
    -- it ends in front of the first placeholder, or a part of it is left for the placeholder
    obtain hfront | ⟨back, rfl⟩ := List.prefix_or_prefix_of_prefix hz (List.prefix_append _ _)
    · refine ⟨z, [], (List.append_nil z).symm, ⟨t₀, ht₀, List.nil_prefix⟩, hfront.trans hgap,
        hlater z ?_⟩
      have := hfront.length_le
      omega
    · have hback := (List.prefix_append_right_inj _).mp hz
      have htoken := htokens p List.mem_cons_self
      rw [← List.append_assoc] at hsplit
      exact ⟨_, back, rfl, ⟨_, htoken, hx.prefix_of_append htoken hsplit hback⟩, hgap,
        hlater _ (by omega)⟩

/-- **What is left.** What occurs in a text with replaced spans, and is not made of placeholders,
has a core that occurs apart from the spans. -/
theorem exists_core_of_infix_weave (hx : Foreign placeholder x) (ht₀ : placeholder t₀)
    (htokens : ∀ p ∈ patches, placeholder p.token)
    (hpairwise : patches.Pairwise fun p q => p.stop ≤ q.start)
    (hbounds : ∀ p ∈ patches, p.start ≤ p.stop) (hcursor : ∀ p ∈ patches, cursor ≤ p.start)
    (h : x <:+: weave text cursor patches) :
    ∃ w i, Core placeholder x w ∧ cursor ≤ i ∧ w <+: text.drop i ∧
      ∀ p ∈ patches, i + w.length ≤ p.start ∨ p.stop ≤ i := by
  have hnil : ∀ {y t : List α}, placeholder t → y <:+: t → x ≠ y := by
    rintro y t ht hy rfl
    exact hx.not_part t t ht ht (hy.trans (List.prefix_append t t).isInfix)
  have hfront : ∃ t, placeholder t ∧ ([] : List α) <:+ t := ⟨t₀, ht₀, List.nil_suffix⟩
  have hback : ∃ t, placeholder t ∧ ([] : List α) <+: t := ⟨t₀, ht₀, List.nil_prefix⟩
  have hself : Core placeholder x x :=
    ⟨hnil ht₀ List.nil_infix, [], [], by simp, hfront, hback⟩
  induction patches generalizing cursor with
  | nil =>
    obtain ⟨i, hi, hprefix⟩ := infix_drop_iff.mp h
    exact ⟨x, i, hself, hi, hprefix, fun p hp => absurd hp List.not_mem_nil⟩
  | cons p patches ih =>
    obtain ⟨hfirst, hrest⟩ := List.pairwise_cons.mp hpairwise
    obtain ⟨htoken, htokens⟩ := List.forall_mem_cons.mp htokens
    obtain ⟨hle, hbounds'⟩ := List.forall_mem_cons.mp hbounds
    have hp := hcursor p List.mem_cons_self
    -- what ends before the first span
    have hbefore : ∀ {w i}, i + w.length ≤ p.start →
        ∀ q ∈ p :: patches, i + (w : List α).length ≤ q.start ∨ q.stop ≤ i := by
      intro w i hw
      refine List.forall_mem_cons.mpr ⟨Or.inl hw, fun q hq => Or.inl ?_⟩
      have := hfirst q hq
      omega
    rw [weave, List.append_assoc] at h
    obtain h | h | ⟨y, z, hsplit, hy, hz⟩ := List.infix_append_iff.mp h
    · obtain ⟨i, hi, hstop, hprefix⟩ := (infix_drop_take_iff hself.1).mp h
      exact ⟨x, i, hself, hi, hprefix, hbefore hstop⟩
    · obtain h | h | ⟨y, z, hsplit, hy, hz⟩ := List.infix_append_iff.mp h
      · exact absurd rfl (hnil htoken h)
      · obtain ⟨w, i, hcore, hi, hprefix, hapart⟩ := ih htokens hrest hbounds' hfirst h
        exact ⟨w, i, hcore, by omega, hprefix, List.forall_mem_cons.mpr ⟨Or.inr hi, hapart⟩⟩
      · -- it begins in the first placeholder
        obtain ⟨w, back, rfl, ⟨t, ht, hback⟩, hprefix, hapart⟩ :=
          exists_of_prefix_weave hx ht₀ htokens hrest hbounds' hfirst hsplit hz
        rw [← List.append_assoc] at hsplit
        refine ⟨w, p.stop, ⟨?_, y, back, hsplit, ⟨_, htoken, hy⟩, t, ht, hback⟩, by omega,
          hprefix, List.forall_mem_cons.mpr
            ⟨Or.inr (Nat.le_refl _), fun q hq => Or.inl (hapart q hq)⟩⟩
        rintro rfl
        obtain ⟨s, rfl⟩ := hback
        obtain ⟨r, hr⟩ := hy
        refine hx.not_part p.token (back ++ s) htoken ht ⟨r, s, ?_⟩
        rw [hsplit, ← hr]
        simp
    · -- it ends in the first placeholder
      have hz := hx.prefix_of_append htoken hsplit hz
      have hne : y ≠ [] := by
        rintro rfl
        exact hnil htoken hz.isInfix hsplit
      obtain ⟨i, hi, hstop, hprefix⟩ := (infix_drop_take_iff hne).mp hy.isInfix
      exact ⟨y, i, ⟨hne, [], z, hsplit, hfront, _, htoken, hz⟩, hi, hprefix, hbefore hstop⟩

/-- What occurs apart from the spans is left. -/
theorem infix_weave (hx : x ≠ []) {i : ℕ} (hi : cursor ≤ i) (hstart : x <+: text.drop i)
    (hapart : ∀ p ∈ patches, i + x.length ≤ p.start ∨ p.stop ≤ i) :
    x <:+: weave text cursor patches := by
  induction patches generalizing cursor with
  | nil => exact infix_drop_iff.mpr ⟨i, hi, hstart⟩
  | cons p patches ih =>
    obtain ⟨hbefore | hafter, hapart⟩ := List.forall_mem_cons.mp hapart
    · rw [weave, List.append_assoc]
      exact ((infix_drop_take_iff hx).mpr ⟨i, hi, hbefore, hstart⟩).trans
        (List.prefix_append _ _).isInfix
    · exact (ih hafter hapart).trans (List.suffix_append _ _).isInfix

end

/-- A placeholder at the end of the text. -/
theorem weave_concat (text token : List α) (cursor : ℕ) (patches : List (Patch α)) :
    weave text cursor (patches ++ [⟨text.length, text.length, token⟩]) =
      weave text cursor patches ++ token := by
  induction patches generalizing cursor with
  | nil => simp [weave]
  | cons p patches ih => simp [weave, ih]

end Redaction
