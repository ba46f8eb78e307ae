import AnonReq.Foundation.Redaction

/-!
# Offsets in a text with patches

Where the tokens of patches stand in the text that is woven from them, counted in characters by a
cursor that runs along, and in UTF-16 code units.

* `slice_of_mem_locate`: the offsets of a token select it.
* `eq_of_located`: patches inside of others whose tokens stand where theirs do are these.
* `Utf16.slice_encode`: offsets in code units select what offsets in characters do.
-/

namespace Redaction

variable {α : Type*}

/-- The characters from one offset to another. -/
def slice (text : List α) (start stop : ℕ) : List α := (text.take stop).drop start

theorem slice_append (front text : List α) (start stop : ℕ) :
    slice (front ++ text) (front.length + start) (front.length + stop) = slice text start stop := by
  rw [slice, slice, List.take_length_add_append, List.drop_length_add_append]

theorem length_slice {text : List α} {start stop : ℕ} (h : stop ≤ text.length) :
    (slice text start stop).length = stop - start := by
  rw [slice, List.length_drop, List.length_take, Nat.min_eq_left h]

/-- A patch, with the offsets of its token. -/
structure Located (α : Type*) extends Patch α where
  tokenStart : ℕ
  tokenEnd : ℕ

/-- The patches from a cursor on, where what precedes them ends at `previous`. -/
def locate (cursor previous : ℕ) : List (Patch α) → List (Located α)
  | [] => []
  | p :: patches =>
    let tokenStart := cursor + (p.start - previous)
    ⟨p, tokenStart, tokenStart + p.token.length⟩ ::
      locate (tokenStart + p.token.length) p.stop patches

/-- The patches stand apart, each begins at a bound or after it, and each covers something and has
a token. -/
structure Spaced (bound : ℕ) (patches : List (Patch α)) : Prop where
  pairwise : patches.Pairwise fun p q => p.stop ≤ q.start
  bound_le : ∀ p ∈ patches, bound ≤ p.start
  ne_empty : ∀ p ∈ patches, p.start < p.stop
  token_ne : ∀ p ∈ patches, p.token ≠ []

variable {cursor previous : ℕ} {p : Patch α} {patches : List (Patch α)}

theorem Spaced.tail (h : Spaced previous (p :: patches)) : Spaced p.stop patches where
  pairwise := (List.pairwise_cons.mp h.pairwise).2
  bound_le := (List.pairwise_cons.mp h.pairwise).1
  ne_empty q hq := h.ne_empty q (List.mem_cons_of_mem p hq)
  token_ne q hq := h.token_ne q (List.mem_cons_of_mem p hq)

theorem map_patch_locate : (locate cursor previous patches).map Located.toPatch = patches := by
  induction patches generalizing cursor previous with
  | nil => rfl
  | cons p patches ih => rw [locate, List.map_cons, ih]

theorem cursor_le_of_mem_locate {l : Located α} (hl : l ∈ locate cursor previous patches) :
    cursor ≤ l.tokenStart := by
  induction patches generalizing cursor previous with
  | nil => exact absurd hl List.not_mem_nil
  | cons p patches ih =>
    obtain rfl | hl := List.mem_cons.mp hl
    · exact Nat.le_add_right _ _
    · exact Nat.le_trans (by omega) (ih hl)

theorem tokenEnd_of_mem_locate {l : Located α} (hl : l ∈ locate cursor previous patches) :
    l.tokenEnd = l.tokenStart + l.token.length := by
  induction patches generalizing cursor previous with
  | nil => exact absurd hl List.not_mem_nil
  | cons p patches ih =>
    obtain rfl | hl := List.mem_cons.mp hl
    · rfl
    · exact ih hl

/-- **The offsets of a token** select it in what is woven, behind something that ends at the
cursor. -/
theorem slice_of_mem_locate {text done : List α} (h : Spaced previous patches)
    (hlength : ∀ p ∈ patches, p.start ≤ text.length) {l : Located α}
    (hl : l ∈ locate done.length previous patches) :
    slice (done ++ weave text previous patches) l.tokenStart l.tokenEnd = l.token := by
  induction patches generalizing done previous with
  | nil => exact absurd hl List.not_mem_nil
  | cons p patches ih =>
    rw [List.forall_mem_cons] at hlength
    have hgap : ((text.take p.start).drop previous).length = p.start - previous :=
      length_slice hlength.1
    have hdone : (done ++ (text.take p.start).drop previous ++ p.token).length =
        done.length + (p.start - previous) + p.token.length := by
      rw [List.length_append, List.length_append, hgap]
    rw [weave, List.append_assoc, ← List.append_assoc done]
    obtain rfl | hl := List.mem_cons.mp hl
    · have hfront : (done ++ (text.take p.start).drop previous).length =
          done.length + (p.start - previous) := by
        rw [List.length_append, hgap]
      have hselect := slice_append (done ++ (text.take p.start).drop previous)
        (p.token ++ weave text p.stop patches) 0 p.token.length
      rw [hfront] at hselect
      refine hselect.trans ?_
      rw [slice, List.take_left, List.drop_zero]
    · rw [← List.append_assoc]
      exact ih h.tail hlength.2 (by rwa [hdone])

/-- **Patches that are located alike.** Patches inside of others are these, if where the token of
one of the others stands, there stands the same token of one of them, and patches with the same
token cover as much. -/
theorem eq_of_located {inner : List (Patch α)} (h : Spaced previous patches)
    (hinner : Spaced previous inner)
    (hinside : ∀ e ∈ inner, ∃ p ∈ patches, p.start ≤ e.start ∧ e.stop ≤ p.stop)
    (hsame : ∀ e ∈ inner, ∀ p ∈ patches, e.token = p.token → e.stop - e.start = p.stop - p.start)
    (hfound : ∀ l ∈ locate cursor previous patches, ∃ r ∈ locate cursor previous inner,
      r.tokenStart = l.tokenStart ∧ r.token = l.token) : inner = patches := by
  induction patches generalizing cursor previous inner with
  | nil =>
    refine List.eq_nil_iff_forall_not_mem.mpr fun e he => ?_
    obtain ⟨p, hp, -⟩ := hinside e he
    exact List.not_mem_nil hp
  | cons p patches ih =>
    rw [locate, List.forall_mem_cons] at hfound
    obtain ⟨⟨r, hr, hstart, htoken⟩, hfound⟩ := hfound
    have hbound := h.bound_le p List.mem_cons_self
    cases inner with
    | nil => exact absurd hr List.not_mem_nil
    | cons e inner =>
      have hebound := hinner.bound_le e List.mem_cons_self
      have hpositive := List.length_pos_of_ne_nil (hinner.token_ne e List.mem_cons_self)
      -- the first of them begins no earlier than the first of the others
      have hafter : p.start ≤ e.start := by
        obtain ⟨q, hq, hle, -⟩ := hinside e List.mem_cons_self
        obtain rfl | hq := List.mem_cons.mp hq
        · exact hle
        · have hapart := (List.pairwise_cons.mp h.pairwise).1 q hq
          have hp := h.ne_empty p List.mem_cons_self
          omega
      rw [locate] at hr
      obtain rfl | hr := List.mem_cons.mp hr
      · have hsize := hsame e List.mem_cons_self p List.mem_cons_self htoken
        have hebound' : cursor + (e.start - previous) = cursor + (p.start - previous) := hstart
        have he := hinner.ne_empty e List.mem_cons_self
        have hp := h.ne_empty p List.mem_cons_self
        have hstarts : e.start = p.start := by omega
        have hstops : e.stop = p.stop := by omega
        obtain rfl : e = p := by
          cases e
          cases p
          dsimp only at hstarts hstops htoken
          rw [hstarts, hstops, htoken]
        have hrest : ∀ l ∈ locate (cursor + (e.start - previous) + e.token.length) e.stop patches,
            ∃ r ∈ locate (cursor + (e.start - previous) + e.token.length) e.stop inner,
              r.tokenStart = l.tokenStart ∧ r.token = l.token := by
          intro l hl
          obtain ⟨r, hr, hstart, htoken⟩ := hfound l hl
          have hlater := cursor_le_of_mem_locate hl
          obtain rfl | hr := List.mem_cons.mp hr
          · -- the token of the first one stands before
            dsimp only at hstart
            omega
          · exact ⟨r, hr, hstart, htoken⟩
        refine congrArg (e :: ·)
          (ih h.tail hinner.tail (fun f hf => ?_) (fun f hf q hq => ?_) hrest)
        · obtain ⟨q, hq, hle⟩ := hinside f (List.mem_cons_of_mem e hf)
          obtain rfl | hq := List.mem_cons.mp hq
          · have hapart := (List.pairwise_cons.mp hinner.pairwise).1 f hf
            have hpos := hinner.ne_empty f (List.mem_cons_of_mem q hf)
            omega
          · exact ⟨q, hq, hle⟩
        · exact hsame f (List.mem_cons_of_mem e hf) q (List.mem_cons_of_mem e hq)
      · have hlater := cursor_le_of_mem_locate hr
        dsimp only at hlater hstart
        omega

end Redaction

namespace Utf16

open Redaction

/-- The code units of a character. -/
def units (c : Char) : List ℕ :=
  if c.toNat < 0x10000 then [c.toNat]
  else [0xD800 + (c.toNat - 0x10000) / 0x400, 0xDC00 + (c.toNat - 0x10000) % 0x400]

/-- The encoding of a text. -/
def encode (text : List Char) : List ℕ := text.flatMap units

theorem encode_append (a b : List Char) : encode (a ++ b) = encode a ++ encode b :=
  List.flatMap_append

/-- **Offsets in code units** select the encoding of what offsets in characters select. -/
theorem slice_encode (text : List Char) {start stop : ℕ} (h : start ≤ stop) :
    slice (encode text) (encode (text.take start)).length (encode (text.take stop)).length =
      encode (slice text start stop) := by
  have hfront : text.take stop = text.take start ++ slice text start stop := by
    conv_lhs => rw [← List.take_append_drop start (text.take stop)]
    rw [List.take_take, Nat.min_eq_left h, slice]
  conv_lhs =>
    enter [1]
    rw [← List.take_append_drop stop text, encode_append]
  rw [slice, List.take_left, hfront, encode_append, List.drop_left]

end Utf16
