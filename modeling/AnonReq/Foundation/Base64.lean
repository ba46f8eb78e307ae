import Mathlib.Data.List.Basic

/-!
# Base64

Three bytes are written as four digits, the last bytes with a padding. Decoding passes over what is
no digit, and stops at a padding that completes a group of four.

* `decode_encode`: encoded bytes are decoded to themselves.
-/

namespace Base64

/-- The digits, by their values. -/
def alphabet : List Char :=
  "ABCDEFGHIJKLMNOPQRSTUVWXYZabcdefghijklmnopqrstuvwxyz0123456789+/".toList

/-- The digit of a value below 64. -/
def digit (n : ℕ) : Char := alphabet.getD n 'A'

/-- The value of a digit. -/
def value (c : Char) : Option ℕ := alphabet.idxOf? c

/-- `b64encode(bytes).decode()`. -/
def encode : List UInt8 → List Char
  | [] => []
  | [a] => [digit (a.toNat / 4), digit (a.toNat % 4 * 16), '=', '=']
  | [a, b] =>
    [digit (a.toNat / 4), digit (a.toNat % 4 * 16 + b.toNat / 16), digit (b.toNat % 16 * 4), '=']
  | a :: b :: c :: rest =>
    digit (a.toNat / 4) :: digit (a.toNat % 4 * 16 + b.toNat / 16) ::
      digit (b.toNat % 16 * 4 + c.toNat / 64) :: digit (c.toNat % 64) :: encode rest

/-- Decode characters after `quad` digits of a group and `pads` paddings behind them, with the value
`left` of the bits that make no byte yet. -/
def decodeFrom : ℕ → ℕ → ℕ → List Char → Option (List UInt8)
  | quad, _, _, [] => if quad = 0 then some [] else none
  | quad, pads, left, c :: rest =>
    if c = '=' then
      if 2 ≤ quad then
        if 4 ≤ quad + (pads + 1) then some [] else decodeFrom quad (pads + 1) left rest
      else decodeFrom quad pads left rest
    else
      match value c with
      | none => decodeFrom quad pads left rest
      | some n =>
        match quad with
        | 0 => decodeFrom 1 0 n rest
        | 1 => (decodeFrom 2 0 (n % 16) rest).map (UInt8.ofNat (left * 4 + n / 16) :: ·)
        | 2 => (decodeFrom 3 0 (n % 4) rest).map (UInt8.ofNat (left * 16 + n / 4) :: ·)
        | _ => (decodeFrom 0 0 0 rest).map (UInt8.ofNat (left * 64 + n) :: ·)

/-- `b64decode(text)`; `none` is an exception. -/
def decode (text : List Char) : Option (List UInt8) :=
  if text.all fun c => c.toNat < 128 then decodeFrom 0 0 0 text else none

/-! ### Digits -/

theorem value_digit : ∀ n < 64, value (digit n) = some n := by decide +kernel

theorem digit_ne_padding : ∀ n < 64, digit n ≠ '=' := by decide +kernel

theorem digit_ascii : ∀ n < 64, (digit n).toNat < 128 := by decide +kernel

variable {n : ℕ} (hn : n < 64) (pads left : ℕ) (rest : List Char)
include hn

theorem decodeFrom_zero :
    decodeFrom 0 pads left (digit n :: rest) = decodeFrom 1 0 n rest := by
  rw [decodeFrom, if_neg (digit_ne_padding n hn), value_digit n hn]
  rfl

theorem decodeFrom_one : decodeFrom 1 pads left (digit n :: rest) =
    (decodeFrom 2 0 (n % 16) rest).map (UInt8.ofNat (left * 4 + n / 16) :: ·) := by
  rw [decodeFrom, if_neg (digit_ne_padding n hn), value_digit n hn]
  rfl

theorem decodeFrom_two : decodeFrom 2 pads left (digit n :: rest) =
    (decodeFrom 3 0 (n % 4) rest).map (UInt8.ofNat (left * 16 + n / 4) :: ·) := by
  rw [decodeFrom, if_neg (digit_ne_padding n hn), value_digit n hn]
  rfl

theorem decodeFrom_three : decodeFrom 3 pads left (digit n :: rest) =
    (decodeFrom 0 0 0 rest).map (UInt8.ofNat (left * 64 + n) :: ·) := by
  rw [decodeFrom, if_neg (digit_ne_padding n hn), value_digit n hn]
  rfl

omit hn

/-! ### Round trip -/

/-- The first two digits of a group have its first byte. -/
theorem decodeFrom_first (a : UInt8) {low : ℕ} (hlow : low < 16) :
    decodeFrom 0 0 0 (digit (a.toNat / 4) :: digit (a.toNat % 4 * 16 + low) :: rest) =
      (decodeFrom 2 0 low rest).map (a :: ·) := by
  have ha := a.toNat_lt
  have hbyte : a.toNat / 4 * 4 + (a.toNat % 4 * 16 + low) / 16 = a.toNat := by omega
  have hleft : (a.toNat % 4 * 16 + low) % 16 = low := by omega
  rw [decodeFrom_zero (by omega), decodeFrom_one (by omega), hbyte, hleft, UInt8.ofNat_toNat]

/-- The third digit completes the second byte. -/
theorem decodeFrom_second (b : UInt8) {low : ℕ} (hlow : low < 4) :
    decodeFrom 2 0 (b.toNat / 16) (digit (b.toNat % 16 * 4 + low) :: rest) =
      (decodeFrom 3 0 low rest).map (b :: ·) := by
  have hb := b.toNat_lt
  have hbyte : b.toNat / 16 * 16 + (b.toNat % 16 * 4 + low) / 4 = b.toNat := by omega
  have hleft : (b.toNat % 16 * 4 + low) % 4 = low := by omega
  rw [decodeFrom_two (by omega), hbyte, hleft, UInt8.ofNat_toNat]

/-- The fourth digit completes the third byte. -/
theorem decodeFrom_third (c : UInt8) :
    decodeFrom 3 0 (c.toNat / 64) (digit (c.toNat % 64) :: rest) =
      (decodeFrom 0 0 0 rest).map (c :: ·) := by
  have hc := c.toNat_lt
  have hbyte : c.toNat / 64 * 64 + c.toNat % 64 = c.toNat := by omega
  rw [decodeFrom_three (by omega), hbyte, UInt8.ofNat_toNat]

theorem decodeFrom_encode (bytes : List UInt8) : decodeFrom 0 0 0 (encode bytes) = some bytes := by
  induction bytes using encode.induct with
  | case1 => rfl
  | case2 a =>
    have hfirst := decodeFrom_first ['=', '='] a (by omega : 0 < 16)
    rw [Nat.add_zero] at hfirst
    rw [encode, hfirst]
    rfl
  | case3 a b =>
    have hb := b.toNat_lt
    have hsecond := decodeFrom_second ['='] b (by omega : 0 < 4)
    rw [Nat.add_zero] at hsecond
    rw [encode, decodeFrom_first _ a (by omega), hsecond]
    rfl
  | case4 a b c rest ih =>
    have hb := b.toNat_lt
    have hc := c.toNat_lt
    rw [encode, decodeFrom_first _ a (by omega), decodeFrom_second _ b (by omega),
      decodeFrom_third, ih]
    rfl

theorem ascii_of_mem_encode {bytes : List UInt8} {c : Char} (h : c ∈ encode bytes) :
    c.toNat < 128 := by
  -- what stands in a group is a digit of a value below 64, or a padding
  have hpadding : '='.toNat < 128 := by decide
  induction bytes using encode.induct with
  | case1 => exact absurd h List.not_mem_nil
  | case2 a =>
    have ha := a.toNat_lt
    simp only [encode, List.mem_cons, List.not_mem_nil, or_false] at h
    obtain rfl | rfl | rfl | rfl := h
    · exact digit_ascii _ (by omega)
    · exact digit_ascii _ (by omega)
    · exact hpadding
    · exact hpadding
  | case3 a b =>
    have ha := a.toNat_lt
    have hb := b.toNat_lt
    simp only [encode, List.mem_cons, List.not_mem_nil, or_false] at h
    obtain rfl | rfl | rfl | rfl := h
    · exact digit_ascii _ (by omega)
    · exact digit_ascii _ (by omega)
    · exact digit_ascii _ (by omega)
    · exact hpadding
  | case4 a b d rest ih =>
    have ha := a.toNat_lt
    have hb := b.toNat_lt
    have hd := d.toNat_lt
    simp only [encode, List.mem_cons] at h
    obtain rfl | rfl | rfl | rfl | h := h
    · exact digit_ascii _ (by omega)
    · exact digit_ascii _ (by omega)
    · exact digit_ascii _ (by omega)
    · exact digit_ascii _ (by omega)
    · exact ih h

/-- **Encoded bytes are decoded to themselves.** -/
theorem decode_encode (bytes : List UInt8) : decode (encode bytes) = some bytes := by
  have hascii : ((encode bytes).all fun c => c.toNat < 128) = true :=
    List.all_eq_true.mpr fun c hc => decide_eq_true (ascii_of_mem_encode hc)
  rw [decode, if_pos hascii, decodeFrom_encode]

end Base64
