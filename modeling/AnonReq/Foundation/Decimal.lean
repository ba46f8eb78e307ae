import Mathlib.Algebra.Ring.Nat
import Mathlib.Tactic.Common

/-!
# Fixed-width decimal numerals

Writing a number with a given number of digits and reading that many digits back. The value of
a digit string is `Nat.ofDigitChars 10`.

* `pad w n` is the `w`-digit numeral of `n` (its low digits, when `n` has more).
* `readDigits w` reads a numeral of exactly `w` digits off the front of a text.
* `readDigits_pad_append` is the round trip.
-/

namespace Decimal

/-- The numeral of `n` with `w` digits, zeros in front. -/
def pad : ℕ → ℕ → List Char
  | 0, _ => []
  | w + 1, n => pad w (n / 10) ++ [Nat.digitChar (n % 10)]

/-- The value of a string of decimal digits. -/
def value (s : List Char) : ℕ := Nat.ofDigitChars 10 s 0

/-- Read a numeral of exactly `w` digits: its value and the rest of the text. -/
def readDigits (w : ℕ) (s : List Char) : Option (ℕ × List Char) :=
  if (s.take w).length = w ∧ (s.take w).all Char.isDigit then
    some (value (s.take w), s.drop w)
  else none

@[simp]
theorem length_pad (w n : ℕ) : (pad w n).length = w := by
  induction w generalizing n with
  | zero => rfl
  | succ w ih => simp [pad, ih]

theorem isDigit_of_mem_pad {w n : ℕ} {c : Char} (hc : c ∈ pad w n) : c.isDigit = true := by
  induction w generalizing n with
  | zero => simp [pad] at hc
  | succ w ih =>
    rcases List.mem_append.mp hc with hc | hc
    · exact ih hc
    · obtain rfl : c = Nat.digitChar (n % 10) := by simpa using hc
      simpa using Nat.mod_lt n (by omega)

/-- A padded numeral keeps the low digits. -/
theorem value_pad (w n : ℕ) : value (pad w n) = n % 10 ^ w := by
  induction w generalizing n with
  | zero => simp [pad, value, Nat.mod_one]
  | succ w ih =>
    have hlt : n % 10 < 10 := Nat.mod_lt n (by omega)
    have hhigh : Nat.ofDigitChars 10 (pad w (n / 10)) 0 = n / 10 % 10 ^ w := ih (n / 10)
    rw [value, pad, Nat.ofDigitChars_append, hhigh,
      Nat.ofDigitChars_cons_digitChar_of_lt_ten hlt, Nat.ofDigitChars_nil, Nat.pow_succ',
      Nat.mod_mul]
    omega

/-- **Round trip.** A numeral that fits its width is read back. -/
theorem readDigits_pad_append {w n : ℕ} (h : n < 10 ^ w) (rest : List Char) :
    readDigits w (pad w n ++ rest) = some (n, rest) := by
  have htake : (pad w n ++ rest).take w = pad w n := by
    rw [List.take_append_of_le_length (by simp), List.take_of_length_le (by simp)]
  have hdrop : (pad w n ++ rest).drop w = rest := by
    rw [List.drop_append_of_le_length (by simp), List.drop_of_length_le (by simp),
      List.nil_append]
  have hall : (pad w n).all Char.isDigit = true :=
    List.all_eq_true.mpr fun c hc => isDigit_of_mem_pad hc
  rw [readDigits, htake, hdrop, if_pos ⟨length_pad w n, hall⟩, value_pad, Nat.mod_eq_of_lt h]

end Decimal
