import Mathlib.Data.Nat.ModEq
import Mathlib.Data.Nat.Prime.Basic
import Mathlib.Tactic.Ring

/-!
# Check digits

The hybrid systems, which check a text of digits below an even `m` by a recurrence modulo `m` and
modulo `m + 1`, and numerals, whose value modulo some number is checked.

* `hybrid m digits` is the product at the end of a text, `hybridCheck` the check digit.
* `hybridCheck_ne`: if one digit is changed, the check digit changes.
* `numeral_append`: the value of a numeral in two parts.
-/

namespace CheckDigits

/-! ### Hybrid systems -/

/-- The sum of a digit and the product so far, from `1` to `m`. -/
def hybridSum (m product digit : ℕ) : ℕ :=
  if (digit + product) % m = 0 then m else (digit + product) % m

/-- The next product. -/
def hybridStep (m product digit : ℕ) : ℕ := 2 * hybridSum m product digit % (m + 1)

/-- The product at the end of a text of digits. -/
def hybridFrom (m product : ℕ) (digits : List ℕ) : ℕ := digits.foldl (hybridStep m) product

/-- The check digit of a text. -/
def hybridCheck (m : ℕ) (digits : List ℕ) : ℕ := (m + 1 - hybridFrom m m digits) % m

variable {m : ℕ}

theorem hybridSum_pos (hm : 0 < m) (product digit : ℕ) : 0 < hybridSum m product digit := by
  rw [hybridSum]
  split_ifs with h
  · exact hm
  · exact Nat.pos_of_ne_zero h

theorem hybridSum_le (hm : 0 < m) (product digit : ℕ) : hybridSum m product digit ≤ m := by
  rw [hybridSum]
  split_ifs
  · exact le_rfl
  · exact (Nat.mod_lt _ hm).le

theorem hybridSum_modEq (product digit : ℕ) :
    hybridSum m product digit ≡ digit + product [MOD m] := by
  rw [hybridSum]
  split_ifs with h
  · rw [Nat.ModEq, h, Nat.mod_self]
  · exact Nat.mod_modEq _ m

/-- Twice a number has a remainder by `m + 1` that tells the number. -/
theorem coprime_two (heven : Even m) : Nat.Coprime (m + 1) 2 := by
  exact Nat.coprime_two_right.mpr heven.add_one

/-- Numbers from `1` to `m` that leave the same remainder by `m` are equal. -/
theorem eq_of_modEq {a b : ℕ} (ha : 0 < a) (hle : a ≤ m) (hb : 0 < b) (hle' : b ≤ m)
    (h : a ≡ b [MOD m]) : a = b := by
  obtain ⟨a, rfl⟩ := Nat.exists_eq_add_of_lt ha
  obtain ⟨b, rfl⟩ := Nat.exists_eq_add_of_lt hb
  have hcancel : 0 + a ≡ 0 + b [MOD m] := Nat.ModEq.add_right_cancel' 1 h
  rw [hcancel.eq_of_lt_of_lt (by omega) (by omega)]

theorem hybridStep_pos (hm : 0 < m) (heven : Even m) (product digit : ℕ) :
    0 < hybridStep m product digit := by
  refine Nat.pos_of_ne_zero fun h => ?_
  have hdvd : m + 1 ∣ hybridSum m product digit :=
    (coprime_two heven).dvd_of_dvd_mul_left (Nat.dvd_of_mod_eq_zero h)
  have hle := Nat.le_of_dvd (hybridSum_pos hm product digit) hdvd
  have hsum := hybridSum_le hm product digit
  omega

theorem hybridStep_le (product digit : ℕ) : hybridStep m product digit ≤ m :=
  Nat.lt_succ_iff.mp (Nat.mod_lt _ m.succ_pos)

/-- The product tells the sum it was made of. -/
theorem hybridSum_eq_of_step_eq (hm : 0 < m) (heven : Even m) {product product' digit digit' : ℕ}
    (h : hybridStep m product digit = hybridStep m product' digit') :
    hybridSum m product digit = hybridSum m product' digit' := by
  have hmod : hybridSum m product digit ≡ hybridSum m product' digit' [MOD m + 1] :=
    Nat.ModEq.cancel_left_of_coprime (coprime_two heven) h
  have hle := hybridSum_le hm product digit
  have hle' := hybridSum_le hm product' digit'
  exact hmod.eq_of_lt_of_lt (by omega) (by omega)

/-- **One product tells the one before it**, where the digit is the same. -/
theorem hybridStep_injOn_product (hm : 0 < m) (heven : Even m) {product product' : ℕ} (digit : ℕ)
    (hpos : 0 < product) (hle : product ≤ m) (hpos' : 0 < product') (hle' : product' ≤ m)
    (h : hybridStep m product digit = hybridStep m product' digit) : product = product' := by
  have hsum := hybridSum_eq_of_step_eq hm heven h
  have hmod : digit + product ≡ digit + product' [MOD m] :=
    (hybridSum_modEq product digit).symm.trans (hsum ▸ hybridSum_modEq product' digit)
  exact eq_of_modEq hpos hle hpos' hle' (Nat.ModEq.add_left_cancel' digit hmod)

/-- **One product tells the digit**, where the product before it is the same. -/
theorem hybridStep_injOn_digit (hm : 0 < m) (heven : Even m) (product : ℕ) {digit digit' : ℕ}
    (hlt : digit < m) (hlt' : digit' < m)
    (h : hybridStep m product digit = hybridStep m product digit') : digit = digit' := by
  have hsum := hybridSum_eq_of_step_eq hm heven h
  have hmod : digit + product ≡ digit' + product [MOD m] :=
    (hybridSum_modEq product digit).symm.trans (hsum ▸ hybridSum_modEq product digit')
  exact (Nat.ModEq.add_right_cancel' product hmod).eq_of_lt_of_lt hlt hlt'

/-- The products of a text are from `1` to `m`. -/
theorem hybridFrom_mem (hm : 0 < m) (heven : Even m) {product : ℕ} (hpos : 0 < product)
    (hle : product ≤ m) (digits : List ℕ) :
    0 < hybridFrom m product digits ∧ hybridFrom m product digits ≤ m := by
  induction digits generalizing product with
  | nil => exact ⟨hpos, hle⟩
  | cons digit digits ih => exact ih (hybridStep_pos hm heven product digit) (hybridStep_le ..)

/-- Different products stay different along the same digits. -/
theorem hybridFrom_injOn (hm : 0 < m) (heven : Even m) {product product' : ℕ}
    (hpos : 0 < product) (hle : product ≤ m) (hpos' : 0 < product') (hle' : product' ≤ m)
    {digits : List ℕ} (h : hybridFrom m product digits = hybridFrom m product' digits) :
    product = product' := by
  induction digits generalizing product product' with
  | nil => exact h
  | cons digit digits ih =>
    have hstep := ih (hybridStep_pos hm heven product digit) (hybridStep_le ..)
      (hybridStep_pos hm heven product' digit) (hybridStep_le ..) h
    exact hybridStep_injOn_product hm heven digit hpos hle hpos' hle' hstep

/-- **Single errors.** If one digit is changed, the check digit changes. -/
theorem hybridCheck_ne (hm : 0 < m) (heven : Even m) (front back : List ℕ) {digit digit' : ℕ}
    (hlt : digit < m) (hlt' : digit' < m) (hne : digit ≠ digit') :
    hybridCheck m (front ++ digit :: back) ≠ hybridCheck m (front ++ digit' :: back) := by
  intro h
  have hsplit : ∀ digit, hybridFrom m m (front ++ digit :: back) =
      hybridFrom m (hybridStep m (hybridFrom m m front) digit) back := fun digit => by
    rw [hybridFrom, List.foldl_append, List.foldl_cons, hybridFrom, hybridFrom]
  obtain ⟨hpos, hle⟩ := hybridFrom_mem hm heven hm le_rfl (front ++ digit :: back)
  obtain ⟨hpos', hle'⟩ := hybridFrom_mem hm heven hm le_rfl (front ++ digit' :: back)
  have hcheck : m + 1 - hybridFrom m m (front ++ digit :: back) =
      m + 1 - hybridFrom m m (front ++ digit' :: back) :=
    eq_of_modEq (by omega) (by omega) (by omega) (by omega) h
  have hfrom : hybridFrom m m (front ++ digit :: back) =
      hybridFrom m m (front ++ digit' :: back) := by omega
  rw [hsplit, hsplit] at hfrom
  have hstep := hybridFrom_injOn hm heven (hybridStep_pos hm heven _ digit) (hybridStep_le ..)
    (hybridStep_pos hm heven _ digit') (hybridStep_le ..) hfrom
  exact hne (hybridStep_injOn_digit hm heven _ hlt hlt' hstep)

/-! ### Numerals -/

/-- The value of a numeral. -/
def numeral (digits : List ℕ) : ℕ := digits.foldl (fun value digit => 10 * value + digit) 0

theorem foldl_numeral (value : ℕ) (digits : List ℕ) :
    digits.foldl (fun value digit => 10 * value + digit) value =
      value * 10 ^ digits.length + numeral digits := by
  induction digits generalizing value with
  | nil => simp [numeral]
  | cons digit digits ih =>
    have hcons : numeral (digit :: digits) = digit * 10 ^ digits.length + numeral digits := by
      rw [numeral, List.foldl_cons, ih, Nat.mul_zero, Nat.zero_add]
    rw [List.foldl_cons, ih, hcons, List.length_cons]
    ring

/-- The value of a numeral in two parts. -/
theorem numeral_append (front back : List ℕ) :
    numeral (front ++ back) = numeral front * 10 ^ back.length + numeral back := by
  rw [numeral, List.foldl_append, foldl_numeral]
  rfl

end CheckDigits
