import Mathlib
import AnonReq.Detection.Checksum
import AnonReq.Foundation.CheckDigits
import AnonReq.Foundation.Runs

/-!
# German identifiers

The generators and the validators of `locale/checksums/germany.py` and
`locale/checksums/iso7064.py`. A text of digits may have digits of any script; what `int` makes of
one is `digit`.

* `iso7064Validate_generateSteuerId`, `ibanMod97Validate_generateIbanDe`: what is generated is
  accepted.
* `kvnrValidate_generateKvnr_iff`, `personalausweisValidate_generatePersonalausweis_iff`: when it
  is.
* `steuerCheck_eq`: the two computations of the check digit agree.
* `iso7064Validate_change`: a tax number with one digit changed is rejected.
* `generators_agree_iff` puts these together. `not_generators_agree`: a body of nine digits.
-/

namespace AnonReq.Locale

open AnonReq.Detection (icao9303CheckDigit matchesAusweis personalausweisValidate)
open CheckDigits (hybridCheck hybridFrom hybridStep numeral)

/-! ### Digits -/

/-- Unicode tables with the values of digits. Decimal digits have no case and are no letters. -/
structure DigitUnicode extends Unicode where
  /-- `int` of one character. -/
  digit : Char → Option ℕ
  /-- `str.isdigit` of one character. -/
  isDigit : Char → Bool
  /-- `str.isalpha` of one character. -/
  isAlpha : Char → Bool
  isDecimal_eq : ∀ c, isDecimal c = (digit c).isSome
  digit_lt : ∀ c, ∀ d ∈ digit c, d < 10
  digit_ascii : ∀ c : Char, c.toNat < 128 →
    digit c = if c.isDigit then some (c.toNat - '0'.toNat) else none
  isDigit_decimal : ∀ c, isDecimal c = true → isDigit c = true
  isAlpha_decimal : ∀ c, isDecimal c = true → isAlpha c = false
  isAlpha_ascii : ∀ c : Char, c.toNat < 128 → isAlpha c = c.isAlpha
  isAlnum_ascii : ∀ c : Char, c.toNat < 128 → isAlnum c = c.isAlphanum
  upper_decimal : ∀ c, isDecimal c = true → upper c = [c]
  upper_ascii : ∀ c : Char, c.toNat < 128 → upper c = [c.toUpper]
  upper_upper : ∀ c, ∀ d ∈ upper c, upper d = [d]

private theorem toUpper_of_isDigit {c : Char} (h : c.isDigit = true) : c.toUpper = c := by
  have hhigh : c.val.toNat ≤ 57 := (Char.isDigit_iff_toNat.mp h).2
  unfold Char.toUpper
  split_ifs with hlower
  · have hlow : 97 ≤ c.val.toNat := hlower.1
    omega
  · rfl

private theorem toUpper_toUpper (c : Char) : c.toUpper.toUpper = c.toUpper := by
  unfold Char.toUpper
  split_ifs with hlower hagain
  · -- a shifted letter is no lower case letter again
    have hshift : ('A'.val - 'a'.val).toNat = 2 ^ 32 - 32 := rfl
    have hlow : 97 ≤ c.val.toNat := hlower.1
    have hhigh : c.val.toNat ≤ 122 := hlower.2
    have hbound : 97 ≤ (c.val + ('A'.val - 'a'.val)).toNat := hagain.1
    rw [UInt32.toNat_add, hshift] at hbound
    omega
  · rfl
  · rfl

private theorem not_isAlpha_of_isDigit {c : Char} (h : c.isDigit = true) : c.isAlpha = false := by
  have hhigh : c.val.toNat ≤ 57 := (Char.isDigit_iff_toNat.mp h).2
  have hupper : ¬ ('A'.val ≤ c.val ∧ c.val ≤ 'Z'.val) := fun hupper => by
    have hlow : 65 ≤ c.val.toNat := hupper.1
    omega
  have hlower : ¬ 'a'.val ≤ c.val := fun hlower => by
    have hlow : 97 ≤ c.val.toNat := hlower
    omega
  rw [Char.isAlpha, Char.isUpper, Char.isLower, decide_eq_false hupper, decide_eq_false hlower]
  rfl

/-- The tables restricted to ASCII. -/
def DigitUnicode.ascii : DigitUnicode where
  toUnicode := .ascii
  digit c := if c.isDigit then some (c.toNat - '0'.toNat) else none
  isDigit := Char.isDigit
  isAlpha := Char.isAlpha
  isDecimal_eq c := by cases h : c.isDigit <;> simp [Unicode.ascii, h]
  digit_lt c d hd := by
    obtain ⟨hdigit, hd⟩ := Option.ite_none_right_eq_some.mp hd
    have hbounds : c.toNat ≤ 57 := (Char.isDigit_iff_toNat.mp hdigit).2
    obtain rfl := Option.some.inj hd
    have hzero : '0'.toNat = 48 := rfl
    omega
  digit_ascii _ _ := rfl
  isDigit_decimal _ h := h
  isAlpha_decimal _ h := not_isAlpha_of_isDigit h
  isAlpha_ascii _ _ := rfl
  isAlnum_ascii _ _ := rfl
  upper_decimal _ h := congrArg (fun c => [c]) (toUpper_of_isDigit h)
  upper_ascii _ _ := rfl
  upper_upper c d hd := by
    obtain rfl := List.mem_singleton.mp hd
    exact congrArg (fun c => [c]) (toUpper_toUpper c)

variable (u : DigitUnicode)

/-- `digits_only`. -/
def digitsOnly (value : Text) : Text := value.filter u.isDecimal

/-- `int` of a text of digits. -/
def int (text : Text) : Option ℕ := (text.mapM u.digit).map numeral

/-- `str` of a number that is not negative. -/
def str (n : ℕ) : Text := (Nat.repr n).toList

/-! ### Tax numbers -/

/-- What both loops over a tax number do with a digit. -/
def nextProduct (product digit : ℕ) : ℕ :=
  let total := (digit + product) % 10
  let total := if total = 0 then 10 else total
  2 * total % 11

/-- `iso7064_mod11_10_check_digit`. -/
def iso7064Mod1110CheckDigit (body10 : Text) : Option Text :=
  (body10.mapM u.digit).map fun digits =>
    let check := 11 - digits.foldl nextProduct 10
    str (if check = 10 ∨ check = 11 then 0 else check)

/-- `generate_steuer_id`. -/
def generateSteuerId (body10 : Text) : Option Text :=
  let digits := digitsOnly u body10
  if digits.length ≠ 10 ∨ digits.head? = some '0' then none
  else (iso7064Mod1110CheckDigit u digits).map fun check => digits ++ check

/-- The check digit in `ISO7064Mod11_2Validator.validate`. -/
def steuerCheck (digits : Text) : Option ℕ :=
  (digits.mapM u.digit).map fun digits =>
    let check := 11 - digits.foldl nextProduct 10
    let check := if check = 10 then 0 else check
    if check = 11 then 0 else check

/-- `ISO7064Mod11_2Validator.validate`. -/
def iso7064Validate (value : Text) : Option Bool :=
  let digits := digitsOnly u value
  if digits.length ≠ 11 ∨ digits.all u.isDigit = false ∨ digits.head? = some '0' then some false
  else do
    let check ← steuerCheck u (digits.take 10)
    let last ← int u (digits.drop 10)
    return check == last

/-! ### Health insurance numbers -/

/-- The loop of `kvnr_check_digit`: every second digit is doubled. -/
def luhnSum : Bool → List ℕ → ℕ
  | _, [] => 0
  | double, digit :: digits =>
    (if double then if 2 * digit > 9 then 2 * digit - 9 else 2 * digit else digit) +
      luhnSum (!double) digits

/-- `kvnr_check_digit`. `ord` asks for one character, and `int` for digits: a letter before `@`
has a minus sign. -/
def kvnrCheckDigit (letter serial8 : Text) : Option Text :=
  match u.upperText letter with
  | [upper] =>
    if upper.toNat + 1 < 'A'.toNat then none
    else
      let letterNum := List.leftpad 2 '0' (str (upper.toNat + 1 - 'A'.toNat))
      ((letterNum ++ serial8).mapM u.digit).map fun digits =>
        str ((10 - luhnSum true digits.reverse % 10) % 10)
  | _ => none

/-- `generate_kvnr`. -/
def generateKvnr (letter serial8 : Text) : Option Text :=
  if letter.length = 1 ∧ letter.all u.isAlpha ∧ serial8.length = 8 ∧ serial8.all u.isDigit then
    (kvnrCheckDigit u letter serial8).map fun check => u.upperText letter ++ serial8 ++ check
  else none

/-- A pattern of digits at the end of a text, before a line break or none. -/
def matchesDigits (count : ℕ) (text : Text) : Bool :=
  (text.take count).length = count && (text.take count).all u.isDecimal &&
    (text.drop count == [] || text.drop count == ['\n'])

/-- `A` to `Z`. -/
def isCapital (c : Char) : Bool := 'A' ≤ c ∧ c ≤ 'Z'

/-- `_KVNR_RE`: a capital letter and nine digits. -/
def matchesKvnr : Text → Bool
  | [] => false
  | letter :: rest => isCapital letter && matchesDigits u 9 rest

/-- `value.replace(" ", "").upper()`. -/
def compactUpper (value : Text) : Text := u.upperText (value.filter fun c => c ≠ ' ')

/-- `KVNRValidator.validate`. -/
def kvnrValidate (value : Text) : Option Bool :=
  let compact := compactUpper u value
  if matchesKvnr u compact then
    (kvnrCheckDigit u (compact.take 1) ((compact.drop 1).take 8)).map fun expected =>
      (compact.drop 9).take 1 == expected
  else some false

/-! ### Identity cards -/

/-- `generate_personalausweis`. -/
def generatePersonalausweis (body9 : Text) : Option Text :=
  let compact := (u.upperText body9).filter u.isAlnum
  if compact.length ≠ 9 then none else some (compact ++ icao9303CheckDigit u.toUnicode compact)

/-! ### Account numbers -/

/-- `generate_iban_de`. -/
def generateIbanDe (blz account : Text) : Option Text :=
  let bban := (List.leftpad 8 '0' (digitsOnly u blz) ++
    List.leftpad 10 '0' (digitsOnly u account)).take 18
  (int u (bban ++ "131400".toList)).map fun numeric =>
    "DE".toList ++ List.leftpad 2 '0' (str (98 - numeric % 97)) ++ bban

/-- `iban_mod97_valid`. A letter is written as its place behind nine. -/
def ibanMod97Valid (value : Text) : Option Bool :=
  let compact := compactUpper u value
  if compact.length < 15 ∨ (compact.take 2).all u.isAlpha = false ∨
      ((compact.drop 2).take 2).all u.isDigit = false then some false
  else
    let rearranged := compact.drop 4 ++ compact.take 4
    let numeric := rearranged.flatMap fun ch =>
      if u.isAlpha ch then str (ch.toNat - 55) else [ch]
    if numeric.all u.isDigit then (int u numeric).map fun n => n % 97 == 1 else some false

/-- `IBANMod97Validator.validate`. -/
def ibanMod97Validate (value : Text) : Option Bool :=
  let compact := compactUpper u value
  if "DE".toList.isPrefixOf compact && !matchesDigits u 20 (compact.drop 2) then some false
  else ibanMod97Valid u compact

/-! ### Digits of texts -/

variable {u}

namespace DigitUnicode

/-- The value of a decimal digit. -/
def value (u : DigitUnicode) (c : Char) : ℕ := (u.digit c).getD 0

theorem digit_eq {c : Char} (h : u.isDecimal c = true) : u.digit c = some (u.value c) := by
  rw [u.isDecimal_eq] at h
  obtain ⟨d, hd⟩ := Option.isSome_iff_exists.mp h
  rw [value, hd, Option.getD_some]

theorem value_lt {c : Char} (h : u.isDecimal c = true) : u.value c < 10 :=
  u.digit_lt c _ (digit_eq h)

theorem mapM_digit {text : Text} (h : ∀ c ∈ text, u.isDecimal c = true) :
    text.mapM u.digit = some (text.map u.value) :=
  Runs.mapM_eq_some_map fun c hc => digit_eq (h c hc)

theorem digit_of_isDigit {c : Char} (h : c.isDigit = true) :
    u.digit c = some (c.toNat - '0'.toNat) := by
  have hhigh : c.toNat ≤ 57 := (Char.isDigit_iff_toNat.mp h).2
  rw [u.digit_ascii c (by omega), if_pos h]

theorem isDecimal_of_isDigit {c : Char} (h : c.isDigit = true) : u.isDecimal c = true := by
  rw [u.isDecimal_eq, digit_of_isDigit h, Option.isSome_some]

/-- A character of ASCII that is no digit is no digit of any script. -/
theorem not_isDecimal_of_ascii {c : Char} (hascii : c.toNat < 128) (h : c.isDigit = false) :
    u.isDecimal c = false := by
  rw [u.isDecimal_eq, u.digit_ascii c hascii, h]
  rfl

theorem value_of_isDigit {c : Char} (h : c.isDigit = true) : u.value c = c.toNat - '0'.toNat := by
  rw [value, digit_of_isDigit h, Option.getD_some]

theorem ne_space_of_isDecimal {c : Char} (h : u.isDecimal c = true) : c ≠ ' ' := by
  rintro rfl
  rw [not_isDecimal_of_ascii (by decide) (by decide)] at h
  cases h

end DigitUnicode

open DigitUnicode

/-- The text of a number below ten. -/
theorem str_of_lt {n : ℕ} (h : n < 10) : str n = [Nat.digitChar n] := by
  have hall : ∀ n < 10, str n = [Nat.digitChar n] := by decide
  exact hall n h

theorem isDigit_digitChar {n : ℕ} (h : n < 10) : (Nat.digitChar n).isDigit = true := by
  have hall : ∀ n < 10, (Nat.digitChar n).isDigit = true := by decide
  exact hall n h

theorem value_digitChar {n : ℕ} (h : n < 10) : u.value (Nat.digitChar n) = n := by
  have hall : ∀ n < 10, (Nat.digitChar n).toNat - '0'.toNat = n := by decide
  rw [value_of_isDigit (isDigit_digitChar h), hall n h]

theorem int_eq {text : Text} (h : ∀ c ∈ text, u.isDecimal c = true) :
    int u text = some (numeral (text.map u.value)) := by
  rw [int, mapM_digit h, Option.map_some]

theorem isDecimal_of_mem_digitsOnly {value : Text} :
    ∀ c ∈ digitsOnly u value, u.isDecimal c = true :=
  fun _ hc => (List.mem_filter.mp hc).2

theorem digitsOnly_eq_self {text : Text} (h : ∀ c ∈ text, u.isDecimal c = true) :
    digitsOnly u text = text :=
  List.filter_eq_self.mpr h

/-! ### Tax numbers are accepted -/

/-- The check digit, where ten and eleven stand for zero. -/
theorem check_eq (digits : List ℕ) :
    11 - digits.foldl nextProduct 10 ≠ 11 ∧
      (if 11 - digits.foldl nextProduct 10 = 10 then 0 else 11 - digits.foldl nextProduct 10) =
        hybridCheck 10 digits := by
  have hmem : 0 < hybridFrom 10 10 digits ∧ hybridFrom 10 10 digits ≤ 10 :=
    CheckDigits.hybridFrom_mem (by decide) (by decide) (by decide) le_rfl digits
  have hfold : digits.foldl nextProduct 10 = hybridFrom 10 10 digits := rfl
  rw [hfold, hybridCheck]
  refine ⟨by omega, ?_⟩
  split_ifs <;> omega

theorem hybridCheck_lt (digits : List ℕ) : hybridCheck 10 digits < 10 := Nat.mod_lt _ (by decide)

/-- What `generate_steuer_id` computes. -/
theorem iso7064Mod1110CheckDigit_eq {body : Text} (h : ∀ c ∈ body, u.isDecimal c = true) :
    iso7064Mod1110CheckDigit u body = some (str (hybridCheck 10 (body.map u.value))) := by
  obtain ⟨hne, heq⟩ := check_eq (body.map u.value)
  rw [iso7064Mod1110CheckDigit, mapM_digit h, Option.map_some, ← heq]
  simp only [hne, or_false]

/-- What the validator computes. -/
theorem steuerCheck_eq {body : Text} (h : ∀ c ∈ body, u.isDecimal c = true) :
    steuerCheck u body = some (hybridCheck 10 (body.map u.value)) := by
  obtain ⟨hne, heq⟩ := check_eq (body.map u.value)
  have hinner : (if 11 - (body.map u.value).foldl nextProduct 10 = 10 then 0
      else 11 - (body.map u.value).foldl nextProduct 10) ≠ 11 := by
    split_ifs
    · decide
    · exact hne
  rw [steuerCheck, mapM_digit h, Option.map_some, ← heq]
  simp only [if_neg hinner]

/-- What the validator says of ten digits and one more. -/
theorem iso7064Validate_eq {value body : Text} {last : Char}
    (hdigits : digitsOnly u value = body ++ [last]) (hlength : body.length = 10)
    (hhead : body.head? ≠ some '0') :
    iso7064Validate u value = some (hybridCheck 10 (body.map u.value) == u.value last) := by
  have hdecimal : ∀ c ∈ body ++ [last], u.isDecimal c = true :=
    hdigits ▸ isDecimal_of_mem_digitsOnly
  have hbody : ∀ c ∈ body, u.isDecimal c = true := fun c hc =>
    hdecimal c (List.mem_append_left [last] hc)
  have hlast : ∀ c ∈ [last], u.isDecimal c = true := fun c hc =>
    hdecimal c (List.mem_append_right body hc)
  have hall : (body ++ [last]).all u.isDigit = true :=
    List.all_eq_true.mpr fun c hc => u.isDigit_decimal c (hdecimal c hc)
  have hhead' : (body ++ [last]).head? ≠ some '0' := by
    rw [List.head?_append_of_ne_nil]
    · exact hhead
    · exact List.ne_nil_of_length_pos (by omega)
  have htake : (body ++ [last]).take 10 = body := List.take_left' hlength
  have hdrop : (body ++ [last]).drop 10 = [last] := List.drop_left' hlength
  have hgood : ¬ ((body ++ [last]).length ≠ 11 ∨ (body ++ [last]).all u.isDigit = false ∨
      (body ++ [last]).head? = some '0') := by
    rw [hall, List.length_append, hlength]
    simpa using hhead'
  have hvalue : numeral ([last].map u.value) = u.value last := by simp [numeral]
  rw [iso7064Validate]
  simp only [hdigits, if_neg hgood, htake, hdrop, steuerCheck_eq hbody, int_eq hlast, hvalue]
  rfl

/-- What is rejected for its form. -/
theorem iso7064Validate_of_malformed {value : Text}
    (h : (digitsOnly u value).length ≠ 11 ∨ (digitsOnly u value).head? = some '0') :
    iso7064Validate u value = some false := by
  rw [iso7064Validate]
  exact if_pos (h.imp_right Or.inr)

/-- Eleven digits are ten and one more. -/
theorem exists_body {digits : Text} (hlength : digits.length = 11)
    (hhead : digits.head? ≠ some '0') :
    ∃ body last, digits = body ++ [last] ∧ body.length = 10 ∧ body.head? ≠ some '0' := by
  have hne : digits ≠ [] := List.ne_nil_of_length_pos (by omega)
  have hten : digits.dropLast.length = 10 := by rw [List.length_dropLast, hlength]
  refine ⟨digits.dropLast, digits.getLast hne, (List.dropLast_append_getLast hne).symm, hten, ?_⟩
  rwa [← List.head?_append_of_ne_nil _ (List.ne_nil_of_length_pos (by omega)),
    List.dropLast_append_getLast hne]

/-- What the validator accepts. -/
theorem iso7064Validate_eq_true_iff {value : Text} :
    iso7064Validate u value = some true ↔ ∃ body last, digitsOnly u value = body ++ [last] ∧
      body.length = 10 ∧ body.head? ≠ some '0' ∧
        hybridCheck 10 (body.map u.value) = u.value last := by
  constructor
  · intro h
    have hgood : ¬ ((digitsOnly u value).length ≠ 11 ∨ (digitsOnly u value).head? = some '0') :=
      fun hbad => by simp [iso7064Validate_of_malformed hbad] at h
    obtain ⟨hlength, hhead⟩ := not_or.mp hgood
    obtain ⟨body, last, hdigits, hten, hhead'⟩ := exists_body (not_not.mp hlength) hhead
    rw [iso7064Validate_eq hdigits hten hhead'] at h
    exact ⟨body, last, hdigits, hten, hhead', beq_iff_eq.mp (Option.some.inj h)⟩
  · rintro ⟨body, last, hdigits, hlength, hhead, hcheck⟩
    rw [iso7064Validate_eq hdigits hlength hhead, hcheck, beq_self_eq_true]

/-- **Generated tax numbers are accepted.** -/
theorem iso7064Validate_generateSteuerId {body10 value : Text}
    (h : generateSteuerId u body10 = some value) : iso7064Validate u value = some true := by
  obtain ⟨hgood, h⟩ := Option.ite_none_left_eq_some.mp h
  obtain ⟨hlength, hhead⟩ := not_or.mp hgood
  rw [iso7064Mod1110CheckDigit_eq isDecimal_of_mem_digitsOnly, Option.map_some] at h
  obtain rfl := Option.some.inj h
  have hlt := hybridCheck_lt ((digitsOnly u body10).map u.value)
  rw [str_of_lt hlt, iso7064Validate_eq_true_iff]
  refine ⟨_, _, digitsOnly_eq_self ?_, not_not.mp hlength, hhead, (value_digitChar hlt).symm⟩
  intro c hc
  obtain hc | hc := List.mem_append.mp hc
  · exact isDecimal_of_mem_digitsOnly c hc
  · rw [List.mem_singleton.mp hc]
    exact isDecimal_of_isDigit (isDigit_digitChar hlt)

/-! ### Single errors are found -/

/-- The check digit of a text with a changed digit is wrong, wherever it stands. -/
theorem hybridCheck_change {front back : Text} {c c' : Char} {body body' : Text} {last last' : Char}
    (hc : u.isDecimal c = true) (hc' : u.isDecimal c' = true) (hne : u.value c' ≠ u.value c)
    (h : front ++ c :: back = body ++ [last]) (h' : front ++ c' :: back = body' ++ [last'])
    (hcheck : hybridCheck 10 (body.map u.value) = u.value last) :
    hybridCheck 10 (body'.map u.value) ≠ u.value last' := by
  rcases List.eq_nil_or_concat back with rfl | ⟨back, final, rfl⟩
  · -- the check digit itself is changed
    obtain ⟨rfl, hlast⟩ := List.append_inj' h rfl
    obtain ⟨rfl, hlast'⟩ := List.append_inj' h' rfl
    obtain rfl := List.singleton_injective hlast
    obtain rfl := List.singleton_injective hlast'
    rw [hcheck]
    exact hne.symm
  · rw [List.concat_eq_append, ← List.cons_append, ← List.append_assoc] at h h'
    obtain ⟨rfl, hlast⟩ := List.append_inj' h rfl
    obtain ⟨rfl, hlast'⟩ := List.append_inj' h' rfl
    obtain rfl := List.singleton_injective hlast
    obtain rfl := List.singleton_injective hlast'
    rw [← hcheck]
    simp only [List.map_append, List.map_cons]
    exact CheckDigits.hybridCheck_ne (by decide) (by decide) _ _ (value_lt hc') (value_lt hc) hne

/-- **A changed digit is found.** If a digit of an accepted tax number is changed to anything that
is not that digit, the number is rejected. -/
theorem iso7064Validate_change {front back : Text} {c c' : Char}
    (hvalid : iso7064Validate u (front ++ c :: back) = some true) (hc : u.isDecimal c = true)
    (hne : u.digit c' ≠ u.digit c) : iso7064Validate u (front ++ c' :: back) = some false := by
  obtain ⟨body, last, hdigits, hlength, -, hcheck⟩ := iso7064Validate_eq_true_iff.mp hvalid
  have hsplit : digitsOnly u (front ++ c :: back) =
      digitsOnly u front ++ c :: digitsOnly u back := by
    rw [digitsOnly, List.filter_append, List.filter_cons_of_pos hc]
    rfl
  have hcount := congrArg List.length (hsplit.symm.trans hdigits)
  rw [List.length_append, List.length_cons, List.length_append, hlength, List.length_singleton]
    at hcount
  by_cases hc' : u.isDecimal c' = true
  · have hsplit' : digitsOnly u (front ++ c' :: back) =
        digitsOnly u front ++ c' :: digitsOnly u back := by
      rw [digitsOnly, List.filter_append, List.filter_cons_of_pos hc']
      rfl
    by_cases hhead : (digitsOnly u (front ++ c' :: back)).head? = some '0'
    · exact iso7064Validate_of_malformed (Or.inr hhead)
    · have hlength' : (digitsOnly u (front ++ c' :: back)).length = 11 := by
        rw [hsplit', List.length_append, List.length_cons]
        omega
      obtain ⟨body', last', hdigits', hten', hhead'⟩ := exists_body hlength' hhead
      have hvalue : u.value c' ≠ u.value c := fun heq =>
        hne (by rw [digit_eq hc', digit_eq hc, heq])
      have hwrong := hybridCheck_change hc hc' hvalue (hsplit.symm.trans hdigits)
        (hsplit'.symm.trans hdigits') hcheck
      rw [iso7064Validate_eq hdigits' hten' hhead', beq_eq_false_iff_ne.mpr hwrong]
  · have hshort : digitsOnly u (front ++ c' :: back) = digitsOnly u front ++ digitsOnly u back := by
      rw [digitsOnly, List.filter_append, List.filter_cons_of_neg hc']
      rfl
    refine iso7064Validate_of_malformed (Or.inl ?_)
    rw [hshort, List.length_append]
    omega

/-! ### Upper case texts -/

/-- A character that the upper case leaves alone. -/
def Fixed (u : DigitUnicode) (c : Char) : Prop := u.upper c = [c]

theorem upperText_eq_self {text : Text} (h : ∀ c ∈ text, Fixed u c) : u.upperText text = text := by
  induction text with
  | nil => rfl
  | cons c text ih =>
    obtain ⟨hc, htext⟩ := List.forall_mem_cons.mp h
    have ih : text.flatMap u.upper = text := ih htext
    rw [Unicode.upperText, List.flatMap_cons, ih, hc, List.singleton_append]

/-- What is in upper case stays as it is. -/
theorem fixed_of_mem_upperText {text : Text} {c : Char} (h : c ∈ u.upperText text) :
    Fixed u c := by
  obtain ⟨d, -, hc⟩ := List.mem_flatMap.mp h
  exact u.upper_upper d c hc

theorem fixed_of_isDecimal {c : Char} (h : u.isDecimal c = true) : Fixed u c := u.upper_decimal c h

theorem compactUpper_eq_self {text : Text} (h : ∀ c ∈ text, c ≠ ' ' ∧ Fixed u c) :
    compactUpper u text = text := by
  have hfilter : (text.filter fun c => c ≠ ' ') = text :=
    List.filter_eq_self.mpr fun c hc => decide_eq_true (h c hc).1
  rw [compactUpper, hfilter]
  exact upperText_eq_self fun c hc => (h c hc).2

theorem isCapital_iff {c : Char} : isCapital c = true ↔ 65 ≤ c.toNat ∧ c.toNat ≤ 90 := by
  rw [isCapital, Bool.decide_and, Bool.and_eq_true, decide_eq_true_eq, decide_eq_true_eq]
  exact Iff.rfl

theorem not_isCapital_of_isDecimal {c : Char} (h : u.isDecimal c = true) :
    isCapital c = false := by
  by_contra hcapital
  obtain ⟨hlow, hhigh⟩ := isCapital_iff.mp (Bool.not_eq_false _ ▸ hcapital)
  have hdigit : c.isDigit = false := by
    by_contra hdigit
    have hle : c.toNat ≤ 57 := (Char.isDigit_iff_toNat.mp (Bool.not_eq_false _ ▸ hdigit)).2
    omega
  rw [not_isDecimal_of_ascii (by omega) hdigit] at h
  cases h

/-- Nothing but digits matches a pattern of digits of its length. -/
theorem matchesDigits_eq_true {text : Text} {count : ℕ} (hlength : text.length = count)
    (h : ∀ c ∈ text, u.isDecimal c = true) : matchesDigits u count text = true := by
  have htake : text.take count = text := List.take_of_length_le hlength.le
  have hdrop : text.drop count = [] := List.drop_of_length_le hlength.le
  simp [matchesDigits, htake, hdrop, hlength, List.all_eq_true.mpr h]

/-! ### Health insurance numbers -/

/-- What `kvnr_check_digit` needs, and what it gives. -/
theorem exists_of_kvnrCheckDigit {letter serial8 check : Text}
    (h : kvnrCheckDigit u letter serial8 = some check) :
    ∃ upper n, u.upperText letter = [upper] ∧ (∀ c ∈ serial8, u.isDecimal c = true) ∧ n < 10 ∧
      check = [Nat.digitChar n] := by
  rw [kvnrCheckDigit] at h
  split at h
  case h_1 upper hupper =>
    obtain ⟨-, h⟩ := Option.ite_none_left_eq_some.mp h
    obtain ⟨digits, hdigits, rfl⟩ := Option.map_eq_some_iff.mp h
    have hlt : (10 - luhnSum true digits.reverse % 10) % 10 < 10 := Nat.mod_lt _ (by decide)
    refine ⟨upper, _, hupper, fun c hc => ?_, hlt, str_of_lt hlt⟩
    rw [u.isDecimal_eq]
    exact Runs.isSome_of_mapM hdigits c (List.mem_append_right _ hc)
  case h_2 => cases h

/-- The check digit depends on the upper case letter only. -/
theorem kvnrCheckDigit_congr {letter letter' : Text} (h : u.upperText letter = u.upperText letter')
    (serial8 : Text) : kvnrCheckDigit u letter serial8 = kvnrCheckDigit u letter' serial8 := by
  rw [kvnrCheckDigit, kvnrCheckDigit, h]

/-- A text begins with a letter from `A` to `Z` when it is in upper case. -/
def HasCapital (u : DigitUnicode) (letter : Text) : Prop :=
  ∃ c, u.upperText letter = [c] ∧ isCapital c = true

/-- **Generated health insurance numbers** are accepted exactly if the letter is one of ASCII. -/
theorem kvnrValidate_generateKvnr_iff {letter serial8 value : Text}
    (h : generateKvnr u letter serial8 = some value) :
    kvnrValidate u value = some true ↔ HasCapital u letter := by
  obtain ⟨⟨-, -, hlength, -⟩, h⟩ := Option.ite_none_right_eq_some.mp h
  obtain ⟨check, hcheck, rfl⟩ := Option.map_eq_some_iff.mp h
  obtain ⟨upper, n, hupper, hserial, hlt, rfl⟩ := exists_of_kvnrCheckDigit hcheck
  have hfixed : Fixed u upper := by
    have hmem : upper ∈ u.upperText letter := hupper ▸ List.mem_singleton_self upper
    exact fixed_of_mem_upperText hmem
  have hcapital : HasCapital u letter ↔ isCapital upper = true := by
    rw [HasCapital, hupper]
    simp
  have hdigits : ∀ c ∈ serial8 ++ [Nat.digitChar n], u.isDecimal c = true := by
    intro c hc
    obtain hc | hc := List.mem_append.mp hc
    · exact hserial c hc
    · rw [List.mem_singleton.mp hc]
      exact isDecimal_of_isDigit (isDigit_digitChar hlt)
  have hcompact : ∀ c ∈ serial8 ++ [Nat.digitChar n], c ≠ ' ' ∧ Fixed u c := fun c hc =>
    ⟨ne_space_of_isDecimal (hdigits c hc), fixed_of_isDecimal (hdigits c hc)⟩
  rw [hcapital, hupper, List.append_assoc, List.singleton_append, kvnrValidate]
  by_cases hspace : upper = ' '
  · -- a blank would be dropped, and a digit stand in front
    have hself : compactUpper u (upper :: (serial8 ++ [Nat.digitChar n])) =
        serial8 ++ [Nat.digitChar n] := by
      refine Eq.trans ?_ (compactUpper_eq_self hcompact)
      rw [hspace]
      rfl
    have hmatches : matchesKvnr u (serial8 ++ [Nat.digitChar n]) = false := by
      cases serial8 with
      | nil => simp [matchesKvnr, not_isCapital_of_isDecimal (hdigits _ List.mem_cons_self)]
      | cons c serial8 =>
        simp [matchesKvnr, not_isCapital_of_isDecimal (hdigits c List.mem_cons_self)]
    have hblank : isCapital upper = false := hspace ▸ by decide
    simp [hself, hmatches, hblank]
  · have hself : compactUpper u (upper :: (serial8 ++ [Nat.digitChar n])) =
        upper :: (serial8 ++ [Nat.digitChar n]) :=
      compactUpper_eq_self (List.forall_mem_cons.mpr ⟨⟨hspace, hfixed⟩, hcompact⟩)
    have hnine : matchesDigits u 9 (serial8 ++ [Nat.digitChar n]) = true :=
      matchesDigits_eq_true (by rw [List.length_append, hlength]; rfl) hdigits
    have htake : ((serial8 ++ [Nat.digitChar n]).take 8) = serial8 := List.take_left' hlength
    have hdrop : ((serial8 ++ [Nat.digitChar n]).drop 8) = [Nat.digitChar n] :=
      List.drop_left' hlength
    have hsame : kvnrCheckDigit u [upper] serial8 = some [Nat.digitChar n] := by
      rw [← hcheck]
      refine kvnrCheckDigit_congr ?_ serial8
      rw [hupper]
      exact upperText_eq_self (by simpa using hfixed)
    rw [hself, matchesKvnr, hnine, Bool.and_true]
    by_cases hupperCapital : isCapital upper = true
    · simp [hupperCapital, htake, hdrop, hsame]
    · simp [hupperCapital]

/-! ### Identity cards -/

/-- A body of an identity card number: a capital letter, then capital letters and digits, not all of
them digits. -/
def CardBody (compact : Text) : Prop :=
  ∃ letter rest, compact = letter :: rest ∧ isCapital letter = true ∧
    (∀ c ∈ rest, isCapital c = true ∨ c.isDigit = true) ∧ ∃ c ∈ rest, isCapital c = true

/-- The pattern of identity card numbers, on a body and its check digit. -/
theorem matchesAusweis_iff {compact : Text} {digit : Char} (hlength : compact.length = 9)
    (hdigit : u.isDecimal digit = true) :
    matchesAusweis u.toUnicode (compact ++ [digit]) = true ↔ CardBody compact := by
  obtain ⟨letter, rest, rfl⟩ := List.exists_cons_of_length_eq_add_one hlength
  have hrest : rest.length = 8 := Nat.succ.inj hlength
  have htake : (rest ++ [digit]).take 8 = rest := List.take_left' hrest
  have hdrop : (rest ++ [digit]).drop 8 = [digit] := List.drop_left' hrest
  have hcount : (rest ++ [digit]).length = 9 := by rw [List.length_append, hrest]; rfl
  have hascii : ∀ c : Char, decide ('0' ≤ c ∧ c ≤ '9') = c.isDigit := fun c => by
    rw [Bool.eq_iff_iff, decide_eq_true_eq, Char.isDigit_iff_toNat]
    exact Iff.rfl
  have hmatches : matchesAusweis u.toUnicode (letter :: (rest ++ [digit])) =
      (isCapital letter && !rest.all u.isDecimal &&
        rest.all fun c => isCapital c || c.isDigit) := by
    rw [matchesAusweis]
    simp only [htake, hdrop, hcount, hascii, List.all_append, List.all_cons, hdigit,
      List.all_nil, Bool.and_true, beq_self_eq_true]
    rfl
  have hdecimal : (∀ c ∈ rest, isCapital c = true ∨ c.isDigit = true) →
      (rest.all u.isDecimal = false ↔ ∃ c ∈ rest, isCapital c = true) := by
    intro hall
    rw [List.all_eq_false]
    refine exists_congr fun c => and_congr_right fun hc => ⟨fun hnot => ?_, fun hcapital => ?_⟩
    · exact (hall c hc).resolve_right fun hdigit => hnot (isDecimal_of_isDigit hdigit)
    · intro hdecimal
      rw [not_isCapital_of_isDecimal hdecimal] at hcapital
      cases hcapital
  rw [List.cons_append, hmatches, Bool.and_eq_true, Bool.and_eq_true, Bool.not_eq_true',
    List.all_eq_true]
  simp only [Bool.or_eq_true]
  constructor
  · rintro ⟨⟨hletter, hsome⟩, hall⟩
    exact ⟨letter, rest, rfl, hletter, hall, (hdecimal hall).mp hsome⟩
  · rintro ⟨_, _, heq, hletter, hall, hsome⟩
    obtain ⟨rfl, rfl⟩ := List.cons.inj heq
    exact ⟨⟨hletter, (hdecimal hall).mpr hsome⟩, hall⟩

/-- **Generated identity card numbers** are accepted exactly if the body is one of a card. -/
theorem personalausweisValidate_generatePersonalausweis_iff {body9 value : Text}
    (h : generatePersonalausweis u body9 = some value) :
    personalausweisValidate u.toUnicode value = true ↔
      CardBody ((u.upperText body9).filter u.isAlnum) := by
  obtain ⟨hlength, h⟩ := Option.ite_none_left_eq_some.mp h
  obtain rfl := Option.some.inj h
  have hlength : ((u.upperText body9).filter u.isAlnum).length = 9 := not_not.mp hlength
  set compact := (u.upperText body9).filter u.isAlnum with hcompact
  obtain ⟨n, hlt, hcheck⟩ : ∃ n < 10, icao9303CheckDigit u.toUnicode compact = [Nat.digitChar n] :=
    ⟨_, Nat.mod_lt _ (by decide), str_of_lt (Nat.mod_lt _ (by decide))⟩
  have hdigit := isDigit_digitChar hlt
  have hdecimal : u.isDecimal (Nat.digitChar n) = true := isDecimal_of_isDigit hdigit
  have hfixed : ∀ c ∈ compact ++ [Nat.digitChar n], Fixed u c ∧ u.isAlnum c = true := by
    intro c hc
    obtain hc | hc := List.mem_append.mp hc
    · obtain ⟨hmem, halnum⟩ := List.mem_filter.mp hc
      exact ⟨fixed_of_mem_upperText hmem, halnum⟩
    · rw [List.mem_singleton.mp hc]
      refine ⟨fixed_of_isDecimal hdecimal, ?_⟩
      have hhigh : (Nat.digitChar n).toNat ≤ 57 := (Char.isDigit_iff_toNat.mp hdigit).2
      rw [u.isAlnum_ascii _ (by omega), Char.isAlphanum, hdigit, Bool.or_true]
  have hself : (u.upperText (compact ++ [Nat.digitChar n])).filter u.isAlnum =
      compact ++ [Nat.digitChar n] := by
    rw [upperText_eq_self fun c hc => (hfixed c hc).1]
    exact List.filter_eq_self.mpr fun c hc => (hfixed c hc).2
  have htake : (compact ++ [Nat.digitChar n]).take 9 = compact := List.take_left' hlength
  have hdrop : (compact ++ [Nat.digitChar n]).drop 9 = [Nat.digitChar n] := List.drop_left' hlength
  rw [hcheck, personalausweisValidate]
  simp only [hself, htake, hdrop, hcheck, beq_self_eq_true, Bool.and_true]
  exact matchesAusweis_iff hlength hdecimal

/-! ### Account numbers -/

/-- A number below a hundred in two digits. -/
theorem leftpad_str {n : ℕ} (h : n < 100) :
    List.leftpad 2 '0' (str n) = [Nat.digitChar (n / 10), Nat.digitChar (n % 10)] := by
  have hall : ∀ n < 100,
      List.leftpad 2 '0' (str n) = [Nat.digitChar (n / 10), Nat.digitChar (n % 10)] := by
    decide +kernel
  exact hall n h

theorem isDecimal_of_mem_leftpad {width : ℕ} {text : Text}
    (h : ∀ c ∈ text, u.isDecimal c = true) :
    ∀ c ∈ List.leftpad width '0' text, u.isDecimal c = true := by
  intro c hc
  obtain hc | hc := List.mem_append.mp hc
  · rw [List.eq_of_mem_replicate hc]
    exact isDecimal_of_isDigit (by decide)
  · exact h c hc

/-- The characters of a German account number are left alone. -/
theorem compactUpper_german {digits : Text} (h : ∀ c ∈ digits, u.isDecimal c = true) :
    compactUpper u ('D' :: 'E' :: digits) = 'D' :: 'E' :: digits := by
  refine compactUpper_eq_self ?_
  simp only [List.forall_mem_cons]
  refine ⟨⟨by decide, u.upper_ascii 'D' (by decide)⟩, ⟨by decide, u.upper_ascii 'E' (by decide)⟩,
    fun c hc => ⟨ne_space_of_isDecimal (h c hc), fixed_of_isDecimal (h c hc)⟩⟩

/-- Digits are written as they are. -/
theorem flatMap_numeric {digits : Text} (h : ∀ c ∈ digits, u.isDecimal c = true) :
    digits.flatMap (fun ch => if u.isAlpha ch then str (ch.toNat - 55) else [ch]) = digits := by
  induction digits with
  | nil => rfl
  | cons c digits ih =>
    obtain ⟨hc, hdigits⟩ := List.forall_mem_cons.mp h
    rw [List.flatMap_cons, ih hdigits, u.isAlpha_decimal c hc]
    rfl

/-- What is checked of a German account number: its digits, with the country and the check digits
behind them. -/
theorem ibanMod97Validate_german {check bban : Text} (hcount : check.length = 2)
    (hlength : bban.length = 18) (hcheck : ∀ c ∈ check, u.isDecimal c = true)
    (hbban : ∀ c ∈ bban, u.isDecimal c = true) :
    ibanMod97Validate u ('D' :: 'E' :: (check ++ bban)) =
      some ((numeral (bban.map u.value) * 1000000 + 131400 + numeral (check.map u.value)) % 97 ==
        1) := by
  have hdigits : ∀ c ∈ check ++ bban, u.isDecimal c = true := fun c hc =>
    (List.mem_append.mp hc).elim (hcheck c) (hbban c)
  have hself := compactUpper_german hdigits
  have hmatches : matchesDigits u 20 (check ++ bban) = true :=
    matchesDigits_eq_true (by rw [List.length_append, hcount, hlength]) hdigits
  have htake : (check ++ bban).take 2 = check := List.take_left' hcount
  have hdrop : (check ++ bban).drop 2 = bban := List.drop_left' hcount
  have hD : u.isAlpha 'D' = true := u.isAlpha_ascii 'D' (by decide)
  have hE : u.isAlpha 'E' = true := u.isAlpha_ascii 'E' (by decide)
  have hform : ¬ (('D' :: 'E' :: (check ++ bban)).length < 15 ∨
      ((['D', 'E'] : Text).all u.isAlpha) = false ∨ check.all u.isDigit = false) := by
    have hall : check.all u.isDigit = true :=
      List.all_eq_true.mpr fun c hc => u.isDigit_decimal c (hcheck c hc)
    simp [hcount, hlength, hD, hE, hall]
  have hnumeric : (bban ++ 'D' :: 'E' :: check).flatMap (fun ch =>
      if u.isAlpha ch then str (ch.toNat - 55) else [ch]) = bban ++ "1314".toList ++ check := by
    rw [List.flatMap_append, flatMap_numeric hbban, List.flatMap_cons, List.flatMap_cons,
      flatMap_numeric hcheck, hD, hE, List.append_assoc]
    rfl
  have hcountry : ∀ c ∈ "1314".toList, c.isDigit = true := by decide
  have hall : ∀ c ∈ bban ++ "1314".toList ++ check, u.isDecimal c = true := by
    simp only [List.forall_mem_append]
    exact ⟨⟨hbban, fun c hc => isDecimal_of_isDigit (hcountry c hc)⟩, hcheck⟩
  have hvalues : "1314".toList.map u.value = [1, 3, 1, 4] := by
    rw [List.map_congr_left fun c hc => value_of_isDigit (hcountry c hc)]
    rfl
  have hint : int u (bban ++ "1314".toList ++ check) = some
      (numeral (bban.map u.value) * 1000000 + 131400 + numeral (check.map u.value)) := by
    rw [int_eq hall, List.map_append, List.map_append, hvalues, CheckDigits.numeral_append,
      CheckDigits.numeral_append, List.length_map, hcount]
    have hcountryValue : numeral [1, 3, 1, 4] = 1314 := rfl
    have hcountryLength : ([1, 3, 1, 4] : List ℕ).length = 4 := rfl
    rw [hcountryValue, hcountryLength, Option.some.injEq]
    omega
  have hisDigit : (bban ++ "1314".toList ++ check).all u.isDigit = true :=
    List.all_eq_true.mpr fun c hc => u.isDigit_decimal c (hall c hc)
  have hprefix : "DE".toList.isPrefixOf ('D' :: 'E' :: (check ++ bban)) = true := by
    simp
  rw [ibanMod97Validate, hself, hprefix, ibanMod97Valid, hself]
  simp only [List.drop_succ_cons, List.drop_zero, hmatches, List.take_succ_cons, List.take_zero,
    htake, hdrop, if_neg hform, hnumeric, hisDigit, hint]
  rfl

/-- The check digits of a number: with them it has the remainder one. -/
theorem exists_check (n : ℕ) : ∃ check, 98 - n % 97 = check ∧ check < 100 ∧ (n + check) % 97 = 1 :=
  ⟨_, rfl, by omega, by omega⟩

/-- **Generated account numbers are accepted.** -/
theorem ibanMod97Validate_generateIbanDe (blz account : Text) :
    ∃ value, generateIbanDe u blz account = some value ∧
      ibanMod97Validate u value = some true := by
  set bban := (List.leftpad 8 '0' (digitsOnly u blz) ++
    List.leftpad 10 '0' (digitsOnly u account)).take 18 with hbban
  have hlength : bban.length = 18 := by
    rw [hbban, List.length_take, List.length_append, List.length_leftpad, List.length_leftpad]
    omega
  have hdecimal : ∀ c ∈ bban, u.isDecimal c = true := by
    intro c hc
    obtain hc | hc := List.mem_append.mp (List.mem_of_mem_take hc)
    · exact isDecimal_of_mem_leftpad isDecimal_of_mem_digitsOnly c hc
    · exact isDecimal_of_mem_leftpad isDecimal_of_mem_digitsOnly c hc
  have hall : ∀ c ∈ bban ++ "131400".toList, u.isDecimal c = true := by
    intro c hc
    obtain hc | hc := List.mem_append.mp hc
    · exact hdecimal c hc
    · have hdigits : ∀ c ∈ "131400".toList, c.isDigit = true := by decide
      exact isDecimal_of_isDigit (hdigits c hc)
  have hsuffix : "131400".toList.map u.value = [1, 3, 1, 4, 0, 0] := by
    have hdigits : ∀ c ∈ "131400".toList, c.isDigit = true := by decide
    rw [List.map_congr_left fun c hc => value_of_isDigit (hdigits c hc)]
    rfl
  have hint : int u (bban ++ "131400".toList) =
      some (numeral (bban.map u.value) * 1000000 + 131400) := by
    have hsuffixValue : numeral [1, 3, 1, 4, 0, 0] = 131400 := rfl
    have hsuffixLength : ([1, 3, 1, 4, 0, 0] : List ℕ).length = 6 := rfl
    rw [int_eq hall, List.map_append, hsuffix, CheckDigits.numeral_append, hsuffixValue,
      hsuffixLength, Option.some.injEq]
    omega
  have hgenerate : generateIbanDe u blz account = some ("DE".toList ++ List.leftpad 2 '0'
      (str (98 - (numeral (bban.map u.value) * 1000000 + 131400) % 97)) ++ bban) := by
    rw [generateIbanDe]
    simp only [← hbban, hint, Option.map_some]
  refine ⟨_, hgenerate, ?_⟩
  obtain ⟨check, hcheck, hlt, hmod⟩ := exists_check (numeral (bban.map u.value) * 1000000 + 131400)
  rw [hcheck]
  have hlow : check % 10 < 10 := Nat.mod_lt _ (by decide)
  have hhigh : check / 10 < 10 := by omega
  have htwo : ∀ c ∈ [Nat.digitChar (check / 10), Nat.digitChar (check % 10)],
      u.isDecimal c = true := by
    simp only [List.forall_mem_cons]
    exact ⟨isDecimal_of_isDigit (isDigit_digitChar hhigh),
      isDecimal_of_isDigit (isDigit_digitChar hlow), fun c hc => absurd hc List.not_mem_nil⟩
  have hvalue : numeral ([Nat.digitChar (check / 10), Nat.digitChar (check % 10)].map u.value) =
      check := by
    have hnumeral : numeral [check / 10, check % 10] = 10 * (10 * 0 + check / 10) + check % 10 :=
      rfl
    rw [List.map_cons, List.map_cons, List.map_nil, value_digitChar hhigh, value_digitChar hlow,
      hnumeral]
    omega
  have hvalid := ibanMod97Validate_german rfl hlength htwo hdecimal
  rw [hvalue, hmod] at hvalid
  rw [leftpad_str hlt]
  exact hvalid

/-! ### All identifiers -/

/-- **Generators and validators.** What is generated is accepted: tax numbers and account numbers
always, health insurance numbers if the letter is one of ASCII, identity card numbers if the body is
one of a card. The two computations of a tax number's check digit agree, and a tax number with a
digit changed is rejected. -/
theorem generators_agree_iff (u : DigitUnicode) :
    (∀ body10 value, generateSteuerId u body10 = some value →
      iso7064Validate u value = some true) ∧
    (∀ letter serial8 value, generateKvnr u letter serial8 = some value →
      (kvnrValidate u value = some true ↔ HasCapital u letter)) ∧
    (∀ body9 value, generatePersonalausweis u body9 = some value →
      (personalausweisValidate u.toUnicode value = true ↔
        CardBody ((u.upperText body9).filter u.isAlnum))) ∧
    (∀ blz account, ∃ value, generateIbanDe u blz account = some value ∧
      ibanMod97Validate u value = some true) ∧
    (∀ body, (∀ c ∈ body, u.isDecimal c = true) → ∃ check,
      iso7064Mod1110CheckDigit u body = some (str check) ∧ steuerCheck u body = some check) ∧
    (∀ front back c c', iso7064Validate u (front ++ c :: back) = some true →
      u.isDecimal c = true → u.digit c' ≠ u.digit c →
        iso7064Validate u (front ++ c' :: back) = some false) :=
  ⟨fun _ _ => iso7064Validate_generateSteuerId, fun _ _ _ => kvnrValidate_generateKvnr_iff,
    fun _ _ => personalausweisValidate_generatePersonalausweis_iff,
    ibanMod97Validate_generateIbanDe,
    fun _ h => ⟨_, iso7064Mod1110CheckDigit_eq h, steuerCheck_eq h⟩,
    fun _ _ _ _ => iso7064Validate_change⟩

/-- A body of nine digits is accepted by the generator, the number by no validator. -/
theorem not_generators_agree :
    generatePersonalausweis .ascii "123456789".toList = some "1234567897".toList ∧
      personalausweisValidate .ascii "1234567897".toList = false := by
  decide +kernel

end AnonReq.Locale
