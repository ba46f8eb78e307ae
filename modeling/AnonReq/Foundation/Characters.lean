import Mathlib.Data.Int.Order.Basic
import Mathlib.Data.List.DropRight

/-!
# Texts

A text is the list of its characters. Positions are integers, as the detectors report them;
`slice` reads a range of positions the way Python does, where a negative position counts from the
end of the text. The Unicode tables of the runtime are a parameter of everything that reads them.
-/

namespace AnonReq

/-- A text, character by character. -/
abbrev Text := List Char

/-- Membership in a list of texts is decided by this instance. -/
instance : LawfulBEq Text := inferInstance

/-- What holds of every character of a text is decided character by character. -/
instance decidableForallMem {p : Char → Prop} [DecidablePred p] (text : List Char) :
    Decidable (∀ c ∈ text, p c) :=
  List.decidableBAll p text

namespace Text

/-- The position a bound of a slice stands for. -/
def bound (length : ℕ) (i : ℤ) : ℕ := if i < 0 then (i + length).toNat else min i.toNat length

/-- `text[start:stop]`. -/
def slice (text : Text) (start stop : ℤ) : Text :=
  (text.take (bound text.length stop)).drop (bound text.length start)

/-- `str.isspace` of one character. -/
def isSpace (c : Char) : Bool :=
  let n := c.toNat
  (0x09 ≤ n && n ≤ 0x0D) || (0x1C ≤ n && n ≤ 0x20) || (0x2000 ≤ n && n ≤ 0x200A) ||
    [0x85, 0xA0, 0x1680, 0x2028, 0x2029, 0x202F, 0x205F, 0x3000].contains n

/-- `text.strip()`. -/
def strip (text : Text) : Text := (text.dropWhile isSpace).rdropWhile isSpace

theorem length_strip_le (text : Text) : text.strip.length ≤ (text.dropWhile isSpace).length :=
  (List.rdropWhile_prefix isSpace _).length_le

/-- Space at the front is dropped. -/
theorem strip_append_of_space {a : Text} (ha : ∀ c ∈ a, isSpace c = true) (b : Text) :
    strip (a ++ b) = strip b := by
  rw [strip, List.dropWhile_append_of_pos ha, strip]

/-- Space at the end is dropped. -/
theorem strip_append_space {b : Text} (hb : ∀ c ∈ b, isSpace c = true) (a : Text) :
    strip (a ++ b) = strip a := by
  have hdrop : ∀ b : Text, (∀ c ∈ b, isSpace c = true) → ∀ a : Text,
      (a ++ b).rdropWhile isSpace = a.rdropWhile isSpace := by
    intro b hb a
    rw [List.rdropWhile, List.reverse_append, List.dropWhile_append_of_pos, List.rdropWhile]
    exact fun c hc => hb c (List.mem_reverse.mp hc)
  by_cases ha : ∀ c ∈ a, isSpace c = true
  · have hall : ∀ c ∈ a ++ b, isSpace c = true := fun c hc =>
      (List.mem_append.mp hc).elim (ha c) (hb c)
    rw [strip, strip, List.dropWhile_eq_nil_iff.mpr hall, List.dropWhile_eq_nil_iff.mpr ha]
  · have hfront : (a ++ b).dropWhile isSpace = a.dropWhile isSpace ++ b := by
      rw [List.dropWhile_append, if_neg]
      rwa [List.isEmpty_iff, List.dropWhile_eq_nil_iff]
    rw [strip, hfront, hdrop b hb, strip]

/-- A text is stripped of nothing if and only if it neither begins nor ends with space. -/
theorem strip_eq_self_iff {text : Text} :
    strip text = text ↔
      (∀ c ∈ text.head?, isSpace c = false) ∧ ∀ c ∈ text.getLast?, isSpace c = false := by
  obtain rfl | ⟨c, rest, rfl⟩ : text = [] ∨ ∃ c rest, text = c :: rest := by
    cases text with
    | nil => exact Or.inl rfl
    | cons c rest => exact Or.inr ⟨c, rest, rfl⟩
  · simp [strip]
  · have hlast : ∀ d ∈ (c :: rest).getLast?, d = (c :: rest).getLast (List.cons_ne_nil c rest) := by
      intro d hd
      rw [List.getLast?_eq_some_getLast (List.cons_ne_nil c rest)] at hd
      exact (Option.some.inj hd).symm
    constructor
    · intro h
      have hfront : (c :: rest).dropWhile isSpace = c :: rest :=
        (List.dropWhile_suffix isSpace).eq_of_length_le <| by
          rw [← congrArg List.length h]
          exact length_strip_le _
      rw [strip, hfront, List.rdropWhile_eq_self_iff] at h
      refine ⟨fun d hd => ?_, fun d hd => ?_⟩
      · obtain rfl : c = d := Option.some.inj hd
        exact Bool.not_eq_true _ ▸ List.dropWhile_eq_self_iff.mp hfront (Nat.succ_pos _)
      · rw [hlast d hd]
        exact Bool.not_eq_true _ ▸ h (List.cons_ne_nil c rest)
    · rintro ⟨hfirst, hend⟩
      have hc : isSpace c = false := hfirst c rfl
      rw [strip, List.dropWhile_cons_of_neg (by simp [hc]), List.rdropWhile_eq_self_iff]
      intro hne
      rw [hend _ (List.getLast?_eq_some_getLast hne)]
      exact Bool.false_ne_true

/-- A stripped text is stripped of nothing. -/
theorem strip_strip (text : Text) : strip (strip text) = strip text := by
  rw [strip_eq_self_iff]
  constructor
  · intro c hc
    obtain ⟨front, hfront⟩ := List.rdropWhile_prefix isSpace (text.dropWhile isSpace)
    have hhead : c ∈ (text.dropWhile isSpace).head? := by
      rw [← hfront, List.head?_append]
      exact Option.or_eq_some_iff.mpr (Or.inl hc)
    have hnot := List.head?_dropWhile_not isSpace text
    rw [Option.mem_def.mp hhead] at hnot
    exact hnot
  · intro c hc
    have hne : strip text ≠ [] := fun hnil => by
      rw [hnil] at hc
      exact absurd hc (Option.not_mem_none c)
    rw [List.getLast?_eq_some_getLast hne] at hc
    obtain rfl := Option.some.inj hc
    exact Bool.not_eq_true _ ▸ List.rdropWhile_last_not isSpace _ hne

theorem mem_of_mem_strip {text : Text} {c : Char} (h : c ∈ strip text) : c ∈ text :=
  (List.dropWhile_suffix isSpace).subset ((List.rdropWhile_prefix isSpace _).subset h)

end Text

/-- The characters of a token that no case mapping touches: brackets, underscore and digits. -/
def tokenMarks : List Char := "[]_0123456789".toList

/-- `str.lower`; what is lower case stays as it is. -/
structure LowerCase where
  lower : Text → Text
  lower_idem : ∀ text, lower (lower text) = lower text

theorem toLower_toLower (c : Char) : c.toLower.toLower = c.toLower := by
  unfold Char.toLower
  split_ifs with hupper hagain
  · -- a shifted letter is no upper case letter again
    have hshift : ('a'.val - 'A'.val).toNat = 32 := rfl
    have hlow : 65 ≤ c.val.toNat := hupper.1
    have hhigh : c.val.toNat ≤ 90 := hupper.2
    have hbound : (c.val + ('a'.val - 'A'.val)).toNat ≤ 90 := hagain.2
    rw [UInt32.toNat_add, hshift] at hbound
    omega
  · rfl
  · rfl

/-- What comes before the small letters is no shifted letter. -/
theorem toLower_eq_self_of_lt {c : Char} (h : c.toLower.toNat < 97) : c.toLower = c := by
  unfold Char.toLower at h ⊢
  split_ifs at h ⊢ with hupper
  · have hshift : ('a'.val - 'A'.val).toNat = 32 := rfl
    have hlow : 65 ≤ c.val.toNat := hupper.1
    have hhigh : c.val.toNat ≤ 90 := hupper.2
    have hbound : (c.val + ('a'.val - 'A'.val)).toNat < 97 := h
    rw [UInt32.toNat_add, hshift] at hbound
    omega
  · rfl

/-- Lower case for the ASCII letters. -/
def asciiLower : LowerCase where
  lower := List.map Char.toLower
  lower_idem text := by
    rw [List.map_map]
    exact List.map_congr_left fun c _ => toLower_toLower c

/-- What the code asks the Unicode tables of its runtime about a character, and what it relies on:
the marks of a token have no other case, no other character folds to text with a mark in it, and
no character folds to nothing. -/
structure Unicode where
  /-- `str.upper` of one character. -/
  upper : Char → Text
  /-- `str.casefold` of one character. -/
  casefold : Char → Text
  /-- A literal of a pattern compiled with `re.IGNORECASE` matches a character. -/
  sameCase : Char → Char → Bool
  /-- `str.isalnum`. -/
  isAlnum : Char → Bool
  /-- The regular expression `\d`. -/
  isDecimal : Char → Bool
  sameCase_refl : ∀ c, sameCase c c = true
  eq_of_sameCase : ∀ c d, sameCase c d = true → c ∈ tokenMarks ∨ d ∈ tokenMarks → c = d
  casefold_mark : ∀ c ∈ tokenMarks, casefold c = [c]
  eq_of_mem_casefold : ∀ c, ∀ d ∈ casefold c, d ∈ tokenMarks → c = d
  casefold_ne_nil : ∀ c, casefold c ≠ []

namespace Unicode

/-- `str.upper`. -/
def upperText (u : Unicode) (text : Text) : Text := text.flatMap u.upper

/-- `str.casefold`. -/
def foldText (u : Unicode) (text : Text) : Text := text.flatMap u.casefold

theorem foldText_append (u : Unicode) (a b : Text) :
    u.foldText (a ++ b) = u.foldText a ++ u.foldText b :=
  List.flatMap_append

theorem foldText_ne_nil (u : Unicode) {text : Text} (h : text ≠ []) : u.foldText text ≠ [] := by
  obtain ⟨c, rest, rfl⟩ := List.exists_cons_of_ne_nil h
  rw [foldText, List.flatMap_cons]
  exact List.append_ne_nil_of_left_ne_nil (u.casefold_ne_nil c) _

/-- Marks fold to themselves. -/
theorem foldText_of_marks (u : Unicode) {text : Text} (h : ∀ c ∈ text, c ∈ tokenMarks) :
    u.foldText text = text := by
  induction text with
  | nil => rfl
  | cons c text ih =>
    obtain ⟨hc, htext⟩ := List.forall_mem_cons.mp h
    have ih : text.flatMap u.casefold = text := ih htext
    rw [foldText, List.flatMap_cons, u.casefold_mark c hc, ih, List.singleton_append]

/-- A mark in a folded text stands in the text itself. -/
theorem mem_of_mem_foldText (u : Unicode) {text : Text} {c : Char} (h : c ∈ u.foldText text)
    (hc : c ∈ tokenMarks) : c ∈ text := by
  obtain ⟨d, hd, hcd⟩ := List.mem_flatMap.mp h
  exact u.eq_of_mem_casefold d c hcd hc ▸ hd

/-- A literal pattern, compiled with `re.IGNORECASE`, matches at the front of a text. -/
def matchesFront (u : Unicode) : Text → Text → Bool
  | [], _ => true
  | _ :: _, [] => false
  | k :: key, c :: text => u.sameCase k c && u.matchesFront key text

theorem matchesFront_refl (u : Unicode) (text : Text) : u.matchesFront text text = true := by
  induction text with
  | nil => rfl
  | cons c text ih => rw [matchesFront, u.sameCase_refl, ih, Bool.and_self]

theorem length_le_of_matchesFront (u : Unicode) {key text : Text}
    (h : u.matchesFront key text = true) : key.length ≤ text.length := by
  induction key generalizing text with
  | nil => exact Nat.zero_le _
  | cons k key ih =>
    cases text with
    | nil => exact absurd h (by simp [matchesFront])
    | cons c text =>
      rw [matchesFront, Bool.and_eq_true] at h
      exact Nat.succ_le_succ (ih h.2)

/-- Matching a pattern part by part. -/
theorem matchesFront_append (u : Unicode) {a c : Text} (h : a.length = c.length) (b d : Text) :
    u.matchesFront (a ++ b) (c ++ d) = (u.matchesFront a c && u.matchesFront b d) := by
  induction a generalizing c with
  | nil =>
    obtain rfl := List.eq_nil_of_length_eq_zero h.symm
    rfl
  | cons k a ih =>
    obtain ⟨e, c, rfl⟩ := List.exists_cons_of_length_eq_add_one h.symm
    rw [List.cons_append, List.cons_append, matchesFront, matchesFront, ih (Nat.succ.inj h),
      Bool.and_assoc]

/-- The characters at one position of a pattern and of the text it matches. -/
theorem sameCase_of_matchesFront (u : Unicode) {a b c d : Text} {k e : Char}
    (h : u.matchesFront (a ++ k :: b) (c ++ e :: d) = true) (hlength : a.length = c.length) :
    u.sameCase k e = true := by
  rw [u.matchesFront_append hlength, Bool.and_eq_true, matchesFront, Bool.and_eq_true] at h
  exact h.2.1

theorem matchesFront_append_of_matchesFront (u : Unicode) {key s : Text}
    (h : u.matchesFront key s = true) (b : Text) : u.matchesFront key (s ++ b) = true := by
  induction key generalizing s with
  | nil => rw [matchesFront]
  | cons k key ih =>
    cases s with
    | nil => exact absurd h (by simp [matchesFront])
    | cons c s =>
      rw [matchesFront, Bool.and_eq_true] at h
      rw [List.cons_append, matchesFront, h.1, ih h.2, Bool.and_self]

/-- A pattern that matches only with more text matches the text and begins to match what
follows. -/
theorem exists_of_matchesFront_append (u : Unicode) {key s b : Text}
    (h : u.matchesFront key (s ++ b) = true) (hs : u.matchesFront key s = false) :
    ∃ front k rest c b', key = front ++ k :: rest ∧ front.length = s.length ∧
      u.matchesFront front s = true ∧ b = c :: b' ∧ u.sameCase k c = true := by
  induction s generalizing key with
  | nil =>
    cases key with
    | nil => exact absurd hs (by simp [matchesFront])
    | cons k key =>
      cases b with
      | nil => exact absurd h (by simp [matchesFront])
      | cons c b =>
        rw [List.nil_append, matchesFront, Bool.and_eq_true] at h
        exact ⟨[], k, key, c, b, rfl, rfl, rfl, rfl, h.1⟩
  | cons d s ih =>
    cases key with
    | nil => exact absurd hs (by simp [matchesFront])
    | cons k key =>
      rw [List.cons_append, matchesFront, Bool.and_eq_true] at h
      rw [matchesFront, h.1, Bool.true_and] at hs
      obtain ⟨front, k', rest, c, b', rfl, hlength, hfront, hb, hk⟩ := ih h.2 hs
      exact ⟨k :: front, k', rest, c, b', rfl, by simp [hlength],
        by rw [matchesFront, h.1, hfront, Bool.and_self], hb, hk⟩

/-- A mark in a pattern matches only that mark. -/
theorem mem_iff_of_matchesFront (u : Unicode) {key text : Text}
    (h : u.matchesFront key text = true) (hlength : key.length = text.length) {c : Char}
    (hc : c ∈ tokenMarks) : c ∈ key ↔ c ∈ text := by
  induction key generalizing text with
  | nil =>
    obtain rfl := List.eq_nil_of_length_eq_zero hlength.symm
    rfl
  | cons k key ih =>
    obtain ⟨d, text, rfl⟩ := List.exists_cons_of_length_eq_add_one hlength.symm
    rw [matchesFront, Bool.and_eq_true] at h
    rw [List.mem_cons, List.mem_cons, ih h.2 (Nat.succ.inj hlength)]
    have hhead : c = k ↔ c = d := by
      constructor
      · rintro rfl
        exact u.eq_of_sameCase c d h.1 (Or.inl hc)
      · rintro rfl
        exact (u.eq_of_sameCase k c h.1 (Or.inr hc)).symm
    rw [hhead]

private theorem toLower_of_mem_tokenMarks {c : Char} (h : c ∈ tokenMarks) : c.toLower = c := by
  have hall : (tokenMarks.all fun c => decide (c.toLower = c)) = true := by decide
  exact of_decide_eq_true (List.all_eq_true.mp hall c h)

private theorem eq_of_toLower_mem_tokenMarks {c : Char} (h : c.toLower ∈ tokenMarks) :
    c.toLower = c := by
  have hall : (tokenMarks.all fun d => decide (d.toNat < 97)) = true := by decide
  exact toLower_eq_self_of_lt (of_decide_eq_true (List.all_eq_true.mp hall _ h))

/-- The tables restricted to ASCII. -/
def ascii : Unicode where
  upper c := [c.toUpper]
  casefold c := [c.toLower]
  sameCase c d := c.toLower == d.toLower
  isAlnum := Char.isAlphanum
  isDecimal := Char.isDigit
  sameCase_refl c := beq_self_eq_true _
  eq_of_sameCase c d h hmark := by
    have h : c.toLower = d.toLower := beq_iff_eq.mp h
    obtain hc | hd := hmark
    · have hc' := toLower_of_mem_tokenMarks hc
      rw [← hc', h]
      exact eq_of_toLower_mem_tokenMarks (by rwa [← h, hc'])
    · have hd' := toLower_of_mem_tokenMarks hd
      rw [← hd', ← h]
      exact (eq_of_toLower_mem_tokenMarks (by rwa [h, hd'])).symm
  casefold_mark c hc := by rw [toLower_of_mem_tokenMarks hc]
  eq_of_mem_casefold c d hd hmark := by
    obtain rfl := List.mem_singleton.mp hd
    exact (eq_of_toLower_mem_tokenMarks hmark).symm
  casefold_ne_nil c := List.cons_ne_nil _ _

end Unicode

/-- Unicode tables in which `\d` takes the ten digits of ASCII and no other character of it. -/
structure DecimalUnicode extends Unicode where
  isDecimal_eq : ∀ c : Char, c.toNat < 128 → isDecimal c = c.isDigit

/-- The tables restricted to ASCII. -/
def DecimalUnicode.ascii : DecimalUnicode where
  toUnicode := .ascii
  isDecimal_eq _ _ := rfl

end AnonReq
