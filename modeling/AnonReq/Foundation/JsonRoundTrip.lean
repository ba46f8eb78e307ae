import AnonReq.Foundation.JsonReader
import AnonReq.Foundation.JsonWriter

/-!
# Reading what was written

Documents as `json.dumps` writes them in the standard way are read by `json.loads` as what they
were. A text that ends like a number and has more than one is no document.

* `loads_dumps`: the round trip. `not_mem_dumps`: what is written is one line.
* `loads_eq_none_of_trail`: texts that end like a number.
-/

namespace AnonReq.Json

open JsonText

/-- `json.dumps` without further arguments. -/
def standard : Style := ⟨", ".toList, ": ".toList, escapeAscii⟩

/-! ### Strings -/

theorem hexDigit_digitChar : ∀ d < 16, hexDigit (Nat.digitChar d) = some d := by decide

theorem hexValue_hex4 {n : ℕ} (h : n < 0x10000) : hexValue (hex4 n) = some n := by
  have hdigit (m : ℕ) : hexDigit (Nat.digitChar (m % 16)) = some (m % 16) :=
    hexDigit_digitChar _ (Nat.mod_lt m (by decide))
  simp only [hexValue, hex4, List.foldlM_cons, List.foldlM_nil, hdigit, Option.map_some,
    Option.bind_eq_bind, Option.bind_some]
  exact congrArg some (by omega)

/-- The ways in which a character is escaped. -/
inductive Escaped (c : Char) : Prop where
  | short (e : Char) (escape : escapeAscii c = ['\\', e]) (ne : e ≠ 'u')
    (value : shortEscape e = some c)
  | plain (escape : escapeAscii c = [c]) (plain : isPlain c = true) (ascii : c.toNat < 0x7f)
  | code (escape : escapeAscii c = unicodeEscape c.toNat) (lt : c.toNat < 0x10000)
  | pair (n : ℕ) (lt : n < 0x100000) (escape : escapeAscii c =
      unicodeEscape (0xd800 + n / 0x400) ++ unicodeEscape (0xdc00 + n % 0x400))
    (value : c.toNat = 0x10000 + n)

theorem escaped (c : Char) : Escaped c := by
  have hvalid : c.toNat < 0x110000 := by
    obtain h | h := c.valid
    · exact Nat.lt_trans h (by decide)
    · exact h.2
  by_cases hascii : c.toNat < 0x7f
  · have hcontrol : escapeAscii c = escapeControl c := if_pos hascii
    unfold escapeControl at hcontrol
    split_ifs at hcontrol with hquote hslash hnewline hreturn htab hfeed hback hlow
    · exact .short '"' hcontrol (by decide) (by rw [hquote]; rfl)
    · exact .short '\\' hcontrol (by decide) (by rw [hslash]; rfl)
    · exact .short 'n' hcontrol (by decide) (by rw [hnewline]; rfl)
    · exact .short 'r' hcontrol (by decide) (by rw [hreturn]; rfl)
    · exact .short 't' hcontrol (by decide) (by rw [htab]; rfl)
    · exact .short 'f' hcontrol (by decide) (by rw [hfeed]; rfl)
    · exact .short 'b' hcontrol (by decide) (by rw [hback]; rfl)
    · exact .code hcontrol (by omega)
    · exact .plain hcontrol (by simp [isPlain, hquote, hslash, not_lt.mp hlow]) hascii
  · by_cases hbasic : c.toNat < 0x10000
    · exact .code (by rw [escapeAscii, if_neg hascii, if_pos hbasic]) hbasic
    · refine .pair (c.toNat - 0x10000) (by omega) ?_ (by omega)
      have hhigh : (c.toNat - 0x10000) / 0x400 % 0x400 = (c.toNat - 0x10000) / 0x400 :=
        Nat.mod_eq_of_lt (by omega)
      rw [escapeAscii, if_neg hascii, if_neg hbasic, hhigh]

/-- A code that is no half of a pair. -/
theorem unescape_unicodeEscape {n : ℕ} (h : n < 0x10000) (hhigh : isHigh n = false)
    (hlow : isLow n = false) (rest : Text) :
    unescape (unicodeEscape n ++ rest) = (unescape rest).map (Char.ofNat n :: ·) := by
  have hvalue := hexValue_hex4 h
  unfold hex4 at hvalue
  rw [unicodeEscape, hex4, List.cons_append, List.cons_append, List.cons_append, List.cons_append,
    List.cons_append, List.cons_append, List.nil_append, unescape, hvalue]
  simp [hhigh, hlow]

/-- A character that is escaped stands for itself. -/
theorem unescape_escapeAscii (c : Char) (rest : Text) :
    unescape (escapeAscii c ++ rest) = (unescape rest).map (c :: ·) := by
  obtain ⟨e, hescape, hne, hvalue⟩ | ⟨hescape, hplain, -⟩ | ⟨hescape, hlt⟩ |
      ⟨n, hlt, hescape, hvalue⟩ := escaped c
  · rw [hescape]
    change unescape ('\\' :: e :: rest) = _
    rw [unescape, hvalue]
    exact fun _ _ _ _ _ he => absurd he hne
  · obtain ⟨hquote, hslash⟩ := ne_of_isPlain hplain
    rw [hescape]
    change unescape (c :: rest) = _
    rw [unescape, if_pos hplain]
    · exact fun _ _ _ _ _ hc => absurd hc hslash
    · exact fun _ _ hc => absurd hc hslash
  · have hvalid : c.toNat < 0xd800 ∨ 0xdfff < c.toNat ∧ c.toNat < 0x110000 := c.valid
    have hhigh : isHigh c.toNat = false := by
      simp only [isHigh, Bool.and_eq_false_iff, decide_eq_false_iff_not]
      omega
    have hlow : isLow c.toNat = false := by
      simp only [isLow, Bool.and_eq_false_iff, decide_eq_false_iff_not]
      omega
    rw [hescape, unescape_unicodeEscape hlt hhigh hlow, Char.ofNat_toNat]
  · have hhigh : isHigh (0xd800 + n / 0x400) = true := by
      simp only [isHigh, Bool.and_eq_true, decide_eq_true_eq]
      omega
    have hlow : isLow (0xdc00 + n % 0x400) = true := by
      simp only [isLow, Bool.and_eq_true, decide_eq_true_eq]
      omega
    have hfirst := hexValue_hex4 (n := 0xd800 + n / 0x400) (by omega)
    have hsecond := hexValue_hex4 (n := 0xdc00 + n % 0x400) (by omega)
    have hc : Char.ofNat (0x10000 + (0xd800 + n / 0x400 - 0xd800) * 0x400 +
        (0xdc00 + n % 0x400 - 0xdc00)) = c := by
      have hcode : 0x10000 + (0xd800 + n / 0x400 - 0xd800) * 0x400 +
          (0xdc00 + n % 0x400 - 0xdc00) = c.toNat := by omega
      rw [hcode, Char.ofNat_toNat]
    rw [hescape]
    unfold hex4 at hfirst hsecond
    simp only [unicodeEscape, hex4, List.cons_append, List.nil_append]
    rw [unescape, hfirst]
    simp only [hhigh, hsecond, hlow, hc, if_true]

theorem cutString_cons {c : Char} (hquote : c ≠ '"') (hslash : c ≠ '\\') (rest : Text) :
    cutString (c :: rest) = (cutString rest).map fun parts => (c :: parts.1, parts.2) := by
  rw [cutString]
  · exact hquote
  · exact fun _ _ hc => absurd hc hslash

theorem ne_of_mem_hex4 {n : ℕ} {c : Char} (h : c ∈ hex4 n) : c ≠ '"' ∧ c ≠ '\\' := by
  have hdigit : ∀ d < 16, Nat.digitChar d ≠ '"' ∧ Nat.digitChar d ≠ '\\' := by decide
  simp only [hex4, List.mem_cons, List.not_mem_nil, or_false] at h
  obtain rfl | rfl | rfl | rfl := h
  all_goals exact hdigit _ (Nat.mod_lt _ (by decide))

/-- Characters that are no quotation marks and no backslashes are cut off with what follows. -/
theorem cutString_append {front : Text} (h : ∀ c ∈ front, c ≠ '"' ∧ c ≠ '\\') (rest : Text) :
    cutString (front ++ rest) =
      (cutString rest).map fun parts => (front ++ parts.1, parts.2) := by
  induction front with
  | nil => exact Option.map_id'.symm
  | cons c front ih =>
    obtain ⟨hc, hfront⟩ := List.forall_mem_cons.mp h
    rw [List.cons_append, cutString_cons hc.1 hc.2, ih hfront, Option.map_map]
    rfl

theorem cutString_escape (e : Char) (front rest : Text)
    (h : ∀ c ∈ front, c ≠ '"' ∧ c ≠ '\\') : cutString ('\\' :: e :: front ++ rest) =
      (cutString rest).map fun parts => ('\\' :: e :: front ++ parts.1, parts.2) := by
  rw [List.cons_append, List.cons_append, cutString, cutString_append h, Option.map_map]
  rfl

theorem cutString_escapeAscii (c : Char) (rest : Text) : cutString (escapeAscii c ++ rest) =
    (cutString rest).map fun parts => (escapeAscii c ++ parts.1, parts.2) := by
  obtain ⟨e, hescape, -, -⟩ | ⟨hescape, hplain, -⟩ | ⟨hescape, -⟩ | ⟨n, -, hescape, -⟩ := escaped c
  · rw [hescape]
    exact cutString_escape e [] rest fun _ h => absurd h List.not_mem_nil
  · obtain ⟨hquote, hslash⟩ := ne_of_isPlain hplain
    rw [hescape]
    exact cutString_cons hquote hslash rest
  · rw [hescape]
    exact cutString_escape 'u' _ rest fun _ h => ne_of_mem_hex4 h
  · rw [hescape, List.append_assoc]
    refine (cutString_escape 'u' _ _ fun _ h => ne_of_mem_hex4 h).trans ?_
    have hsecond := cutString_escape 'u' _ rest fun _ h => @ne_of_mem_hex4 (0xdc00 + n % 0x400) _ h
    unfold unicodeEscape
    rw [hsecond, Option.map_map]
    refine congrArg (Option.map · _) (funext fun parts => ?_)
    simp

/-- **A string** is read as what was written. -/
theorem scanString_quoted (s rest : Text) :
    scanString (s.flatMap escapeAscii ++ '"' :: rest) = some (s, rest) := by
  have hcut : cutString (s.flatMap escapeAscii ++ '"' :: rest) =
      some (s.flatMap escapeAscii, rest) := by
    induction s with
    | nil => simp [cutString]
    | cons c s ih =>
      rw [List.flatMap_cons, List.append_assoc, cutString_escapeAscii, ih]
      rfl
  have hunescape : unescape (s.flatMap escapeAscii) = some s := by
    clear hcut
    induction s with
    | nil => simp [unescape]
    | cons c s ih =>
      rw [List.flatMap_cons, unescape_escapeAscii, ih]
      rfl
  rw [scanString, hcut, Option.bind_some, hunescape]
  rfl

/-! ### Numbers -/

theorem isNumberChar_of_isDigit {c : Char} (h : c.isDigit = true) : isNumberChar c = true :=
  Bool.or_eq_true_iff.mpr (Or.inl h)

/-- A numeral is read digit by digit, also behind a minus sign. -/
theorem run_toDigits {s : State} (hs : s = start ∨ s = ⟨.number .minus, []⟩) (m : ℕ) :
    run s (Nat.toDigits 10 m) = some ⟨.number (if m = 0 then .zero else .digits), []⟩ := by
  induction m using Nat.strong_induction_on with
  | _ m ih =>
    by_cases hm : m < 10
    · have hstart : ∀ d < 10, run start [Nat.digitChar d] =
          some ⟨.number (if d = 0 then .zero else .digits), []⟩ := by decide
      have hminus : ∀ d < 10, run ⟨.number .minus, []⟩ [Nat.digitChar d] =
          some ⟨.number (if d = 0 then .zero else .digits), []⟩ := by decide
      rw [Nat.toDigits_of_lt_base hm]
      obtain rfl | rfl := hs
      · exact hstart m hm
      · exact hminus m hm
    · have hrest : m / 10 ≠ 0 := by omega
      have hstep : ∀ d < 10, run ⟨.number .digits, []⟩ [Nat.digitChar d] =
          some ⟨.number .digits, []⟩ := by decide
      rw [Nat.toDigits_of_base_le (by decide) (not_lt.mp hm), run_append, ih _ (by omega),
        if_neg hrest, if_neg (by omega)]
      exact hstep _ (Nat.mod_lt m (by decide))

theorem isNumeral_decimal (n : ℤ) : isNumeral (decimal n) = true := by
  have hrun : run start (decimal n) =
      some ⟨.number (if n.natAbs = 0 then .zero else .digits), []⟩ := by
    by_cases hn : n < 0
    · rw [decimal, if_pos hn]
      exact run_toDigits (Or.inr rfl) n.natAbs
    · rw [decimal, if_neg hn]
      exact run_toDigits (Or.inl rfl) n.natAbs
  rw [isNumeral, hrun]
  dsimp only
  split_ifs <;> rfl

theorem isNumberChar_of_mem_decimal {n : ℤ} {c : Char} (h : c ∈ decimal n) :
    c = '-' ∨ c.isDigit = true := by
  have hdigits {c : Char} (h : c ∈ Nat.toDigits 10 n.natAbs) : c.isDigit = true :=
    Nat.isDigit_of_mem_toDigits (by decide) (by decide) h
  unfold decimal at h
  split_ifs at h
  · exact (List.mem_cons.mp h).imp_right hdigits
  · exact Or.inr (hdigits h)

theorem intValue_decimal (n : ℤ) : intValue (decimal n) = n := by
  have hvalue : (Nat.toDigits 10 n.natAbs).foldl (fun n c => 10 * n + (c.toNat - '0'.toNat)) 0 =
      n.natAbs := by
    rw [← Nat.ofDigitChars_eq_foldl, Nat.ofDigitChars_ten_toDigits]
  unfold decimal
  split_ifs with hn
  · rw [intValue, hvalue]
    omega
  · rw [intValue, hvalue]
    · omega
    · rintro digits hdigits
      have hminus : '-' ∈ Nat.toDigits 10 n.natAbs := hdigits ▸ List.mem_cons_self
      exact absurd (Nat.isDigit_of_mem_toDigits (by decide) (by decide) hminus) (by decide)

/-- A number that is written and read. -/
structure IsFloat (shown : Text → Text) (token : Text) : Prop where
  numeral : isNumeral token = true
  chars : ∀ c ∈ token, isNumberChar c = true
  float : (token.any fun c => c == '.' || c == 'e' || c == 'E') = true
  shown : shown token = token

variable {shown : Text → Text}

/-- All of a numeral is read. -/
theorem value_numeral {token : Text} (hnumeral : isNumeral token = true)
    (hchars : ∀ c ∈ token, isNumberChar c = true) (fuel : ℕ) {rest : Text} (hrest : Ends rest) :
    value shown (fuel + 1) (token ++ rest) = some (number shown token, rest) := by
  have hall : numeral shown token = some (number shown token, []) := by
    rw [numeral, List.takeWhile_eq_self_iff.mpr hchars, List.dropWhile_eq_nil_iff.mpr hchars,
      if_pos hnumeral]
  obtain ⟨core, htoken, -, -, hread⟩ := numeral_reads hall
  rw [List.append_nil] at htoken
  subst htoken
  have hword := word_eq_none_of_isNumeral hnumeral hchars rest
  cases token with
  | nil => exact absurd hnumeral (by rw [isNumeral_nil]; decide)
  | cons c token =>
    have hc := hchars c List.mem_cons_self
    have hne {other : Char} (hother : isNumberChar other = false) (behind : Text) :
        c :: (token ++ rest) ≠ other :: behind := by
      intro h
      rw [← (List.cons.inj h).1, hc] at hother
      cases hother
    rw [List.cons_append] at hword ⊢
    rw [value, hword, Option.none_or]
    · exact hread rest hrest
    · exact hne (by decide)
    · exact hne (by decide)
    · exact hne (by decide)

theorem number_decimal (shown : Text → Text) (n : ℤ) : number shown (decimal n) = .int n := by
  rw [number, if_neg, intValue_decimal]
  intro h
  obtain ⟨c, hc, hchar⟩ := List.any_eq_true.mp h
  obtain rfl | hdigit := isNumberChar_of_mem_decimal hc
  · exact absurd hchar (by decide)
  · simp only [Bool.or_eq_true, beq_iff_eq] at hchar
    obtain (rfl | rfl) | rfl := hchar
    all_goals exact absurd hdigit (by decide)

/-! ### Documents -/

section

variable {α : Type} {close : Char} {element : Text → Option (α × Text)} {write : α → Text}

/-- What is read of a text that is written, with no blank at its front. -/
structure Reads (close : Char) (element : Text → Option (α × Text)) (write : α → Text) (a : α) :
    Prop where
  reads : ∀ other, Ends other → element (write a ++ other) = some (a, other)
  starts : ∃ c ∈ (write a).head?, isBlank c = false ∧ c ≠ close

theorem Reads.skipBlanks {a : α} (h : Reads close element write a) (rest : Text) :
    skipBlanks (write a ++ rest) = write a ++ rest := by
  obtain ⟨c, hc, hblank, -⟩ := h.starts
  obtain ⟨text, htext⟩ := List.head?_eq_some_iff.mp hc
  rw [htext]
  exact skipBlanks_cons hblank _

theorem exists_intercalate (sep : Text) (first : Text) (more : List Text) :
    ∃ tail, sep.intercalate (first :: more) = first ++ tail := by
  cases more with
  | nil => exact ⟨[], by rw [List.intercalate_singleton, List.append_nil]⟩
  | cons next more => exact ⟨_, List.intercalate_cons_cons.trans (List.append_assoc _ _ _)⟩

theorem length_le_intercalate_of_mem (sep : Text) {texts : List Text} {text : Text}
    (h : text ∈ texts) : text.length ≤ (sep.intercalate texts).length := by
  induction texts with
  | nil => exact absurd h List.not_mem_nil
  | cons first more ih =>
    cases more with
    | nil => rw [List.mem_singleton.mp h, List.intercalate_singleton]
    | cons next more =>
      rw [List.intercalate_cons_cons, List.length_append, List.length_append]
      obtain rfl | hmore := List.mem_cons.mp h
      · omega
      · have hle := ih hmore
        omega

theorem sequence_intercalate (hclose : IsClosing close) {items : List α} (hne : items ≠ [])
    (h : ∀ a ∈ items, Reads close element write a) {fuel : ℕ} (hfuel : items.length ≤ fuel)
    (rest : Text) :
    sequence close element fuel ([',', ' '].intercalate (items.map write) ++ close :: rest) =
      some (items, rest) := by
  obtain ⟨hblank, hnumber, hcomma⟩ := hclose
  induction items generalizing fuel with
  | nil => exact absurd rfl hne
  | cons a items ih =>
    obtain ⟨ha, hitems⟩ := List.forall_mem_cons.mp h
    obtain ⟨fuel, rfl⟩ := Nat.exists_eq_add_one_of_ne_zero (Nat.ne_zero_of_lt hfuel)
    cases items with
    | nil =>
      have hends : Ends (close :: rest) := fun d hd => Option.some.inj hd ▸ hnumber
      rw [List.map_singleton, List.intercalate_singleton, sequence, ha.reads _ hends]
      dsimp only
      rw [skipBlanks_cons hblank]
      exact if_pos rfl
    | cons b items =>
      have hnext := ih (List.cons_ne_nil b items) hitems (Nat.le_of_succ_le_succ hfuel)
      have hends (more : Text) : Ends (',' :: more) := fun d hd => Option.some.inj hd ▸ by decide
      have hskip : skipBlanks (' ' :: ([',', ' '].intercalate ((b :: items).map write) ++
          close :: rest)) = [',', ' '].intercalate ((b :: items).map write) ++ close :: rest := by
        obtain ⟨tail, htail⟩ := exists_intercalate [',', ' '] (write b) (items.map write)
        rw [List.map_cons, htail, List.append_assoc]
        exact (List.forall_mem_cons.mp hitems).1.skipBlanks _
      rw [List.map_cons, List.map_cons, List.intercalate_cons_cons, List.append_assoc,
        List.append_assoc, sequence, List.cons_append, ha.reads _ (hends _)]
      dsimp only
      rw [skipBlanks_cons (by decide)]
      dsimp only
      rw [if_neg hcomma.symm, if_pos rfl, List.cons_append, List.nil_append, ← List.map_cons, hskip,
        hnext]
      rfl

theorem elements_intercalate (hclose : IsClosing close) {items : List α}
    (h : ∀ a ∈ items, Reads close element write a) {fuel : ℕ} (hfuel : items.length ≤ fuel)
    (rest : Text) :
    elements close element fuel ([',', ' '].intercalate (items.map write) ++ close :: rest) =
      some (items, rest) := by
  cases items with
  | nil =>
    rw [List.map_nil, List.intercalate_nil, List.nil_append, elements, skipBlanks_cons hclose.1]
    exact if_pos rfl
  | cons a items =>
    have ha := (List.forall_mem_cons.mp h).1
    have hsequence := sequence_intercalate hclose (List.cons_ne_nil a items) h hfuel rest
    obtain ⟨c, hc, hblank, hne⟩ := ha.starts
    obtain ⟨text, htext⟩ := List.head?_eq_some_iff.mp hc
    obtain ⟨tail, htail⟩ := exists_intercalate [',', ' '] (write a) (items.map write)
    rw [List.map_cons, htail, htext] at hsequence ⊢
    rw [List.cons_append, List.cons_append] at hsequence ⊢
    rw [elements, skipBlanks_cons hblank]
    dsimp only
    rw [if_neg hne]
    exact hsequence

theorem length_le_intercalate {items : List α} (h : ∀ a ∈ items, Reads close element write a) :
    items.length ≤ ([',', ' '].intercalate (items.map write)).length := by
  induction items with
  | nil => exact Nat.zero_le _
  | cons a items ih =>
    obtain ⟨ha, hitems⟩ := List.forall_mem_cons.mp h
    obtain ⟨c, hc, -⟩ := ha.starts
    obtain ⟨text, htext⟩ := List.head?_eq_some_iff.mp hc
    cases items with
    | nil => simp [htext]
    | cons b items =>
      have hrest := ih hitems
      rw [List.map_cons, List.map_cons, List.intercalate_cons_cons, ← List.map_cons]
      simp only [List.length_cons, List.length_append, htext] at hrest ⊢
      omega

end

mutual

/-- A document as JSON has them: the keys of an object are different, and a number that is no
integer is written as it is read. -/
def Valid (shown : Text → Text) : Json → Prop
  | float token => IsFloat shown token
  | list items => ItemsValid shown items
  | object fields => (fields.map Prod.fst).Nodup ∧ FieldsValid shown fields
  | _ => True

def ItemsValid (shown : Text → Text) : List Json → Prop
  | [] => True
  | item :: items => Valid shown item ∧ ItemsValid shown items

def FieldsValid (shown : Text → Text) : List (Text × Json) → Prop
  | [] => True
  | (_, value) :: fields => Valid shown value ∧ FieldsValid shown fields

end

theorem dumpsItems_eq_map (style : Style) (items : List Json) :
    dumpsItems style items = items.map (dumps style) := by
  induction items with
  | nil => rfl
  | cons item items ih => rw [dumpsItems, ih, List.map_cons]

/-- A field as it is written. -/
def dumpsField (style : Style) (field : Text × Json) : Text :=
  quoted style field.1 ++ style.colon ++ dumps style field.2

theorem dumpsFields_eq_map (style : Style) (fields : List (Text × Json)) :
    dumpsFields style fields = fields.map (dumpsField style) := by
  induction fields with
  | nil => rfl
  | cons field fields ih => rw [dumpsFields, ih, List.map_cons, dumpsField]

/-- What is read of a document, with no blank at its front. -/
structure RoundTrips (shown : Text → Text) (d : Json) : Prop where
  reads : ReadsAlike (value shown) d (dumps standard d)
  starts : ∃ c ∈ (dumps standard d).head?, isBlank c = false ∧ c ≠ ']' ∧ c ≠ '}'

section

variable {shown : Text → Text}

theorem roundTrips_word {d : Json} {token : Text} (hdumps : dumps standard d = token)
    (hword : ∀ other, word (token ++ other) = some (d, other))
    (hstarts : ∃ c ∈ token.head?, isBlank c = false ∧ c ≠ ']' ∧ c ≠ '}' ∧ c ≠ '"' ∧ c ≠ '[' ∧
      c ≠ '{') : RoundTrips shown d := by
  obtain ⟨c, hc, hblank, hlist, hobject, hquote, hopenList, hopenObject⟩ := hstarts
  obtain ⟨text, rfl⟩ := List.head?_eq_some_iff.mp hc
  refine ⟨fun fuel hfuel other _ => ?_, c, by rw [hdumps]; rfl, hblank, hlist, hobject⟩
  rw [hdumps] at hfuel ⊢
  obtain ⟨fuel, rfl⟩ := Nat.exists_eq_add_one_of_ne_zero (Nat.ne_zero_of_lt hfuel)
  have hne {e : Char} (he : c ≠ e) (behind : Text) : c :: (text ++ other) ≠ e :: behind :=
    fun h => he (List.cons.inj h).1
  have hread := hword other
  rw [List.cons_append] at hread ⊢
  rw [value, hread, Option.some_or]
  · exact hne hquote
  · exact hne hopenObject
  · exact hne hopenList

theorem roundTrips_numeral {d : Json} (hnumeral : isNumeral (dumps standard d) = true)
    (hchars : ∀ c ∈ dumps standard d, isNumberChar c = true)
    (hnumber : number shown (dumps standard d) = d) : RoundTrips shown d := by
  obtain ⟨c, text, htext⟩ := List.exists_cons_of_ne_nil fun h : dumps standard d = [] =>
    absurd hnumeral (by rw [h, isNumeral_nil]; decide)
  have hc := hchars c (htext ▸ List.mem_cons_self)
  refine ⟨fun fuel hfuel other hother => ?_, c, by rw [htext]; rfl, ?_, ?_, ?_⟩
  · rw [htext] at hfuel
    obtain ⟨fuel, rfl⟩ := Nat.exists_eq_add_one_of_ne_zero (Nat.ne_zero_of_lt hfuel)
    rw [value_numeral hnumeral hchars fuel hother, hnumber]
  · by_contra hblank
    rw [isNumberChar_of_isBlank (Bool.not_eq_false _ ▸ hblank)] at hc
    cases hc
  · rintro rfl
    exact absurd hc (by decide)
  · rintro rfl
    exact absurd hc (by decide)

theorem roundTrips_text (s : Text) : RoundTrips shown (.text s) := by
  refine ⟨fun fuel hfuel other _ => ?_, '"', rfl, by decide, by decide, by decide⟩
  obtain ⟨fuel, rfl⟩ := Nat.exists_eq_add_one_of_ne_zero (Nat.ne_zero_of_lt hfuel)
  have hscan := scanString_quoted s other
  change value shown (fuel + 1) ('"' :: (s.flatMap escapeAscii ++ ['"']) ++ other) = _
  rw [List.cons_append, value, List.append_assoc, List.singleton_append, hscan]
  rfl

theorem roundTrips_list {items : List Json} (h : ∀ item ∈ items, RoundTrips shown item) :
    RoundTrips shown (.list items) := by
  refine ⟨fun fuel hfuel other _ => ?_, '[', rfl, by decide, by decide, by decide⟩
  obtain ⟨fuel, rfl⟩ := Nat.exists_eq_add_one_of_ne_zero (Nat.ne_zero_of_lt hfuel)
  have hdumps : dumps standard (.list items) =
      '[' :: [',', ' '].intercalate (items.map (dumps standard)) ++ [']'] := by
    rw [dumps, dumpsItems_eq_map]
    rfl
  rw [hdumps, List.length_append, List.length_cons, List.length_singleton] at hfuel
  have hitems : ∀ item ∈ items, Reads ']' (value shown fuel) (dumps standard) item := by
    intro item hitem
    have hlength := length_le_intercalate_of_mem [',', ' ']
      (List.mem_map_of_mem (f := dumps standard) hitem)
    obtain ⟨c, hc, hblank, hclose, -⟩ := (h item hitem).starts
    exact ⟨(h item hitem).reads fuel (by omega), c, hc, hblank, hclose⟩
  have hlength := length_le_intercalate hitems
  rw [hdumps, List.cons_append, List.cons_append, List.append_assoc, List.singleton_append, value,
    elements_intercalate (by decide) hitems (by omega)]
  rfl

theorem field_dumpsField {e : Text × Json} (h : RoundTrips shown e.2) {fuel : ℕ}
    (hfuel : (dumps standard e.2).length ≤ fuel) (other : Text) (hother : Ends other) :
    field (value shown fuel) (dumpsField standard e ++ other) = some (e, other) := by
  obtain ⟨c, hc, hblank, -⟩ := h.starts
  obtain ⟨text, htext⟩ := List.head?_eq_some_iff.mp hc
  have hskip : skipBlanks (' ' :: (dumps standard e.2 ++ other)) = dumps standard e.2 ++ other := by
    rw [htext]
    exact skipBlanks_cons hblank _
  have hwritten : dumpsField standard e ++ other = '"' :: (e.1.flatMap escapeAscii ++
      '"' :: ':' :: ' ' :: (dumps standard e.2 ++ other)) := by
    simp [dumpsField, quoted, standard]
  rw [hwritten, field, scanString_quoted]
  simp only [skipBlanks_cons (show isBlank ':' = false by decide)]
  rw [hskip, h.reads fuel hfuel other hother]
  rfl

theorem roundTrips_object {fields : List (Text × Json)} (hkeys : (fields.map Prod.fst).Nodup)
    (h : ∀ field ∈ fields, RoundTrips shown field.2) : RoundTrips shown (.object fields) := by
  refine ⟨fun fuel hfuel other _ => ?_, '{', rfl, by decide, by decide, by decide⟩
  obtain ⟨fuel, rfl⟩ := Nat.exists_eq_add_one_of_ne_zero (Nat.ne_zero_of_lt hfuel)
  have hdumps : dumps standard (.object fields) =
      '{' :: [',', ' '].intercalate (fields.map (dumpsField standard)) ++ ['}'] := by
    rw [dumps, dumpsFields_eq_map]
    rfl
  rw [hdumps, List.length_append, List.length_cons, List.length_singleton] at hfuel
  have hfields : ∀ e ∈ fields,
      Reads '}' (field (value shown fuel)) (dumpsField standard) e := by
    intro e he
    have hlength := length_le_intercalate_of_mem [',', ' ']
      (List.mem_map_of_mem (f := dumpsField standard) he)
    refine ⟨field_dumpsField (h e he) ?_, '"', rfl, by decide, by decide⟩
    have hvalue : (dumps standard e.2).length ≤ (dumpsField standard e).length := by
      rw [dumpsField, List.length_append]
      omega
    omega
  have hlength := length_le_intercalate hfields
  rw [hdumps, List.cons_append, List.cons_append, List.append_assoc, List.singleton_append, value,
    elements_intercalate (by decide) hfields (by omega)]
  change some (Json.object (Dict.ofList fields), other) = _
  rw [Dict.ofList_eq_self hkeys]

end

mutual

theorem roundTrips : ∀ d : Json, d.Valid shown → RoundTrips shown d
  | .null, _ => roundTrips_word rfl (fun _ => rfl) ⟨'n', rfl, by decide⟩
  | .bool true, _ => roundTrips_word rfl (fun _ => rfl) ⟨'t', rfl, by decide⟩
  | .bool false, _ => roundTrips_word rfl (fun _ => rfl) ⟨'f', rfl, by decide⟩
  | .int n, _ => roundTrips_numeral (isNumeral_decimal n)
      (fun c hc => (isNumberChar_of_mem_decimal hc).elim (fun h => h ▸ by decide)
        isNumberChar_of_isDigit) (number_decimal shown n)
  | .float token, h => roundTrips_numeral h.numeral h.chars (by
      change number shown token = .float token
      rw [number, if_pos h.float, h.shown])
  | .text s, _ => roundTrips_text s
  | .list items, h => roundTrips_list (roundTrips_items items h)
  | .object fields, h => roundTrips_object h.1 (roundTrips_fields fields h.2)

theorem roundTrips_items : ∀ items : List Json, ItemsValid shown items →
    ∀ item ∈ items, RoundTrips shown item
  | [], _ => fun _ h => absurd h List.not_mem_nil
  | item :: items, h => List.forall_mem_cons.mpr
      ⟨roundTrips item h.1, roundTrips_items items h.2⟩

theorem roundTrips_fields : ∀ fields : List (Text × Json),
    FieldsValid shown fields → ∀ field ∈ fields, RoundTrips shown field.2
  | [], _ => fun _ h => absurd h List.not_mem_nil
  | (_, value) :: fields, h => List.forall_mem_cons.mpr
      ⟨roundTrips value h.1, roundTrips_fields fields h.2⟩

end

/-- **The round trip.** -/
theorem loads_dumps {d : Json} (h : d.Valid shown) : loads shown (dumps standard d) = some d := by
  have htrip := roundTrips d h
  obtain ⟨c, hc, hblank, -⟩ := htrip.starts
  obtain ⟨text, htext⟩ := List.head?_eq_some_iff.mp hc
  have hcore : IsCore shown d (dumps standard d) := by
    refine ⟨fun other => ?_, htrip.reads⟩
    rw [htext]
    exact skipBlanks_cons hblank _
  have hnil : Blank [] := fun _ h => absurd h List.not_mem_nil
  have hloads := loads_core hcore hnil hnil
  rwa [List.nil_append, List.append_nil] at hloads

/-! ### One line -/

theorem not_mem_escapeAscii (c : Char) : '\n' ∉ escapeAscii c := by
  have hhex (n : ℕ) : '\n' ∉ unicodeEscape n := by
    have hdigit : ∀ d < 16, '\n' ≠ Nat.digitChar d := by decide
    intro h
    simp only [unicodeEscape, hex4, List.mem_cons, List.not_mem_nil, or_false] at h
    obtain h | h | h | h | h | h := h
    · exact absurd h (by decide)
    · exact absurd h (by decide)
    all_goals exact hdigit _ (Nat.mod_lt _ (by decide)) h
  obtain ⟨e, hescape, -, hvalue⟩ | ⟨hescape, hplain, -⟩ | ⟨hescape, -⟩ | ⟨n, -, hescape, -⟩ :=
    escaped c
  · rw [hescape]
    simp only [List.mem_cons, List.not_mem_nil, or_false, not_or]
    refine ⟨by decide, ?_⟩
    rintro rfl
    cases hvalue
  · rw [hescape, List.mem_singleton]
    rintro rfl
    exact absurd hplain (by decide)
  · exact hescape ▸ hhex _
  · rw [hescape, List.mem_append, not_or]
    exact ⟨hhex _, hhex _⟩

theorem not_mem_quoted (s : Text) : '\n' ∉ quoted standard s := by
  have hbody : '\n' ∉ s.flatMap escapeAscii := fun h =>
    have ⟨c, _, hc⟩ := List.mem_flatMap.mp h
    not_mem_escapeAscii c hc
  simp only [quoted, standard, List.cons_append, List.mem_cons, List.mem_append,
    List.not_mem_nil, or_false, not_or]
  exact ⟨by decide, hbody, by decide⟩

theorem not_mem_intercalate {texts : List Text} (h : ∀ text ∈ texts, '\n' ∉ text) :
    '\n' ∉ standard.comma.intercalate texts := by
  induction texts with
  | nil => exact List.not_mem_nil
  | cons first more ih =>
    obtain ⟨hfirst, hmore⟩ := List.forall_mem_cons.mp h
    cases more with
    | nil => rwa [List.intercalate_singleton]
    | cons next more =>
      rw [List.intercalate_cons_cons, List.mem_append, List.mem_append, not_or, not_or]
      exact ⟨⟨hfirst, by decide⟩, ih hmore⟩

mutual

/-- **A document is written on one line.** -/
theorem not_mem_dumps : ∀ d : Json, d.Valid shown →
    '\n' ∉ dumps standard d
  | .null, _ => by decide
  | .bool true, _ => by decide
  | .bool false, _ => by decide
  | .int n, _ => fun h => (isNumberChar_of_mem_decimal h).elim (fun h => by cases h)
      fun h => absurd h (by decide)
  | .float token, h => fun hc => absurd (h.chars _ hc) (by decide)
  | .text s, _ => not_mem_quoted s
  | .list items, h => by
    have hitems := not_mem_intercalate fun text htext => by
      obtain ⟨item, hitem, rfl⟩ := List.mem_map.mp htext
      exact not_mem_dumpsItems items h item hitem
    rw [dumps, dumpsItems_eq_map]
    simp only [List.cons_append, List.mem_cons, List.mem_append, List.not_mem_nil, or_false, not_or]
    exact ⟨by decide, hitems, by decide⟩
  | .object fields, h => by
    have hfields := not_mem_intercalate fun text htext => by
      obtain ⟨field, hfield, rfl⟩ := List.mem_map.mp htext
      exact not_mem_dumpsFields fields h.2 field hfield
    rw [dumps, dumpsFields_eq_map]
    simp only [List.cons_append, List.mem_cons, List.mem_append, List.not_mem_nil, or_false, not_or]
    exact ⟨by decide, hfields, by decide⟩

theorem not_mem_dumpsItems : ∀ items : List Json, ItemsValid shown items →
    ∀ item ∈ items, '\n' ∉ dumps standard item
  | [], _ => fun _ h => absurd h List.not_mem_nil
  | item :: items, h => List.forall_mem_cons.mpr
      ⟨not_mem_dumps item h.1, not_mem_dumpsItems items h.2⟩

theorem not_mem_dumpsFields : ∀ fields : List (Text × Json),
    FieldsValid shown fields → ∀ field ∈ fields, '\n' ∉ dumpsField standard field
  | [], _ => fun _ h => absurd h List.not_mem_nil
  | (k, value) :: fields, h => List.forall_mem_cons.mpr
      ⟨by
        simp only [dumpsField, List.mem_append, not_or]
        exact ⟨⟨not_mem_quoted k, by decide⟩, not_mem_dumps value h.1⟩,
        not_mem_dumpsFields fields h.2⟩

end

/-! ### Texts that end like a number -/

theorem exists_trail_of_word {core : Text} {d : Json} (h : word core = some (d, [])) :
    ∃ front c, core = front ++ [c] ∧ isDigit c = false := by
  unfold word at h
  split at h
  case h_7 => cases h
  all_goals
    obtain ⟨-, rfl⟩ := Prod.mk.inj (Option.some.inj h)
  · exact ⟨"nul".toList, 'l', rfl, by decide⟩
  · exact ⟨"tru".toList, 'e', rfl, by decide⟩
  · exact ⟨"fals".toList, 'e', rfl, by decide⟩
  · exact ⟨"Na".toList, 'N', rfl, by decide⟩
  · exact ⟨"Infinit".toList, 'y', rfl, by decide⟩
  · exact ⟨"-Infinit".toList, 'y', rfl, by decide⟩

/-- What is read up to the end of a text is a number, or ends with no digit. -/
theorem value_trail {n : ℕ} {core : Text} {d : Json} (h : value shown n core = some (d, [])) :
    (∀ c ∈ core, isNumberChar c = true) ∨ ∃ front c, core = front ++ [c] ∧ isDigit c = false := by
  cases hbrackets : brackets d with
  | some pair =>
    obtain ⟨inner, rfl⟩ := exists_inner_of_value h hbrackets
    refine Or.inr ⟨pair.1 :: inner, pair.2, rfl, ?_⟩
    cases d with
    | object fields => exact Option.some.inj hbrackets ▸ by decide
    | list items => exact Option.some.inj hbrackets ▸ by decide
    | _ => cases hbrackets
  | none =>
    cases n with
    | zero => cases h
    | succ n =>
      unfold value at h
      split at h
      · obtain ⟨⟨s, rest⟩, hs, hpair⟩ := Option.map_eq_some_iff.mp h
        obtain ⟨-, rfl⟩ := Prod.mk.inj hpair
        obtain ⟨⟨raw, behind⟩, hparts, hs⟩ := Option.bind_eq_some_iff.mp hs
        obtain ⟨_, _, hpair⟩ := Option.map_eq_some_iff.mp hs
        obtain ⟨-, rfl⟩ := Prod.mk.inj hpair
        obtain ⟨rfl, -⟩ := cutString_reads hparts
        exact Or.inr ⟨'"' :: raw, '"', rfl, by decide⟩
      · obtain ⟨_, _, hpair⟩ := Option.map_eq_some_iff.mp h
        rw [← (Prod.mk.inj hpair).1] at hbrackets
        cases hbrackets
      · obtain ⟨_, _, hpair⟩ := Option.map_eq_some_iff.mp h
        rw [← (Prod.mk.inj hpair).1] at hbrackets
        cases hbrackets
      · obtain hword | ⟨-, hnumber⟩ := Option.or_eq_some_iff.mp h
        · exact Or.inr (exists_trail_of_word hword)
        · obtain ⟨token, rfl, -, hchars, -⟩ := numeral_reads hnumber
          exact Or.inl fun c hc => hchars c (by simpa using hc)

/-- **A text that ends with digits** behind a character that no number has is no document. -/
theorem loads_eq_none_of_trail (front : Text) {c : Char} {digits : Text}
    (hblank : isBlank c = false) (hnumber : isNumberChar c = false) (hdigits : digits ≠ [])
    (h : ∀ d ∈ digits, isDigit d = true) : loads shown (front ++ c :: digits) = none := by
  by_contra hsome
  obtain ⟨d, hd⟩ := Option.ne_none_iff_exists'.mp hsome
  obtain ⟨before, core, behind, hbefore, hbehind, htext, hcore⟩ := exists_core_of_loads hd
  have hread := hcore.reads core.length le_rfl [] fun _ hc => absurd hc (Option.some_ne_none _).symm
  rw [List.append_nil] at hread
  have hlast : ∃ e, (before ++ (core ++ behind)).getLast? = some e ∧ isDigit e = true := by
    refine ⟨digits.getLast hdigits, ?_, h _ (List.getLast_mem hdigits)⟩
    rw [← htext, List.getLast?_append_of_ne_nil _ (List.cons_ne_nil c digits),
      List.getLast?_cons_of_ne_nil hdigits, List.getLast?_eq_some_getLast hdigits]
  obtain hnumber' | ⟨front', e, rfl, he⟩ := value_trail hread
  · have hc : c ∈ before ++ (core ++ behind) := htext ▸ by simp
    obtain hc | hc := List.mem_append.mp hc
    · rw [hbefore c hc] at hblank
      cases hblank
    · obtain hc | hc := List.mem_append.mp hc
      · rw [hnumber' c hc] at hnumber
        cases hnumber
      · rw [hbehind c hc] at hblank
        cases hblank
  · obtain ⟨last, hlast, hdigit⟩ := hlast
    rcases behind.eq_nil_or_concat with rfl | ⟨behind, b, rfl⟩
    · rw [List.append_nil, ← List.append_assoc, List.getLast?_concat] at hlast
      rw [Option.some.inj hlast, hdigit] at he
      cases he
    · rw [List.concat_eq_append] at hbehind hlast
      have hb := isNumberChar_of_isBlank (hbehind b (List.mem_append_right _ List.mem_cons_self))
      rw [← List.append_assoc, ← List.append_assoc, List.getLast?_concat] at hlast
      rw [Option.some.inj hlast, isNumberChar_of_isDigit hdigit] at hb
      cases hb

end AnonReq.Json
