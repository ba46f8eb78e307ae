import AnonReq.Foundation.Json
import AnonReq.Foundation.JsonText

/-!
# Reading JSON

`json.loads`: the document of a text. The limits of the interpreter on the depth of a document and
on the digits of an integer are left out, and an escaped surrogate without its partner, which is no
character, is not read.

* `value_reads`: what is read as a value is read alike before any other rest.
* `exists_core_of_loads`: only the value of a text decides about its document, and not the blanks
  around it.
* `loads_append_eq_none`: a text with a document has none any more with a character behind it that
  can follow no value.
-/

namespace AnonReq.Json

open JsonText

/-! ### Strings -/

/-- The value of a hexadecimal digit. -/
def hexDigit (c : Char) : Option ℕ :=
  if isDigit c then some (c.toNat - '0'.toNat)
  else if 'a' ≤ c ∧ c ≤ 'f' then some (c.toNat - 'a'.toNat + 10)
  else if 'A' ≤ c ∧ c ≤ 'F' then some (c.toNat - 'A'.toNat + 10)
  else none

/-- The value of some hexadecimal digits. -/
def hexValue (digits : Text) : Option ℕ :=
  digits.foldlM (fun n c => (hexDigit c).map fun digit => 16 * n + digit) 0

/-- What stands behind a backslash for one character. -/
def shortEscape : Char → Option Char
  | '"' => some '"'
  | '\\' => some '\\'
  | '/' => some '/'
  | 'b' => some '\x08'
  | 'f' => some '\x0c'
  | 'n' => some '\n'
  | 'r' => some '\r'
  | 't' => some '\t'
  | _ => none

/-- The first half of a pair. -/
def isHigh (n : ℕ) : Bool := 0xD800 ≤ n && n < 0xDC00

/-- The second half of a pair. -/
def isLow (n : ℕ) : Bool := 0xDC00 ≤ n && n < 0xE000

/-- The string that is written between two quotation marks. -/
def unescape : Text → Option Text
  | [] => some []
  | '\\' :: 'u' :: a :: b :: c :: d :: rest =>
    match hexValue [a, b, c, d] with
    | none => none
    | some n =>
      if isHigh n then
        match rest with
        | '\\' :: 'u' :: e :: f :: g :: h :: rest =>
          match hexValue [e, f, g, h] with
          | none => none
          | some m =>
            if isLow m then
              (unescape rest).map (Char.ofNat (0x10000 + (n - 0xD800) * 0x400 + (m - 0xDC00)) :: ·)
            else none
        | _ => none
      else if isLow n then none
      else (unescape rest).map (Char.ofNat n :: ·)
  | '\\' :: c :: rest =>
    match shortEscape c with
    | none => none
    | some c => (unescape rest).map (c :: ·)
  | c :: rest => if isPlain c then (unescape rest).map (c :: ·) else none

/-- What is written up to the end of a string, and what is behind its quotation mark. -/
def cutString : Text → Option (Text × Text)
  | [] => none
  | '"' :: rest => some ([], rest)
  | '\\' :: c :: rest => (cutString rest).map fun parts => ('\\' :: c :: parts.1, parts.2)
  | c :: rest => (cutString rest).map fun parts => (c :: parts.1, parts.2)

/-- A string whose first quotation mark is read. -/
def scanString (text : Text) : Option (Text × Text) :=
  (cutString text).bind fun parts => (unescape parts.1).map fun s => (s, parts.2)

/-! ### Numbers and words -/

/-- A character of a number. -/
def isNumberChar (c : Char) : Bool := isDigit c || "+-.eE".toList.contains c

/-- The text is all of a number. -/
def isNumeral (token : Text) : Bool :=
  match run start token with
  | some ⟨.number progress, _⟩ => progress.complete
  | _ => false

/-- The integer that is written. -/
def intValue : Text → ℤ
  | '-' :: digits => -(digits.foldl (fun n c => 10 * n + (c.toNat - '0'.toNat)) 0 : ℕ)
  | digits => (digits.foldl (fun n c => 10 * n + (c.toNat - '0'.toNat)) 0 : ℕ)

/-- The words that are values. -/
def word : Text → Option (Json × Text)
  | 'n' :: 'u' :: 'l' :: 'l' :: rest => some (.null, rest)
  | 't' :: 'r' :: 'u' :: 'e' :: rest => some (.bool true, rest)
  | 'f' :: 'a' :: 'l' :: 's' :: 'e' :: rest => some (.bool false, rest)
  | 'N' :: 'a' :: 'N' :: rest => some (.float "nan".toList, rest)
  | 'I' :: 'n' :: 'f' :: 'i' :: 'n' :: 'i' :: 't' :: 'y' :: rest => some (.float "inf".toList, rest)
  | '-' :: 'I' :: 'n' :: 'f' :: 'i' :: 'n' :: 'i' :: 't' :: 'y' :: rest =>
    some (.float "-inf".toList, rest)
  | _ => none

section

-- `repr(float(token))`
variable (shown : Text → Text)

/-- The number of a numeral. -/
def number (token : Text) : Json :=
  if token.any fun c => c == '.' || c == 'e' || c == 'E' then .float (shown token)
  else .int (intValue token)

/-- A number: what could continue it cannot follow a value. -/
def numeral (text : Text) : Option (Json × Text) :=
  let token := text.takeWhile isNumberChar
  if isNumeral token then some (number shown token, text.dropWhile isNumberChar) else none

end

/-! ### Documents -/

/-- A text without the blanks at its front. -/
def skipBlanks (text : Text) : Text := text.dropWhile isBlank

section

variable {α : Type} (close : Char) (element : Text → Option (α × Text))

/-- One element and more, up to the closing bracket. -/
def sequence : ℕ → Text → Option (List α × Text)
  | 0, _ => none
  | fuel + 1, front =>
    match element front with
    | none => none
    | some (a, rest) =>
      match skipBlanks rest with
      | [] => none
      | c :: rest =>
        if c = close then some ([a], rest)
        else if c = ',' then
          (sequence fuel (skipBlanks rest)).map fun more => (a :: more.1, more.2)
        else none

/-- What stands between two brackets, the first of which is read. -/
def elements (fuel : ℕ) (text : Text) : Option (List α × Text) :=
  match skipBlanks text with
  | [] => none
  | c :: rest =>
    if c = close then some ([], rest) else sequence close element fuel (c :: rest)

end

/-- A name and a value. -/
def field (value : Text → Option (Json × Text)) : Text → Option ((Text × Json) × Text)
  | '"' :: rest =>
    match scanString rest with
    | none => none
    | some (key, rest) =>
      match skipBlanks rest with
      | ':' :: rest => (value (skipBlanks rest)).map fun v => ((key, v.1), v.2)
      | _ => none
  | _ => none

section

variable (shown : Text → Text)

/-- A value at the front of a text; a repeated name has the last of its values. -/
def value : ℕ → Text → Option (Json × Text)
  | 0, _ => none
  | fuel + 1, front =>
    match front with
    | '"' :: rest => (scanString rest).map fun s => (.text s.1, s.2)
    | '{' :: rest =>
      (elements '}' (field (value fuel)) fuel rest).map fun fields =>
        (.object (Dict.ofList fields.1), fields.2)
    | '[' :: rest =>
      (elements ']' (value fuel) fuel rest).map fun items => (.list items.1, items.2)
    | front => (word front).or (numeral shown front)

/-- `json.loads(text)`: `none` is a `JSONDecodeError`. -/
def loads (text : Text) : Option Json :=
  match value shown (text.length + 1) (skipBlanks text) with
  | some (document, rest) => if skipBlanks rest = [] then some document else none
  | none => none

end

/-! ### What is read of a text -/

/-- A text before which a value ends. -/
def Ends (rest : Text) : Prop := ∀ c ∈ rest.head?, isNumberChar c = false

theorem isNumberChar_of_isBlank {c : Char} (h : isBlank c = true) : isNumberChar c = false := by
  simp only [isBlank, Bool.or_eq_true, beq_iff_eq] at h
  obtain ((rfl | rfl) | rfl) | rfl := h <;> decide

theorem ends_blanks {blanks rest : Text} (h : ∀ c ∈ blanks, isBlank c = true) (hrest : Ends rest) :
    Ends (blanks ++ rest) := by
  cases blanks with
  | nil => exact hrest
  | cons c blanks =>
    intro d hd
    obtain rfl := Option.some.inj hd
    exact isNumberChar_of_isBlank (h c List.mem_cons_self)

theorem skipBlanks_append {blanks : Text} (h : ∀ c ∈ blanks, isBlank c = true) (rest : Text) :
    skipBlanks (blanks ++ rest) = skipBlanks rest :=
  List.dropWhile_append_of_pos h

theorem skipBlanks_cons {c : Char} (h : isBlank c = false) (rest : Text) :
    skipBlanks (c :: rest) = c :: rest :=
  List.dropWhile_cons_of_neg (by simp [h])

/-- The blanks at the front of a text, and what comes behind them. -/
theorem exists_blanks (front : Text) :
    ∃ blanks, (∀ c ∈ blanks, isBlank c = true) ∧ front = blanks ++ skipBlanks front :=
  ⟨front.takeWhile isBlank, fun _ hc => List.mem_takeWhile_imp hc,
    List.takeWhile_append_dropWhile.symm⟩

variable {front rest : Text}

theorem isBlank_head_skipBlanks {c : Char} (h : skipBlanks front = c :: rest) :
    isBlank c = false := by
  have hnot := List.head?_dropWhile_not isBlank front
  rw [show front.dropWhile isBlank = c :: rest from h] at hnot
  exact hnot

theorem cutString_reads {front raw rest : Text} (h : cutString front = some (raw, rest)) :
    front = raw ++ '"' :: rest ∧
      ∀ other, cutString (raw ++ '"' :: other) = some (raw, other) := by
  fun_induction cutString front generalizing raw with
  | case1 => exact absurd h (Option.some_ne_none _).symm
  | case2 behind =>
    obtain ⟨rfl, rfl⟩ := Prod.mk.inj (Option.some.inj h)
    exact ⟨rfl, fun other => by simp [cutString]⟩
  | case3 c behind ih =>
    obtain ⟨parts, hparts, hpair⟩ := Option.map_eq_some_iff.mp h
    obtain ⟨rfl, rfl⟩ := Prod.mk.inj hpair
    obtain ⟨rfl, hother⟩ := ih hparts
    exact ⟨rfl, fun other => by simp [cutString, hother other]⟩
  | case4 c behind hquote hslash ih =>
    obtain ⟨parts, hparts, hpair⟩ := Option.map_eq_some_iff.mp h
    obtain ⟨rfl, rfl⟩ := Prod.mk.inj hpair
    obtain ⟨rfl, hother⟩ := ih hparts
    refine ⟨rfl, fun other => ?_⟩
    -- something follows the character, so a backslash would have been read with it
    have hc : c ≠ '\\' := by
      rintro rfl
      rcases hraw : parts.1 with _ | ⟨d, raw⟩
      · exact hslash _ _ rfl (by rw [hraw]; rfl)
      · exact hslash _ _ rfl (by rw [hraw]; rfl)
    rw [List.cons_append, cutString, hother]
    · rfl
    · exact hquote
    · exact fun _ _ h => absurd h hc

theorem scanString_reads {front s rest : Text} (h : scanString front = some (s, rest)) :
    ∃ core, front = core ++ rest ∧ ∀ other, scanString (core ++ other) = some (s, other) := by
  obtain ⟨parts, hparts, hs⟩ := Option.bind_eq_some_iff.mp h
  obtain ⟨s', hs', hpair⟩ := Option.map_eq_some_iff.mp hs
  obtain ⟨rfl, rfl⟩ := Prod.mk.inj hpair
  obtain ⟨hfront, hother⟩ := cutString_reads hparts
  refine ⟨parts.1 ++ ['"'], by rw [hfront, List.append_assoc]; rfl, fun other => ?_⟩
  rw [List.append_assoc, List.singleton_append, scanString, hother, Option.bind_some, hs']
  rfl

theorem word_reads {d : Json} (h : word front = some (d, rest)) :
    ∃ core, front = core ++ rest ∧ core ≠ [] ∧ ∀ other, word (core ++ other) = some (d, other) := by
  unfold word at h
  split at h
  · obtain ⟨rfl, rfl⟩ := Prod.mk.inj (Option.some.inj h)
    exact ⟨"null".toList, rfl, by decide, fun _ => rfl⟩
  · obtain ⟨rfl, rfl⟩ := Prod.mk.inj (Option.some.inj h)
    exact ⟨"true".toList, rfl, by decide, fun _ => rfl⟩
  · obtain ⟨rfl, rfl⟩ := Prod.mk.inj (Option.some.inj h)
    exact ⟨"false".toList, rfl, by decide, fun _ => rfl⟩
  · obtain ⟨rfl, rfl⟩ := Prod.mk.inj (Option.some.inj h)
    exact ⟨"NaN".toList, rfl, by decide, fun _ => rfl⟩
  · obtain ⟨rfl, rfl⟩ := Prod.mk.inj (Option.some.inj h)
    exact ⟨"Infinity".toList, rfl, by decide, fun _ => rfl⟩
  · obtain ⟨rfl, rfl⟩ := Prod.mk.inj (Option.some.inj h)
    exact ⟨"-Infinity".toList, rfl, by decide, fun _ => rfl⟩
  · exact absurd h (Option.some_ne_none _).symm

theorem isNumeral_nil : isNumeral [] = false := rfl

theorem numeral_reads {shown : Text → Text} {d : Json} (h : numeral shown front = some (d, rest)) :
    ∃ core, front = core ++ rest ∧ isNumeral core = true ∧ (∀ c ∈ core, isNumberChar c = true) ∧
      ∀ other, Ends other → numeral shown (core ++ other) = some (d, other) := by
  unfold numeral at h
  dsimp only at h
  split_ifs at h with hnumeral
  obtain ⟨rfl, rfl⟩ := Prod.mk.inj (Option.some.inj h)
  have hchars : ∀ c ∈ front.takeWhile isNumberChar, isNumberChar c = true :=
    fun _ hc => List.mem_takeWhile_imp hc
  refine ⟨front.takeWhile isNumberChar, List.takeWhile_append_dropWhile.symm, hnumeral, hchars,
    fun other hother => ?_⟩
  have htake : other.takeWhile isNumberChar = [] ∧ other.dropWhile isNumberChar = other := by
    cases other with
    | nil => exact ⟨rfl, rfl⟩
    | cons c other =>
      have hc : ¬ isNumberChar c = true := by simp [hother c rfl]
      exact ⟨List.takeWhile_cons_of_neg hc, List.dropWhile_cons_of_neg hc⟩
  unfold numeral
  dsimp only
  rw [List.takeWhile_append_of_pos hchars, List.dropWhile_append_of_pos hchars, htake.1, htake.2,
    List.append_nil, if_pos hnumeral]

/-- A number is no word. -/
theorem word_eq_none_of_isNumeral {core : Text} (hnumeral : isNumeral core = true)
    (hchars : ∀ c ∈ core, isNumberChar c = true) (other : Text) : word (core ++ other) = none := by
  rcases core with _ | ⟨c, core⟩
  · exact absurd hnumeral (by rw [isNumeral_nil]; decide)
  · have hc := hchars c List.mem_cons_self
    rcases hword : word (c :: core ++ other) with _ | ⟨d, rest⟩
    · rfl
    · unfold word at hword
      split at hword
      case h_6 behind hminus =>
        -- a minus sign alone is no number
        obtain ⟨rfl, hcore⟩ := List.cons.inj hminus
        rcases core with _ | ⟨e, core⟩
        · exact absurd hnumeral (by decide)
        · obtain ⟨rfl, -⟩ := List.cons.inj hcore
          exact absurd (hchars 'I' (by simp)) (by decide)
      case h_7 => exact absurd hword (Option.some_ne_none _).symm
      all_goals
        rename_i hletter
        obtain ⟨rfl, -⟩ := List.cons.inj hletter
        exact absurd hc (by decide)

/-- With enough fuel, a part of a text is read alike before whatever a value ends before. -/
def ReadsAlike {α : Type} (element : ℕ → Text → Option (α × Text)) (a : α) (core : Text) : Prop :=
  ∀ fuel, core.length ≤ fuel → ∀ other, Ends other → element fuel (core ++ other) = some (a, other)

/-- A closing bracket. -/
def IsClosing (c : Char) : Prop := isBlank c = false ∧ isNumberChar c = false ∧ c ≠ ','

instance (c : Char) : Decidable (IsClosing c) := inferInstanceAs (Decidable (_ ∧ _))

theorem skipBlanks_core {front core rest : Text} {c : Char}
    (h : skipBlanks front = core ++ c :: rest) (other : Text) :
    skipBlanks (core ++ c :: other) = core ++ c :: other := by
  cases core with
  | nil => exact skipBlanks_cons (isBlank_head_skipBlanks h) other
  | cons d core => exact skipBlanks_cons (isBlank_head_skipBlanks h) (core ++ c :: other)

section

variable {α : Type} {close : Char} {element : ℕ → Text → Option (α × Text)} {n : ℕ}

/-- **A sequence** is read alike whatever comes behind its bracket. -/
theorem sequence_reads (hclose : IsClosing close)
    (helement : ∀ front a rest, element n front = some (a, rest) →
      ∃ core, front = core ++ rest ∧ ReadsAlike element a core) {k : ℕ} {as : List α}
    (h : sequence close (element n) k front = some (as, rest)) :
    ∃ core, front = core ++ close :: rest ∧
      ∀ fuel fuel', core.length < fuel → core.length < fuel' → ∀ other,
        sequence close (element fuel) fuel' (core ++ close :: other) = some (as, other) := by
  obtain ⟨hblank, hnumber, hcomma⟩ := hclose
  induction k generalizing front as with
  | zero => exact absurd h (Option.some_ne_none _).symm
  | succ k ih =>
    rw [sequence] at h
    rcases hfirst : element n front with _ | ⟨a, behind⟩
    · rw [hfirst] at h
      exact absurd h (Option.some_ne_none _).symm
    · obtain ⟨core, rfl, hcore⟩ := helement _ _ _ hfirst
      rw [hfirst] at h
      dsimp only at h
      rcases hskip : skipBlanks behind with _ | ⟨c, behind'⟩
      · rw [hskip] at h
        exact absurd h (Option.some_ne_none _).symm
      · obtain ⟨blanks, hblanks, hbehind⟩ := exists_blanks behind
        rw [hskip] at h hbehind
        dsimp only at h
        by_cases hc : c = close
        · subst hc
          rw [if_pos rfl] at h
          obtain ⟨rfl, rfl⟩ := Prod.mk.inj (Option.some.inj h)
          refine ⟨core ++ blanks, by rw [hbehind, List.append_assoc], ?_⟩
          intro fuel fuel' hfuel hfuel' other
          rw [List.length_append] at hfuel
          obtain ⟨fuel', rfl⟩ := Nat.exists_eq_add_one_of_ne_zero (Nat.ne_zero_of_lt hfuel')
          have hends : Ends (blanks ++ c :: other) :=
            ends_blanks hblanks fun d hd => Option.some.inj hd ▸ hnumber
          rw [List.append_assoc, sequence, hcore fuel (by omega) _ hends]
          dsimp only
          rw [skipBlanks_append hblanks, skipBlanks_cons hblank]
          exact if_pos rfl
        · rw [if_neg hc] at h
          by_cases hseparator : c = ','
          · subst hseparator
            rw [if_pos rfl] at h
            obtain ⟨⟨more, rest'⟩, hmore, hpair⟩ := Option.map_eq_some_iff.mp h
            obtain ⟨rfl, rfl⟩ := Prod.mk.inj hpair
            obtain ⟨core', hcore', hread⟩ := ih hmore
            obtain ⟨blanks', hblanks', hbehind'⟩ := exists_blanks behind'
            refine ⟨core ++ (blanks ++ ',' :: (blanks' ++ core')), ?_, ?_⟩
            · rw [hbehind, hbehind', hcore']
              simp only [List.append_assoc, List.cons_append]
            · intro fuel fuel' hfuel hfuel' other
              simp only [List.length_append, List.length_cons] at hfuel hfuel'
              obtain ⟨fuel', rfl⟩ := Nat.exists_eq_add_one_of_ne_zero (Nat.ne_zero_of_lt hfuel')
              have hends : Ends (blanks ++ ',' :: (blanks' ++ (core' ++ close :: other))) :=
                ends_blanks hblanks fun d hd => Option.some.inj hd ▸ by decide
              simp only [List.append_assoc, List.cons_append]
              rw [sequence, hcore fuel (by omega) _ hends]
              dsimp only
              rw [skipBlanks_append hblanks, skipBlanks_cons (by decide)]
              dsimp only
              rw [if_neg hc, if_pos rfl, skipBlanks_append hblanks', skipBlanks_core hcore',
                hread fuel fuel' (by omega) (by omega)]
              rfl
          · rw [if_neg hseparator] at h
            exact absurd h (Option.some_ne_none _).symm

theorem elements_reads (hclose : IsClosing close)
    (helement : ∀ front a rest, element n front = some (a, rest) →
      ∃ core, front = core ++ rest ∧ ReadsAlike element a core)
    {k : ℕ} {front rest : Text} {as : List α}
    (h : elements close (element n) k front = some (as, rest)) :
    ∃ core, front = core ++ close :: rest ∧
      ∀ fuel fuel', core.length < fuel → core.length < fuel' → ∀ other,
        elements close (element fuel) fuel' (core ++ close :: other) = some (as, other) := by
  unfold elements at h
  obtain ⟨blanks, hblanks, hfront⟩ := exists_blanks front
  rcases hskip : skipBlanks front with _ | ⟨c, behind⟩
  · rw [hskip] at h
    exact absurd h (Option.some_ne_none _).symm
  · rw [hskip] at h hfront
    dsimp only at h
    by_cases hc : c = close
    · subst hc
      rw [if_pos rfl] at h
      obtain ⟨rfl, rfl⟩ := Prod.mk.inj (Option.some.inj h)
      refine ⟨blanks, hfront, fun fuel fuel' _ _ other => ?_⟩
      rw [elements, skipBlanks_append hblanks, skipBlanks_cons hclose.1]
      exact if_pos rfl
    · rw [if_neg hc] at h
      obtain ⟨core, hcore, hread⟩ := sequence_reads hclose helement h
      refine ⟨blanks ++ core, by rw [hfront, hcore, List.append_assoc], ?_⟩
      intro fuel fuel' hfuel hfuel' other
      rw [List.length_append] at hfuel hfuel'
      have hskip' := skipBlanks_core (hskip.trans hcore) other
      rw [elements, List.append_assoc, skipBlanks_append hblanks, hskip']
      -- the first character is no bracket
      rcases core with _ | ⟨d, core⟩
      · exact absurd (List.cons.inj hcore).1 hc
      · have hd : d ≠ close := fun hd => hc ((List.cons.inj hcore).1.trans hd)
        have hread' := hread fuel fuel' (by omega) (by omega) other
        rw [List.cons_append] at hread' ⊢
        dsimp only
        rw [if_neg hd, hread']

end

variable {shown : Text → Text}

/-- A part of a text with nothing at its front that is skipped. -/
theorem skipBlanks_front {front core rest : Text} (h : skipBlanks front = core ++ rest)
    (hcore : core ≠ []) (other : Text) : skipBlanks (core ++ other) = core ++ other := by
  cases core with
  | nil => exact absurd rfl hcore
  | cons c core => exact skipBlanks_cons (isBlank_head_skipBlanks h) (core ++ other)

theorem field_reads {n : ℕ}
    (hvalue : ∀ front d rest, value shown n front = some (d, rest) →
      ∃ core, core ≠ [] ∧ front = core ++ rest ∧ ReadsAlike (value shown) d core)
    {entry : Text × Json}
    (h : field (value shown n) front = some (entry, rest)) :
    ∃ core, front = core ++ rest ∧
      ReadsAlike (fun fuel => field (value shown fuel)) entry core := by
  unfold field at h
  split at h
  · rename_i behind
    rcases hkey : scanString behind with _ | ⟨key, behind'⟩
    · rw [hkey] at h
      exact absurd h (Option.some_ne_none _).symm
    · obtain ⟨name, rfl, hname⟩ := scanString_reads hkey
      obtain ⟨blanks, hblanks, hbehind⟩ := exists_blanks behind'
      rw [hkey] at h
      dsimp only at h
      split at h
      · rename_i behind'' hcolon
        obtain ⟨⟨d, rest'⟩, hd, hpair⟩ := Option.map_eq_some_iff.mp h
        obtain ⟨rfl, rfl⟩ := Prod.mk.inj hpair
        obtain ⟨core, hcore, hskip, hread⟩ := hvalue _ _ _ hd
        obtain ⟨blanks', hblanks', hbehind'⟩ := exists_blanks behind''
        refine ⟨'"' :: (name ++ (blanks ++ ':' :: (blanks' ++ core))), ?_, ?_⟩
        · rw [hbehind, hcolon, hbehind', hskip]
          simp only [List.append_assoc, List.cons_append]
        · intro fuel hfuel other hother
          simp only [List.length_append, List.length_cons] at hfuel
          simp only [field, List.append_assoc, List.cons_append, hname]
          rw [skipBlanks_append hblanks, skipBlanks_cons (by decide)]
          change (value shown fuel (skipBlanks (blanks' ++ (core ++ other)))).map _ = _
          rw [skipBlanks_append hblanks', skipBlanks_front hskip hcore,
            hread fuel (by omega) other hother]
          rfl
      · exact absurd h (Option.some_ne_none _).symm
  · exact absurd h (Option.some_ne_none _).symm

/-- **What is read as a value** is read alike before any other rest. -/
theorem value_reads {n : ℕ} {d : Json} (h : value shown n front = some (d, rest)) :
    ∃ core, core ≠ [] ∧ front = core ++ rest ∧ ReadsAlike (value shown) d core := by
  induction n generalizing front d rest with
  | zero => exact absurd h (Option.some_ne_none _).symm
  | succ n ih =>
    have hvalues : ∀ front d rest, value shown n front = some (d, rest) →
        ∃ core, front = core ++ rest ∧ ReadsAlike (value shown) d core := by
      intro front d rest hd
      obtain ⟨core, -, hcore⟩ := ih hd
      exact ⟨core, hcore⟩
    unfold value at h
    split at h
    · obtain ⟨⟨s, rest'⟩, hs, hpair⟩ := Option.map_eq_some_iff.mp h
      obtain ⟨rfl, rfl⟩ := Prod.mk.inj hpair
      obtain ⟨core, rfl, hread⟩ := scanString_reads hs
      refine ⟨'"' :: core, List.cons_ne_nil _ _, rfl, fun fuel hfuel other _ => ?_⟩
      obtain ⟨fuel, rfl⟩ := Nat.exists_eq_add_one_of_ne_zero (Nat.ne_zero_of_lt hfuel)
      rw [List.cons_append, value, hread]
      rfl
    · obtain ⟨⟨fields, rest'⟩, hfields, hpair⟩ := Option.map_eq_some_iff.mp h
      obtain ⟨rfl, rfl⟩ := Prod.mk.inj hpair
      obtain ⟨core, rfl, hread⟩ := @elements_reads _ '}' (fun fuel => field (value shown fuel)) n
        (by decide) (fun _ _ _ => field_reads fun _ _ _ => ih) _ _ _ _ hfields
      refine ⟨'{' :: (core ++ ['}']), List.cons_ne_nil _ _, by simp, fun fuel hfuel other _ => ?_⟩
      obtain ⟨fuel, rfl⟩ := Nat.exists_eq_add_one_of_ne_zero (Nat.ne_zero_of_lt hfuel)
      simp only [List.length_append, List.length_cons, List.length_nil] at hfuel
      rw [List.cons_append, List.append_assoc, List.singleton_append, value,
        hread fuel fuel (by omega) (by omega)]
      rfl
    · obtain ⟨⟨items, rest'⟩, hitems, hpair⟩ := Option.map_eq_some_iff.mp h
      obtain ⟨rfl, rfl⟩ := Prod.mk.inj hpair
      obtain ⟨core, rfl, hread⟩ := @elements_reads _ ']' (value shown) n (by decide) hvalues _ _ _ _
        hitems
      refine ⟨'[' :: (core ++ [']']), List.cons_ne_nil _ _, by simp, fun fuel hfuel other _ => ?_⟩
      obtain ⟨fuel, rfl⟩ := Nat.exists_eq_add_one_of_ne_zero (Nat.ne_zero_of_lt hfuel)
      simp only [List.length_append, List.length_cons, List.length_nil] at hfuel
      rw [List.cons_append, List.append_assoc, List.singleton_append, value,
        hread fuel fuel (by omega) (by omega)]
      rfl
    · rename_i hquote hobject harray
      have hhead : ∀ core, core ≠ [] → front = core ++ rest → ∀ other fuel,
          value shown (fuel + 1) (core ++ other) =
            (word (core ++ other)).or (numeral shown (core ++ other)) := by
        rintro (_ | ⟨c, core⟩) hcore rfl other fuel
        · exact absurd rfl hcore
        · rw [List.cons_append, value]
          · exact fun _ h => hquote _ (by rw [(List.cons.inj h).1]; rfl)
          · exact fun _ h => hobject _ (by rw [(List.cons.inj h).1]; rfl)
          · exact fun _ h => harray _ (by rw [(List.cons.inj h).1]; rfl)
      obtain hword | ⟨-, hnumber⟩ := Option.or_eq_some_iff.mp h
      · obtain ⟨core, hfront, hcore, hread⟩ := word_reads hword
        refine ⟨core, hcore, hfront, fun fuel hfuel other _ => ?_⟩
        obtain ⟨fuel, rfl⟩ := Nat.exists_eq_add_one_of_ne_zero
          (Nat.ne_zero_of_lt ((List.length_pos_of_ne_nil hcore).trans_le hfuel))
        rw [hhead core hcore hfront, hread]
        rfl
      · obtain ⟨core, hfront, hnumeral, hchars, hread⟩ := numeral_reads hnumber
        have hcore : core ≠ [] := by
          rintro rfl
          exact absurd hnumeral (by rw [isNumeral_nil]; decide)
        refine ⟨core, hcore, hfront, fun fuel hfuel other hother => ?_⟩
        obtain ⟨fuel, rfl⟩ := Nat.exists_eq_add_one_of_ne_zero
          (Nat.ne_zero_of_lt ((List.length_pos_of_ne_nil hcore).trans_le hfuel))
        rw [hhead core hcore hfront, word_eq_none_of_isNumeral hnumeral hchars, hread other hother]
        rfl

/-- The brackets around an object or an array. -/
def brackets : Json → Option (Char × Char)
  | .object _ => some ('{', '}')
  | .list _ => some ('[', ']')
  | _ => none

theorem brackets_of_word {d : Json} (h : word front = some (d, rest)) : brackets d = none := by
  unfold word at h
  split at h
  case h_7 => exact absurd h (Option.some_ne_none _).symm
  all_goals
    obtain ⟨rfl, -⟩ := Prod.mk.inj (Option.some.inj h)
    rfl

theorem brackets_number (token : Text) : brackets (number shown token) = none := by
  unfold number
  split_ifs
  · rfl
  · rfl

/-- What is read as an object or an array stands between its brackets. -/
theorem exists_inner_of_value {n : ℕ} {d : Json} {opening closing : Char}
    (h : value shown n front = some (d, rest)) (hbrackets : brackets d = some (opening, closing)) :
    ∃ inner, front = opening :: (inner ++ closing :: rest) := by
  cases n with
  | zero => exact absurd h (Option.some_ne_none _).symm
  | succ n =>
    unfold value at h
    split at h
    · obtain ⟨s, -, hpair⟩ := Option.map_eq_some_iff.mp h
      rw [← (Prod.mk.inj hpair).1] at hbrackets
      exact absurd hbrackets (Option.some_ne_none _).symm
    · obtain ⟨⟨entries, rest'⟩, hentries, hpair⟩ := Option.map_eq_some_iff.mp h
      obtain ⟨rfl, rfl⟩ := Prod.mk.inj hpair
      obtain ⟨rfl, rfl⟩ := Prod.mk.inj (Option.some.inj hbrackets)
      obtain ⟨inner, rfl, -⟩ := @elements_reads _ '}' (fun fuel => field (value shown fuel)) n
        (by decide) (fun _ _ _ => field_reads fun _ _ _ => value_reads) _ _ _ _ hentries
      exact ⟨inner, rfl⟩
    · obtain ⟨⟨items, rest'⟩, hitems, hpair⟩ := Option.map_eq_some_iff.mp h
      obtain ⟨rfl, rfl⟩ := Prod.mk.inj hpair
      obtain ⟨rfl, rfl⟩ := Prod.mk.inj (Option.some.inj hbrackets)
      have hvalues : ∀ front d rest, value shown n front = some (d, rest) →
          ∃ core, front = core ++ rest ∧ ReadsAlike (value shown) d core := by
        intro front d rest hd
        obtain ⟨core, -, hcore⟩ := value_reads hd
        exact ⟨core, hcore⟩
      obtain ⟨inner, rfl, -⟩ := @elements_reads _ ']' (value shown) n (by decide) hvalues _ _ _ _
        hitems
      exact ⟨inner, rfl⟩
    · obtain hword | ⟨-, hnumber⟩ := Option.or_eq_some_iff.mp h
      · rw [brackets_of_word hword] at hbrackets
        exact absurd hbrackets (Option.some_ne_none _).symm
      · unfold numeral at hnumber
        dsimp only at hnumber
        split_ifs at hnumber
        rw [← (Prod.mk.inj (Option.some.inj hnumber)).1, brackets_number] at hbrackets
        exact absurd hbrackets (Option.some_ne_none _).symm

/-! ### What decides about the document of a text -/

/-- A text of blanks. -/
def Blank (blanks : Text) : Prop := ∀ c ∈ blanks, isBlank c = true

theorem skipBlanks_of_blank {blanks : Text} (h : Blank blanks) : skipBlanks blanks = [] :=
  List.dropWhile_eq_nil_iff.mpr h

theorem blank_of_skipBlanks {blanks : Text} (h : skipBlanks blanks = []) : Blank blanks :=
  List.dropWhile_eq_nil_iff.mp h

/-- What stands in a text for its document. -/
structure IsCore (shown : Text → Text) (d : Json) (core : Text) : Prop where
  skipBlanks_append : ∀ other, skipBlanks (core ++ other) = core ++ other
  reads : ReadsAlike (value shown) d core

/-- **A text with a document**: its value, with blanks around it. -/
theorem exists_core_of_loads {text : Text} {d : Json} (h : loads shown text = some d) :
    ∃ before core behind, Blank before ∧ Blank behind ∧ text = before ++ (core ++ behind) ∧
      IsCore shown d core := by
  unfold loads at h
  rcases hvalue : value shown (text.length + 1) (skipBlanks text) with _ | ⟨d', rest⟩
  · rw [hvalue] at h
    exact absurd h (Option.some_ne_none _).symm
  · rw [hvalue] at h
    dsimp only at h
    split_ifs at h with hrest
    obtain rfl := Option.some.inj h
    obtain ⟨before, hbefore, htext⟩ := exists_blanks text
    obtain ⟨core, hcore, hskip, hread⟩ := value_reads hvalue
    exact ⟨before, core, rest, hbefore, blank_of_skipBlanks hrest, by rw [← hskip, ← htext],
      skipBlanks_front hskip hcore, hread⟩

/-- **Blanks around a value** change nothing. -/
theorem loads_core {core : Text} {d : Json} (h : IsCore shown d core) {before behind : Text}
    (hbefore : Blank before) (hbehind : Blank behind) :
    loads shown (before ++ (core ++ behind)) = some d := by
  have hnil : Ends [] := fun _ hc => absurd hc (Option.some_ne_none _).symm
  have hends : Ends behind := List.append_nil behind ▸ ends_blanks hbehind hnil
  unfold loads
  rw [skipBlanks_append hbefore, h.skipBlanks_append, h.reads _ (by simp; omega) _ hends]
  exact if_pos (skipBlanks_of_blank hbehind)

theorem loads_blanks_iff {blanks : Text} (hblanks : Blank blanks) {text : Text} {d : Json} :
    loads shown (blanks ++ text) = some d ↔ loads shown text = some d := by
  constructor
  · intro h
    obtain ⟨before, core, behind, hbefore, hbehind, htext, hcore⟩ := exists_core_of_loads h
    obtain ⟨blanks', hblanks', hfront⟩ := exists_blanks text
    have hskip : skipBlanks text = core ++ behind := by
      rw [← skipBlanks_append hblanks, htext, skipBlanks_append hbefore, hcore.skipBlanks_append]
    rw [hfront, hskip]
    exact loads_core hcore hblanks' hbehind
  · intro h
    obtain ⟨before, core, behind, hbefore, hbehind, rfl, hcore⟩ := exists_core_of_loads h
    rw [← List.append_assoc]
    exact loads_core hcore
      (fun c hc => (List.mem_append.mp hc).elim (hblanks c) (hbefore c)) hbehind

/-- **A text with more behind it.** -/
theorem loads_append_eq_none {text : Text} {d : Json} (h : loads shown text = some d) {c : Char}
    (hblank : isBlank c = false) (hnumber : isNumberChar c = false) (more : Text) :
    loads shown (text ++ c :: more) = none := by
  obtain ⟨before, core, behind, hbefore, hbehind, rfl, hcore⟩ := exists_core_of_loads h
  have hends : Ends (behind ++ c :: more) :=
    ends_blanks hbehind fun e he => Option.some.inj he ▸ hnumber
  unfold loads
  rw [List.append_assoc, List.append_assoc, skipBlanks_append hbefore, hcore.skipBlanks_append,
    hcore.reads _ (by simp; omega) _ hends]
  dsimp only
  rw [skipBlanks_append hbehind, skipBlanks_cons hblank]
  exact if_neg (List.cons_ne_nil _ _)

/-- An object or an array in a text stands between its brackets. -/
theorem exists_inner_of_loads {text : Text} {d : Json} {opening closing : Char}
    (h : loads shown text = some d) (hbrackets : brackets d = some (opening, closing)) :
    ∃ before inner behind, Blank before ∧ Blank behind ∧
      text = before ++ (opening :: (inner ++ [closing]) ++ behind) ∧
      IsCore shown d (opening :: (inner ++ [closing])) := by
  obtain ⟨before, core, behind, hbefore, hbehind, rfl, hcore⟩ := exists_core_of_loads h
  have hread := hcore.reads core.length le_rfl [] fun _ hc => absurd hc (Option.some_ne_none _).symm
  obtain ⟨inner, hinner⟩ := exists_inner_of_value hread hbrackets
  rw [List.append_nil] at hinner
  subst hinner
  exact ⟨before, inner, behind, hbefore, hbehind, rfl, hcore⟩

/-! ### Stripped texts -/

theorem isSpace_of_isBlank {c : Char} (h : isBlank c = true) : Text.isSpace c = true := by
  simp only [isBlank, Bool.or_eq_true, beq_iff_eq] at h
  obtain ((rfl | rfl) | rfl) | rfl := h <;> decide

theorem isNumberChar_of_isSpace {c : Char} (h : Text.isSpace c = true) :
    isNumberChar c = false := by
  by_contra hnumber
  have hrange : 43 ≤ c.toNat ∧ c.toNat ≤ 101 := by
    simp only [isNumberChar, isDigit, Bool.not_eq_false, Bool.or_eq_true, Bool.and_eq_true,
      decide_eq_true_eq, List.contains_iff_mem] at hnumber
    obtain ⟨hlow, hhigh⟩ | hmem := hnumber
    · have hlow' : 48 ≤ c.toNat := hlow
      have hhigh' : c.toNat ≤ 57 := hhigh
      omega
    · simp only [String.reduceToList, List.mem_cons, List.not_mem_nil, or_false] at hmem
      obtain rfl | rfl | rfl | rfl | rfl := hmem <;> decide
  simp only [Text.isSpace, Bool.or_eq_true, Bool.and_eq_true, decide_eq_true_eq,
    List.contains_iff_mem, List.mem_cons, List.not_mem_nil, or_false] at h
  omega

/-- An object without the space around it. -/
theorem loads_strip {text : Text} {fields : List (Text × Json)}
    (h : loads shown text = some (.object fields)) :
    loads shown (text.dropWhile Text.isSpace) = some (.object fields) ∧
      loads shown (text.rdropWhile Text.isSpace) = some (.object fields) ∧
      loads shown (Text.strip text) = some (.object fields) := by
  obtain ⟨before, inner, behind, hbefore, hbehind, rfl, hcore⟩ := exists_inner_of_loads h rfl
  have hnil : Blank [] := fun _ hc => absurd hc List.not_mem_nil
  have hfront : ∀ rest, List.dropWhile Text.isSpace (before ++ ('{' :: (inner ++ ['}']) ++ rest)) =
      [] ++ ('{' :: (inner ++ ['}']) ++ rest) := by
    intro rest
    rw [List.dropWhile_append_of_pos fun c hc => isSpace_of_isBlank (hbefore c hc)]
    exact List.dropWhile_cons_of_neg (by decide)
  have hback : ∀ front : Text,
      List.rdropWhile Text.isSpace (front ++ ('{' :: (inner ++ ['}']) ++ behind)) =
        front ++ ('{' :: (inner ++ ['}']) ++ []) := by
    intro front
    rw [List.rdropWhile, List.append_nil, ← List.append_assoc, List.reverse_append,
      List.dropWhile_append_of_pos fun c hc =>
        isSpace_of_isBlank (hbehind c (List.mem_reverse.mp hc)),
      ← List.cons_append, ← List.append_assoc, List.reverse_append]
    exact congrArg List.reverse (List.dropWhile_cons_of_neg (by decide)) |>.trans (by simp)
  refine ⟨?_, ?_, ?_⟩
  · rw [hfront]
    exact loads_core hcore hnil hbehind
  · rw [hback]
    exact loads_core hcore hbefore hnil
  · rw [Text.strip, hfront, hback]
    exact loads_core hcore hnil hnil

/-- **A text that is cut** at a space that is no blank of JSON has no document before the cut. -/
theorem loads_cut {text trail more : Text} {c : Char} {d : Json}
    (h : loads shown text = some d) (htrail : ∀ e ∈ trail, Text.isSpace e = true)
    (hspace : Text.isSpace c = true) (hblank : isBlank c = false) :
    loads shown (text ++ (trail ++ c :: more)) = none := by
  -- the first character that is no blank
  obtain ⟨blanks, e, rest, hblanks, he, hisBlank, hisSpace⟩ : ∃ blanks e rest, Blank blanks ∧
      trail ++ c :: more = blanks ++ e :: rest ∧ isBlank e = false ∧ Text.isSpace e = true := by
    induction trail with
    | nil => exact ⟨[], c, more, fun _ hc => absurd hc List.not_mem_nil, rfl, hblank, hspace⟩
    | cons e trail ih =>
      obtain ⟨he, htrail⟩ := List.forall_mem_cons.mp htrail
      by_cases hisBlank : isBlank e = true
      · obtain ⟨blanks, e', rest, hblanks, hsplit, h'⟩ := ih htrail
        exact ⟨e :: blanks, e', rest, List.forall_mem_cons.mpr ⟨hisBlank, hblanks⟩,
          by rw [List.cons_append, hsplit]; rfl, h'⟩
      · exact ⟨[], e, trail ++ c :: more, fun _ hc => absurd hc List.not_mem_nil, rfl,
          Bool.not_eq_true _ ▸ hisBlank, he⟩
  obtain ⟨before, core, behind, hbefore, hbehind, rfl, hcore⟩ := exists_core_of_loads h
  have hlonger : loads shown (before ++ (core ++ (behind ++ blanks))) = some d :=
    loads_core hcore hbefore fun c hc =>
      (List.mem_append.mp hc).elim (hbehind c) (hblanks c)
  have hnone := loads_append_eq_none hlonger hisBlank (isNumberChar_of_isSpace hisSpace) rest
  rw [he]
  simpa only [List.append_assoc] using hnone

end AnonReq.Json
