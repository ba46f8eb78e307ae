import AnonReq.Foundation.Decimal

/-!
# Timestamps and their text form

An audit event carries a `datetime`. It enters the hash as `isoformat()`, and on a database
without a timestamp type it is stored as the text `isoformat(" ")` and read back with
`fromisoformat`.

* `DateTime` holds only valid dates; the offset from UTC is kept in minutes, and is absent in a
  naive datetime.
* `fromisoformat` reads the extended format with the seconds written out, which is what
  `isoformat` writes, and the letter `Z` for UTC.
* `fromisoformat_isoformat` is the round trip, for every separator.
-/

namespace AnonReq.Audit

open Decimal

/-! ### Dates -/

/-- Gregorian leap years. -/
def isLeap (year : ℕ) : Bool :=
  year % 4 = 0 && (year % 100 ≠ 0 || year % 400 = 0)

/-- The number of days of a month. -/
def daysInMonth (year month : ℕ) : ℕ :=
  if month = 2 then (if isLeap year then 29 else 28)
  else if month ∈ [4, 6, 9, 11] then 30 else 31

/-- The components of a datetime. `utcoffset` is in minutes, and absent when naive. -/
structure Components where
  year : ℕ
  month : ℕ
  day : ℕ
  hour : ℕ := 0
  minute : ℕ := 0
  second : ℕ := 0
  microsecond : ℕ := 0
  utcoffset : Option ℤ := none
deriving DecidableEq, Repr

/-- The ranges the constructor of `datetime` checks. -/
abbrev Components.Valid (c : Components) : Prop :=
  (1 ≤ c.year ∧ c.year ≤ 9999) ∧ (1 ≤ c.month ∧ c.month ≤ 12) ∧
    (1 ≤ c.day ∧ c.day ≤ daysInMonth c.year c.month) ∧
    (c.hour < 24 ∧ c.minute < 60 ∧ c.second < 60 ∧ c.microsecond < 1000000) ∧
    ∀ o ∈ c.utcoffset, o.natAbs < 1440

/-- A datetime: components in range. -/
structure DateTime extends Components where
  valid : toComponents.Valid
deriving DecidableEq

namespace DateTime

/-- The constructor: `none` is the `ValueError`. -/
def make (c : Components) : Option DateTime :=
  if h : c.Valid then some ⟨c, h⟩ else none

/-- `ts.replace(tzinfo=UTC)`. -/
def replaceUtc (d : DateTime) : DateTime :=
  ⟨{ d.toComponents with utcoffset := some 0 }, by
    obtain ⟨hy, hm, hd, ht, -⟩ := d.valid
    exact ⟨hy, hm, hd, ht, by simp⟩⟩

/-- The datetime is aware and its offset is that of UTC. -/
def IsUtc (d : DateTime) : Prop := d.utcoffset = some 0

end DateTime

/-- A datetime in UTC, as `datetime.now(UTC)` returns it. -/
abbrev UtcTime := { d : DateTime // d.IsUtc }

/-- The days before a month of a year, and before the year. -/
def daysBefore (year month : ℕ) : ℕ :=
  (year - 1) * 365 + (year - 1) / 4 - (year - 1) / 100 + (year - 1) / 400 +
    ((List.range (month - 1)).map fun m => daysInMonth year (m + 1)).sum

/-- The instant of a datetime, in microseconds. -/
def DateTime.instant (d : DateTime) : ℤ :=
  ((((daysBefore d.year d.month + d.day : ℕ) * 24 + d.hour : ℤ) * 60 + d.minute -
    d.utcoffset.getD 0) * 60 + d.second) * 1000000 + d.microsecond

/-! ### Days -/

/-- The date of a datetime in UTC, as the number of the day. -/
def utcDay (d : DateTime) : ℤ := d.instant / 86400000000

/-- The microseconds since midnight. -/
def DateTime.timeOfDay (d : DateTime) : ℕ :=
  ((d.hour * 60 + d.minute) * 60 + d.second) * 1000000 + d.microsecond

theorem DateTime.timeOfDay_lt (d : DateTime) : d.timeOfDay < 86400000000 := by
  obtain ⟨-, -, -, ⟨hhour, hminute, hsecond, hmicro⟩, -⟩ := d.valid
  rw [timeOfDay]
  omega

/-- An instant in UTC is its day and the time of the day. -/
theorem DateTime.instant_eq {d : DateTime} (h : d.IsUtc) :
    d.instant = (daysBefore d.year d.month + d.day : ℕ) * 86400000000 + d.timeOfDay := by
  rw [DateTime.instant, h, timeOfDay, Option.getD_some]
  push_cast
  omega

theorem utcDay_eq {d : DateTime} (h : d.IsUtc) :
    utcDay d = (daysBefore d.year d.month + d.day : ℕ) := by
  have hlt := d.timeOfDay_lt
  rw [utcDay, DateTime.instant_eq h]
  omega

theorem daysBefore_succ (year : ℕ) {month : ℕ} (h : 1 ≤ month) :
    daysBefore year (month + 1) = daysBefore year month + daysInMonth year month := by
  obtain ⟨m, rfl⟩ := Nat.exists_eq_add_of_le' h
  rw [daysBefore, daysBefore, Nat.add_sub_cancel, Nat.add_sub_cancel, List.range_succ,
    List.map_append, List.sum_append, List.map_singleton, List.sum_singleton]
  omega

/-- The days before a year: 365 for each year, and the leap days. -/
theorem daysBefore_january (year : ℕ) :
    daysBefore year 1 = (year - 1) * 365 +
      ((year - 1) / 4 - (year - 1) / 100 + (year - 1) / 400) := by
  unfold daysBefore
  simp only [Nat.sub_self, List.range_zero, List.map_nil, List.sum_nil]
  omega

theorem daysBefore_december (year : ℕ) :
    daysBefore year 12 = daysBefore year 1 + (334 + if isLeap year then 1 else 0) := by
  have hsum : ((List.range 11).map fun m => daysInMonth year (m + 1)).sum =
      334 + if isLeap year then 1 else 0 := by
    cases hleap : isLeap year <;> simp [List.range_succ, daysInMonth, hleap]
  rw [daysBefore_january, ← hsum]
  unfold daysBefore
  simp only [Nat.reduceSub]
  omega

/-- The next year begins after the last day of December. -/
theorem daysBefore_succ_year {year : ℕ} (h : 1 ≤ year) :
    daysBefore (year + 1) 1 = daysBefore year 12 + daysInMonth year 12 := by
  obtain ⟨y, rfl⟩ := Nat.exists_eq_add_of_le' h
  have hdecember : daysInMonth (y + 1) 12 = 31 := rfl
  have hleap : isLeap (y + 1) = true ↔ 4 ∣ y + 1 ∧ (¬ 100 ∣ y + 1 ∨ 400 ∣ y + 1) := by
    simp [isLeap, Nat.dvd_iff_mod_eq_zero]
  have hcenturies : y / 100 ≤ y / 4 := Nat.div_le_div_left (by decide) (by decide)
  have hcentury : 100 ∣ y + 1 → 4 ∣ y + 1 := fun h => Nat.dvd_trans ⟨25, rfl⟩ h
  have hcycle : 400 ∣ y + 1 → 100 ∣ y + 1 := fun h => Nat.dvd_trans ⟨4, rfl⟩ h
  rw [daysBefore_december, daysBefore_january, daysBefore_january, hdecember]
  simp only [Nat.add_sub_cancel, Nat.succ_div, hleap]
  -- the counts of years with a leap day go up where the year has one
  by_cases h4 : 4 ∣ y + 1
  · by_cases h100 : 100 ∣ y + 1
    · by_cases h400 : 400 ∣ y + 1
      · simp only [h4, h100, h400, not_true_eq_false, or_true, and_self, if_true]
        omega
      · simp only [h4, h100, h400, not_true_eq_false, or_self, and_false, if_true, if_false]
        omega
    · have h400 : ¬ 400 ∣ y + 1 := fun h => h100 (hcycle h)
      simp only [h4, h100, h400, not_false_eq_true, true_or, and_self, if_true, if_false]
      omega
  · have h100 : ¬ 100 ∣ y + 1 := fun h => h4 (hcentury h)
    have h400 : ¬ 400 ∣ y + 1 := fun h => h100 (hcycle h)
    simp only [h4, h100, h400, false_and, if_false]
    omega

/-! ### `isoformat` -/

/-- The fraction of a second, written only when it is not zero. -/
def isoFraction (microsecond : ℕ) : List Char :=
  if microsecond = 0 then [] else '.' :: pad 6 microsecond

/-- The offset from UTC, absent in a naive datetime. -/
def isoOffset : Option ℤ → List Char
  | none => []
  | some o => (if o < 0 then '-' else '+') ::
      (pad 2 (o.natAbs / 60) ++ ':' :: pad 2 (o.natAbs % 60))

/-- `isoformat(sep)`. -/
def isoformat (sep : Char) (d : DateTime) : List Char :=
  pad 4 d.year ++ '-' :: (pad 2 d.month ++ '-' :: (pad 2 d.day ++ sep ::
    (pad 2 d.hour ++ ':' :: (pad 2 d.minute ++ ':' :: (pad 2 d.second ++
      (isoFraction d.microsecond ++ isoOffset d.utcoffset))))))

/-! ### `fromisoformat` -/

/-- Read one given character. -/
def expect (c : Char) : List Char → Option (List Char)
  | [] => none
  | d :: rest => if d = c then some rest else none

/-- Read a fraction of a second: its first six digits, in microseconds. -/
def readFraction : List Char → Option (ℕ × List Char)
  | '.' :: rest =>
    let digits := rest.takeWhile Char.isDigit
    if digits = [] then none
    else some (value ((digits ++ List.replicate 6 '0').take 6), rest.dropWhile Char.isDigit)
  | s => some (0, s)

/-- Read the offset at the end of the text. -/
def readOffset : List Char → Option (Option ℤ)
  | [] => some none
  | ['Z'] => some (some 0)
  | sign :: rest => do
    let (hours, rest) ← readDigits 2 rest
    let rest ← expect ':' rest
    let (minutes, rest) ← readDigits 2 rest
    if rest ≠ [] ∨ 60 ≤ minutes then none
    else if sign = '+' then some (some (60 * hours + minutes : ℕ))
    else if sign = '-' then some (some (-(60 * hours + minutes : ℕ)))
    else none

/-- `datetime.fromisoformat`: `none` is the `ValueError`. -/
def fromisoformat (s : List Char) : Option DateTime := do
  let (year, s) ← readDigits 4 s
  let s ← expect '-' s
  let (month, s) ← readDigits 2 s
  let s ← expect '-' s
  let (day, s) ← readDigits 2 s
  match s with
  | [] => DateTime.make ⟨year, month, day, 0, 0, 0, 0, none⟩
  | _ :: s =>
    let (hour, s) ← readDigits 2 s
    let s ← expect ':' s
    let (minute, s) ← readDigits 2 s
    let s ← expect ':' s
    let (second, s) ← readDigits 2 s
    let (microsecond, s) ← readFraction s
    let utcoffset ← readOffset s
    DateTime.make ⟨year, month, day, hour, minute, second, microsecond, utcoffset⟩

/-! ### The round trip -/

@[simp]
theorem expect_cons_self (c : Char) (rest : List Char) : expect c (c :: rest) = some rest := by
  simp [expect]

theorem DateTime.make_toComponents (d : DateTime) : DateTime.make d.toComponents = some d :=
  dif_pos d.valid

/-- An offset never starts like a digit or a fraction. -/
private theorem isoOffset_cases (o : Option ℤ) :
    isoOffset o = [] ∨ ∃ c rest, isoOffset o = c :: rest ∧ (c = '-' ∨ c = '+') := by
  cases o with
  | none => exact Or.inl rfl
  | some o =>
    refine Or.inr ⟨_, _, rfl, ?_⟩
    split_ifs <;> simp

theorem readOffset_isoOffset {o : Option ℤ} (h : ∀ x ∈ o, x.natAbs < 1440) :
    readOffset (isoOffset o) = some o := by
  cases o with
  | none => rfl
  | some o =>
    have hlt : o.natAbs < 1440 := h o rfl
    have hhours : o.natAbs / 60 < 10 ^ 2 := by omega
    have hminutes : o.natAbs % 60 < 10 ^ 2 := by omega
    have htail := readDigits_pad_append hminutes []
    rw [List.append_nil] at htail
    have hsum : 60 * (o.natAbs / 60) + o.natAbs % 60 = o.natAbs := by omega
    have hlow : ¬ 60 ≤ o.natAbs % 60 := by omega
    rw [isoOffset]
    by_cases hneg : o < 0
    · rw [if_pos hneg, readOffset]
      · simp only [readDigits_pad_append hhours, expect_cons_self, htail, Option.bind_eq_bind,
          Option.bind_some, ne_eq, not_true_eq_false, hlow, or_self, if_false, hsum]
        have hval : -((o.natAbs : ℕ) : ℤ) = o := by omega
        rw [hval, if_neg (by decide), if_pos trivial]
      · simp
    · rw [if_neg hneg, readOffset]
      · simp only [readDigits_pad_append hhours, expect_cons_self, htail, Option.bind_eq_bind,
          Option.bind_some, ne_eq, not_true_eq_false, hlow, or_self, if_false, hsum]
        have hval : ((o.natAbs : ℕ) : ℤ) = o := by omega
        simp [hval]
      · simp

/-- The digits of a numeral end where an offset starts. -/
private theorem takeWhile_pad_append {w n : ℕ} {s : List Char}
    (h : s = [] ∨ ∃ c rest, s = c :: rest ∧ (c = '-' ∨ c = '+')) :
    (pad w n ++ s).takeWhile Char.isDigit = pad w n ∧
      (pad w n ++ s).dropWhile Char.isDigit = s := by
  have hpad : ∀ c ∈ pad w n, c.isDigit = true := fun c hc => isDigit_of_mem_pad hc
  rw [List.takeWhile_append_of_pos hpad, List.dropWhile_append_of_pos hpad]
  rcases h with rfl | ⟨c, rest, rfl, rfl | rfl⟩
  all_goals simp

theorem readFraction_isoFraction_append {microsecond : ℕ} (h : microsecond < 1000000)
    (o : Option ℤ) :
    readFraction (isoFraction microsecond ++ isoOffset o) = some (microsecond, isoOffset o) := by
  by_cases hzero : microsecond = 0
  · subst hzero
    rw [isoFraction, if_pos rfl, List.nil_append]
    rcases isoOffset_cases o with heq | ⟨c, rest, heq, rfl | rfl⟩ <;> rw [heq, readFraction] <;>
      simp
  · obtain ⟨htake, hdrop⟩ := takeWhile_pad_append (w := 6) (n := microsecond) (isoOffset_cases o)
    have hne : pad 6 microsecond ≠ [] := List.ne_nil_of_length_pos (by simp)
    have hsix : (pad 6 microsecond ++ List.replicate 6 '0').take 6 = pad 6 microsecond := by
      rw [List.take_append_of_le_length (by simp), List.take_of_length_le (by simp)]
    have hmod : microsecond % 10 ^ 6 = microsecond := Nat.mod_eq_of_lt (by omega)
    rw [isoFraction, if_neg hzero, List.cons_append, readFraction]
    simp only [htake, hdrop, if_neg hne, hsix, value_pad]
    rw [hmod]

/-- **Round trip.** What `isoformat` writes, with any separator, `fromisoformat` reads back. -/
theorem fromisoformat_isoformat (sep : Char) (d : DateTime) :
    fromisoformat (isoformat sep d) = some d := by
  obtain ⟨⟨-, hy⟩, ⟨-, hm⟩, ⟨-, hd⟩, ⟨hh, hmin, hs, hus⟩, ho⟩ := d.valid
  have hdays : daysInMonth d.year d.month ≤ 31 := by
    rw [daysInMonth]
    split_ifs <;> omega
  have hyear : d.year < 10 ^ 4 := by omega
  have hmonth : d.month < 10 ^ 2 := by omega
  have hday : d.day < 10 ^ 2 := by omega
  have hhour : d.hour < 10 ^ 2 := by omega
  have hminute : d.minute < 10 ^ 2 := by omega
  have hsecond : d.second < 10 ^ 2 := by omega
  simp only [fromisoformat, isoformat, readDigits_pad_append hyear, readDigits_pad_append hmonth,
    readDigits_pad_append hday, readDigits_pad_append hhour, readDigits_pad_append hminute,
    readDigits_pad_append hsecond, expect_cons_self, readFraction_isoFraction_append hus,
    readOffset_isoOffset ho, Option.bind_eq_bind, Option.bind_some]
  exact d.make_toComponents

end AnonReq.Audit
