import AnonReq.Audit.Timestamp
import AnonReq.Policy.Gates
import Mathlib.Data.List.Induction

/-!
# Recorded spend

`_daily_ttl`, `_monthly_ttl` and `record_spend` of `policy/spend_controller.py`: the cost of a
request is added to a counter of the day and one of the month, which expire when the period ends.
Whatever raises on the way is dropped together with the cost.

* `dailyTtl_eq`, `monthlyTtl_eq`: what the replacement of the fields of a date comes to.
* `clockRight_iff`: at which instants both times to live are right.
* `live_recordAll`: in a run whose steps are at such instants, the counter of a day holds what
  has been recorded on that day.
* `spend_settled`: both, and what `check_spend` makes of the counter.
-/

namespace AnonReq.Policy

open Audit PolicyAction

/-! ### Times to live -/

/-- `int(delta.total_seconds())`. -/
def wholeSeconds (delta : ℤ) : ℤ := delta.tdiv 1000000

/-- The fields of a datetime with the time of the day replaced by midnight. -/
def atMidnight (c : Components) : Components :=
  { c with hour := 0, minute := 0, second := 0, microsecond := 0 }

/-- `_daily_ttl`: `none` is the `ValueError` of `replace`. -/
def dailyTtl (now : UtcTime) : Option ℤ :=
  (DateTime.make (atMidnight now.val.toComponents)).bind fun today =>
    (DateTime.make { today.toComponents with day := today.day + 1 }).map fun tomorrow =>
      wholeSeconds (tomorrow.instant - now.val.instant)

/-- `_monthly_ttl`: `none` is the `ValueError` of `replace`. -/
def monthlyTtl (now : UtcTime) : Option ℤ :=
  (if now.val.month = 12 then
    DateTime.make { now.val.toComponents with year := now.val.year + 1, month := 1, day := 1 }
  else
    DateTime.make { now.val.toComponents with month := now.val.month + 1, day := 1 }).bind
    fun nextMonth =>
      (DateTime.make (atMidnight nextMonth.toComponents)).map fun nextMonth =>
        wholeSeconds (nextMonth.instant - now.val.instant)

/-- The next midnight. -/
def nextMidnight (now : UtcTime) : ℤ := (utcDay now.val + 1) * 86400000000

/-- The midnight after the last day of the month. -/
def nextMonthStart (now : UtcTime) : ℤ :=
  (daysBefore now.val.year now.val.month + daysInMonth now.val.year now.val.month + 1 : ℕ) *
    86400000000

/-- A date at midnight. -/
theorem instant_of_midnight {d : DateTime} (hutc : d.IsUtc) (hhour : d.hour = 0)
    (hminute : d.minute = 0) (hsecond : d.second = 0) (hmicrosecond : d.microsecond = 0) :
    d.instant = (daysBefore d.year d.month + d.day : ℕ) * 86400000000 := by
  have htime : d.timeOfDay = 0 := by
    rw [DateTime.timeOfDay, hhour, hminute, hsecond, hmicrosecond]
  rw [DateTime.instant_eq hutc, htime, Nat.cast_zero, add_zero]

theorem wholeSeconds_sub {d : DateTime} {next now : ℤ} (hnext : d.instant = next)
    (hlt : now < next) : wholeSeconds (d.instant - now) = (next - now) / 1000000 := by
  rw [hnext, wholeSeconds, Int.tdiv_eq_ediv_of_nonneg (by omega)]

theorem instant_lt_nextMidnight (now : UtcTime) : now.val.instant < nextMidnight now := by
  have hlt := now.val.timeOfDay_lt
  rw [nextMidnight, utcDay_eq now.2, DateTime.instant_eq now.2]
  omega

theorem nextMidnight_le_nextMonthStart (now : UtcTime) :
    nextMidnight now ≤ nextMonthStart now := by
  obtain ⟨-, -, ⟨-, hday⟩, -⟩ := now.val.valid
  rw [nextMidnight, nextMonthStart, utcDay_eq now.2]
  omega

theorem make_of_valid {c : Components} (h : c.Valid) : DateTime.make c = some ⟨c, h⟩ := dif_pos h

/-- **Tomorrow** is a date of this month, except on its last day. -/
theorem dailyTtl_eq (now : UtcTime) :
    dailyTtl now = if now.val.day = daysInMonth now.val.year now.val.month then none
      else some ((nextMidnight now - now.val.instant) / 1000000) := by
  obtain ⟨hyear, hmonth, ⟨hfirst, hlast⟩, -, hoffset⟩ := now.val.valid
  have hvalid : (atMidnight now.val.toComponents).Valid :=
    ⟨hyear, hmonth, ⟨hfirst, hlast⟩, by simp [atMidnight], hoffset⟩
  rw [dailyTtl, make_of_valid hvalid, Option.bind_some]
  split_ifs with hend
  · -- there is no such day in the month
    have hinvalid : ¬ Components.Valid
        { atMidnight now.val.toComponents with day := now.val.day + 1 } := fun h => by
      have hday : now.val.day + 1 ≤ daysInMonth now.val.year now.val.month := h.2.2.1.2
      omega
    exact congrArg _ (dif_neg hinvalid)
  · have htomorrow : Components.Valid
        { atMidnight now.val.toComponents with day := now.val.day + 1 } :=
      ⟨hyear, hmonth, ⟨Nat.le_add_left 1 _, Nat.lt_of_le_of_ne hlast hend⟩,
        by simp [atMidnight], hoffset⟩
    have hinstant := instant_of_midnight (d := ⟨_, htomorrow⟩) now.2 rfl rfl rfl rfl
    have hnext : (⟨_, htomorrow⟩ : DateTime).instant = nextMidnight now := by
      rw [hinstant, nextMidnight, utcDay_eq now.2]
      rfl
    exact (congrArg _ (make_of_valid htomorrow)).trans
      (congrArg some (wholeSeconds_sub hnext (instant_lt_nextMidnight now)))

/-- **The next month** is there, except after the last month of all. -/
theorem monthlyTtl_eq (now : UtcTime) :
    monthlyTtl now = if now.val.year = 9999 ∧ now.val.month = 12 then none
      else some ((nextMonthStart now - now.val.instant) / 1000000) := by
  obtain ⟨⟨hyear, hlastYear⟩, ⟨hmonth, hlastMonth⟩, -, htime, hoffset⟩ := now.val.valid
  have hlt := (instant_lt_nextMidnight now).trans_le (nextMidnight_le_nextMonthStart now)
  -- the first day of a month at midnight, and what is computed from it
  have hseconds : ∀ {c : Components} (hc : c.Valid), c.utcoffset = some 0 → c.day = 1 →
      ((daysBefore c.year c.month + 1 : ℕ) : ℤ) * 86400000000 = nextMonthStart now →
      ((DateTime.make c).bind fun nextMonth =>
        (DateTime.make (atMidnight nextMonth.toComponents)).map fun nextMonth =>
          wholeSeconds (nextMonth.instant - now.val.instant)) =
        some ((nextMonthStart now - now.val.instant) / 1000000) := by
    intro c hc hutc hday hstart
    have hvalid : (atMidnight c).Valid := ⟨hc.1, hc.2.1, hc.2.2.1, by simp [atMidnight], hc.2.2.2.2⟩
    have hinstant := instant_of_midnight (d := ⟨_, hvalid⟩) hutc rfl rfl rfl rfl
    have hnext : (⟨_, hvalid⟩ : DateTime).instant = nextMonthStart now := by
      rw [hinstant, ← hstart, ← hday]
      rfl
    rw [make_of_valid hc, Option.bind_some]
    exact (congrArg _ (make_of_valid hvalid)).trans (congrArg some (wholeSeconds_sub hnext hlt))
  by_cases hdecember : now.val.month = 12
  · rw [monthlyTtl, if_pos hdecember]
    by_cases hend : now.val.year = 9999
    · -- there is no year 10000
      have hinvalid : ¬ Components.Valid
          { now.val.toComponents with year := now.val.year + 1, month := 1, day := 1 } := by
        intro h
        have hnext : now.val.year + 1 ≤ 9999 := h.1.2
        omega
      rw [if_pos ⟨hend, hdecember⟩]
      exact congrArg (Option.bind · _) (dif_neg hinvalid)
    · rw [if_neg fun h => hend h.1]
      have hnext : 1 ≤ now.val.year + 1 ∧ now.val.year + 1 ≤ 9999 := by omega
      have hyears : 1 ≤ 12 := by decide
      have hjanuary : 1 ≤ daysInMonth (now.val.year + 1) 1 := by simp [daysInMonth]
      refine hseconds ⟨hnext, ⟨le_rfl, hyears⟩, ⟨le_rfl, hjanuary⟩, htime, hoffset⟩ now.2 rfl ?_
      rw [nextMonthStart, hdecember, ← daysBefore_succ_year hyear]
  · rw [monthlyTtl, if_neg hdecember, if_neg fun h => hdecember h.2]
    have hfirst : 1 ≤ daysInMonth now.val.year (now.val.month + 1) := by
      unfold daysInMonth
      split_ifs <;> omega
    have hnext : 1 ≤ now.val.month + 1 ∧ now.val.month + 1 ≤ 12 := by omega
    refine hseconds ⟨⟨hyear, hlastYear⟩, hnext, ⟨le_rfl, hfirst⟩, htime, hoffset⟩ now.2 rfl ?_
    rw [nextMonthStart, ← daysBefore_succ now.val.year hmonth]

/-! ### When the times to live are right -/

/-- A time to live is right: it is there, within its bounds, and the time to the end of the period
in whole seconds, rounded up or down but not to zero. -/
def TtlRight (bound : ℤ) (ttl : Option ℤ) (remaining : ℤ) : Prop :=
  ∃ seconds, ttl = some seconds ∧ 1 ≤ seconds ∧ seconds ≤ bound ∧
    |seconds * 1000000 - remaining| < 1000000

/-- Both times to live are right. -/
def ClockRight (now : UtcTime) : Prop :=
  TtlRight 86400 (dailyTtl now) (nextMidnight now - now.val.instant) ∧
    TtlRight 2678400 (monthlyTtl now) (nextMonthStart now - now.val.instant)

/-- An instant that is not on the last day of a month, not in the last month of all, and a second
or more before midnight. -/
def Settled (now : UtcTime) : Prop :=
  now.val.day ≠ daysInMonth now.val.year now.val.month ∧
    ¬ (now.val.year = 9999 ∧ now.val.month = 12) ∧ now.val.timeOfDay ≤ 86399000000

instance (now : UtcTime) : Decidable (Settled now) := inferInstanceAs (Decidable (_ ∧ _))

/-- A time to live rounded down is right if it is a second or more. -/
theorem ttlRight_iff {bound remaining : ℤ} (hbound : remaining ≤ bound * 1000000) :
    TtlRight bound (some (remaining / 1000000)) remaining ↔ 1000000 ≤ remaining := by
  constructor
  · rintro ⟨seconds, hseconds, hone, -⟩
    obtain rfl := Option.some_injective _ hseconds
    omega
  · intro h
    refine ⟨_, rfl, by omega, by omega, ?_⟩
    rw [abs_lt]
    omega

theorem not_ttlRight_none {bound remaining : ℤ} : ¬ TtlRight bound none remaining :=
  fun ⟨_, hseconds, _⟩ => Option.some_ne_none _ hseconds.symm

theorem remaining_day (now : UtcTime) :
    nextMidnight now - now.val.instant = 86400000000 - now.val.timeOfDay := by
  rw [nextMidnight, utcDay_eq now.2, DateTime.instant_eq now.2]
  omega

theorem remaining_month_le (now : UtcTime) :
    nextMonthStart now - now.val.instant ≤ 2678400 * 1000000 := by
  obtain ⟨-, -, ⟨hday, -⟩, -⟩ := now.val.valid
  have hlong : daysInMonth now.val.year now.val.month ≤ 31 := by
    unfold daysInMonth
    split_ifs <;> omega
  rw [nextMonthStart, DateTime.instant_eq now.2]
  omega

/-- **The clock.** The times to live are right at the settled instants, and at no others. -/
theorem clockRight_iff (now : UtcTime) : ClockRight now ↔ Settled now := by
  have hday := remaining_day now
  have hmonth := remaining_month_le now
  have hle := nextMidnight_le_nextMonthStart now
  rw [ClockRight, Settled, dailyTtl_eq, monthlyTtl_eq]
  by_cases hend : now.val.day = daysInMonth now.val.year now.val.month
  · rw [if_pos hend]
    exact iff_of_false (fun h => not_ttlRight_none h.1) fun h => h.1 hend
  by_cases hlast : now.val.year = 9999 ∧ now.val.month = 12
  · rw [if_pos hlast]
    exact iff_of_false (fun h => not_ttlRight_none h.2) fun h => h.2.1 hlast
  rw [if_neg hend, if_neg hlast, ttlRight_iff (by omega), ttlRight_iff hmonth]
  refine ⟨fun h => ⟨hend, hlast, by omega⟩, fun h => ⟨by omega, by omega⟩⟩

/-! ### The counters of spend -/

/-- A counter of spend, and the instant at which it expires. -/
structure Amount where
  value : ℚ
  expiresAt : Option ℤ := none

/-- The counters of spend by key. -/
abbrev Amounts := String → Option Amount

/-- `_daily_key`. -/
def dailyKey (tenantId : String) : String := "anonreq:spend:" ++ tenantId ++ ":daily"

/-- `_monthly_key`. -/
def monthlyKey (tenantId : String) : String := "anonreq:spend:" ++ tenantId ++ ":monthly"

namespace Amounts

/-- `GET`: the counter of a key, if there is one and it has not expired. -/
def live (s : Amounts) (now : ℤ) (key : String) : Option Amount :=
  (s key).filter fun c => c.expiresAt.all fun t => decide (now < t)

/-- `INCRBYFLOAT`: a missing counter counts as `0`; the time to live is kept. -/
def incrByFloat (add : ℚ → ℚ → ℚ) (s : Amounts) (now : ℤ) (key : String) (cost : ℚ) : Amounts :=
  Function.update s key (some ((s.live now key).elim { value := add 0 cost } fun c =>
    { c with value := add c.value cost }))

/-- `EXPIRE`: without a positive time to live the key is deleted. -/
def expire (s : Amounts) (now : ℤ) (key : String) (seconds : ℤ) : Amounts :=
  Function.update s key
    (if seconds ≤ 0 then none
    else (s.live now key).map fun c => { c with expiresAt := some (now + seconds * 1000000) })

end Amounts

/-- A call of `record_spend`: the clock it reads, and whether the cache can be reached. -/
structure Recording where
  tenantId : String
  cost : ℚ
  time : UtcTime
  reachable : Bool := true

section

-- a stored amount after `INCRBYFLOAT` of a cost that is converted to a float
variable (add : ℚ → ℚ → ℚ)

/-- `record_spend`. Whatever raises leaves the counters as they are. -/
def recordSpend (s : Amounts) (r : Recording) : Amounts :=
  match dailyTtl r.time, monthlyTtl r.time with
  | some dailySeconds, some monthlySeconds =>
    let now := r.time.val.instant
    if r.reachable then
      (((s.incrByFloat add now (dailyKey r.tenantId) r.cost).expire now (dailyKey r.tenantId)
        dailySeconds).incrByFloat add now (monthlyKey r.tenantId) r.cost).expire now
          (monthlyKey r.tenantId) monthlySeconds
    else s
  | none, _ | some _, none => s

/-- What `check_spend` reads for a tenant. -/
def readAmounts (s : Amounts) (now : UtcTime) (tenantId : String) : StoredAmount × StoredAmount :=
  let read (key : String) : StoredAmount :=
    (s.live now.val.instant key).elim .missing fun c => .amount c.value
  (read (dailyKey tenantId), read (monthlyKey tenantId))

/-- `check_spend` with a cache that can be reached. -/
def checkSpendAt (s : Amounts) (budget : Option SpendBudget) (now : UtcTime) (tenantId : String) :
    PolicyDecision :=
  checkSpend budget (some (readAmounts s now tenantId)) (now.val.instant / 1000000)

/-- The counters after some calls of `record_spend`. -/
def recordAll (s : Amounts) (rs : List Recording) : Amounts := rs.foldl (recordSpend add) s

/-- The costs that a tenant has recorded on a day. -/
def dayCosts (rs : List Recording) (tenantId : String) (day : ℤ) : List ℚ :=
  (rs.filter fun r => decide (r.tenantId = tenantId ∧ utcDay r.time.val = day)).map (·.cost)

/-- The sum of some costs, as the counter adds them up. -/
def total (costs : List ℚ) : ℚ := costs.foldl add 0

/-! ### What one call does -/

theorem toList_dailyKey (tenantId : String) : (dailyKey tenantId).toList =
    "anonreq:spend:".toList ++ (tenantId.toList ++ ":daily".toList) := by
  unfold dailyKey
  rw [String.toList_append, String.toList_append, List.append_assoc]

theorem toList_monthlyKey (tenantId : String) : (monthlyKey tenantId).toList =
    "anonreq:spend:".toList ++ (tenantId.toList ++ ":monthly".toList) := by
  unfold monthlyKey
  rw [String.toList_append, String.toList_append, List.append_assoc]

theorem dailyKey_injective : Function.Injective dailyKey := by
  intro a b h
  have hchars := congrArg String.toList h
  rw [toList_dailyKey, toList_dailyKey] at hchars
  exact String.toList_inj.mp (List.append_cancel_right (List.append_cancel_left hchars))

/-- The third last characters of the keys differ. -/
theorem dailyKey_ne_monthlyKey (a b : String) : dailyKey a ≠ monthlyKey b := by
  intro h
  have hchars := congrArg String.toList h
  rw [toList_dailyKey, toList_monthlyKey] at hchars
  have hends := List.append_cancel_left hchars
  have hlast := congrArg (fun chars => (chars.reverse.drop 2).head?) hends
  simp at hlast

theorem Amounts.live_of_eq {s : Amounts} {now : ℤ} {key : String} {value : ℚ} {expiry : ℤ}
    (h : s key = some ⟨value, some expiry⟩) :
    s.live now key = if now < expiry then some ⟨value, some expiry⟩ else none := by
  rw [Amounts.live, h, Option.filter_some]
  simp

/-- What `INCRBYFLOAT` and then `EXPIRE` with a positive time to live leave. -/
theorem Amounts.expire_incrByFloat {s : Amounts} {now : ℤ} {key : String} {cost : ℚ}
    {seconds : ℤ} (h : 0 < seconds) :
    (s.incrByFloat add now key cost).expire now key seconds = Function.update s key
      (some ⟨add (((s.live now key).map Amount.value).getD 0) cost,
        some (now + seconds * 1000000)⟩) := by
  have hlive : ∃ expiresAt, (s.incrByFloat add now key cost).live now key =
      some ⟨add (((s.live now key).map Amount.value).getD 0) cost, expiresAt⟩ := by
    rcases hold : s.live now key with _ | c
    · have hnew : s.incrByFloat add now key cost key = some { value := add 0 cost } := by
        simp [Amounts.incrByFloat, hold]
      exact ⟨none, by rw [Amounts.live, hnew]; rfl⟩
    · have halive := (Option.filter_eq_some_iff.mp hold).2
      refine ⟨c.expiresAt, ?_⟩
      have hnew : s.incrByFloat add now key cost key =
          some { c with value := add c.value cost } := by
        simp [Amounts.incrByFloat, hold]
      rw [Amounts.live, hnew, Option.filter_some, if_pos halive]
      rfl
  obtain ⟨expiresAt, hlive⟩ := hlive
  rw [Amounts.expire, if_neg (by omega), hlive, Amounts.incrByFloat, Function.update_idem]
  rfl

/-- A call leaves the counters of other tenants as they are. -/
theorem recordSpend_of_ne (s : Amounts) (r : Recording) {key : String}
    (hdaily : key ≠ dailyKey r.tenantId) (hmonthly : key ≠ monthlyKey r.tenantId) :
    recordSpend add s r key = s key := by
  unfold recordSpend
  rcases dailyTtl r.time with _ | dailySeconds
  · rfl
  rcases monthlyTtl r.time with _ | monthlySeconds
  · rfl
  · dsimp only
    split_ifs
    · simp [Amounts.expire, Amounts.incrByFloat, Function.update_of_ne hdaily,
        Function.update_of_ne hmonthly]
    · rfl

/-- **One call.** At a settled instant the cost is added to the counter of the day, which expires
within the last second of the day. -/
theorem recordSpend_dailyKey {s : Amounts} {r : Recording} (hsettled : Settled r.time)
    (hreachable : r.reachable = true) :
    ∃ expiry, nextMidnight r.time - 1000000 < expiry ∧ expiry ≤ nextMidnight r.time ∧
      recordSpend add s r (dailyKey r.tenantId) =
        some ⟨add (((s.live r.time.val.instant (dailyKey r.tenantId)).map Amount.value).getD 0)
          r.cost, some expiry⟩ := by
  obtain ⟨hday, hmonth, hsecond⟩ := hsettled
  have hremaining := remaining_day r.time
  have hdaily := dailyTtl_eq r.time
  have hmonthly := monthlyTtl_eq r.time
  rw [if_neg hday] at hdaily
  rw [if_neg hmonth] at hmonthly
  have hpos : 0 < (nextMidnight r.time - r.time.val.instant) / 1000000 := by omega
  refine ⟨r.time.val.instant + (nextMidnight r.time - r.time.val.instant) / 1000000 * 1000000,
    by omega, by omega, ?_⟩
  unfold recordSpend
  rw [hdaily, hmonthly]
  dsimp only
  rw [if_pos hreachable, Amounts.expire_incrByFloat add hpos]
  have hne := dailyKey_ne_monthlyKey r.tenantId r.tenantId
  rw [Amounts.expire, Function.update_of_ne hne, Amounts.incrByFloat, Function.update_of_ne hne,
    Function.update_self]

/-! ### Runs -/

theorem instant_lt_iff_utcDay {now : UtcTime} {day : ℤ} :
    utcDay now.val < day ↔ now.val.instant < day * 86400000000 := by
  rw [utcDay]
  omega

theorem dayCosts_append (rs : List Recording) (r : Recording) (tenantId : String) (day : ℤ) :
    dayCosts (rs ++ [r]) tenantId day =
      dayCosts rs tenantId day ++
        if r.tenantId = tenantId ∧ utcDay r.time.val = day then [r.cost] else [] := by
  rw [dayCosts, dayCosts, List.filter_append, List.map_append]
  congr 1
  split_ifs with h
  · simp [h]
  · simp [h]

/-- Nothing has been recorded on a later day. -/
theorem dayCosts_eq_nil {rs : List Recording} {tenantId : String} {day : ℤ}
    (h : ∀ r ∈ rs, utcDay r.time.val < day) : dayCosts rs tenantId day = [] := by
  rw [dayCosts, List.map_eq_nil_iff, List.filter_eq_nil_iff]
  intro r hr hday
  obtain ⟨-, hday⟩ := of_decide_eq_true hday
  exact absurd (h r hr) (by omega)

/-- What the counter of the day holds when some costs have been recorded. -/
def held (costs : List ℚ) : Option ℚ := if costs = [] then none else some (total add costs)

theorem held_append (costs : List ℚ) (cost : ℚ) :
    held add (costs ++ [cost]) = some (add ((held add costs).getD 0) cost) := by
  rw [held, if_neg (by simp), held, total, List.foldl_append]
  split_ifs with h
  · rw [h]
    rfl
  · rfl

/-- **A run.** If every call is settled and reaches the cache, the counter of the day holds at every
settled instant what the tenant has recorded on that day. -/
theorem live_recordAll {rs : List Recording}
    (hsettled : ∀ r ∈ rs, Settled r.time ∧ r.reachable = true)
    (hsorted : rs.Pairwise fun r r' => r.time.val.instant ≤ r'.time.val.instant)
    {now : UtcTime} (hnow : Settled now) (hlater : ∀ r ∈ rs, r.time.val.instant ≤ now.val.instant)
    (tenantId : String) :
    ((recordAll add (fun _ => none) rs).live now.val.instant (dailyKey tenantId)).map
        Amount.value =
      held add (dayCosts rs tenantId (utcDay now.val)) := by
  -- The induction takes the last call away: the counter it reads is the one the calls before left.
  induction rs using List.reverseRecOn generalizing now tenantId with
  | nil => rfl
  | append_singleton rs r ih =>
    obtain ⟨hbefore, -, hlast⟩ := List.pairwise_append.mp hsorted
    obtain ⟨hr, hreachable⟩ := hsettled r (by simp)
    have hlast : ∀ r' ∈ rs, r'.time.val.instant ≤ r.time.val.instant := fun r' hr' =>
      hlast r' hr' r (List.mem_singleton_self r)
    have hle : r.time.val.instant ≤ now.val.instant := hlater r (by simp)
    have hsettled : ∀ r' ∈ rs, Settled r'.time ∧ r'.reachable = true := fun r' hr' =>
      hsettled r' (List.mem_append_left _ hr')
    have hlater : ∀ r' ∈ rs, r'.time.val.instant ≤ now.val.instant := fun r' hr' =>
      hlater r' (List.mem_append_left _ hr')
    have hrun : recordAll add (fun _ => none) (rs ++ [r]) =
        recordSpend add (recordAll add (fun _ => none) rs) r := by
      rw [recordAll, List.foldl_append]
      rfl
    rw [hrun, dayCosts_append]
    by_cases htenant : r.tenantId = tenantId
    · subst htenant
      obtain ⟨expiry, hlo, hhi, hnew⟩ :=
        recordSpend_dailyKey add (s := recordAll add (fun _ => none) rs) hr hreachable
      rw [ih hsettled hbefore hr hlast] at hnew
      rw [Amounts.live_of_eq hnew]
      by_cases hday : utcDay r.time.val = utcDay now.val
      · -- the counter outlives every settled instant of the day
        have halive : now.val.instant < expiry := by
          have hremaining := remaining_day now
          have hmidnight : nextMidnight now = nextMidnight r.time := by
            rw [nextMidnight, nextMidnight, hday]
          have hsecond := hnow.2.2
          omega
        rw [if_pos halive, if_pos ⟨rfl, hday⟩, held_append, hday]
        rfl
      · -- on a later day it has expired, and nothing has been recorded yet
        have hless : utcDay r.time.val < utcDay now.val := by
          rw [utcDay, utcDay] at hday ⊢
          omega
        have hdead : ¬ now.val.instant < expiry := by
          have hstart : ¬ now.val.instant < (utcDay r.time.val + 1) * 86400000000 := by
            rw [← instant_lt_iff_utcDay]
            omega
          rw [nextMidnight] at hhi
          omega
        have hnone : dayCosts rs r.tenantId (utcDay now.val) = [] := by
          refine dayCosts_eq_nil fun r' hr' => ?_
          have hle' := hlast r' hr'
          rw [utcDay, utcDay] at hless
          rw [utcDay, utcDay]
          omega
        rw [if_neg hdead, if_neg fun h => hday h.2, hnone]
        rfl
    · have hdaily : dailyKey tenantId ≠ dailyKey r.tenantId := fun h =>
        htenant (dailyKey_injective h).symm
      have hframe := recordSpend_of_ne add (recordAll add (fun _ => none) rs) r hdaily
        (dailyKey_ne_monthlyKey tenantId r.tenantId)
      rw [Amounts.live, hframe, ← Amounts.live, ih hsettled hbefore hnow hlater,
        if_neg fun h => htenant h.1, List.append_nil]

theorem fst_readAmounts (s : Amounts) (now : UtcTime) (tenantId : String) :
    (readAmounts s now tenantId).1 =
      ((s.live now.val.instant (dailyKey tenantId)).map Amount.value).elim .missing .amount := by
  rw [Option.elim_map]
  rfl

/-- `check_spend` blocks when the counter of the day has reached its limit. -/
theorem checkSpendAt_eq_block {s : Amounts} {now : UtcTime} {tenantId : String} {costs : List ℚ}
    (hlive : (s.live now.val.instant (dailyKey tenantId)).map Amount.value = held add costs)
    {budget : SpendBudget} (henabled : budget.enabled = true) {limit : ℚ}
    (hlimit : budget.dailyUsd = some limit) (hsome : costs ≠ [] ∨ 0 < limit)
    (hreached : limit ≤ total add costs) :
    (checkSpendAt s (some budget) now tenantId).action = block := by
  have hcosts : costs ≠ [] := by
    rintro rfl
    obtain h | h := hsome
    · exact h rfl
    · exact absurd (h.trans_le hreached) (lt_irrefl _)
  refine (checkSpend_action _ _ _).1.mpr ⟨budget, rfl, henabled, fun amounts hamounts => ?_⟩
  obtain rfl := Option.some_injective _ hamounts
  refine Or.inl ⟨limit, hlimit, Or.inr ⟨total add costs, ?_, hreached⟩⟩
  rw [fst_readAmounts, hlive, held, if_neg hcosts]
  rfl

/-- **Spend and the clock.** The times to live are right at the settled instants and at no others.
In every run of `record_spend` at such instants with a cache that can be reached, the counter of
the day holds the sum of what the tenant has recorded on that day, and `check_spend` blocks once it
reaches the budget. On the last day of a month every cost is dropped. -/
theorem spend_settled :
    (∀ now, ClockRight now ↔ Settled now) ∧
    (∀ rs : List Recording, (∀ r ∈ rs, Settled r.time ∧ r.reachable = true) →
      (rs.Pairwise fun r r' => r.time.val.instant ≤ r'.time.val.instant) →
      ∀ now, Settled now → (∀ r ∈ rs, r.time.val.instant ≤ now.val.instant) → ∀ tenantId,
        ((recordAll add (fun _ => none) rs).live now.val.instant (dailyKey tenantId)).map
            Amount.value = held add (dayCosts rs tenantId (utcDay now.val)) ∧
        ∀ budget : SpendBudget, budget.enabled = true → ∀ limit, budget.dailyUsd = some limit →
          dayCosts rs tenantId (utcDay now.val) ≠ [] ∨ 0 < limit →
          limit ≤ total add (dayCosts rs tenantId (utcDay now.val)) →
          (checkSpendAt (recordAll add (fun _ => none) rs) (some budget) now tenantId).action =
            block) ∧
    ∀ s r, r.time.val.day = daysInMonth r.time.val.year r.time.val.month →
      recordSpend add s r = s := by
  refine ⟨clockRight_iff, fun rs hsettled hsorted now hnow hlater tenantId => ?_,
    fun s r hend => ?_⟩
  · have hlive := live_recordAll add hsettled hsorted hnow hlater tenantId
    exact ⟨hlive, fun budget henabled limit hlimit hsome hreached =>
      checkSpendAt_eq_block add hlive henabled hlimit hsome hreached⟩
  · have hraises : dailyTtl r.time = none := (dailyTtl_eq r.time).trans (if_pos hend)
    rw [recordSpend, hraises]

end

/-! ### Instants -/

/-- Noon on the last day of a January. -/
def lastDayNoon : UtcTime :=
  ⟨⟨{ year := 2026, month := 1, day := 31, hour := 12, utcoffset := some 0 }, by decide⟩, rfl⟩

/-- Noon on the day before. -/
def dayBeforeNoon : UtcTime :=
  ⟨⟨{ year := 2026, month := 1, day := 30, hour := 12, utcoffset := some 0 }, by decide⟩, rfl⟩

/-- Half a second before the end of that day. -/
def lastHalfSecond : UtcTime :=
  ⟨⟨{ year := 2026, month := 1, day := 30, hour := 23, minute := 59, second := 59,
      microsecond := 500000, utcoffset := some 0 }, by decide⟩, rfl⟩

/-- Two costs at noon, and a budget that they reach. -/
theorem spend_settled_noon :
    ((recordAll (· + ·) (fun _ => none)
        [⟨"acme", 60, dayBeforeNoon, true⟩, ⟨"acme", 50, dayBeforeNoon, true⟩]).live
      dayBeforeNoon.val.instant (dailyKey "acme")).map Amount.value = some 110 ∧
    (checkSpendAt (recordAll (· + ·) (fun _ => none)
        [⟨"acme", 60, dayBeforeNoon, true⟩, ⟨"acme", 50, dayBeforeNoon, true⟩])
      (some { dailyUsd := some 100 }) dayBeforeNoon "acme").action = block := by
  have hcosts : dayCosts [⟨"acme", 60, dayBeforeNoon, true⟩, ⟨"acme", 50, dayBeforeNoon, true⟩]
      "acme" (utcDay dayBeforeNoon.val) = [60, 50] := by
    simp [dayCosts]
  obtain ⟨hlive, hblocks⟩ := (spend_settled (· + ·)).2.1
    [⟨"acme", 60, dayBeforeNoon, true⟩, ⟨"acme", 50, dayBeforeNoon, true⟩]
    (by simp; decide) (by simp) dayBeforeNoon (by decide) (by simp) "acme"
  rw [hcosts] at hlive hblocks
  refine ⟨hlive.trans ?_, hblocks _ rfl 100 rfl (Or.inl (List.cons_ne_nil _ _)) ?_⟩
  · simp [held, total]
    norm_num
  · simp [total]
    norm_num

/-- On the last day of a month the time to live raises, and the cost is lost; in the last second of
a day it is zero, and the counter of the day is deleted. -/
theorem not_clockRight :
    ¬ ClockRight lastDayNoon ∧ dailyTtl lastDayNoon = none ∧
    recordSpend (· + ·) (fun _ => none) ⟨"acme", 60, lastDayNoon, true⟩ (dailyKey "acme") = none ∧
    dailyTtl lastHalfSecond = some 0 ∧
    recordSpend (· + ·) (fun _ => some ⟨60, none⟩) ⟨"acme", 50, lastHalfSecond, true⟩
      (dailyKey "acme") = none := by
  have hraises : dailyTtl lastDayNoon = none := by decide
  refine ⟨fun h => ?_, hraises, by decide, by decide, by decide⟩
  obtain ⟨hday, -⟩ := h
  rw [hraises] at hday
  exact not_ttlRight_none hday

end AnonReq.Policy
