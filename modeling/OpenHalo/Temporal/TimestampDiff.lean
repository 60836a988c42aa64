import OpenHalo.Lib.Octets
import OpenHalo.Temporal.Calendar

namespace OpenHalo
open Octets

inductive DiffUnit
  | microsecond | second | minute | hour | day | week | month | quarter | year | other
deriving DecidableEq

inductive DiffError
  | infinite | unset | intervalOutOfRange | notSupported
deriving DecidableEq

instance (t : Int) : Decidable (validTimestamp t) := inferInstanceAs (Decidable (_ ∧ _))

def timestampNotFinite (t : Int) : Prop := t = -2 ^ 63 ∨ t = 2 ^ 63 - 1

instance (t : Int) : Decidable (timestampNotFinite t) := inferInstanceAs (Decidable (_ ∨ _))

/-- `month_diff` and `year_diff`. -/
def calendarDiff (tm1 tm2 : Tm) : Int × Int :=
  let month_diff := tm2.tm_mon - tm1.tm_mon
  let month_diff :=
    if tm2.tm_mday < tm1.tm_mday then month_diff - 1
    else if tm2.tm_mday = tm1.tm_mday ∧ tm2.time2t < tm1.time2t then month_diff - 1
    else month_diff
  let year_diff := tm2.tm_year - tm1.tm_year
  (year_diff * 12 + month_diff, if month_diff < 0 then year_diff - 1 else year_diff)

def intervalJustifyHours (time : Int) : Int × Int :=
  let wholeday := time.tdiv USECS_PER_DAY
  let time := time - wholeday * USECS_PER_DAY
  let day := toInt32 wholeday
  if 0 < day ∧ time < 0 then (day - 1, time + USECS_PER_DAY)
  else if day < 0 ∧ 0 < time then (day + 1, time - USECS_PER_DAY)
  else (day, time)

def interval2tm (day time : Int) : Except DiffError Tm :=
  let tfrac := time.tdiv 3600000000
  let time := time - tfrac * 3600000000
  let hour := toInt32 tfrac
  if (hour < 0) ≠ (tfrac < 0) then .error .intervalOutOfRange
  else
    let min := time.tdiv 60000000
    let time := time - min * 60000000
    let sec := time.tdiv 1000000
    .ok ⟨0, 0, day, hour, min, sec, time - sec * 1000000⟩

/-- What `switch (val)` computes; the products with `int` macros are `int`. -/
def intresult (unit : DiffUnit) (tm : Tm) (month_diff year_diff : Int) : Except DiffError Int :=
  match unit with
  | .microsecond => .ok (toInt64 (tm.tm_mday * USECS_PER_DAY + tm.time2t))
  | .second => .ok (toInt32 (tm.tm_mday * 86400) + ((tm.tm_hour * 60 + tm.tm_min) * 60 + tm.tm_sec))
  | .minute => .ok (toInt32 (toInt32 (tm.tm_mday * 24) * 60) + (tm.tm_hour * 60 + tm.tm_min))
  | .hour => .ok (toInt32 (tm.tm_mday * 24) + tm.tm_hour)
  | .day => .ok tm.tm_mday
  | .week => .ok (tm.tm_mday.tdiv 7)
  | .month => .ok month_diff
  | .quarter => .ok (month_diff.tdiv 3)
  | .year => .ok year_diff
  | .other => .error .notSupported

def orderedDiff (unit : DiffUnit) (ts1 ts2 : Int) : Except DiffError Int :=
  match timestamp2tm ts1, timestamp2tm ts2 with
  | some tm1, some tm2 => do
    let (month_diff, year_diff) := calendarDiff tm1 tm2
    let (day, time) := intervalJustifyHours (toInt64 (ts2 - ts1))
    let tm ← interval2tm day time
    intresult unit tm month_diff year_diff
  | _, _ => .error .unset

def timestampdiff (unit : DiffUnit) (ts1 ts2 : Int) : Except DiffError Int :=
  if timestampNotFinite ts1 ∨ timestampNotFinite ts2 then .error .infinite
  else if ts1 < ts2 then orderedDiff unit ts1 ts2
  else (orderedDiff unit ts2 ts1).map fun intresult => toInt64 (intresult * -1)

def DiffUnit.length : DiffUnit → Option Int
  | .microsecond => some 1
  | .second => some 1000000
  | .minute => some 60000000
  | .hour => some 3600000000
  | .day => some 86400000000
  | .week => some 604800000000
  | .month | .quarter | .year | .other => none

/-- The factor that the days of the interval are multiplied with as an `int`. -/
def DiffUnit.dayFactor : DiffUnit → Int
  | .second => 86400
  | .minute => 1440
  | .hour => 24
  | _ => 1

/-- Neither the subtraction nor the product with the days leaves its type. -/
def DiffUnit.Fits (unit : DiffUnit) (d : Int) : Prop :=
  d < 2 ^ 63 ∧ d / USECS_PER_DAY * unit.dayFactor < 2 ^ 31

instance (unit : DiffUnit) (d : Int) : Decidable (unit.Fits d) := inferInstanceAs (Decidable (_ ∧ _))

structure Tm.Spans (tm : Tm) (d : Int) : Prop where
  days : tm.tm_mday = d.tdiv USECS_PER_DAY
  hours : tm.tm_mday * 24 + tm.tm_hour = d.tdiv 3600000000
  minutes : tm.tm_mday * 1440 + (tm.tm_hour * 60 + tm.tm_min) = d.tdiv 60000000
  seconds : tm.tm_mday * 86400 + ((tm.tm_hour * 60 + tm.tm_min) * 60 + tm.tm_sec) = d.tdiv 1000000
  micros : tm.tm_mday * USECS_PER_DAY + tm.time2t = d

theorem interval2tm_spans {d : Int} (bound : -2 ^ 63 ≤ d ∧ d < 2 ^ 63) :
    ∃ tm, interval2tm (intervalJustifyHours d).1 (intervalJustifyHours d).2 = .ok tm ∧ tm.Spans d := by
  have days := tdiv_cases d USECS_PER_DAY
  unfold USECS_PER_DAY at days
  have fits : toInt32 (d.tdiv 86400000000) = d.tdiv 86400000000 := by
    unfold toInt32
    omega
  have justified : intervalJustifyHours d = (d.tdiv 86400000000, d - d.tdiv 86400000000 * 86400000000) := by
    unfold intervalJustifyHours USECS_PER_DAY
    dsimp only
    rw [fits, if_neg (by omega), if_neg (by omega)]
  rw [justified]
  obtain ⟨time, rest⟩ : ∃ time, time = d - d.tdiv 86400000000 * 86400000000 := ⟨_, rfl⟩
  rw [← rest]
  have hours := tdiv_cases time 3600000000
  have hour : toInt32 (time.tdiv 3600000000) = time.tdiv 3600000000 := by
    unfold toInt32
    omega
  have minutes := tdiv_cases (time - time.tdiv 3600000000 * 3600000000) 60000000
  have seconds :=
    tdiv_cases (time - time.tdiv 3600000000 * 3600000000 - (time - time.tdiv 3600000000 * 3600000000).tdiv
      60000000 * 60000000) 1000000
  have whole := tdiv_cases d
  have wholeHours := whole 3600000000
  have wholeMinutes := whole 60000000
  have wholeSeconds := whole 1000000
  unfold interval2tm
  dsimp only
  rw [hour, if_neg (by simp)]
  refine ⟨_, rfl, rfl, ?_, ?_, ?_, ?_⟩
  all_goals
    dsimp only [Tm.time2t, USECS_PER_DAY]
    omega

theorem orderedDiff_eq {a b : Int} {tm1 tm2 : Tm} (first : timestamp2tm a = some tm1)
    (second : timestamp2tm b = some tm2) (unit : DiffUnit) :
    ∃ tm, tm.Spans (toInt64 (b - a)) ∧
      orderedDiff unit a b = intresult unit tm (calendarDiff tm1 tm2).1 (calendarDiff tm1 tm2).2 := by
  have bound : -2 ^ 63 ≤ toInt64 (b - a) ∧ toInt64 (b - a) < 2 ^ 63 := by
    unfold toInt64
    omega
  obtain ⟨tm, interval, spans⟩ := interval2tm_spans bound
  refine ⟨tm, spans, ?_⟩
  rw [orderedDiff, first, second]
  dsimp only
  rw [interval]
  rfl

section Timestamps

variable {unit : DiffUnit} {a b len : Int} (va : validTimestamp a) (vb : validTimestamp b)

include va vb

theorem orderedDiff_linear (linear : unit.length = some len) (order : a ≤ b) :
    ∃ v, orderedDiff unit a b = .ok v ∧ (v = (b - a) / len ↔ unit.Fits (b - a)) ∧ (-2 ^ 63 ≤ v ∧ v < 2 ^ 63) ∧
      (v = -2 ^ 63 ↔ unit = .microsecond ∧ b - a = 2 ^ 63) := by
  obtain ⟨tm1, -, first, -⟩ := timestamp2tm_valid va
  obtain ⟨tm2, -, second, -⟩ := timestamp2tm_valid vb
  obtain ⟨tm, ⟨days, hours, minutes, seconds, micros⟩, result⟩ := orderedDiff_eq first second unit
  have difference : toInt64 (b - a) = b - a ∧ b - a < 2 ^ 63 ∨
      toInt64 (b - a) = b - a - 2 ^ 64 ∧ 2 ^ 63 ≤ b - a := by
    unfold validTimestamp at va vb
    unfold toInt64
    omega
  have span : 0 ≤ b - a ∧ b - a < 9435184819200000000 := by
    unfold validTimestamp at va vb
    omega
  rw [result]
  generalize toInt64 (b - a) = e at *
  have quotient := tdiv_cases e
  have wholeDays := quotient USECS_PER_DAY
  have wholeHours := quotient 3600000000
  have wholeMinutes := quotient 60000000
  have wholeSeconds := quotient 1000000
  have weeks := tdiv_cases tm.tm_mday 7
  unfold DiffUnit.Fits USECS_PER_DAY at *
  cases unit with
  | month | quarter | year | other => cases linear
  | microsecond | second | minute | hour | day | week =>
    cases linear
    refine ⟨_, rfl, ?_⟩
    simp only [DiffUnit.dayFactor, toInt32, toInt64, USECS_PER_DAY, reduceCtorEq, false_and, true_and, iff_false]
    omega

theorem timestampdiff_eq (unit : DiffUnit) : timestampdiff unit a b =
    if a < b then orderedDiff unit a b else (orderedDiff unit b a).map fun intresult => toInt64 (intresult * -1) := by
  unfold validTimestamp at va vb
  rw [timestampdiff, if_neg]
  unfold timestampNotFinite
  omega

/-- The difference is exact unless a step wraps around; negating `-2 ^ 63` undoes the first one. -/
theorem timestampdiff_linear_iff (linear : unit.length = some len) :
    timestampdiff unit a b = .ok ((b - a).sign * (|b - a| / len)) ↔
      unit.Fits |b - a| ∨ unit = .microsecond ∧ b - a = -2 ^ 63 := by
  rw [timestampdiff_eq va vb]
  rcases Int.lt_or_le a b with before | behind
  · obtain ⟨v, result, exact, -, -⟩ := orderedDiff_linear va vb linear before.le
    have apart : ¬ b - a = -2 ^ 63 := by omega
    rw [if_pos before, result, Except.ok.injEq, abs_of_pos (by omega), Int.sign_eq_one_of_pos (by omega), Int.one_mul,
      exact]
    simp only [apart, and_false, or_false]
  · obtain ⟨v, result, exact, bound, least⟩ := orderedDiff_linear vb va linear behind
    have swapped : (b - a).sign * ((a - b) / len) = -((a - b) / len) := by
      rcases Int.lt_or_eq_of_le behind with less | rfl
      · rw [Int.sign_eq_neg_one_of_neg (by omega), Int.neg_one_mul]
      · simp
    rw [if_neg (by omega), result, abs_of_nonpos (by omega), Int.neg_sub, swapped, ← exact]
    simp only [Except.map, Except.ok.injEq]
    rcases eq_or_ne v (-2 ^ 63) with lowest | above
    · obtain ⟨rfl, difference⟩ := least.mp lowest
      cases linear
      rw [lowest, difference]
      exact ⟨fun _ => .inr ⟨rfl, by omega⟩, fun _ => by decide⟩
    · have other : ¬ (unit = .microsecond ∧ b - a = -2 ^ 63) :=
        fun ⟨micro, difference⟩ => above (least.mpr ⟨micro, by omega⟩)
      rw [toInt64_eq (by omega) (by omega), Int.mul_neg_one, Int.neg_inj]
      simp only [other, or_false]

end Timestamps

/-- From 1900 to 2000 there are 36524 days, and `int` ends at 24855 of them in seconds. -/
theorem timestampdiff_second_wraps : validTimestamp (-3155673600000000) ∧ validTimestamp 0 ∧
    timestampdiff .second (-3155673600000000) 0 = .ok (-1139293696) ∧
    (3155673600000000 : Int) / 1000000 = 3155673600 := by
  decide +kernel

theorem timestampdiff_linear_day :
    timestampdiff .second 0 86400000000 = .ok ((86400000000 - 0 : Int).sign * (|86400000000 - 0| / 1000000)) :=
  (timestampdiff_linear_iff (by decide) (by decide) rfl).mpr (.inl (by decide +kernel))

/-- The fields with `n` added in the month field. -/
def Tm.advance (tm : Tm) (n : Int) : Tm :=
  { tm with tm_year := (tm.tm_year * 12 + (tm.tm_mon - 1) + n) / 12
            tm_mon := (tm.tm_year * 12 + (tm.tm_mon - 1) + n) % 12 + 1 }

def Tm.NotAfter (p q : Tm) : Prop :=
  p.tm_year < q.tm_year ∨ p.tm_year = q.tm_year ∧ (p.tm_mon < q.tm_mon ∨ p.tm_mon = q.tm_mon ∧
    (p.tm_mday < q.tm_mday ∨ p.tm_mday = q.tm_mday ∧ p.time2t ≤ q.time2t))

theorem Tm.At.notAfter {tm1 tm2 : Tm} {jd1 jd2 : Nat} {a b : Int} (at1 : tm1.At jd1 a) (at2 : tm2.At jd2 b)
    (order : a ≤ b) : tm1.NotAfter tm2 := by
  obtain ⟨year1, month1, day1⟩ := at1.date
  obtain ⟨year2, month2, day2⟩ := at2.date
  have bounds2 := Calendar.j2date_bounds jd2
  have instants := at1.instant
  have instants' := at2.instant
  have time1 := at1.time
  have time2 := at2.time
  unfold USECS_PER_DAY POSTGRES_EPOCH_JDATE at *
  unfold Tm.NotAfter
  rcases Nat.lt_trichotomy jd1 jd2 with before | rfl | behind
  · have number := Calendar.j2date_lt before
    unfold Calendar.dateNumber at number
    omega
  · omega
  · omega

theorem advance_notAfter {tm1 tm2 : Tm} (month : 1 ≤ tm2.tm_mon ∧ tm2.tm_mon ≤ 12) (n : Int) :
    (tm1.advance n).NotAfter tm2 ↔ n ≤ (calendarDiff tm1 tm2).1 := by
  have same : (tm1.advance n).time2t = tm1.time2t := rfl
  simp only [Tm.NotAfter, same, calendarDiff]
  dsimp only [Tm.advance]
  split
  · omega
  · split <;> omega

theorem calendarDiff_year {tm1 tm2 : Tm} (order : tm1.NotAfter tm2) (month1 : 1 ≤ tm1.tm_mon ∧ tm1.tm_mon ≤ 12)
    (month2 : 1 ≤ tm2.tm_mon ∧ tm2.tm_mon ≤ 12) :
    0 ≤ (calendarDiff tm1 tm2).1 ∧ (calendarDiff tm1 tm2).2 = (calendarDiff tm1 tm2).1.tdiv 12 := by
  have unmoved : tm1.advance 0 = tm1 := by
    unfold Tm.advance
    rw [show (tm1.tm_year * 12 + (tm1.tm_mon - 1) + 0) / 12 = tm1.tm_year by omega,
      show (tm1.tm_year * 12 + (tm1.tm_mon - 1) + 0) % 12 + 1 = tm1.tm_mon by omega]
  have nonneg : 0 ≤ (calendarDiff tm1 tm2).1 := (advance_notAfter month2 0).mp (by rwa [unmoved])
  refine ⟨nonneg, ?_⟩
  rw [Int.tdiv_eq_ediv_of_nonneg nonneg]
  unfold calendarDiff
  split <;> dsimp only <;> split <;> omega

theorem Tm.At.bounds {tm : Tm} {jd : Nat} {dt : Int} (fields : tm.At jd dt) (valid : validTimestamp dt) :
    (1 ≤ tm.tm_mon ∧ tm.tm_mon ≤ 12) ∧ -4714 ≤ tm.tm_year ∧ tm.tm_year ≤ 294277 := by
  obtain ⟨year, month, day⟩ := fields.date
  have bounds := Calendar.j2date_bounds jd
  have instant := fields.instant
  have time := fields.time
  unfold validTimestamp USECS_PER_DAY POSTGRES_EPOCH_JDATE at *
  have first : Calendar.dateNumber (j2date 0) ≤ Calendar.dateNumber (j2date jd) := by
    rcases Nat.eq_zero_or_pos jd with rfl | later
    · exact le_rfl
    · exact (Calendar.j2date_lt later).le
  have last : Calendar.dateNumber (j2date jd) < Calendar.dateNumber (j2date 109203528) := Calendar.j2date_lt (by omega)
  rw [show Calendar.dateNumber (j2date 109203528) = 2942770101 by decide +kernel] at last
  rw [show Calendar.dateNumber (j2date 0) = -47128876 by decide +kernel] at first
  unfold Calendar.dateNumber at *
  omega

/-- Months are counted up to the last that is not after the later timestamp. -/
theorem timestampdiff_calendar {a b : Int} (va : validTimestamp a) (vb : validTimestamp b) (order : a ≤ b) :
    ∃ tm1 tm2 n, timestamp2tm a = some tm1 ∧ timestamp2tm b = some tm2 ∧
    IsGreatest {n | (tm1.advance n).NotAfter tm2} n ∧
      ∀ unit result, (unit, result) ∈ [(DiffUnit.month, n), (.quarter, n.tdiv 3), (.year, n.tdiv 12)] →
        timestampdiff unit a b = .ok result ∧ timestampdiff unit b a = .ok (-result) := by
  obtain ⟨tm1, jd1, first, at1⟩ := timestamp2tm_valid va
  obtain ⟨tm2, jd2, second, at2⟩ := timestamp2tm_valid vb
  obtain ⟨month1, low1, high1⟩ := at1.bounds va
  obtain ⟨month2, low2, high2⟩ := at2.bounds vb
  obtain ⟨nonneg, year⟩ := calendarDiff_year (at1.notAfter at2 order) month1 month2
  have small : (calendarDiff tm1 tm2).1 < 2 ^ 63 := by
    rw [calendarDiff]
    split
    · omega
    · split <;> omega
  refine ⟨tm1, tm2, (calendarDiff tm1 tm2).1, first, second,
    ⟨(advance_notAfter month2 _).mpr le_rfl, fun n => (advance_notAfter month2 n).mp⟩, ?_⟩
  intro unit result member
  have ordered : orderedDiff unit a b = .ok result ∧ 0 ≤ result ∧ result ≤ (calendarDiff tm1 tm2).1 := by
    obtain ⟨tm, -, computed⟩ := orderedDiff_eq first second unit
    have quarters := tdiv_cases (calendarDiff tm1 tm2).1 3
    have years := tdiv_cases (calendarDiff tm1 tm2).1 12
    simp only [List.mem_cons, List.not_mem_nil, or_false] at member
    rw [computed]
    rcases member with ⟨rfl, rfl⟩ | ⟨rfl, rfl⟩ | ⟨rfl, rfl⟩
    · exact ⟨rfl, nonneg, le_rfl⟩
    · exact ⟨rfl, by omega, by omega⟩
    · exact ⟨congrArg _ year, by omega, by omega⟩
  obtain ⟨ordered, low, high⟩ := ordered
  have negated : toInt64 (result * -1) = -result := (toInt64_eq (by omega) (by omega)).trans (Int.mul_neg_one result)
  rw [timestampdiff_eq va vb, timestampdiff_eq vb va, if_neg (show ¬ b < a by omega), ordered]
  refine ⟨?_, congrArg _ negated⟩
  rcases Int.lt_or_eq_of_le order with before | rfl
  · rw [if_pos before]
  rw [if_neg (Int.lt_irrefl a), ordered]
  have none : (calendarDiff tm1 tm2).1 = 0 := by
    cases first.symm.trans second
    simp [calendarDiff]
  rw [show result = 0 by omega]
  rfl

theorem timestampdiff_calendar_month : timestampdiff .month 2592000000000 5184000000000 = .ok 1 ∧
    timestampdiff .month 5184000000000 2592000000000 = .ok (-1) := by
  obtain ⟨-, -, n, -, -, -, results⟩ :=
    timestampdiff_calendar (a := 2592000000000) (b := 5184000000000) (by decide) (by decide) (by decide)
  obtain ⟨there, back⟩ := results .month n (.head _)
  have one : timestampdiff .month 2592000000000 5184000000000 = .ok 1 := by decide +kernel
  cases there.symm.trans one
  exact ⟨one, back⟩

end OpenHalo
