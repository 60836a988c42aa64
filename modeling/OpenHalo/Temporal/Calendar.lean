import Mathlib.Tactic.IntervalCases

namespace OpenHalo

def USECS_PER_DAY : Int := 86400000000

def POSTGRES_EPOCH_JDATE : Int := 2451545

/-- `IS_VALID_TIMESTAMP`: microseconds since 2000, from 4713 BC to 294276. -/
def validTimestamp (t : Int) : Prop := -211813488000000000 ≤ t ∧ t < 9223371331200000000

def j2date (jd : Nat) : Int × Nat × Nat :=
  let julian := jd + 32044
  let quad := julian / 146097
  let extra := (julian - quad * 146097) * 4 + 3
  let julian := julian + 60 + quad * 3 + extra / 146097
  let quad := julian / 1461
  let julian := julian - quad * 1461
  let y := julian * 4 / 1461
  let julian := (if y ≠ 0 then (julian + 305) % 365 else (julian + 306) % 366) + 123
  let y := y + quad * 4
  let quad := julian * 2141 / 65536
  ((y : Int) - 4800, (quad + 10) % 12 + 1, julian - 7834 * quad / 256)

/-- `struct pg_tm` with `fsec`. -/
structure Tm where
  tm_year : Int
  tm_mon : Int
  tm_mday : Int
  tm_hour : Int
  tm_min : Int
  tm_sec : Int
  fsec : Int
deriving DecidableEq

/-- `none` stands for the return value `-1`, which leaves the fields unset. -/
def timestamp2tm (dt : Int) : Option Tm :=
  let date := dt.tdiv USECS_PER_DAY
  let time := dt - date * USECS_PER_DAY
  let (time, date) := if time < 0 then (time + USECS_PER_DAY, date - 1) else (time, date)
  let date := date + POSTGRES_EPOCH_JDATE
  if date < 0 ∨ 2147483647 < date then none
  else
    let (year, month, day) := j2date date.toNat
    let hour := time.tdiv 3600000000
    let rest := time - hour * 3600000000
    let min := rest.tdiv 60000000
    let rest := rest - min * 60000000
    let sec := rest.tdiv 1000000
    some ⟨year, month, day, hour, min, sec, rest - sec * 1000000⟩

namespace Calendar

def julianCount (jd : Nat) : Nat :=
  let julian := jd + 32044
  julian + 60 + julian / 146097 * 3 + ((julian - julian / 146097 * 146097) * 4 + 3) / 146097

theorem julianCount_lt {i j : Nat} (less : i < j) : julianCount i < julianCount j := by
  dsimp only [julianCount]
  omega

def yearDays (y : Nat) : Nat := if y % 4 = 0 then 366 else 365

theorem yearDays_end (y : Nat) : (1461 * y + 3) / 4 + yearDays y = (1461 * (y + 1) + 3) / 4 := by
  have phase : y % 4 = 0 ∨ y % 4 = 1 ∨ y % 4 = 2 ∨ y % 4 = 3 := by omega
  unfold yearDays
  all_goals split <;> omega

/-- Month and day of the day `t` of a year of `n` days. -/
def monthDay (n t : Nat) : Nat × Nat :=
  let julian := (t + 306) % n + 123
  let quad := julian * 2141 / 65536
  ((quad + 10) % 12 + 1, julian - 7834 * quad / 256)

theorem monthDay_next : ∀ n ∈ [365, 366], ∀ t < n, 0 < (monthDay n t).1 ∧ (monthDay n t).1 ≤ 12 ∧ 0 < (monthDay n t).2 ∧
    (monthDay n t).2 ≤ 31 ∧
    (t + 1 < n → (monthDay n t).1 * 100 + (monthDay n t).2 <
      (monthDay n (t + 1)).1 * 100 + (monthDay n (t + 1)).2) := by
  decide +kernel

theorem monthDay_lt {n s t : Nat} (days : n ∈ [365, 366]) (less : s < t) (inside : t < n) :
    (monthDay n s).1 * 100 + (monthDay n s).2 < (monthDay n t).1 * 100 + (monthDay n t).2 := by
  induction less with
  | refl => exact (monthDay_next n days s (by omega)).2.2.2.2 inside
  | step less ih => exact (ih (by omega)).trans ((monthDay_next n days _ (by omega)).2.2.2.2 inside)

theorem j2date_year (jd : Nat) : ∃ y t, t < yearDays y ∧ julianCount jd = (1461 * y + 3) / 4 + t ∧
    j2date jd = ((y : Int) - 4800, monthDay (yearDays y) t) := by
  have split : ∀ N y : Nat, y = (N - N / 1461 * 1461) * 4 / 1461 + N / 1461 * 4 →
      ∃ t < yearDays y, N = (1461 * y + 3) / 4 + t ∧
      (if (N - N / 1461 * 1461) * 4 / 1461 ≠ 0 then (N - N / 1461 * 1461 + 305) % 365 else
        (N - N / 1461 * 1461 + 306) % 366) = (t + 306) % yearDays y := by
    rintro N y year
    have ending := yearDays_end y
    have phase : ∃ p < 4, (N - N / 1461 * 1461) * 4 / 1461 = p := ⟨_, by omega, rfl⟩
    obtain ⟨p, small, phase⟩ := phase
    refine ⟨N - (1461 * y + 3) / 4, by omega, by omega, ?_⟩
    unfold yearDays
    interval_cases p
    all_goals split <;> split <;> omega
  obtain ⟨t, inside, count, day⟩ := split (julianCount jd) _ rfl
  refine ⟨_, t, inside, count, ?_⟩
  rw [monthDay, ← day]
  rfl

theorem yearDays_mem (y : Nat) : yearDays y ∈ [365, 366] := by
  unfold yearDays
  split <;> decide

/-- The number `YYYYMMDD`. -/
def dateNumber (date : Int × Nat × Nat) : Int := date.1 * 10000 + date.2.1 * 100 + date.2.2

theorem j2date_bounds (jd : Nat) :
    0 < (j2date jd).2.1 ∧ (j2date jd).2.1 ≤ 12 ∧ 0 < (j2date jd).2.2 ∧ (j2date jd).2.2 ≤ 31 := by
  obtain ⟨y, t, inside, -, date⟩ := j2date_year jd
  obtain ⟨month, months, day, days, -⟩ := monthDay_next _ (yearDays_mem y) t inside
  rw [date]
  exact ⟨month, months, day, days⟩

theorem j2date_lt {i j : Nat} (less : i < j) : dateNumber (j2date i) < dateNumber (j2date j) := by
  have count := julianCount_lt less
  obtain ⟨y, s, inside, before, first⟩ := j2date_year i
  obtain ⟨z, t, inside', after, second⟩ := j2date_year j
  have small := monthDay_next _ (yearDays_mem y) s inside
  have ends' := yearDays_end z
  rw [first, second]
  unfold dateNumber
  dsimp only
  rcases Nat.lt_trichotomy y z with earlier | rfl | later
  · omega
  · have inYear := monthDay_lt (yearDays_mem y) (show s < t by omega) inside'
    omega
  · omega

end Calendar

def Tm.time2t (tm : Tm) : Int := ((tm.tm_hour * 60 + tm.tm_min) * 60 + tm.tm_sec) * 1000000 + tm.fsec

theorem tdiv_cases (a k : Int) : 0 ≤ a ∧ a.tdiv k = a / k ∨ a < 0 ∧ a.tdiv k = -(-a / k) := by
  rcases Int.lt_or_le a 0 with negative | nonneg
  · refine .inr ⟨negative, ?_⟩
    rw [← Int.tdiv_eq_ediv_of_nonneg (by omega), Int.neg_tdiv, Int.neg_neg]
  · exact .inl ⟨nonneg, Int.tdiv_eq_ediv_of_nonneg nonneg⟩

/-- The fields are those of a Julian day and of a time within it. -/
structure Tm.At (tm : Tm) (jd : Nat) (dt : Int) : Prop where
  instant : dt = (jd - POSTGRES_EPOCH_JDATE) * USECS_PER_DAY + tm.time2t
  time : 0 ≤ tm.time2t ∧ tm.time2t < USECS_PER_DAY
  hour : 0 ≤ tm.tm_hour ∧ tm.tm_hour < 24
  min : 0 ≤ tm.tm_min ∧ tm.tm_min < 60
  sec : 0 ≤ tm.tm_sec ∧ tm.tm_sec < 60
  fsec : 0 ≤ tm.fsec ∧ tm.fsec < 1000000
  date : tm.tm_year = (j2date jd).1 ∧ tm.tm_mon = (j2date jd).2.1 ∧ tm.tm_mday = (j2date jd).2.2

theorem timestamp2tm_valid {dt : Int} (valid : validTimestamp dt) :
    ∃ tm jd, timestamp2tm dt = some tm ∧ tm.At jd dt := by
  obtain ⟨low, high⟩ := valid
  have floor : (if dt - dt.tdiv USECS_PER_DAY * USECS_PER_DAY < 0 then
      (dt - dt.tdiv USECS_PER_DAY * USECS_PER_DAY + USECS_PER_DAY, dt.tdiv USECS_PER_DAY - 1)
      else (dt - dt.tdiv USECS_PER_DAY * USECS_PER_DAY, dt.tdiv USECS_PER_DAY)) =
        (dt % USECS_PER_DAY, dt / USECS_PER_DAY) := by
    have quotient := tdiv_cases dt USECS_PER_DAY
    unfold USECS_PER_DAY at *
    split <;> exact Prod.ext (by dsimp only; omega) (by dsimp only; omega)
  unfold timestamp2tm
  dsimp only
  rw [floor]
  unfold USECS_PER_DAY POSTGRES_EPOCH_JDATE
  rw [if_neg (by omega), Int.tdiv_eq_ediv_of_nonneg (by omega), Int.tdiv_eq_ediv_of_nonneg (by omega),
    Int.tdiv_eq_ediv_of_nonneg (by omega)]
  refine ⟨_, _, rfl, ?_, ?_, ?_, ?_, ?_, ?_, rfl, rfl, rfl⟩
  all_goals
    dsimp only [Tm.time2t, USECS_PER_DAY, POSTGRES_EPOCH_JDATE]
    omega

end OpenHalo
