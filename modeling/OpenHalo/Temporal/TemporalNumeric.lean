import Mathlib.Algebra.Order.Field.Rat
import OpenHalo.Lib.Scanning
import OpenHalo.Temporal.Calendar

namespace OpenHalo
open Octets List

inductive TemporalType
  | timestamp | time | date
deriving DecidableEq

def fractionLoop : Nat → Nat → Bool → Bytes → Nat × Bytes
  | 0, value, _, digits => (value, digits)
  | precision + 1, value, gotnonzero, digits =>
    let remainder := value - value / 10 * 10
    let gotnonzero := gotnonzero || remainder != 0
    fractionLoop precision (value / 10) gotnonzero
    (if gotnonzero then UInt8.ofNat (48 + remainder) :: digits else digits)

def appendSeconds (sec fsec : Int) (precision : Nat) : Bytes :=
  let (value, digits) := fractionLoop precision fsec.natAbs false []
  paddedDecimal 2 sec.natAbs ++ if fsec = 0 then [] else 46 :: if value = 0 then digits else decimal fsec.natAbs

def dateFields (year mon mday : Int) : Bytes :=
  paddedDecimal 4 (if 0 < year then year else -(year - 1)).toNat ++ paddedDecimal 2 mon.toNat ++
  paddedDecimal 2 mday.toNat

def timeFields (front : Bytes) (tm : Tm) : Bytes :=
  front ++ paddedDecimal 2 tm.tm_hour.toNat ++ paddedDecimal 2 tm.tm_min.toNat ++ appendSeconds tm.tm_sec tm.fsec 6

def time2tm (time : Int) : Tm :=
  let hour := toInt32 (time.tdiv 3600000000)
  let time := time - hour * 3600000000
  let min := time.tdiv 60000000
  let time := time - min * 60000000
  let sec := time.tdiv 1000000
  ⟨0, 0, 0, hour, min, sec, time - sec * 1000000⟩

def decimalReading (text : Bytes) : ℚ :=
  let frac := (text.dropWhile isDigit).drop 1
  digitsValue (text.takeWhile isDigit ++ frac) / 10 ^ frac.length

/-- `numeric_in`, for a sign, digits, and a point with digits behind it. -/
def numericIn : Bytes → ℚ
  | 45 :: text => -decimalReading text
  | text => decimalReading text

/-- The branches for timestamps, times and dates; nothing if an error is raised. -/
def convertParameterToNumeric : TemporalType → Int → Option ℚ
  | .timestamp, parm => (timestamp2tm parm).map fun tm =>
      numericIn (timeFields (dateFields tm.tm_year tm.tm_mon tm.tm_mday) tm)
  | .time, parm =>
    let buf := timeFields [] (time2tm (if parm < 0 then parm * -1 else parm))
    some (numericIn (if parm < 0 then 45 :: buf else buf))
  | .date, parm =>
    let (year, mon, mday) := j2date (parm + POSTGRES_EPOCH_JDATE).toNat
    some (numericIn (dateFields year mon mday))

section Reading

variable {text row digits : Bytes} {n v : Nat}

structure Spells (text : Bytes) (n : Nat) : Prop where
  nonempty : text ≠ []
  numeric : ∀ c ∈ text, isDigit c = true
  value : digitsValue text = n

theorem spells_padded (v n : Nat) : Spells (paddedDecimal v n) n where
  nonempty := (Numeral.padded v n).nonempty
  numeric := paddedDecimal_digits v n
  value := digitsValue_paddedDecimal v n

theorem Spells.pair (spells : Spells text v) (small : n < 100) : Spells (text ++ paddedDecimal 2 n) (v * 100 + n) where
  nonempty := append_ne_nil_of_left_ne_nil spells.nonempty _
  numeric c member := (mem_append.mp member).elim (spells.numeric c) (paddedDecimal_digits 2 n c)
  value := by
    rw [digitsValue_append, digitsValue_paddedDecimal, spells.value, paddedDecimal_length (by decide) small]
    rfl

theorem Spells.numericIn_eq (spells : Spells row v) (rest : Bytes) :
    numericIn (row ++ rest) = decimalReading (row ++ rest) := by
  obtain ⟨c, more, rfl⟩ := exists_cons_of_ne_nil spells.nonempty
  unfold numericIn
  split
  · rename_i same
    cases same
    cases spells.numeric 45 (mem_cons_self ..)
  · rfl

theorem Spells.reading (spells : Spells row v) : decimalReading row = v := by
  have taken := takeWhile_row spells.numeric ends_nil
  have dropped := dropWhile_row spells.numeric ends_nil
  rw [append_nil] at taken dropped
  simp [decimalReading, taken, dropped, spells.value]

theorem Spells.reading_frac (spells : Spells row v) (frac : Bytes) :
    decimalReading (row ++ 46 :: frac) = (v * 10 ^ frac.length + digitsValue frac : ℕ) / 10 ^ frac.length := by
  have stop : Ends isDigit (46 :: frac) := ends_cons.mpr rfl
  rw [decimalReading, takeWhile_row spells.numeric stop, dropWhile_row spells.numeric stop, drop_one, tail_cons,
    digitsValue_append, spells.value]

end Reading

theorem fractionLoop_spec {precision value : Nat} {gotnonzero : Bool} {digits : Bytes} (small : value < 10 ^ precision)
    (empty : gotnonzero = false → digits = []) : ∃ zeros, (gotnonzero = true → zeros = 0) ∧
      (fractionLoop precision value gotnonzero digits).1 = 0 ∧
      (fractionLoop precision value gotnonzero digits).2.length + zeros = precision + digits.length ∧
      digitsValue (fractionLoop precision value gotnonzero digits).2 * 10 ^ zeros =
        value * 10 ^ digits.length + digitsValue digits := by
  induction precision generalizing value gotnonzero digits with
  | zero =>
    obtain rfl : value = 0 := by omega
    exact ⟨0, fun _ => rfl, rfl, by simp [fractionLoop], by simp [fractionLoop]⟩
  | succ precision ih =>
    have shorter : value / 10 < 10 ^ precision := by rw [Nat.pow_succ] at small; omega
    rw [fractionLoop]
    cases nonzero : gotnonzero || value - value / 10 * 10 != 0 with
    | true =>
      obtain ⟨zeros, none, rest, length, put⟩ :=
        @ih (value / 10) true (UInt8.ofNat (48 + (value - value / 10 * 10)) :: digits) shorter nofun
      have digit : ∀ r < 10, (UInt8.ofNat (48 + r)).toNat - 48 = r := by decide
      have split : value * 10 ^ digits.length =
          value / 10 * 10 ^ (digits.length + 1) + (value - value / 10 * 10) * 10 ^ digits.length := by
        rw [Nat.pow_succ', ← Nat.mul_assoc, ← Nat.add_mul]
        congr 1
        omega
      refine ⟨zeros, fun _ => none rfl,
        rest, by rw [length_cons] at length; simpa [Nat.add_assoc, Nat.add_comm 1] using length, ?_⟩
      simp only [if_true, put]
      rw [digitsValue_cons, digit _ (by omega), length_cons, split, Nat.add_assoc]
    | false =>
      obtain ⟨none, last⟩ := Bool.or_eq_false_iff.mp nonzero
      cases empty none
      obtain ⟨zeros, -, rest, length, put⟩ := @ih (value / 10) false [] shorter fun _ => rfl
      have last : value - value / 10 * 10 = 0 := by simpa using last
      refine ⟨zeros + 1, by simp [none], rest, by rw [← Nat.add_assoc]; exact congrArg (· + 1) length, ?_⟩
      simp only [Bool.false_eq_true, if_false, Nat.pow_succ, ← Nat.mul_assoc, put]
      simp [digitsValue]
      omega

theorem numericIn_seconds {front : Bytes} {v : Nat} {sec fsec : Int} (spells : Spells front v)
    (secs : 0 ≤ sec ∧ sec < 60) (fracs : 0 ≤ fsec ∧ fsec < 1000000) :
    numericIn (front ++ appendSeconds sec fsec 6) = ((((v * 100 + sec) * 1000000 + fsec : ℤ) : ℚ)) / 1000000 := by
  obtain ⟨s, rfl⟩ := Int.eq_ofNat_of_zero_le secs.1
  obtain ⟨f, rfl⟩ := Int.eq_ofNat_of_zero_le fracs.1
  have whole : Spells (front ++ paddedDecimal 2 s) (v * 100 + s) := spells.pair (by omega)
  obtain ⟨zeros, -, rest, length, put⟩ := @fractionLoop_spec 6 f false [] (by omega) fun _ => rfl
  simp only [appendSeconds, Int.natAbs_natCast, rest]
  rw [← append_assoc, whole.numericIn_eq]
  by_cases zero : (f : Int) = 0
  · rw [if_pos zero, append_nil, whole.reading, zero]
    push_cast
    ring
  · rw [if_neg zero, whole.reading_frac]
    have scale : (10 : ℚ) ^ (fractionLoop 6 f false []).2.length * 10 ^ zeros = 1000000 := by
      rw [← pow_add, length]
      norm_num
    have fraction : (digitsValue (fractionLoop 6 f false []).2 : ℚ) * 10 ^ zeros = f := by
      exact_mod_cast put.trans (Nat.mul_one f)
    rw [div_eq_div_iff (by positivity) (by positivity)]
    push_cast
    rw [← fraction, ← scale]
    ring

structure Tm.Proper (tm : Tm) : Prop where
  hour : 0 ≤ tm.tm_hour
  min : 0 ≤ tm.tm_min ∧ tm.tm_min < 60
  sec : 0 ≤ tm.tm_sec ∧ tm.tm_sec < 60
  fsec : 0 ≤ tm.fsec ∧ tm.fsec < 1000000

/-- The number `hhmmss.ffffff` behind another one, in millionths. -/
def Tm.number (tm : Tm) (front : Int) : Int :=
  (((front * 100 + tm.tm_hour) * 100 + tm.tm_min) * 100 + tm.tm_sec) * 1000000 + tm.fsec

theorem Tm.Proper.number_lt {tm tm' : Tm} {front front' : Int} (proper : tm.Proper) (proper' : tm'.Proper)
    (less : front < front' ∧ tm.tm_hour < 100 ∨ front = front' ∧ tm.time2t < tm'.time2t) : tm.number front <
    tm'.number front' := by
  obtain ⟨_, _, _, _⟩ := proper
  obtain ⟨_, _, _, _⟩ := proper'
  unfold Tm.number Tm.time2t at *
  omega

theorem Tm.Proper.numericIn_eq {front : Bytes} {v : Nat} {tm : Tm} (proper : tm.Proper)
    (spells : Spells (front ++ paddedDecimal 2 tm.tm_hour.toNat) (v * 100 + tm.tm_hour.toNat)) :
    numericIn (timeFields front tm) = (tm.number v : ℚ) / 1000000 := by
  obtain ⟨hour, min, sec, fsec⟩ := proper
  rw [timeFields, numericIn_seconds (spells.pair (by omega : tm.tm_min.toNat < 100)) sec fsec, Tm.number]
  push_cast [Int.toNat_of_nonneg hour, Int.toNat_of_nonneg min.1]
  rfl

theorem dateFields_spells {jd : Nat} (year : 0 < (j2date jd).1) :
    Spells (dateFields (j2date jd).1 (j2date jd).2.1 (j2date jd).2.2) (Calendar.dateNumber (j2date jd)).toNat := by
  obtain ⟨-, months, -, days⟩ := Calendar.j2date_bounds jd
  have date :=
    ((spells_padded 4 (j2date jd).1.toNat).pair (show (j2date jd).2.1 < 100 by omega)).pair
    (show (j2date jd).2.2 < 100 by omega)
  have number : ((j2date jd).1.toNat * 100 + (j2date jd).2.1) * 100 + (j2date jd).2.2 =
      (Calendar.dateNumber (j2date jd)).toNat := by
    unfold Calendar.dateNumber
    omega
  rw [number] at date
  rw [dateFields, if_pos year]
  exact date

/-- Timestamps and dates from year 1 on, and times of either sign below 839 hours. -/
def TemporalType.Covers : TemporalType → Int → Prop
  | .timestamp, t => validTimestamp t ∧ ∀ tm ∈ timestamp2tm t, 0 < tm.tm_year
  | .time, t => -3020400000000 < t ∧ t < 3020400000000
  | .date, d => 0 ≤ d + POSTGRES_EPOCH_JDATE ∧ d + POSTGRES_EPOCH_JDATE < 2147483494 ∧
      0 < (j2date (d + POSTGRES_EPOCH_JDATE).toNat).1

/-- `YYYYMMDDhhmmss.ffffff` in millionths: the digits of the day and the time of day, or of the absolute
time, with its sign. -/
def TemporalType.Reads : TemporalType → Int → Int → Prop
  | .timestamp, t, n => ∃ (tm : Tm) (jd : Nat), tm.At jd t ∧ n = tm.number (Calendar.dateNumber (j2date jd))
  | .time, t, n => ∃ tm : Tm, tm.Proper ∧ tm.time2t = |t| ∧ n = t.sign * tm.number 0
  | .date, d, n => 0 ≤ d + POSTGRES_EPOCH_JDATE ∧
      n = Calendar.dateNumber (j2date (d + POSTGRES_EPOCH_JDATE).toNat) * 1000000

theorem reads_timestamp {t : Int} (covers : TemporalType.Covers .timestamp t) :
    ∃ n : ℤ, TemporalType.Reads .timestamp t n ∧ convertParameterToNumeric .timestamp t = some ((n : ℚ) / 1000000) := by
  obtain ⟨valid, years⟩ := covers
  obtain ⟨tm, jd, fields, of⟩ := timestamp2tm_valid valid
  have year := years tm fields
  have hour := of.hour
  rw [of.date.1] at year
  have positive : 0 ≤ Calendar.dateNumber (j2date jd) := by unfold Calendar.dateNumber; omega
  have proper : tm.Proper := ⟨hour.1, of.min, of.sec, of.fsec⟩
  have text := proper.numericIn_eq ((dateFields_spells year).pair (by omega : tm.tm_hour.toNat < 100))
  rw [Int.toNat_of_nonneg positive] at text
  refine ⟨_, ⟨tm, jd, of, rfl⟩, ?_⟩
  rw [convertParameterToNumeric, fields, Option.map_some, of.date.1, of.date.2.1, of.date.2.2, text]

theorem reads_date {d : Int} (covers : TemporalType.Covers .date d) :
    ∃ n : ℤ, TemporalType.Reads .date d n ∧ convertParameterToNumeric .date d = some ((n : ℚ) / 1000000) := by
  obtain ⟨low, -, year⟩ := covers
  have date := dateFields_spells year
  have text := date.numericIn_eq []
  rw [append_nil, date.reading] at text
  have whole : ((Calendar.dateNumber (j2date (d + POSTGRES_EPOCH_JDATE).toNat)).toNat : ℚ) =
      Calendar.dateNumber (j2date (d + POSTGRES_EPOCH_JDATE).toNat) := by
    refine mod_cast Int.toNat_of_nonneg ?_
    unfold Calendar.dateNumber
    omega
  refine ⟨_, ⟨low, rfl⟩, ?_⟩
  rw [convertParameterToNumeric, Int.cast_mul, Int.cast_ofNat, mul_div_cancel_right₀ _ (by norm_num), ← whole, ← text]

theorem time2tm_proper {t : Int} (nonneg : 0 ≤ t) (small : t < 3020400000000) :
    (time2tm t).Proper ∧ (time2tm t).time2t = t := by
  unfold time2tm toInt32
  dsimp only
  rw [Int.tdiv_eq_ediv_of_nonneg nonneg, Int.tdiv_eq_ediv_of_nonneg (by omega), Int.tdiv_eq_ediv_of_nonneg (by omega)]
  refine ⟨⟨?_, ?_, ?_, ?_⟩, ?_⟩
  all_goals
    dsimp only [Tm.time2t]
    omega

theorem convert_time {t : Int} (covers : TemporalType.Covers .time t) :
    convertParameterToNumeric .time t = some (((t.sign * (time2tm |t|).number 0 : ℤ) : ℚ) / 1000000) := by
  obtain ⟨low, high⟩ := covers
  have text (time : Int) (nonneg : 0 ≤ time) (small : time < 3020400000000) :
      numericIn (timeFields [] (time2tm time)) = ((time2tm time).number 0 : ℚ) / 1000000 := by
    refine (time2tm_proper nonneg small).1.numericIn_eq (v := 0) ?_
    simpa using spells_padded 2 (time2tm time).tm_hour.toNat
  rcases lt_trichotomy t 0 with negative | rfl | positive
  · have value := text (-t) (by omega) (by omega)
    rw [timeFields, nil_append, append_assoc, (spells_padded 2 _).numericIn_eq, ← append_assoc] at value
    simp only [convertParameterToNumeric, negative, if_true, Int.mul_neg_one, numericIn, timeFields, nil_append, value]
    rw [Int.sign_eq_neg_one_of_neg negative, abs_of_neg negative, Int.neg_one_mul, Int.cast_neg, neg_div]
  · simp only [convertParameterToNumeric, lt_irrefl, if_false, text 0 (le_refl 0) high]
    rfl
  · simp only [convertParameterToNumeric, positive.not_gt, if_false, text t positive.le high]
    rw [Int.sign_eq_one_of_pos positive, abs_of_pos positive, Int.one_mul]

theorem reads_time {t : Int} (covers : TemporalType.Covers .time t) :
    ∃ n : ℤ, TemporalType.Reads .time t n ∧ convertParameterToNumeric .time t = some ((n : ℚ) / 1000000) := by
  obtain ⟨proper, time⟩ := time2tm_proper (abs_nonneg t) (abs_lt.mpr covers)
  exact ⟨_, ⟨_, proper, time, rfl⟩, convert_time covers⟩

theorem convert_reads (type : TemporalType) (t : Int) (covers : type.Covers t) :
    ∃ n : ℤ, type.Reads t n ∧ convertParameterToNumeric type t = some ((n : ℚ) / 1000000) := by
  cases type with
  | timestamp => exact reads_timestamp covers
  | time => exact reads_time covers
  | date => exact reads_date covers

theorem TemporalType.Reads.lt {type : TemporalType} {a b m n : Int} (first : type.Reads a m) (second : type.Reads b n)
    (less : a < b) : m < n := by
  cases type with
  | timestamp =>
    obtain ⟨tm, jd, first, rfl⟩ := first
    obtain ⟨tm', jd', second, rfl⟩ := second
    have before := first.instant
    have after := second.instant
    have time := first.time
    have time' := second.time
    have hour := first.hour
    unfold USECS_PER_DAY at *
    refine Tm.Proper.number_lt ⟨first.hour.1, first.min, first.sec, first.fsec⟩
      ⟨second.hour.1, second.min, second.sec, second.fsec⟩ ?_
    rcases Nat.lt_trichotomy jd jd' with earlier | rfl | later
    · exact .inl ⟨Calendar.j2date_lt earlier, by omega⟩
    · exact .inr ⟨rfl, by omega⟩
    · omega
  | date =>
    obtain ⟨low, rfl⟩ := first
    obtain ⟨-, rfl⟩ := second
    have order := Calendar.j2date_lt (show (a + POSTGRES_EPOCH_JDATE).toNat < (b + POSTGRES_EPOCH_JDATE).toNat by omega)
    omega
  | time =>
    obtain ⟨tm, proper, time, rfl⟩ := first
    obtain ⟨tm', proper', time', rfl⟩ := second
    have positive {tm : Tm} (proper : tm.Proper) (nonzero : 0 < tm.time2t) : 0 < tm.number 0 := by
      obtain ⟨_, _, _, _⟩ := proper
      unfold Tm.number Tm.time2t at *
      omega
    -- by the signs of the two times
    rcases lt_trichotomy a 0 with negative | rfl | above
    · rw [abs_of_neg negative] at time
      rw [Int.sign_eq_neg_one_of_neg negative]
      have here := positive proper (by omega)
      rcases lt_trichotomy b 0 with also | rfl | above
      · rw [abs_of_neg also] at time'
        have mirrored : tm'.number 0 < tm.number 0 := proper'.number_lt proper (.inr ⟨rfl, by omega⟩)
        rw [Int.sign_eq_neg_one_of_neg also]
        omega
      · rw [Int.sign_zero]
        omega
      · rw [abs_of_pos above] at time'
        have there := positive proper' (by omega)
        rw [Int.sign_eq_one_of_pos above]
        omega
    · rw [abs_of_pos less] at time'
      have there := positive proper' (by omega)
      rw [Int.sign_zero, Int.sign_eq_one_of_pos less]
      omega
    · rw [abs_of_pos above] at time
      rw [abs_of_pos (by omega)] at time'
      have grown : tm.number 0 < tm'.number 0 := proper.number_lt proper' (.inr ⟨rfl, by omega⟩)
      rw [Int.sign_eq_one_of_pos above, Int.sign_eq_one_of_pos (by omega)]
      omega

/-- Values in the order of their numbers, and equal only where their numbers are. -/
def Ordered (type : TemporalType) : Prop :=
  ∀ a b, type.Covers a → type.Covers b → ∃ x y, convertParameterToNumeric type a = some x ∧
    convertParameterToNumeric type b = some y ∧ (a < b ↔ x < y) ∧ (a = b ↔ x = y)

theorem ordered (type : TemporalType) : Ordered type := by
  intro a b inA inB
  obtain ⟨m, readA, first⟩ := convert_reads type a inA
  obtain ⟨n, readB, second⟩ := convert_reads type b inB
  have order {i j : Int} (less : i < j) : (i : ℚ) / 1000000 < j / 1000000 :=
    div_lt_div_of_pos_right (Int.cast_lt.mpr less) (by norm_num)
  refine ⟨_, _, first, second, ?_⟩
  rcases lt_trichotomy a b with before | rfl | after
  · have less := order (readA.lt readB before)
    exact ⟨iff_of_true before less, iff_of_false before.ne less.ne⟩
  · have same := Option.some.inj (first.symm.trans second)
    exact ⟨iff_of_false (lt_irrefl a) same.not_lt, iff_of_true rfl same⟩
  · have less := order (readB.lt readA after)
    exact ⟨iff_of_false after.not_gt less.not_gt, iff_of_false after.ne' less.ne'⟩

/-- The conversion reads the digits, keeps the order, and turns the opposite time into the opposite number. -/
theorem temporal_numbers :
    (∀ (type : TemporalType) (t : Int), type.Covers t →
      ∃ n : ℤ, type.Reads t n ∧ convertParameterToNumeric type t = some ((n : ℚ) / 1000000)) ∧
    (∀ type, Ordered type) ∧
    ∀ t, TemporalType.Covers .time t →
      convertParameterToNumeric .time (-t) = (convertParameterToNumeric .time t).map (-·) := by
  refine ⟨convert_reads, ordered, fun t covers => ?_⟩
  have opposite : TemporalType.Covers .time (-t) := ⟨by have := covers.2; omega, by have := covers.1; omega⟩
  rw [convert_time covers, convert_time opposite, Option.map_some, ← neg_div, ← Int.cast_neg, Int.sign_neg, abs_neg,
    Int.neg_mul]

/-- The 29th of February 2024, 12:34:56.5. -/
def leapDay : Int := 762525296500000

theorem temporal_numbers_leapDay : ∃ n : ℤ, TemporalType.Reads .timestamp leapDay n ∧
    (n : ℚ) / 1000000 = 202402291234565 / 10 ∧
    convertParameterToNumeric .timestamp leapDay = some (202402291234565 / 10) := by
  have covers : TemporalType.Covers .timestamp leapDay := by
    refine ⟨⟨by decide, by decide⟩, fun tm fields => ?_⟩
    cases fields
    decide
  have value : convertParameterToNumeric .timestamp leapDay = some (202402291234565 / 10) := by decide +kernel
  obtain ⟨n, reads, number⟩ := temporal_numbers.1 .timestamp leapDay covers
  exact ⟨n, reads, Option.some.inj (number.symm.trans value), value⟩

end OpenHalo
