import OpenHalo.Temporal.NumberDatetime

namespace OpenHalo.Datetime
open Octets

def MYS_MAX_TIME_HOUR : Int := 838

def tm2time (tm : PgTm) (fsec : Nat) : Int :=
  ((tm.tm_hour * 60 + tm.tm_min) * 60 + tm.tm_sec) * 1000000 + fsec

def incorrectTime (number : Int) : Bytes :=
  ascii "Incorrect time value: '" ++ signedDecimal number ++ ascii "' out of range"

/-- Huge numbers are tried as a full datetime, of which the time of day is taken. -/
def mysNumberToTimeInternal (outside number : Int) : Except Bytes Int :=
  if MYS_MAX_TIME_HOUR < number then
    if 10000000000 ≤ number then
      match mysDecodeNumberDatetime outside number 0 with
      | .error message => .error message
      | .ok (some tm) => .ok (tm2time tm 0)
      | .ok none => .error (incorrectTime number)
    else .error (incorrectTime number)
  else if number < -MYS_MAX_TIME_HOUR then .error (incorrectTime number)
  else
    let number := number.natAbs
    if 60 ≤ number / 100 % 100 ∨ 60 ≤ number % 100 then .error (incorrectTime number)
    else .ok (tm2time ⟨0, 0, 0, number / 10000, number / 100 % 100, number % 100⟩ 0)

/-- The number has the decimal reading `hmmss` of a time of either sign. -/
def Reads (number time : Int) : Prop :=
  ∃ sign : Int, ∃ h m s : Nat, (sign = 1 ∨ sign = -1) ∧ h ≤ 838 ∧ m ≤ 59 ∧ s ≤ 59 ∧
    number = sign * (h * 10000 + m * 100 + s) ∧ time = sign * (((h * 60 + m) * 60 + s) * 1000000)

/-- Minutes, seconds or the number are out of range, and it is no datetime. -/
structure Improper (outside number : Int) : Prop where
  range : 60 ≤ number.natAbs / 100 % 100 ∨ 60 ≤ number.natAbs % 100 ∨ 8385959 < number.natAbs
  undated : ∀ tm, mysDecodeNumberDatetime outside number 0 ≠ .ok (some tm)

variable {outside number time : Int}

theorem Reads.range (reads : Reads number time) : number.natAbs ≤ 8385959 := by
  obtain ⟨sign, h, m, s, rfl | rfl, hours, minutes, seconds, rfl, -⟩ := reads <;> omega

theorem numberToTime_reads (reads : Reads number time) (low : -838 ≤ number) (high : number ≤ 838) :
    mysNumberToTimeInternal outside number = .ok time.natAbs := by
  obtain ⟨sign, h, m, s, signs, hours, minutes, seconds, rfl, rfl⟩ := reads
  have size : (sign * (h * 10000 + m * 100 + s)).natAbs = h * 10000 + m * 100 + s := by
    rcases signs with rfl | rfl <;> omega
  have length : (sign * (((h * 60 + m) * 60 + s) * 1000000) : Int).natAbs = ((h * 60 + m) * 60 + s) * 1000000 := by
    rcases signs with rfl | rfl <;> omega
  have hour : (h * 10000 + m * 100 + s) / 10000 = h := by omega
  have minute : (h * 10000 + m * 100 + s) / 100 % 100 = m := by omega
  have second : (h * 10000 + m * 100 + s) % 100 = s := by omega
  rw [mysNumberToTimeInternal, MYS_MAX_TIME_HOUR, if_neg (by omega), if_neg (by omega), size, length]
  simp only [hour, minute, second]
  rw [if_neg (by omega), tm2time]
  simp

theorem numberToTime_far (far : number < -838 ∨ 838 < number ∧ number < 10000000000) :
    mysNumberToTimeInternal outside number = .error (incorrectTime number) := by
  rcases far with low | ⟨high, short⟩
  · rw [mysNumberToTimeInternal, MYS_MAX_TIME_HOUR, if_neg (by omega), if_pos (by omega)]
  · rw [mysNumberToTimeInternal, MYS_MAX_TIME_HOUR, if_pos (by omega), if_neg (by omega)]

theorem numberToTime_improper (improper : Improper outside number) :
    ∃ message, mysNumberToTimeInternal outside number = .error message := by
  by_cases far : number < -838 ∨ 838 < number ∧ number < 10000000000
  · exact ⟨_, numberToTime_far far⟩
  by_cases huge : 838 < number
  · rw [mysNumberToTimeInternal, MYS_MAX_TIME_HOUR, if_pos huge, if_pos (by omega)]
    rcases decoded : mysDecodeNumberDatetime outside number 0 with message | _ | tm
    · exact ⟨message, rfl⟩
    · exact ⟨_, rfl⟩
    · exact absurd decoded (improper.undated tm)
  · have range := improper.range
    rw [mysNumberToTimeInternal, MYS_MAX_TIME_HOUR, if_neg huge, if_neg (by omega)]
    exact ⟨_, if_pos (by omega)⟩

/-- Numbers are converted as they are read exactly if those with a reading lie in 0..838. -/
theorem numberToTime_iff (outside number : Int) :
    (∀ time, Reads number time → mysNumberToTimeInternal outside number = .ok time) ∧
      (Improper outside number → ∃ message, mysNumberToTimeInternal outside number = .error message) ↔
    ((∃ time, Reads number time) → 0 ≤ number ∧ number ≤ 838) := by
  constructor
  · rintro ⟨converted, -⟩ ⟨time, reads⟩
    have small := reads.range
    have right := converted time reads
    by_cases far : number < -838 ∨ 838 < number ∧ number < 10000000000
    · rw [numberToTime_far far] at right
      cases right
    · rw [numberToTime_reads reads (by omega) (by omega)] at right
      have same : (time.natAbs : Int) = time := Except.ok.inj right
      obtain ⟨sign, h, m, s, rfl | rfl, -, -, -, rfl, rfl⟩ := reads <;> omega
  · intro within
    refine ⟨fun time reads => ?_, numberToTime_improper⟩
    obtain ⟨low, high⟩ := within ⟨time, reads⟩
    rw [numberToTime_reads reads (by omega) high]
    obtain ⟨sign, h, m, s, rfl | rfl, -, -, -, rfl, rfl⟩ := reads <;> exact congrArg Except.ok (by omega)

theorem numberToTime_refused :
    Reads 1000 600000000 ∧ mysNumberToTimeInternal 0 1000 = .error (ascii "Incorrect time value: '1000' out of range") ∧
      Reads (-100) (-60000000) ∧ mysNumberToTimeInternal 0 (-100) = .ok 60000000 :=
  ⟨⟨1, 0, 10, 0, by decide⟩, by decide +kernel, ⟨-1, 0, 1, 0, by decide⟩, by decide +kernel⟩

end OpenHalo.Datetime
