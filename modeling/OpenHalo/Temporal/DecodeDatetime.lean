import Mathlib.Tactic.IntervalCases
import OpenHalo.Lib.Scanning

namespace OpenHalo.Datetime
open Octets List

/-- The fields of `struct pg_tm` that a datetime has. -/
structure PgTm where
  tm_year : Nat
  tm_mon : Nat
  tm_mday : Nat
  tm_hour : Nat
  tm_min : Nat
  tm_sec : Nat
deriving Repr, DecidableEq

section Checks

def MYS_TIME_FUZZY_DATE : Nat := 1
def MYS_TIME_NO_ZERO_IN_DATE : Nat := 16
def MYS_TIME_NO_ZERO_DATE : Nat := 32
def MYS_TIME_INVALID_DATES : Nat := 64

def MYS_MAX_TIME_ZONE_HOURS : Nat := 14

def MYS_MAX_TIMESTAMP_PARTS : Nat := 8

def isleap (y : Nat) : Bool := y % 4 == 0 && (y % 100 != 0 || y % 400 == 0)

/-- `day_tab[isleap(year)][mon - 1]`. Month 0 reads in front of the row: the end of the other row, or
other memory. -/
def dayTab (outside : Int) (leap : Bool) (mon : Nat) : Int :=
  match mon with
  | 0 => if leap then 0 else outside
  | mon + 1 => [31, if leap then 29 else 28, 31, 30, 31, 30, 31, 31, 30, 31, 30, 31, 0].getD mon 0

def mysCheckTimestampRange (tm : PgTm) (fsec : Nat) : Bool :=
  tm.tm_year ≤ 9999 && tm.tm_mon ≤ 12 && tm.tm_mday ≤ 31 &&
    tm.tm_hour ≤ 23 && tm.tm_min ≤ 59 && tm.tm_sec ≤ 59 && fsec ≤ 999999

def mysCheckDate (outside : Int) (tm : PgTm) (notZeroDate : Bool) (flags : Nat) : Bool :=
  if notZeroDate then
    if (flags &&& MYS_TIME_NO_ZERO_IN_DATE ≠ 0 ∨ flags &&& MYS_TIME_FUZZY_DATE = 0) ∧
      (tm.tm_mon = 0 ∨ tm.tm_mday = 0) then false
    else if flags &&& MYS_TIME_INVALID_DATES = 0 ∧ dayTab outside (isleap tm.tm_year) tm.tm_mon < tm.tm_mday then false
    else true
  else if flags &&& MYS_TIME_NO_ZERO_DATE ≠ 0 then false
  else true

/-- A displacement `{+-}HH:MM` at the beginning of the string, of which `length` bytes are looked at. -/
def tzDisplacement2Seconds (str : Bytes) (length : Nat) : Option Int :=
  let c (i : Nat) : UInt8 := str.getD i 0
  let digit (i : Nat) : Nat := (c i).toNat - 48
  let sign : Int := if c 0 = 43 then 1 else if c 0 = 45 then -1 else 0
  let hours := digit 1 * 10 + digit 2
  let minutes := digit 4 * 10 + digit 5
  let seconds := hours * 3600 + minutes * 60
  if length < 6 then none
  else if sign = 0 then none
  else if !(isDigit (c 1) && isDigit (c 2)) then none
  else if c 3 ≠ 58 then none
  else if !(isDigit (c 4) && isDigit (c 5)) then none
  else if 60 ≤ minutes then none
  else if MYS_MAX_TIME_ZONE_HOURS * 3600 < seconds then none
  else if sign = -1 ∧ hours = 0 ∧ minutes = 0 then none
  else if !((str.take length).drop 6).all isBlank then none
  else some (-(seconds * sign))

end Checks

/-- The values and lengths of the parts so far, and the string from `strIndex` on. -/
structure Scan where
  parts : List (Nat × Nat)
  rest : Bytes
  tz : Option Int
  foundDelimiter : Bool
  foundSpace : Bool
deriving Repr, DecidableEq

namespace Scan

/-- `tsParts[i]`. -/
def part (s : Scan) (i : Nat) : Nat := (s.parts.getD i (0, 0)).1

/-- `tsPartsLen[i]`. -/
def partLen (s : Scan) (i : Nat) : Nat := (s.parts.getD i (0, 0)).2

def notZeroDate (s : Scan) : Bool := s.parts.any fun part => part.1 != 0

end Scan

/-- One part: value, length and what is left. It has at most `limit` digits, and above 999999 is an error. -/
def scanDigits (limit : Option Nat) (value : Nat) : Bytes → Option (Nat × Nat × Bytes)
  | [] => some (value, 0, [])
  | c :: rest =>
    if isDigit c = true ∧ limit ≠ some 0 then
      if 999999 < value * 10 + (c.toNat - 48) then none
      else (scanDigits (limit.map (· - 1)) (value * 10 + (c.toNat - 48)) rest).map fun (value, length, rest) =>
        (value, length + 1, rest)
    else some (value, 0, c :: rest)

def isDelimiter (c : UInt8) : Bool := isPunct c || isBlank c

def skipDelimiters (allowSpace : Bool) (s : Scan) : Option Scan :=
  let delimiters := s.rest.takeWhile isDelimiter
  if !allowSpace && delimiters.any isBlank then none
  else some { s with
    rest := s.rest.dropWhile isDelimiter
    foundDelimiter := s.foundDelimiter || !delimiters.isEmpty
    foundSpace := s.foundSpace || delimiters.any isBlank }

inductive Turn
  | next (currentPartLen : Nat) (s : Scan)
  | stop (s : Scan)

/-- What follows a part. The function `displacement` reads a time zone from here on. -/
def behindPart (displacement : Bytes → Option Int) (tsPartIndex : Nat) (s : Scan) : Option Turn :=
  match s.rest with
  | [] => some (.stop s)
  | c :: rest =>
    if tsPartIndex = 2 ∧ c = 84 then some (.next 2 { s with rest := rest })
    else if tsPartIndex = 5 then
      if c = 46 then some (.next 6 { s with rest := rest })
      else if isDigit c then some (.stop s)
      else if c = 43 ∨ c = 45 then (displacement s.rest).map fun tz => .next 2 { s with rest := [], tz := some tz }
      else some (.next 2 s)
    else if tsPartIndex = 6 ∧ (c = 43 ∨ c = 45) then (displacement s.rest).map fun tz =>
      .next 2 { s with rest := [], tz := some tz }
    else (skipDelimiters (tsPartIndex = 2 ∨ tsPartIndex = 6) s).map (.next 2)

def scanPart (displacement : Bytes → Option Int) (isInternalFormat : Bool) (currentPartLen : Nat) (s : Scan) :
    Option Turn :=
  let tsPartIndex := s.parts.length
  let scanUntilDelim := !isInternalFormat && tsPartIndex != 6
  match scanDigits (if scanUntilDelim then none else some currentPartLen) 0 s.rest with
  | none => none
  | some (value, length, rest) =>
      behindPart displacement tsPartIndex { s with parts := s.parts ++ [(value, length)], rest := rest }

/-- The loop over the parts, of which `left` may still come. -/
def scanParts (displacement : Bytes → Option Int) (isInternalFormat : Bool) : Nat → Nat → Scan → Option Scan
  | 0, _, s => some s
  | left + 1, currentPartLen, s =>
    if s.rest.head?.any isDigit then
      match scanPart displacement isInternalFormat currentPartLen s with
      | none => none
      | some (.stop s) => some s
      | some (.next currentPartLen s) => scanParts displacement isInternalFormat left currentPartLen s
    else some s

/-- The parts have fixed widths: digits, perhaps with a `T`, up to the end or a dot. -/
def isInternalFormat (text : Bytes) : Bool := (text.dropWhile fun c => isDigit c || c == 84).head?.all (· == 46)

def internalYearLen (text : Bytes) : Nat :=
  let numLen := (text.takeWhile fun c => isDigit c || c == 84).length
  if numLen = 4 ∨ numLen = 8 ∨ 14 ≤ numLen then 4 else 2

def scanDatetime (displacement : Bytes → Option Int) (str : Bytes) : Option (Scan × Nat) :=
  let text := str.dropWhile isBlank
  if !text.head?.any isDigit then none
  else
    let currentPartLen := if isInternalFormat text then internalYearLen text else 4
    match scanParts displacement (isInternalFormat text) (MYS_MAX_TIMESTAMP_PARTS - 1) currentPartLen ⟨[], text, none,
      false, false⟩ with
    | none => none
    | some s =>
      let yearLen := if isInternalFormat text then internalYearLen text else s.partLen 0
      if yearLen = 0 then none else some (s, yearLen)

namespace Scan

def tm (s : Scan) (yearLen : Nat) : PgTm where
  tm_year := if yearLen = 2 ∧ s.notZeroDate then s.part 0 + (if s.part 0 < 70 then 2000 else 1900) else s.part 0
  tm_mon := s.part 1
  tm_mday := s.part 2
  tm_hour := s.part 3
  tm_min := s.part 4
  tm_sec := s.part 5

def fsec (s : Scan) : Nat := if s.partLen 6 ≤ 6 then s.part 6 * 10 ^ (6 - s.partLen 6) else 0

def seventhDigit (s : Scan) : Nat × Bytes :=
  match s.rest with
  | [] => (0, [])
  | c :: rest => if s.partLen 6 = 6 ∧ isDigit c then (c.toNat - 48, rest.dropWhile isDigit) else (0, c :: rest)

end Scan

structure Decoded where
  tm : PgTm
  fsec : Nat
  tz : Option Int
deriving Repr, DecidableEq

def displacementHere (rest : Bytes) : Option Int := tzDisplacement2Seconds rest rest.length

def mysDecodeStringDatetime (outside : Int) (str : Bytes) (flags : Nat) : Option Decoded :=
  match scanDatetime displacementHere str with
  | none => none
  | some (s, yearLen) =>
    let tm := s.tm yearLen
    if s.parts.length < 3 || !mysCheckTimestampRange tm s.fsec then none
    else if !mysCheckDate outside tm s.notZeroDate flags then none
    else
      let (digit, rest) := s.seventhDigit
      let fsec := s.fsec + if 5 ≤ digit then 1 else 0
      if rest.head?.any fun c => c == 43 || c == 45 then (displacementHere rest).map fun tz => ⟨tm, fsec, some tz⟩
      else if rest.all isBlank then some ⟨tm, fsec, s.tz⟩
      else none

section Sound

def monthLength (year month : Nat) : Nat :=
  if month = 2 then if (4 ∣ year ∧ ¬100 ∣ year) ∨ 400 ∣ year then 29 else 28
  else if month ∈ [4, 6, 9, 11] then 30
  else 31

structure Real (tm : PgTm) : Prop where
  month : 1 ≤ tm.tm_mon ∧ tm.tm_mon ≤ 12
  day : 1 ≤ tm.tm_mday ∧ tm.tm_mday ≤ monthLength tm.tm_year tm.tm_mon
  hour : tm.tm_hour ≤ 23
  minute : tm.tm_min ≤ 59
  second : tm.tm_sec ≤ 59

def noZeros : Nat := MYS_TIME_NO_ZERO_DATE ||| MYS_TIME_NO_ZERO_IN_DATE

variable {outside : Int} {tm : PgTm} {fsec : Nat} {notZeroDate : Bool}

theorem dayTab_month {year month : Nat} (positive : 1 ≤ month) (upTo : month ≤ 12) :
    dayTab outside (isleap year) month = monthLength year month := by
  have leap : isleap year = true ↔ (4 ∣ year ∧ ¬100 ∣ year) ∨ 400 ∣ year := by
    simp only [isleap, Bool.and_eq_true, Bool.or_eq_true, beq_iff_eq, bne_iff_ne]
    omega
  simp only [monthLength, ← leap]
  interval_cases month <;> cases isleap year <;> rfl

theorem mysCheckTimestampRange_iff : mysCheckTimestampRange tm fsec = true ↔
    tm.tm_year ≤ 9999 ∧ tm.tm_mon ≤ 12 ∧ tm.tm_mday ≤ 31 ∧ tm.tm_hour ≤ 23 ∧ tm.tm_min ≤ 59 ∧ tm.tm_sec ≤ 59 ∧
    fsec ≤ 999999 := by
  simp [mysCheckTimestampRange, and_assoc]

theorem mysCheckDate_iff (month : tm.tm_mon ≤ 12) : mysCheckDate outside tm notZeroDate noZeros = true ↔
    notZeroDate = true ∧ 1 ≤ tm.tm_mon ∧ 1 ≤ tm.tm_mday ∧ tm.tm_mday ≤ monthLength tm.tm_year tm.tm_mon := by
  have inDate : noZeros &&& MYS_TIME_NO_ZERO_IN_DATE ≠ 0 := by decide
  have date : noZeros &&& MYS_TIME_NO_ZERO_DATE ≠ 0 := by decide
  have valid : noZeros &&& MYS_TIME_INVALID_DATES = 0 := by decide
  cases notZeroDate with
  | false => simp [mysCheckDate, date]
  | true =>
    by_cases zero : tm.tm_mon = 0 ∨ tm.tm_mday = 0
    · have checked : mysCheckDate outside tm true noZeros = false := by
        rw [mysCheckDate, if_pos rfl, if_pos ⟨Or.inl inDate, zero⟩]
      rw [checked]
      simp only [Bool.false_eq_true, false_iff]
      omega
    · have table := @dayTab_month outside tm.tm_year tm.tm_mon (by omega) month
      rw [mysCheckDate, if_pos rfl]
      split <;> simp <;> omega

theorem real_of_checks (range : mysCheckTimestampRange tm fsec = true)
    (date : mysCheckDate outside tm notZeroDate noZeros = true) :
    Real tm := by
  obtain ⟨-, month, -, hour, minute, second, -⟩ := mysCheckTimestampRange_iff.mp range
  obtain ⟨-, first, day, upTo⟩ := (mysCheckDate_iff month).mp date
  exact ⟨⟨first, month⟩, ⟨day, upTo⟩, hour, minute, second⟩

theorem Real.checks (outside : Int) (real : Real tm) (year : tm.tm_year ≤ 9999) (small : fsec ≤ 999999) :
    mysCheckTimestampRange tm fsec = true ∧ mysCheckDate outside tm true noZeros = true := by
  have longest : monthLength tm.tm_year tm.tm_mon ≤ 31 := by
    unfold monthLength
    split <;> split <;> decide
  exact ⟨mysCheckTimestampRange_iff.mpr ⟨year, real.month.2, le_trans real.day.2 longest, real.hour, real.minute,
    real.second, small⟩, (mysCheckDate_iff real.month.2).mpr ⟨rfl, real.month.1, real.day⟩⟩

theorem mysDecodeStringDatetime_whole {str : Bytes} {flags yearLen : Nat} {s : Scan}
    (scanned : scanDatetime displacementHere str = some (s, yearLen))
    (whole : s.rest = []) (parts : 3 ≤ s.parts.length) : mysDecodeStringDatetime outside str flags =
      if mysCheckTimestampRange (s.tm yearLen) s.fsec && mysCheckDate outside (s.tm yearLen) s.notZeroDate flags
      then some ⟨s.tm yearLen, s.fsec, s.tz⟩ else none := by
  have enough : decide (s.parts.length < 3) = false := decide_eq_false (by omega)
  have last : s.seventhDigit = (0, []) := by simp [Scan.seventhDigit, whole]
  simp only [mysDecodeStringDatetime, scanned, enough, last]
  cases mysCheckTimestampRange (s.tm yearLen) s.fsec with
  | false => rfl
  | true => cases mysCheckDate outside (s.tm yearLen) s.notZeroDate flags <;> rfl

theorem mysDecodeStringDatetime_inv {str : Bytes} {flags : Nat} {d : Decoded}
    (accepted : mysDecodeStringDatetime outside str flags = some d) :
    ∃ s yearLen, scanDatetime displacementHere str = some (s, yearLen) ∧ 3 ≤ s.parts.length ∧ d.tm = s.tm yearLen ∧
      mysCheckTimestampRange d.tm s.fsec = true ∧ mysCheckDate outside d.tm s.notZeroDate flags = true ∧
      s.fsec ≤ d.fsec ∧ d.fsec ≤ s.fsec + 1 := by
  unfold mysDecodeStringDatetime at accepted
  split at accepted
  · cases accepted
  rename_i s yearLen scanned
  simp only [Bool.or_eq_true, decide_eq_true_eq, Bool.not_eq_true'] at accepted
  split at accepted
  · cases accepted
  rename_i complete
  split at accepted
  · cases accepted
  rename_i checked
  have rounded : s.fsec ≤ s.fsec + (if 5 ≤ s.seventhDigit.1 then 1 else 0) ∧
      s.fsec + (if 5 ≤ s.seventhDigit.1 then 1 else 0) ≤ s.fsec + 1 := by split <;> omega
  have result : d.tm = s.tm yearLen ∧ d.fsec = s.fsec + if 5 ≤ s.seventhDigit.1 then 1 else 0 := by
    split at accepted
    · obtain ⟨tz, -, rfl⟩ := Option.map_eq_some_iff.mp accepted
      exact ⟨rfl, rfl⟩
    split at accepted
    · cases accepted
      exact ⟨rfl, rfl⟩
    · cases accepted
  refine ⟨s, yearLen, scanned, by omega, result.1, ?_, ?_, by rw [result.2]; exact rounded.1,
    by rw [result.2]; exact rounded.2⟩
  · rw [result.1]
    exact Bool.eq_true_of_not_eq_false fun range => complete (Or.inr range)
  · rw [result.1]
    exact Bool.eq_true_of_not_eq_false checked

end Sound

section Parts

variable {displacement : Bytes → Option Int} {isInternalFormat : Bool} {left width : Nat} {s : Scan} {n : Numeral}
  {rest : Bytes}

/-- A part of `length` digits ends: by its limit, or since no digit follows. -/
def Stops (limit : Option Nat) (length : Nat) (rest : Bytes) : Prop :=
  limit = some length ∨ Ends isDigit rest ∧ ∀ most ∈ limit, length ≤ most

theorem scanDigits_row {ds : Bytes} (digits : ∀ c ∈ ds, isDigit c = true) {limit : Option Nat} {value : Nat}
    (bounded : value * 10 ^ ds.length + digitsValue ds ≤ 999999) (stops : Stops limit ds.length rest) :
    scanDigits limit value (ds ++ rest) = some (value * 10 ^ ds.length + digitsValue ds, ds.length, rest) := by
  induction ds generalizing limit value with
  | nil =>
    have ended : ∀ c ∈ rest.head?, ¬(isDigit c = true ∧ limit ≠ some 0) := by
      intro c first both
      rcases stops with full | ⟨ends, -⟩
      · exact both.2 full
      · exact absurd both.1 (by simp [ends c first])
    cases rest with
    | nil => simp [scanDigits, digitsValue]
    | cons c rest => simp [scanDigits, ended c rfl, digitsValue]
  | cons d ds ih =>
    have digit := digits d (mem_cons_self ..)
    have shift : value * 10 ^ (d :: ds).length + digitsValue (d :: ds) =
        (value * 10 + (d.toNat - 48)) * 10 ^ ds.length + digitsValue ds := by
      rw [digitsValue_cons, length_cons]
      ring
    have positive : 0 < 10 ^ ds.length := Nat.pow_pos (by decide)
    have small : value * 10 + (d.toNat - 48) ≤ 999999 := by
      exact le_trans (Nat.le_mul_of_pos_right _ positive) (by omega)
    have room : limit ≠ some 0 := by
      rcases stops with full | ⟨-, most⟩
      · simp [full]
      · intro none
        exact absurd (most 0 none) (by simp)
    have further : Stops (limit.map (· - 1)) ds.length rest := by
      rcases stops with full | ⟨ends, most⟩
      · exact Or.inl (by simp [full])
      refine Or.inr ⟨ends, ?_⟩
      intro k taken
      obtain ⟨m, limited, rfl⟩ := Option.mem_map.mp taken
      have upTo := most m limited
      simp only [length_cons] at upTo
      omega
    rw [cons_append, scanDigits, if_pos ⟨digit, room⟩, if_neg (by omega),
      ih (forall_mem_cons.mp digits).2 (by rw [← shift]; exact bounded) further, ← shift]
    rfl

theorem head_digit (n : Numeral) (rest : Bytes) : (n.digits ++ rest).head?.any isDigit = true := by
  obtain ⟨ds, nonempty, numeric⟩ := n
  cases ds with
  | nil => exact absurd rfl nonempty
  | cons d ds => simpa using numeric d (mem_cons_self ..)

def Scan.behind (s : Scan) (n : Numeral) (rest : Bytes) : Scan :=
  { s with parts := s.parts ++ [(n.value, n.digits.length)], rest := rest }

theorem scanPart_numeral (text : s.rest = n.digits ++ rest) (small : n.value ≤ 999999)
    (stops : Stops (if !isInternalFormat && s.parts.length != 6 then none else some width) n.digits.length rest) :
    scanPart displacement isInternalFormat width s = behindPart displacement s.parts.length (s.behind n rest) := by
  have row := scanDigits_row n.numeric (by rw [Nat.zero_mul, Nat.zero_add]; exact small) stops
  rw [Nat.zero_mul, Nat.zero_add] at row
  simp only [scanPart, text, row]
  rfl

theorem scanParts_next {width' : Nat} {s' : Scan} (text : s.rest = n.digits ++ rest)
    (turn : scanPart displacement isInternalFormat width s = some (.next width' s')) :
    scanParts displacement isInternalFormat (left + 1) width s =
      scanParts displacement isInternalFormat left width' s' := by
  rw [scanParts, if_pos (by rw [text]; exact head_digit n rest), turn]

theorem scanParts_last (text : s.rest = n.digits) (small : n.value ≤ 999999)
    (fits : (!isInternalFormat && s.parts.length != 6) = false → n.digits.length ≤ width) :
    scanParts displacement isInternalFormat (left + 1) width s = some (s.behind n []) := by
  have stops : Stops (if !isInternalFormat && s.parts.length != 6 then none else some width) n.digits.length [] := by
    refine Or.inr ⟨ends_nil, ?_⟩
    intro most limited
    split at limited
    · cases limited
    rename_i fixed
    cases limited
    exact fits (Bool.eq_false_iff.mpr fixed)
  rw [← append_nil n.digits] at text
  rw [scanParts, if_pos (by rw [text]; exact head_digit n []), scanPart_numeral text small stops]
  rfl

theorem isDigit_not_delimiter (c : UInt8) : isDigit c = true → isDelimiter c = false :=
  forall_byte (p := fun c => isDigit c = true → isDelimiter c = false) (by decide +kernel) c

theorem scanParts_delimited {d : UInt8} (i : Nat) (index : s.parts.length = i) (early : i < 5)
    (text : s.rest = n.digits ++ d :: rest)
    (small : n.value ≤ 999999) (delimiter : isPunct d = true ∨ isBlank d = true ∧ i = 2)
    (digit : rest.head?.any isDigit = true) :
    scanParts displacement false (left + 1) width s =
      scanParts displacement false left 2
        { s.behind n rest with foundDelimiter := true, foundSpace := s.foundSpace || isBlank d } := by
  subst index
  have isDelim : isDelimiter d = true := by
    rcases delimiter with punct | ⟨blank, -⟩
    · simp [isDelimiter, punct]
    · simp [isDelimiter, blank]
  have notDigit : isDigit d = false := by
    rcases delimiter with punct | ⟨blank, -⟩
    · exact isPunct_not_digit punct
    · exact isBlank_not_digit blank
  have notT : d ≠ 84 := by
    rintro rfl
    revert isDelim
    decide
  have ends : Ends isDelimiter rest := by
    intro c first
    rw [Option.mem_def.mp first] at digit
    exact isDigit_not_delimiter c digit
  have skipped : skipDelimiters (decide (s.parts.length = 2 ∨ s.parts.length = 6)) (s.behind n (d :: rest)) =
      some { s.behind n rest with foundDelimiter := true, foundSpace := s.foundSpace || isBlank d } := by
    have single : ∀ c ∈ [d], isDelimiter c = true := forall_mem_singleton.mpr isDelim
    have taken := takeWhile_row single ends
    have dropped := dropWhile_row single ends
    rw [singleton_append] at taken dropped
    have allowed : ¬((!decide (s.parts.length = 2 ∨ s.parts.length = 6) && isBlank d) = true) := by
      rcases delimiter with punct | ⟨-, second⟩
      · have noBlank : isBlank d = false :=
          forall_byte (p := fun c => isPunct c = true → isBlank c = false) (by decide +kernel) d punct
        simp [noBlank]
      · simp [second]
    simp only [skipDelimiters, Scan.behind, taken, dropped, any_cons, any_nil, Bool.or_false, if_neg allowed,
      isEmpty_cons, Bool.not_false, Bool.or_true]
  have turn : scanPart displacement false width s =
      some (.next 2 { s.behind n rest with foundDelimiter := true, foundSpace := s.foundSpace || isBlank d }) := by
    have delimited : (!false && s.parts.length != 6) = true := by
      simp only [Bool.not_false, Bool.true_and, bne_iff_ne]
      omega
    rw [scanPart_numeral text small
      (by rw [if_pos delimited]; exact Or.inr ⟨ends_cons.mpr notDigit, fun _ none => nomatch none⟩)]
    show (if s.parts.length = 2 ∧ d = 84 then _ else _) = _
    rw [if_neg fun both => notT both.2, if_neg (by omega), if_neg (by omega), skipped]
    rfl
  exact scanParts_next text turn

theorem scanParts_seconds (text : s.rest = n.digits ++ 46 :: rest) (small : n.value ≤ 999999)
    (index : s.parts.length = 5) :
    scanParts displacement false (left + 1) width s = scanParts displacement false left 6 (s.behind n rest) := by
  have stops : Stops (if !false && s.parts.length != 6 then none else some width) n.digits.length (46 :: rest) := by
    rw [index]
    exact Or.inr ⟨ends_cons.mpr (by decide), fun _ limited => nomatch limited⟩
  have turn : scanPart displacement false width s = some (.next 6 (s.behind n rest)) := by
    rw [scanPart_numeral text small stops, index]
    rfl
  exact scanParts_next text turn

theorem scanParts_fixed (text : s.rest = n.digits ++ rest) (small : n.value ≤ 999999) (early : s.parts.length < 5)
    (full : n.digits.length = width) (digit : rest.head?.any isDigit = true) :
    scanParts displacement true (left + 1) width s = scanParts displacement true left 2 (s.behind n rest) := by
  have turn : scanPart displacement true width s = some (.next 2 (s.behind n rest)) := by
    rw [scanPart_numeral text small (Or.inl (by rw [full]; rfl))]
    cases rest with
    | nil => cases digit
    | cons c rest =>
      have noDelimiter := isDigit_not_delimiter c digit
      have notT : c ≠ 84 := by
        rintro rfl
        cases digit
      show (if s.parts.length = 2 ∧ c = 84 then _ else _) = _
      rw [if_neg fun both => notT both.2, if_neg (by omega), if_neg (by omega)]
      simp [skipDelimiters, Scan.behind, noDelimiter]
  exact scanParts_next text turn

theorem scanParts_widths (first : Numeral) (further : List Numeral)
    (text : s.rest = first.digits ++ further.flatMap Numeral.digits)
    (small : ∀ n ∈ first :: further, n.value ≤ 999999) (full : first.digits.length = width)
    (pairs : ∀ n ∈ further, n.digits.length = 2)
    (early : s.parts.length + further.length < 6) (enough : further.length ≤ left) :
    scanParts displacement true (left + 1) width s =
      some { s with parts := s.parts ++ (first :: further).map fun n => (n.value, n.digits.length), rest := [] } := by
  induction further generalizing s left width first with
  | nil =>
    rw [flatMap_nil, append_nil] at text
    rw [scanParts_last text (small first (mem_cons_self ..)) (fun _ => le_of_eq full)]
    rfl
  | cons second further ih =>
    simp only [length_cons] at early enough
    obtain ⟨left, rfl⟩ : ∃ k, left = k + 1 := ⟨left - 1, by omega⟩
    rw [scanParts_fixed text (small first (mem_cons_self ..)) (by omega) full (head_digit ..),
      ih second rfl (forall_mem_cons.mp small).2 (pairs second (mem_cons_self ..))
        (forall_mem_cons.mp pairs).2 (by simp only [Scan.behind, length_append, length_singleton]; omega)
        (by omega)]
    simp [Scan.behind]

end Parts

/-- `YYYY-MM-DD hh:mm:ss.ffffff`. -/
def canonicalText (tm : PgTm) (fsec : Nat) : Bytes :=
  paddedDecimal 4 tm.tm_year ++ ascii "-" ++ paddedDecimal 2 tm.tm_mon ++ ascii "-" ++ paddedDecimal 2 tm.tm_mday ++
  ascii " " ++
    paddedDecimal 2 tm.tm_hour ++ ascii ":" ++ paddedDecimal 2 tm.tm_min ++ ascii ":" ++ paddedDecimal 2 tm.tm_sec ++
    ascii "." ++ paddedDecimal 6 fsec

section Canonical

variable {displacement : Bytes → Option Int} {tm : PgTm} {fsec : Nat}

theorem canonicalText_eq (tm : PgTm) (fsec : Nat) : canonicalText tm fsec =
    (Numeral.padded 4 tm.tm_year).digits ++
    45 :: ((Numeral.padded 2 tm.tm_mon).digits ++ 45 :: ((Numeral.padded 2 tm.tm_mday).digits ++ 32 ::
      ((Numeral.padded 2 tm.tm_hour).digits ++ 58 :: ((Numeral.padded 2 tm.tm_min).digits ++ 58 ::
        ((Numeral.padded 2 tm.tm_sec).digits ++ 46 :: (Numeral.padded 6 fsec).digits))))) := by
  simp [canonicalText, ascii, Numeral.padded]

theorem isInternalFormat_delimited (n : Numeral) {d : UInt8} (rest : Bytes) (delimiter : isDelimiter d = true)
    (noDot : d ≠ 46) :
    isInternalFormat (n.digits ++ d :: rest) = false := by
  have noNumber : (isDigit d || d == 84) = false :=
    forall_byte (p := fun c => isDelimiter c = true → (isDigit c || c == 84) = false) (by decide +kernel) d delimiter
  rw [isInternalFormat, dropWhile_row (fun c member => by simp [n.numeric c member]) (ends_cons.mpr noNumber)]
  simpa using noDot

theorem dropWhile_blank (n : Numeral) (rest : Bytes) : (n.digits ++ rest).dropWhile isBlank = n.digits ++ rest := by
  obtain ⟨ds, nonempty, numeric⟩ := n
  cases ds with
  | nil => exact absurd rfl nonempty
  | cons d ds =>
    have noBlank : isBlank d = false := by
      apply Bool.eq_false_iff.mpr
      intro blank
      exact absurd (numeric d (mem_cons_self ..)) (by simp [isBlank_not_digit blank])
    simp [noBlank]

theorem scanParts_datetime (displacement : Bytes → Option Int) (year month day hour minute second fraction : Numeral)
    (small : ∀ n ∈ [year, month, day, hour, minute, second, fraction], n.value ≤ 999999)
    (digits : fraction.digits.length ≤ 6) :
    scanParts displacement false 7 4 ⟨[], year.digits ++ 45 :: (month.digits ++ 45 :: (day.digits ++ 32 ::
      (hour.digits ++ 58 :: (minute.digits ++ 58 :: (second.digits ++ 46 :: fraction.digits))))), none, false, false⟩ =
    some ⟨[year, month, day, hour, minute, second, fraction].map fun n => (n.value, n.digits.length), [], none, true,
      true⟩ := by
  simp only [mem_cons, not_mem_nil, or_false, forall_eq_or_imp, forall_eq] at small
  obtain ⟨y, mo, d, h, mi, se, f⟩ := small
  refine (scanParts_delimited 0 rfl (by decide) rfl y (Or.inl (by decide)) (head_digit ..)).trans ?_
  refine (scanParts_delimited 1 rfl (by decide) rfl mo (Or.inl (by decide)) (head_digit ..)).trans ?_
  refine (scanParts_delimited 2 rfl (by decide) rfl d (Or.inr ⟨by decide, rfl⟩) (head_digit ..)).trans ?_
  refine (scanParts_delimited 3 rfl (by decide) rfl h (Or.inl (by decide)) (head_digit ..)).trans ?_
  refine (scanParts_delimited 4 rfl (by decide) rfl mi (Or.inl (by decide)) (head_digit ..)).trans ?_
  refine (scanParts_seconds rfl se rfl).trans ?_
  exact scanParts_last rfl f fun _ => digits

def canonicalScan (tm : PgTm) (fsec : Nat) : Scan :=
  ⟨[(tm.tm_year, 4), (tm.tm_mon, 2), (tm.tm_mday, 2), (tm.tm_hour, 2), (tm.tm_min, 2), (tm.tm_sec, 2), (fsec, 6)], [],
    none, true, true⟩

theorem scanDatetime_canonicalText (real : Real tm) (year : tm.tm_year ≤ 9999) (small : fsec ≤ 999999) :
    scanDatetime displacement (canonicalText tm fsec) = some (canonicalScan tm fsec, 4) := by
  have month := real.month
  have hour := real.hour
  have minute := real.minute
  have second := real.second
  have day : tm.tm_mday ≤ 31 := (mysCheckTimestampRange_iff.mp (real.checks 0 year small).1).2.2.1
  have text := canonicalText_eq tm fsec
  have fraction : (Numeral.padded 6 fsec).digits.length = 6 := Numeral.padded_length (by decide) (by omega)
  have scanned := scanParts_datetime displacement (Numeral.padded 4 tm.tm_year) (Numeral.padded 2 tm.tm_mon)
    (Numeral.padded 2 tm.tm_mday) (Numeral.padded 2 tm.tm_hour) (Numeral.padded 2 tm.tm_min)
    (Numeral.padded 2 tm.tm_sec) (Numeral.padded 6 fsec) (by simp; omega) (le_of_eq fraction)
  have two : ∀ n < 100, (Numeral.padded 2 n).digits.length = 2 := fun n => Numeral.padded_length Nat.two_pos
  simp only [map_cons, map_nil, Numeral.value_padded, fraction, two tm.tm_mon (by omega), two tm.tm_mday (by omega),
    two tm.tm_hour (by omega), two tm.tm_min (by omega), two tm.tm_sec (by omega),
    Numeral.padded_length (by decide : 0 < 4) (by omega : tm.tm_year < 10 ^ 4)] at scanned
  have delimited : isInternalFormat (canonicalText tm fsec) = false := by
    rw [text]
    exact isInternalFormat_delimited _ _ (by decide) (by decide)
  have noBlank : (canonicalText tm fsec).dropWhile isBlank = canonicalText tm fsec := by
    rw [text]
    exact dropWhile_blank _ _
  have digit : (canonicalText tm fsec).head?.any isDigit = true := by
    rw [text]
    exact head_digit _ _
  rw [← text] at scanned
  simp only [scanDatetime, noBlank, digit, delimited, MYS_MAX_TIMESTAMP_PARTS, Bool.false_eq_true, if_false,
    Nat.add_one_sub_one, Bool.not_true, scanned]
  rfl

/-- What is accepted without zeros is a day and a time, whose canonical text decodes to it. -/
theorem mysDecodeStringDatetime_calendar (outside : Int) :
    (∀ str d, mysDecodeStringDatetime outside str noZeros = some d → Real d.tm ∧ d.fsec ≤ 1000000) ∧
    (∀ tm fsec, Real tm → tm.tm_year ≤ 9999 → fsec ≤ 999999 →
      mysDecodeStringDatetime outside (canonicalText tm fsec) noZeros = some ⟨tm, fsec, none⟩) := by
  constructor
  · intro str d accepted
    obtain ⟨s, yearLen, -, -, -, range, date, -, rounded⟩ := mysDecodeStringDatetime_inv accepted
    have small := (mysCheckTimestampRange_iff.mp range).2.2.2.2.2.2
    exact ⟨real_of_checks range date, by omega⟩
  · intro tm fsec real year small
    obtain ⟨range, date⟩ := real.checks outside year small
    have nonzero : tm.tm_mon ≠ 0 := Nat.one_le_iff_ne_zero.mp real.month.1
    have tmOf : (canonicalScan tm fsec).tm 4 = tm := rfl
    have fsecOf : (canonicalScan tm fsec).fsec = fsec := Nat.mul_one fsec
    have notZero : (canonicalScan tm fsec).notZeroDate = true := by simp [canonicalScan, Scan.notZeroDate, nonzero]
    rw [mysDecodeStringDatetime_whole (scanDatetime_canonicalText real year small) rfl (by simp [canonicalScan]), tmOf,
      fsecOf, notZero, range, date]
    rfl

theorem mysDecodeStringDatetime_leap_day :
    Real ⟨2024, 2, 29, 23, 59, 59⟩ ∧
      mysDecodeStringDatetime 0 (canonicalText ⟨2024, 2, 29, 23, 59, 59⟩ 999999) noZeros =
        some ⟨⟨2024, 2, 29, 23, 59, 59⟩, 999999, none⟩ ∧
      canonicalText ⟨2024, 2, 29, 23, 59, 59⟩ 999999 = ascii "2024-02-29 23:59:59.999999" := by
  have real : Real ⟨2024, 2, 29, 23, 59, 59⟩ := ⟨by decide, by decide, by decide, by decide, by decide⟩
  exact ⟨real, (mysDecodeStringDatetime_calendar 0).2 _ _ real (by decide) (by decide), by decide⟩

end Canonical

end OpenHalo.Datetime
