import OpenHalo.Temporal.DecodeDatetime

namespace OpenHalo.PreTime
open Octets Datetime

def MYS_MAX_TIME_HOUR : Nat := 838

/-- `%04d-%02d-%02d %02d:%02d:%02d`, with the fraction if there is one. -/
def datetimeText (tm : PgTm) (fsec nanoseconds : Nat) : Bytes :=
  paddedDecimal 4 tm.tm_year ++ ascii "-" ++ paddedDecimal 2 tm.tm_mon ++ ascii "-" ++ paddedDecimal 2 tm.tm_mday ++
    ascii " " ++ paddedDecimal 2 tm.tm_hour ++ ascii ":" ++ paddedDecimal 2 tm.tm_min ++ ascii ":" ++
    paddedDecimal 2 tm.tm_sec ++ if fsec ≠ 0 then ascii "." ++ paddedDecimal 6 fsec ++ decimal nanoseconds else []

/-- `isTimestamp` and the result. A time zone is looked for at the beginning of the string. -/
def mysPreTimestampInForTime (str : Bytes) : Bool × Option Bytes :=
  let displacement (rest : Bytes) : Option Int := tzDisplacement2Seconds str rest.length
  match scanDatetime displacement str with
  | none => (false, none)
  | some (s, yearLen) =>
    if s.foundDelimiter && !s.foundSpace then (false, none)
    else
      let tm := s.tm yearLen
      if s.parts.length < 3 || !mysCheckTimestampRange tm s.fsec then (true, none)
      else
        let (nanoseconds, rest) := s.seventhDigit
        if rest.head?.any fun c => c == 43 || c == 45 then
          match displacement rest with
          | none => (false, none)
          | some _ => (true, some [])
        else if rest.all isBlank then (true, some (if s.tz.isSome then [] else datetimeText tm s.fsec nanoseconds))
        else (true, none)

/-- A group of digits in a `uint64`. -/
def scanNumber (value : Nat) : Bytes → Nat × Bytes
  | [] => (value, [])
  | c :: rest => if isDigit c then scanNumber ((value * 10 + (c.toNat - 48)) % 2 ^ 64) rest else (value, c :: rest)

/-- Microseconds, the seventh digit, and what is left; one byte behind the microseconds is skipped,
whatever it is. -/
def scanFraction (str : Bytes) : Nat × Nat × Bytes :=
  match str with
  | 46 :: rest =>
    let microsecond := (rest.takeWhile isDigit).take 6
    let behind := rest.drop microsecond.length
    let nanoSecond := if behind.head?.any isDigit then (behind.headD 0).toNat - 48 else 0
    (microsecond.foldl (fun fsec c => fsec * 10 + (c.toNat - 48)) 0 * 10 ^ (6 - microsecond.length), nanoSecond,
      (behind.drop 1).dropWhile isDigit)
  | _ => (0, 0, str)

/-- The text `%u:%02u:%02u.%06u%u`. -/
def timeText (hour minute second fsec nanoSecond : Nat) : Bytes :=
  decimal hour ++ ascii ":" ++ paddedDecimal 2 minute ++ ascii ":" ++ paddedDecimal 2 second ++ ascii "." ++
    paddedDecimal 6 fsec ++ decimal nanoSecond

def finishTime (hour minute second : Nat) (str : Bytes) : Option Bytes :=
  let (fsec, nanoSecond, rest) := scanFraction str
  if !rest.all isBlank then none
  else if MYS_MAX_TIME_HOUR < hour ∨ 59 < minute ∨ 59 < second ∨ 999999 < fsec then none
  else some (timeText hour minute second fsec nanoSecond)

def skipColon : Bytes → Option Bytes
  | 58 :: c :: rest => if isDigit c then some (c :: rest) else none
  | _ => none

/-- The minutes and seconds behind the hours of `D hh[:mm[:ss]]`. -/
def behindHour (hours : Nat) (str : Bytes) : Option Bytes :=
  match skipColon str with
  | none => finishTime hours 0 0 str
  | some rest =>
    let (minute, rest) := scanNumber 0 rest
    match skipColon rest with
    | none => finishTime hours minute 0 rest
    | some rest =>
      let (second, rest) := scanNumber 0 rest
      finishTime hours minute second rest

/-- `D hh[:mm[:ss]]`. -/
def mysProcessStringTimeForFormat1 (str : Bytes) : Option Bytes :=
  if str.isEmpty || str.head? == some 32 then none
  else
    let (day, rest) := scanNumber 0 str
    if !rest.isEmpty && !rest.head?.any isBlank then none
    else
      let (hour, rest) := scanNumber 0 (rest.dropWhile isBlank)
      behindHour ((day * 24 + hour) % 2 ^ 64) rest

/-- `hh:mm[:ss]`. -/
def mysProcessStringTimeForFormat2 (str : Bytes) : Option Bytes :=
  if str.isEmpty || str.head? == some 32 then none
  else
    let (hour, rest) := scanNumber 0 str
    match rest.dropWhile isBlank with
    | 58 :: rest =>
      let (minute, rest) := scanNumber 0 rest
      match rest with
      | 58 :: rest =>
        let (second, rest) := scanNumber 0 rest
        finishTime hour minute second rest
      | rest => finishTime hour minute 0 rest
    | rest => finishTime hour 0 0 rest

/-- `hhmmss`. -/
def mysProcessStringTimeForFormat3 (str : Bytes) : Option Bytes :=
  if str.isEmpty || str.head? == some 32 then none
  else
    let (value, rest) := scanNumber 0 str
    finishTime (value / 10000) (value / 100 % 100) (value % 100) (rest.dropWhile isBlank)

/-- The first group of digits, which is refused above `UINT_MAX`: what is behind it. -/
def scanDay (value : Nat) : Bytes → Option Bytes
  | [] => some []
  | c :: rest =>
    if isDigit c then
      if 4294967295 < value * 10 + (c.toNat - 48) then none else scanDay (value * 10 + (c.toNat - 48)) rest
    else some (c :: rest)

def readLayout (str : Bytes) : Option Bytes :=
  match scanDay 0 str with
  | none => none
  | some rest =>
    let behind := (rest.dropWhile isBlank).head?
    if rest.head?.any isBlank && behind.any isDigit then mysProcessStringTimeForFormat1 str
    else if behind == some 58 then mysProcessStringTimeForFormat2 str
    else mysProcessStringTimeForFormat3 str

def signAndBody (str : Bytes) : Bool × Bytes :=
  match str.dropWhile isBlank with
  | 45 :: rest => (true, rest)
  | rest => (false, rest)

/-- The string without blanks and sign is looked at as a datetime and taken for one. -/
def isTimestamp (str : Bytes) : Bool :=
  12 ≤ (signAndBody str).2.length && (mysPreTimestampInForTime (signAndBody str).2).1

def mysPreTimeInInternal (str : Bytes) : Option Bytes :=
  let (nega, body) := signAndBody str
  if body.isEmpty then none
  else
    let tempResult := if isTimestamp str then (mysPreTimestampInForTime body).2 else readLayout body
    tempResult.map fun text => (if nega then ascii "-" else []) ++ text

end OpenHalo.PreTime
