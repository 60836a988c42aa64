import OpenHalo.Lib.Access
import OpenHalo.Lib.FloatText
import OpenHalo.PreStmtTable

namespace OpenHalo
open Octets Memory Memory.Prog

/-- `enum_field_types`. -/
inductive FieldType
  | decimal | tiny | short | long | float | double | null | timestamp | longlong | int24 | date | time
  | datetime | year | newdate | varchar | bit | timestamp2 | datetime2 | time2 | typedArray
  | invalid | bool | json | newdecimal | enum | set | tinyBlob | mediumBlob | longBlob | blob
  | varString | string | geometry
deriving Repr, DecidableEq

def FieldType.ofCode (code : Nat) : Option FieldType :=
  [(0, FieldType.decimal), (1, .tiny), (2, .short), (3, .long), (4, .float), (5, .double), (6, .null),
   (7, .timestamp), (8, .longlong), (9, .int24), (10, .date), (11, .time), (12, .datetime), (13, .year),
   (14, .newdate), (15, .varchar), (16, .bit), (17, .timestamp2), (18, .datetime2), (19, .time2),
   (20, .typedArray), (243, .invalid), (244, .bool), (245, .json), (246, .newdecimal), (247, .enum),
   (248, .set), (249, .tinyBlob), (250, .mediumBlob), (251, .longBlob), (252, .blob), (253, .varString),
   (254, .string), (255, .geometry)].lookup code

def fetchByte (addr : Nat) : Prog Nat := do
  return littleEndian (← fetch addr 1)

def fetchInt (addr n : Nat) : Prog Nat := do
  return littleEndian (← fetch addr n)

/-- `snprintf` of a finished text into `size` bytes. -/
def snprintf (size : Nat) (text : Bytes) : Bytes := text.take (size - 1) ++ [0]

def processLenencString (buf : Nat) : Prog (Nat × Nat) := do
  let first ← fetchByte buf
  if first < 251 then return (first, 1)
  else if first = 252 then return (← fetchInt (buf + 1) 2, 3)
  else if first = 253 then return (← fetchInt (buf + 1) 3, 4)
  else return (← fetchInt (buf + 1) 8, 9)

def processDateType (buf : Nat) : Prog (Bytes × Nat) := do
  let date_len ← fetchByte buf
  let year ← fetchInt (buf + 1) 2
  let month ← fetchByte (buf + 3)
  let day ← fetchByte (buf + 4)
  return (decimal year ++ ascii "-" ++ decimal month ++ ascii "-" ++ decimal day, date_len + 1)

def secondPart (present : Bool) (buf : Nat) : Prog Bytes :=
  if present then do
    let second_part ← fetchInt buf 4
    return ascii "." ++ paddedDecimal 6 second_part
  else return []

def processTimeType (buf : Nat) : Prog (Bytes × Nat) := do
  let time_len ← fetchByte buf
  let negative ← fetchByte (buf + 1)
  let day ← fetchInt (buf + 2) 4
  let hours ← fetchByte (buf + 6)
  let minute ← fetchByte (buf + 7)
  let second ← fetchByte (buf + 8)
  let fraction ← secondPart (8 < time_len) (buf + 9)
  let hour := (hours + day * 24) % 2 ^ 32
  let sign := if negative ≠ 0 then ascii "-" else []
  let text := sign ++ decimal hour ++ ascii ":" ++ decimal minute ++ ascii ":" ++ decimal second
  return (text ++ fraction, time_len + 1)

def datetimeDay (year buf datetime_timestamp_len : Nat) : Prog Bytes :=
  if 4 ≤ datetime_timestamp_len then do
    let month ← fetchByte (buf + 3)
    let day ← fetchByte (buf + 4)
    return decimal year ++ ascii "-" ++ decimal month ++ ascii "-" ++ decimal day
  else return []

def datetimeClock (buf datetime_timestamp_len : Nat) : Prog Bytes :=
  if 7 ≤ datetime_timestamp_len then do
    let hour ← fetchByte (buf + 5)
    let minute ← fetchByte (buf + 6)
    let second ← fetchByte (buf + 7)
    return ascii " " ++ decimal hour ++ ascii ":" ++ decimal minute ++ ascii ":" ++ decimal second
  else return []

def processDatetimeTimestampType (buf : Nat) : Prog (Bytes × Nat) := do
  let datetime_timestamp_len ← fetchByte buf
  let year ← fetchInt (buf + 1) 2
  let day ← datetimeDay year buf datetime_timestamp_len
  let clock ← datetimeClock buf datetime_timestamp_len
  let fraction ← secondPart (11 ≤ datetime_timestamp_len) (buf + 8)
  return (day ++ clock ++ fraction, datetime_timestamp_len + 1)

/-- The output and input cursors `newStmtOffset` and `paramsValueOffset`. -/
structure Cursor where
  out : Nat
  inp : Nat
deriving DecidableEq

/-- An integer of `size` bytes, printed through a buffer of its own. -/
def assembleInteger (size : Nat) (unsigned_type : Bool) (sql newStmt : Nat) (c : Cursor) : Prog Cursor := do
  let value_int ← fetchInt (sql + c.inp) size
  let text := if unsigned_type then decimal value_int else signedDecimal (signed (8 * size) value_int)
  put (newStmt + c.out) text
  return ⟨c.out + text.length, c.inp + size⟩

def assembleFloat (size e f : Nat) (sql newStmt : Nat) (c : Cursor) : Prog Cursor := do
  let text := floatText e f (← fetchInt (sql + c.inp) size)
  put (newStmt + c.out) text
  return ⟨c.out + text.length, c.inp + size⟩

def assembleTemporal (process : Nat → Prog (Bytes × Nat)) (sql newStmt : Nat) (c : Cursor) : Prog Cursor := do
  let (value_buf, size) ← process (sql + c.inp)
  let text := ascii "'" ++ value_buf ++ ascii "'"
  put (newStmt + c.out) (text ++ [0])
  return ⟨c.out + text.length, c.inp + size⟩

def assembleDecimal (sql newStmt : Nat) (c : Cursor) : Prog Cursor := do
  let (string_length, lengthEncodeSize) ← processLenencString (sql + c.inp)
  memcpy (newStmt + c.out) (sql + c.inp + lengthEncodeSize) string_length
  return ⟨c.out + string_length, c.inp + lengthEncodeSize + string_length⟩

/-- The opening apostrophe is stored before the value is copied, and nothing in it is escaped. -/
def assembleString (sql newStmt : Nat) (c : Cursor) : Prog Cursor := do
  let (string_length, lengthEncodeSize) ← processLenencString (sql + c.inp)
  put (newStmt + c.out) (ascii "'")
  memcpy (newStmt + c.out + 1) (sql + c.inp + lengthEncodeSize) string_length
  put (newStmt + c.out + 1 + string_length) (ascii "'")
  return ⟨c.out + string_length + 2, c.inp + lengthEncodeSize + string_length⟩

def assembleExtendExeStmtParmVal (paramType sql newStmt : Nat) (c : Cursor) : Prog Cursor :=
  let unsigned_type := paramType / 256 % 256 != 0
  match FieldType.ofCode (paramType % 256) with
  | some .decimal | some .newdecimal => assembleDecimal sql newStmt c
  | some .tiny | some .bool => assembleInteger 1 unsigned_type sql newStmt c
  | some .short | some .year => assembleInteger 2 unsigned_type sql newStmt c
  | some .long | some .int24 => assembleInteger 4 unsigned_type sql newStmt c
  | some .longlong => assembleInteger 8 unsigned_type sql newStmt c
  | some .float => assembleFloat 4 8 23 sql newStmt c
  | some .double => assembleFloat 8 11 52 sql newStmt c
  | some .date => assembleTemporal processDateType sql newStmt c
  | some .time => assembleTemporal processTimeType sql newStmt c
  | some .datetime | some .timestamp => assembleTemporal processDatetimeTimestampType sql newStmt c
  | some .tinyBlob | some .mediumBlob | some .longBlob | some .blob => assembleString sql newStmt c
  | some .varchar | some .varString | some .string | some .enum | some .set | some .json =>
    assembleString sql newStmt c
  | some .null | some .newdate | some .bit | some .timestamp2 | some .datetime2 | some .time2
  | some .typedArray | some .invalid | some .geometry | none => return c

end OpenHalo
