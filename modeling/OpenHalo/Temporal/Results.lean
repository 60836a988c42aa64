import Mathlib.Data.List.TakeWhile
import OpenHalo.Lib.Memory
import OpenHalo.Temporal.Values

namespace OpenHalo
open Octets Memory List

def digitRun (str : Bytes) : Nat := (str.takeWhile isDigit).foldl (fun result c => result * 10 + (c.toNat - 48)) 0

/-- The number in the `strLen` bytes of a string. -/
def haloAToI : Bytes → Int
  | [] => 0
  | c :: str => if c = 45 then -digitRun str else if c = 43 then digitRun str else digitRun (c :: str)

/-- The loop over the text: a stop ends an item. There is `room` for items; `none` when it is exceeded. -/
def splitItems (stop : UInt8 → Bool) (room : Nat) (value : Mem) : Nat → Nat → Nat → List Int → Option (List Int)
  | 0, _, _, items => some items
  | left + 1, i, j, items =>
    if stop (value i) then
      if items.length < room then
        splitItems stop room value left (i + 1) (i + 1) (items ++ [haloAToI (read value j (i - j))])
      else none
    else splitItems stop room value left (i + 1) j items

def timestampStop (c : UInt8) : Bool := c == 45 || c == 32 || c == 58 || c == 46 || c == 0

def timeStop (c : UInt8) : Bool := c == 58 || c == 46 || c == 0

/-- `memcpy` of the low `n` bytes of an `int`. -/
def intBytes (n : Nat) (x : Int) : Bytes := toLittleEndian n (x % 256 ^ n).toNat

/-- The result, the memory, and the bytes stored from the start of the buffer. -/
structure Converted where
  size : Nat
  data : Mem
  written : Nat

def storeFields (value : Mem) (len : Nat) (fields : List Bytes) : Converted :=
  let segments := ([UInt8.ofNat len] :: fields).map Segment.put
  ⟨len + 1, fill value 0 segments, extent segments⟩

def storeTimestamp (value : Mem) (item : Nat → Int) : Converted :=
  let day := [intBytes 2 (item 0), intBytes 1 (item 1), intBytes 1 (item 2)]
  let clock := [intBytes 1 (item 3), intBytes 1 (item 4), intBytes 1 (item 5)]
  if item 6 = 0 then
    if 0 < item 3 + item 4 + item 5 then storeFields value 7 (day ++ clock)
    else if 0 < item 0 + item 1 + item 2 then storeFields value 4 day
    else storeFields value 0 []
  else storeFields value 11 (day ++ clock ++ [intBytes 4 (item 6)])

def convertTimestamp (valueLen : Nat) (value : Mem) : Option Converted := do
  let items ← splitItems timestampStop 7 value (valueLen + 1) 0 0 []
  some (storeTimestamp value fun k => items.getD k 0)

/-- `isNegative` is never set. -/
def storeTime (value : Mem) (item : Nat → Int) : Converted :=
  let isNegative := 0
  let clock :=
    [intBytes 1 isNegative, intBytes 4 (item 0), intBytes 1 (item 1), intBytes 1 (item 2), intBytes 1 (item 3)]
  if item 4 = 0 then
    if 0 < item 0 + item 1 + item 2 + item 3 then storeFields value 8 clock
    else storeFields value 0 []
  else storeFields value 12 (clock ++ [intBytes 4 (item 4)])

/-- The items start at number 1: `items[0]`, the days, stays 0. -/
def convertTime (valueLen : Nat) (value : Mem) : Option Converted := do
  let items ← splitItems timeStop 4 value (valueLen + 1) 0 0 []
  some (storeTime value fun k => (0 :: items).getD k 0)

section Split

variable {stop : UInt8 → Bool} {room : Nat} {value : Mem}

theorem splitItems_skip {left i j : Nat} {items : List Int} {d : Bytes} (held : read value i d.length = d)
    (plain : ∀ c ∈ d, stop c = false) :
    splitItems stop room value (left + d.length) i j items =
      splitItems stop room value left (i + d.length) j items := by
  induction d generalizing i with
  | nil => rfl
  | cons c d ih =>
    rw [length_cons, read_succ, List.cons.injEq] at held
    obtain ⟨first, rest⟩ := held
    rw [length_cons, ← Nat.add_assoc, splitItems, first, plain c mem_cons_self, if_neg Bool.false_ne_true,
      ih rest (forall_mem_cons.mp plain).2, Nat.add_right_comm, Nat.add_assoc]

theorem splitItems_fields {fields : Fields} {i : Nat} {items : List Int}
    (held : read value i fields.bytes.length = fields.bytes)
    (plain : ∀ field ∈ fields, (∀ c ∈ field.1, stop c = false) ∧ stop field.2 = true)
    (fits : items.length + fields.length ≤ room) :
    splitItems stop room value fields.bytes.length i i items =
      some (items ++ fields.map fun field => haloAToI field.1) := by
  induction fields generalizing i items with
  | nil => simp [Fields.bytes, splitItems]
  | cons field fields ih =>
    obtain ⟨d, s⟩ := field
    obtain ⟨digits, ends⟩ := plain (d, s) mem_cons_self
    have front : Fields.bytes ((d, s) :: fields) = d ++ s :: Fields.bytes fields := by simp [Fields.bytes]
    have total : (d ++ s :: Fields.bytes fields).length = (Fields.bytes fields).length + 1 + d.length := by simp; omega
    have cut : read value i d.length = d ∧ value (i + d.length) = s ∧
        read value (i + d.length + 1) (Fields.bytes fields).length = Fields.bytes fields := by
      rw [front, length_append, read_append, length_cons, read_succ] at held
      obtain ⟨left, right⟩ := append_inj held (by simp)
      rw [List.cons.injEq] at right
      exact ⟨left, right⟩
    obtain ⟨here, byte, later⟩ := cut
    rw [length_cons] at fits
    rw [front, total, splitItems_skip here digits, splitItems, byte, ends, if_pos rfl, if_pos (by omega),
      Nat.add_sub_cancel_left, here, ih later (forall_mem_cons.mp plain).2
        (by rw [length_append, length_singleton]; omega)]
    simp

end Split

theorem digitRun_eq {digits : Bytes} (numeric : ∀ c ∈ digits, isDigit c = true) :
    digitRun digits = digitsValue digits := by
  rw [digitRun, takeWhile_eq_self_iff.mpr numeric, foldl_digits, Nat.zero_mul, Nat.zero_add]

theorem haloAToI_numeral (n : Numeral) : haloAToI n.digits = n.value := by
  have run := digitRun_eq n.numeric
  cases front : n.digits with
  | nil => exact absurd front n.nonempty
  | cons c digits =>
    have digit := n.numeric c (by rw [front]; exact mem_cons_self)
    have minus : c ≠ 45 := by
      rintro rfl
      cases digit
    have plus : c ≠ 43 := by
      rintro rfl
      cases digit
    rw [front] at run
    rw [haloAToI, if_neg minus, if_neg plus, run, Numeral.value, front]

theorem haloAToI_minus (n : Numeral) : haloAToI (45 :: n.digits) = -n.value := by
  rw [haloAToI, digitRun_eq n.numeric]
  rfl

section Stored

variable (value : Mem) {len : Nat} {fields : List Bytes} (full : fields.flatten.length = len)
include full

theorem storeFields_read : read (storeFields value len fields).data 0 (storeFields value len fields).size =
    UInt8.ofNat len :: fields.flatten := by
  have stored := read_write_self value 0 ([UInt8.ofNat len] :: fields).flatten
  rw [← fill_puts, flatten_cons, length_append, full, Nat.add_comm] at stored
  exact stored

theorem storeFields_written : (storeFields value len fields).written = len + 1 := by
  rw [storeFields, extent_puts, flatten_cons, length_append, full, length_singleton, Nat.add_comm]

end Stored

structure DateTime.Fits (v : DateTime) : Prop where
  year : v.year < 65536
  month : v.month < 256
  day : v.day < 256
  hour : v.hour < 256
  minute : v.minute < 256
  second : v.second < 256
  microsecond : v.microsecond < 1000000

def DateTime.item (v : DateTime) (k : Nat) : Int :=
  ([v.year, v.month, v.day, v.hour, v.minute, v.second, v.microsecond].getD k 0 : Nat)

theorem intBytes_small {n x : Nat} (small : x < 256 ^ n) : intBytes n x = toLittleEndian n x := by
  rw [intBytes, Int.emod_eq_of_lt (Int.natCast_nonneg x) (by exact_mod_cast small), Int.toNat_natCast]

theorem storeTimestamp_decodes (value : Mem) {v : DateTime} (fits : v.Fits) :
    decodeDateTime [0, 4, 7, 11] (read (storeTimestamp value v.item).data 0 (storeTimestamp value v.item).size) =
      some v ∧
        ((storeTimestamp value v.item).written ≤ 5 ∨
          (storeTimestamp value v.item).written ≤ 8 ∧ 0 < v.hour + v.minute + v.second ∨
          (storeTimestamp value v.item).written ≤ 12 ∧ v.microsecond ≠ 0) := by
  obtain ⟨year, month, day, hour, minute, second, microsecond⟩ := v
  obtain ⟨fitsYear, fitsMonth, fitsDay, fitsHour, fitsMinute, fitsSecond, fitsMicrosecond⟩ := fits
  simp only at fitsYear fitsMonth fitsDay fitsHour fitsMinute fitsSecond fitsMicrosecond
  have low : microsecond < 256 ^ 4 := by omega
  have bytes {x : Nat} (small : x < 256) : intBytes 1 x = toLittleEndian 1 x := intBytes_small small
  simp only [storeTimestamp, DateTime.item, getD_cons_zero, getD_cons_succ, @intBytes_small 2 year fitsYear, bytes,
    intBytes_small low, fitsMonth, fitsDay, fitsHour, fitsMinute, fitsSecond]
  split
  · split
    · simp [storeFields_read, storeFields_written, toLittleEndian, decodeDateTime, fieldAt, littleEndian]
      omega
    · split
      · simp [storeFields_read, storeFields_written, toLittleEndian, decodeDateTime, fieldAt, littleEndian]
        omega
      · simp [storeFields_read, storeFields_written, decodeDateTime, fieldAt, littleEndian]
        omega
  · simp [storeFields_read, storeFields_written, toLittleEndian, decodeDateTime, fieldAt, littleEndian]
    omega

def timeItem (hour : Int) (minute second fraction k : Nat) : Int :=
  [0, hour, (minute : Int), (second : Int), (fraction : Int)].getD k 0

def sentTime (hour : Int) (minute second fraction : Nat) : Int :=
  if fraction = 0 ∧ hour + minute + second ≤ 0 then 0
  else (((hour % 256) * 60 + minute) * 60 + second) * 1000000 + fraction

theorem storeTime_decodes (value : Mem) (hour : Int) {minute second fraction : Nat} (fitsMinute : minute < 256)
    (fitsSecond : second < 256) (fitsFraction : fraction < 1000000) :
    decodeTime (read (storeTime value (timeItem hour minute second fraction)).data 0
        (storeTime value (timeItem hour minute second fraction)).size) = some (sentTime hour minute second fraction) ∧
      (storeTime value (timeItem hour minute second fraction)).written =
        if fraction ≠ 0 then 13 else if hour + minute + second ≤ 0 then 1 else 9 := by
  have hourByte : intBytes 1 hour = [UInt8.ofNat (hour % 256).toNat] := rfl
  have hours : hour % 256 = ((hour % 256).toNat : Int) := by omega
  have sign : intBytes 1 0 = [0] := rfl
  have days : intBytes 4 0 = [0, 0, 0, 0] := rfl
  have low : fraction < 256 ^ 4 := by omega
  simp only [storeTime, timeItem, sentTime, getD_cons_zero, getD_cons_succ, @intBytes_small 1 minute fitsMinute,
    @intBytes_small 1 second fitsSecond, intBytes_small low, hourByte, sign, days]
  generalize (hour % 256).toNat = hourLow at *
  split
  · split
    · rw [if_neg (by omega), if_neg (by omega), if_neg (by omega)]
      simp [storeFields_read, storeFields_written, toLittleEndian, decodeTime, fieldAt, littleEndian]
      omega
    · rw [if_pos (by omega), if_neg (by omega), if_pos (by omega)]
      simp [storeFields_read, storeFields_written, decodeTime, fieldAt, littleEndian]
  · simp [storeFields_read, storeFields_written, toLittleEndian, decodeTime, fieldAt, littleEndian, hours]
    omega

def Clock.fractionNumber (c : Clock) : Nat := c.fraction.elim 0 (·.value)

def Clock.Exact (c : Clock) : Prop := ∀ f ∈ c.fraction, f.digits.length = 6 ∨ f.value = 0

variable (f : Fraction) (t : DateText) (c : Clock)

theorem Fraction.value_eq_microseconds_iff : f.value = f.microseconds ↔ f.digits.length = 6 ∨ f.value = 0 := by
  unfold Fraction.microseconds
  constructor
  · intro same
    by_cases zero : f.value = 0
    · exact .inr zero
    refine .inl (Nat.le_antisymm f.short (Nat.not_lt.mp fun shorter => ?_))
    have large : 10 ≤ 10 ^ (6 - f.digits.length) := Nat.le_self_pow (by omega) 10
    have more := Nat.mul_le_mul_left f.value large
    omega
  · rintro (full | zero)
    · rw [full, Nat.sub_self, Nat.pow_zero, Nat.mul_one]
    · rw [zero, Nat.zero_mul]

theorem Fraction.value_lt : f.value < 1000000 :=
  Nat.lt_of_lt_of_le (digitsValue_lt f.numeric) (Nat.pow_le_pow_right (by decide) f.short)

theorem Clock.fractionNumber_iff : c.fractionNumber = c.microseconds ↔ c.Exact := by
  unfold Clock.fractionNumber Clock.microseconds Clock.Exact
  cases c.fraction with
  | none => simp
  | some f => simpa using f.value_eq_microseconds_iff

theorem Clock.fractionNumber_lt : c.fractionNumber < 1000000 := by
  unfold Clock.fractionNumber
  cases c.fraction with
  | none => decide
  | some f => exact f.value_lt

theorem Clock.microseconds_eq_zero_iff : c.microseconds = 0 ↔ c.fractionNumber = 0 := by
  unfold Clock.microseconds Clock.fractionNumber
  cases c.fraction with
  | none => simp
  | some f => simp [Fraction.microseconds]

def Clock.InRange (hours : Nat) (c : Clock) : Prop := c.hour.value ≤ hours ∧ c.minute.value ≤ 59 ∧ c.second.value ≤ 59

/-- A date of the years 0 to 9999, with or without a time of day. -/
structure DateText.InRange (t : DateText) : Prop where
  year : t.year.value ≤ 9999
  month : t.month.value ≤ 12
  day : t.day.value ≤ 31
  clock : ∀ c ∈ t.clock, c.InRange 23

def textBuffer (text : Bytes) (junk : Mem) : Mem := load (text ++ [0]) 0 junk

def DateText.Sent (t : DateText) (junk : Mem) : Prop :=
  ∃ c, convertTimestamp t.text.length (textBuffer t.text junk) = some c ∧
    decodeDateTime [0, 4, 7, 11] (read c.data 0 c.size) = some t.value ∧ c.written ≤ t.text.length + 1

def TimeText.Sent (t : TimeText) (junk : Mem) : Prop :=
  ∃ c, convertTime t.text.length (textBuffer t.text junk) = some c ∧
    decodeTime (read c.data 0 c.size) = some t.value ∧ c.written ≤ t.text.length + 1

def DateText.raw (t : DateText) : DateTime := { t.value with microsecond := t.clock.elim 0 Clock.fractionNumber }

theorem splitItems_text {stop : UInt8 → Bool} {room : Nat} {text : Bytes} {fields : Fields}
    (same : text ++ [0] = fields.bytes)
    (plain : ∀ field ∈ fields, (∀ c ∈ field.1, stop c = false) ∧ stop field.2 = true) (fits : fields.length ≤ room)
    (junk : Mem) :
    splitItems stop room (textBuffer text junk) (text.length + 1) 0 0 [] =
      some (fields.map fun field => haloAToI field.1) := by
  have held : read (textBuffer text junk) 0 (text ++ [0]).length = text ++ [0] := read_write_self junk 0 (text ++ [0])
  rw [show text.length + 1 = (text ++ [0]).length by simp, same]
  rw [same] at held
  exact splitItems_fields held plain (by simpa using fits)

theorem plain_digits {stop : UInt8 → Bool} (separate : ∀ c, isDigit c = true → stop c = false) (n : Numeral) :
    ∀ c ∈ n.digits, stop c = false := fun c member => separate c (n.numeric c member)

theorem timestampStop_digit (c : UInt8) (digit : isDigit c = true) : timestampStop c = false := by
  have other (d : UInt8) (outside : isDigit d = false) : (c == d) = false := by
    rw [beq_eq_false_iff_ne]
    rintro rfl
    cases outside.symm.trans digit
  rw [timestampStop, other 45 rfl, other 32 rfl, other 58 rfl, other 46 rfl, other 0 rfl]
  rfl

theorem timeStop_digit (c : UInt8) (digit : isDigit c = true) : timeStop c = false := by
  have none := timestampStop_digit c digit
  simp only [timestampStop, Bool.or_eq_false_iff] at none
  simp [timeStop, none]

theorem Clock.fields_plain {stop : UInt8 → Bool} (separate : ∀ c, isDigit c = true → stop c = false)
    (colon : stop 58 = true) (point : stop 46 = true) (null : stop 0 = true) (c : Clock) :
    ∀ field ∈ c.fields, (∀ d ∈ field.1, stop d = false) ∧ stop field.2 = true := by
  have plain := plain_digits separate
  unfold Clock.fields
  cases c.fraction with
  | none => simpa [colon, null] using ⟨plain c.hour, plain c.minute, plain c.second⟩
  | some f => simpa [colon, point, null] using ⟨plain c.hour, plain c.minute, plain c.second, plain f.toNumeral⟩

theorem Clock.fields_items : (c.fields.map fun field => haloAToI field.1) =
    [(c.hour.value : Int), (c.minute.value : Int), (c.second.value : Int)] ++ c.fraction.elim [] fun f =>
    [(f.value : Int)] := by
  unfold Clock.fields
  cases c.fraction with
  | none => simp [haloAToI_numeral]
  | some f => simp [haloAToI_numeral, haloAToI_numeral f.toNumeral]

theorem Clock.fields_length : c.fields.length ≤ 4 := by
  unfold Clock.fields
  cases c.fraction <;> simp

theorem DateText.fields_plain :
    ∀ field ∈ t.fields, (∀ c ∈ field.1, timestampStop c = false) ∧ timestampStop field.2 = true := by
  have plain := @plain_digits timestampStop timestampStop_digit
  have dash : timestampStop 45 = true := rfl
  have blank : timestampStop 32 = true := rfl
  have null : timestampStop 0 = true := rfl
  unfold DateText.fields
  cases t.clock with
  | none => simpa [dash, null] using ⟨plain t.year, plain t.month, plain t.day⟩
  | some c =>
    have rest := c.fields_plain timestampStop_digit rfl rfl rfl
    intro field member
    simp only [mem_cons] at member
    rcases member with rfl | rfl | rfl | later
    · exact ⟨plain t.year, dash⟩
    · exact ⟨plain t.month, dash⟩
    · exact ⟨plain t.day, blank⟩
    · exact rest field later

theorem DateText.items (k : Nat) : (t.fields.map fun field => haloAToI field.1).getD k 0 = t.raw.item k := by
  unfold DateText.fields DateTime.item DateText.raw DateText.value
  cases t.clock with
  | none => rcases k with _ | _ | _ | _ | _ | _ | _ | k <;> simp [haloAToI_numeral]
  | some c =>
    simp only [map_cons, c.fields_items, haloAToI_numeral, Clock.fractionNumber, Option.elim]
    cases c.fraction with
    | none | some => rcases k with _ | _ | _ | _ | _ | _ | _ | k <;> simp

theorem DateText.fields_length : t.fields.length ≤ 7 := by
  unfold DateText.fields
  cases t.clock with
  | none => simp
  | some c =>
    have rest := c.fields_length
    simp only [length_cons]
    omega

theorem convertTimestamp_eq (junk : Mem) :
    convertTimestamp t.text.length (textBuffer t.text junk) =
      some (storeTimestamp (textBuffer t.text junk) t.raw.item) := by
  rw [convertTimestamp, splitItems_text t.text_fields t.fields_plain t.fields_length]
  exact congrArg (fun item => some (storeTimestamp (textBuffer t.text junk) item)) (funext t.items)

theorem DateText.raw_fits {t : DateText} (inRange : t.InRange) : t.raw.Fits := by
  have small : ∀ {x y z : Nat}, x ≤ y → y < z → x < z := Nat.lt_of_le_of_lt
  obtain ⟨year, month, day, clock⟩ := inRange
  unfold DateText.raw DateText.value
  cases present : t.clock with
  | none =>
    exact ⟨small year (by decide), small month (by decide), small day (by decide), Nat.zero_lt_succ _,
      Nat.zero_lt_succ _, Nat.zero_lt_succ _, Nat.zero_lt_succ _⟩
  | some c =>
    obtain ⟨hour, minute, second⟩ := clock c present
    exact ⟨small year (by decide), small month (by decide), small day (by decide), small hour (by decide),
      small minute (by decide), small second (by decide), c.fractionNumber_lt⟩

theorem Clock.length_le : 5 + c.fraction.elim 0 (fun f => f.digits.length + 1) ≤ c.text.length := by
  have hour := c.hour.length_pos
  have minute := c.minute.length_pos
  have second := c.second.length_pos
  have stop : (ascii ":").length = 1 := rfl
  have point : (ascii ".").length = 1 := rfl
  unfold Clock.text
  simp only [length_append]
  cases c.fraction with
  | none =>
    simp only [Option.elim]
    omega
  | some f =>
    simp only [Option.elim, length_append]
    omega

theorem DateText.length_le :
    5 ≤ t.text.length ∧ (0 < t.raw.hour + t.raw.minute + t.raw.second → 11 ≤ t.text.length) ∧
      (t.raw.microsecond ≠ 0 → 13 ≤ t.text.length) := by
  have year := t.year.length_pos
  have month := t.month.length_pos
  have day := t.day.length_pos
  have dash : (ascii "-").length = 1 := rfl
  have blank : (ascii " ").length = 1 := rfl
  unfold DateText.text DateText.raw DateText.value
  simp only [length_append]
  cases t.clock with
  | none =>
    simp only [Option.elim]
    omega
  | some c =>
    have long := c.length_le
    simp only [Option.elim_some, length_append, Clock.fractionNumber]
    cases fraction : c.fraction with
    | none =>
      exact ⟨by omega, fun _ => by omega, fun broken => absurd rfl broken⟩
    | some f =>
      have digits := f.length_pos
      rw [fraction, Option.elim_some] at long
      omega

theorem DateText.sent_iff {t : DateText} (inRange : t.InRange) (junk : Mem) :
    t.Sent junk ↔ ∀ c ∈ t.clock, c.Exact := by
  obtain ⟨decoded, written⟩ := storeTimestamp_decodes (textBuffer t.text junk) (DateText.raw_fits inRange)
  obtain ⟨five, eleven, thirteen⟩ := t.length_le
  have kept : (storeTimestamp (textBuffer t.text junk) t.raw.item).written ≤ t.text.length + 1 := by
    rcases written with short | ⟨middle, running⟩ | ⟨long, broken⟩
    · omega
    · omega
    · omega
  have same : t.raw = t.value ↔ ∀ c ∈ t.clock, c.Exact := by
    unfold DateText.raw DateText.value
    cases t.clock with
    | none => simp
    | some c => simp [← c.fractionNumber_iff]
  rw [DateText.Sent, convertTimestamp_eq, ← same]
  constructor
  · rintro ⟨c, stored, sent, _⟩
    cases stored
    rw [decoded] at sent
    exact Option.some.inj sent
  · intro exact'
    exact ⟨_, rfl, exact' ▸ decoded, kept⟩

theorem TimeText.fields_plain (t : TimeText) :
    ∀ field ∈ t.fields, (∀ c ∈ field.1, timeStop c = false) ∧ timeStop field.2 = true := by
  have clock := t.clock.fields_plain timeStop_digit rfl rfl rfl
  have minus : timeStop 45 = false := rfl
  unfold TimeText.fields
  cases fields : t.clock.fields with
  | nil => simp
  | cons field rest =>
    rw [fields] at clock
    obtain ⟨⟨digits, ends⟩, later⟩ := forall_mem_cons.mp clock
    refine forall_mem_cons.mpr ⟨⟨?_, ends⟩, later⟩
    cases t.negative with
    | false => exact digits
    | true => exact forall_mem_cons.mpr ⟨minus, digits⟩

def TimeText.hourItem (t : TimeText) : Int := if t.negative then -t.clock.hour.value else t.clock.hour.value

theorem TimeText.items (t : TimeText) (k : Nat) : (0 :: t.fields.map fun field => haloAToI field.1).getD k 0 =
    timeItem t.hourItem t.clock.minute.value t.clock.second.value t.clock.fractionNumber k := by
  have signed : haloAToI (if t.negative then 45 :: t.clock.hour.digits else t.clock.hour.digits) = t.hourItem := by
    unfold TimeText.hourItem
    cases t.negative with
    | false => exact haloAToI_numeral t.clock.hour
    | true => exact haloAToI_minus t.clock.hour
  unfold TimeText.fields Clock.fields timeItem Clock.fractionNumber
  cases t.clock.fraction with
  | none =>
    simp only [map_cons, signed, haloAToI_numeral]
    rcases k with _ | _ | _ | _ | _ | k <;> simp
  | some f =>
    simp only [map_cons, signed, haloAToI_numeral]
    rcases k with _ | _ | _ | _ | _ | k <;> simp

theorem TimeText.fields_length (t : TimeText) : t.fields.length ≤ 4 := by
  have clock := t.clock.fields_length
  unfold TimeText.fields
  cases fields : t.clock.fields with
  | nil => simp
  | cons field rest => simpa [fields] using clock

theorem convertTime_eq (t : TimeText) (junk : Mem) :
    convertTime t.text.length (textBuffer t.text junk) = some (storeTime (textBuffer t.text junk)
      (timeItem t.hourItem t.clock.minute.value t.clock.second.value t.clock.fractionNumber)) := by
  rw [convertTime, splitItems_text t.text_fields t.fields_plain t.fields_length]
  exact congrArg (fun item => some (storeTime (textBuffer t.text junk) item)) (funext t.items)

/-- The zero time, or a time without sign of at most 255 hours with an exact fraction, or a text of at
least eight bytes without one. -/
def TimeText.Sendable (t : TimeText) : Prop :=
  t.value = 0 ∨ t.negative = false ∧ t.clock.hour.value ≤ 255 ∧ t.clock.Exact ∧
    (t.clock.fractionNumber = 0 → 8 ≤ t.text.length)

theorem Clock.length_exact {c : Clock} (exact' : c.Exact) (broken : c.fractionNumber ≠ 0) : 12 ≤ c.text.length := by
  have long := c.length_le
  unfold Clock.fractionNumber at broken
  cases fraction : c.fraction with
  | none =>
    rw [fraction] at broken
    exact absurd rfl broken
  | some f =>
    rw [fraction] at broken long
    rwa [Option.elim_some, (exact' f fraction).resolve_right broken] at long

theorem TimeText.sent_numbers {t : TimeText} (inRange : t.clock.InRange 838) (junk : Mem) :
    t.Sent junk ↔ sentTime t.hourItem t.clock.minute.value t.clock.second.value t.clock.fractionNumber = t.value ∧
      (if t.clock.fractionNumber ≠ 0 then 13 else if t.hourItem + t.clock.minute.value + t.clock.second.value ≤ 0 then
        1 else 9) ≤ t.text.length + 1 := by
  obtain ⟨_, minute, second⟩ := inRange
  obtain ⟨decoded, written⟩ := storeTime_decodes (textBuffer t.text junk) t.hourItem
    (Nat.lt_of_le_of_lt minute (by decide)) (Nat.lt_of_le_of_lt second (by decide)) t.clock.fractionNumber_lt
  rw [TimeText.Sent, convertTime_eq, ← written]
  constructor
  · rintro ⟨c, stored, denoted, kept⟩
    cases stored
    rw [decoded] at denoted
    exact ⟨Option.some.inj denoted, kept⟩
  · rintro ⟨same, kept⟩
    exact ⟨_, rfl, decoded.trans (congrArg some same), kept⟩

theorem TimeText.sent_iff {t : TimeText} (inRange : t.clock.InRange 838) (junk : Mem) : t.Sent junk ↔ t.Sendable := by
  have sent := TimeText.sent_numbers inRange junk
  have longEnough : t.clock.text.length ≤ t.text.length := by
    rw [TimeText.text, length_append]
    omega
  have exact' := t.clock.fractionNumber_iff
  have twelve := @Clock.length_exact t.clock
  have vanishing := t.clock.microseconds_eq_zero_iff
  have number := t.clock.fractionNumber_lt
  rw [sent, TimeText.Sendable, ← exact']
  rw [← exact'] at twelve
  unfold sentTime TimeText.hourItem TimeText.value Clock.total
  generalize t.clock.fractionNumber = fraction at *
  generalize t.clock.hour.value = h at *
  generalize t.clock.minute.value = m at *
  generalize t.clock.second.value = s at *
  cases t.negative with
  | true =>
    simp only [if_true, Bool.true_eq_false, false_and, or_false]
    by_cases whole : fraction = 0
    · rw [if_neg (not_not.mpr whole)]
      by_cases stopped : -(h : Int) + m + s ≤ 0
      · rw [if_pos ⟨whole, stopped⟩, if_pos stopped]
        omega
      · omega
    · omega
  | false =>
    simp only [Bool.false_eq_true, if_false, true_and]
    by_cases whole : fraction = 0
    · rw [if_neg (not_not.mpr whole)]
      by_cases stopped : (h : Int) + m + s ≤ 0
      · rw [if_pos ⟨whole, stopped⟩, if_pos stopped]
        omega
      · rw [if_neg (fun both => stopped both.2), if_neg stopped]
        omega
    · rw [if_neg (fun both => whole both.1), if_pos whole]
      omega

/-- A date or timestamp is sent as its text says exactly if its fraction has six digits or is zero; a
time must also be sendable. -/
theorem temporal_results_iff (junk : Mem) : (∀ t : DateText, t.InRange → (t.Sent junk ↔ ∀ c ∈ t.clock, c.Exact)) ∧
      ∀ t : TimeText, t.clock.InRange 838 → (t.Sent junk ↔ t.Sendable) :=
  ⟨fun _ inRange => DateText.sent_iff inRange junk, fun _ inRange => TimeText.sent_iff inRange junk⟩

/-- `12:34:56`. -/
def noonish : TimeText := ⟨false, .ofNat 12, .ofNat 34, .ofNat 56, none⟩

theorem noonish_sent : noonish.clock.InRange 838 ∧ noonish.Sent fun _ => 0 := by
  have inRange : noonish.clock.InRange 838 := by simp [Clock.InRange, noonish, Numeral.value_ofNat]
  refine ⟨inRange, ((temporal_results_iff fun _ => 0).2 noonish inRange).mpr (.inr ⟨rfl, ?_, ?_, ?_⟩)⟩
  · simp [noonish, Numeral.value_ofNat]
  · simp [noonish, Clock.Exact]
  · decide

def halfSecond : DateText :=
  let first : Numeral := ⟨ascii "01", by decide +kernel, by decide +kernel⟩
  let zero : Numeral := ⟨ascii "00", by decide +kernel, by decide +kernel⟩
  ⟨⟨ascii "2024", by decide +kernel, by decide +kernel⟩, first, first,
    some ⟨zero, zero, zero, some ⟨.ofNat 5, by decide⟩⟩⟩

/-- The half second of `2024-01-01 00:00:00.5` is sent as five microseconds. -/
theorem half_second_lost : ¬ halfSecond.Sent fun _ => 0 := by
  have inRange : halfSecond.InRange := by
    refine ⟨by decide, by decide, by decide, fun c clock => ?_⟩
    cases clock
    exact ⟨by decide, by decide, by decide⟩
  rw [DateText.sent_iff inRange]
  intro all
  rcases all _ rfl _ rfl with full | zero
  · exact absurd full (by decide)
  · exact absurd zero (by decide)

end OpenHalo
