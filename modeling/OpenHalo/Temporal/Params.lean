import OpenHalo.PreStmt
import OpenHalo.Temporal.Values

namespace OpenHalo
open Octets Memory Memory.Prog List

variable {k n size : Nat} {v : DateTime}

def DenotesDate (v : DateTime) (text : Bytes) : Prop := ∃ t : DateText, t.text = text ∧ t.value = v

def DenotesTime (v : Int) (text : Bytes) : Prop := ∃ t : TimeText, t.text = text ∧ t.value = v

/-- The value encoded at address `a` becomes a text for it, the size is that of the encoding, and
nothing else is read. -/
structure ReadsParam (process : Nat → Prog (Bytes × Nat)) (denotes : Bytes → Prop) (m : Mem) (a : Nat) (enc : Bytes) :
    Prop where
  text : denotes ((process a).run m).1.1
  size : ((process a).run m).1.2 = (enc.headD 0).toNat + 1
  announced : loadsWithin a (a + enc.length) (process a) m = true

section Read

variable {m : Mem} {a : Nat} {len : UInt8} {fields : Bytes} (held : read m a (len :: fields).length = len :: fields)
include held

theorem read_length_byte : littleEndian (read m a 1) = len.toNat := by
  rw [length_cons, read_succ, List.cons.injEq] at held
  simp [Memory.read, littleEndian, held.1]

theorem read_encoded {k n : Nat} (within : k + n ≤ fields.length) :
    littleEndian (read m (a + (k + 1)) n) = fieldAt fields k n := by
  rw [length_cons, read_succ, List.cons.injEq] at held
  have split : fields.length = k + (n + (fields.length - k - n)) := by omega
  have cut := held.2
  rw [split, read_append, read_append] at cut
  have part : (fields.drop k).take n = read m (a + 1 + k) n := by
    rw [← cut, drop_left' (by simp), take_left' (by simp)]
  rw [fieldAt, part, Nat.add_right_comm, Nat.add_assoc]

end Read

section Loads

variable (low high addr n : Nat) (m : Mem)

theorem run_pure {α : Type} (x : α) : (pure x : Prog α).run m = (x, m) := rfl

theorem run_fetchByte : (fetchByte addr).run m = (littleEndian (read m addr 1), m) := rfl

theorem run_fetchInt : (fetchInt addr n).run m = (littleEndian (read m addr n), m) := rfl

theorem loadsWithin_fetchByte : loadsWithin low high (fetchByte addr) m = decide (low ≤ addr ∧ addr + 1 ≤ high) :=
  Bool.and_true _

theorem loadsWithin_fetchInt : loadsWithin low high (fetchInt addr n) m = decide (low ≤ addr ∧ addr + n ≤ high) :=
  Bool.and_true _

theorem loadsWithin_pure {α : Type} (x : α) : loadsWithin low high (pure x) m = true := rfl

theorem run_secondPart (present : Bool) : (secondPart present addr).run m =
    (if present then ascii "." ++ paddedDecimal 6 (littleEndian (read m addr 4)) else [], m) := by
  cases present <;> rfl

theorem loadsWithin_secondPart (present : Bool) : loadsWithin low high (secondPart present addr) m = true ↔
    (present = true → low ≤ addr ∧ addr + 4 ≤ high) := by
  cases present with
  | false => simp [secondPart, loadsWithin_pure]
  | true => simp [secondPart, loadsWithin_bind, loadsWithin_fetchInt, loadsWithin_pure]

theorem run_datetimeDay (year size : Nat) : (datetimeDay year addr size).run m =
    (if 4 ≤ size then decimal year ++ ascii "-" ++ decimal (littleEndian (read m (addr + 3) 1)) ++ ascii "-" ++
      decimal (littleEndian (read m (addr + 4) 1)) else [], m) := by
  unfold datetimeDay
  split <;> rfl

theorem loadsWithin_datetimeDay (year size : Nat) : loadsWithin low high (datetimeDay year addr size) m = true ↔
    (4 ≤ size → low ≤ addr + 3 ∧ addr + 5 ≤ high) := by
  unfold datetimeDay
  split
  · rename_i day
    simp only [loadsWithin_bind, loadsWithin_fetchByte, loadsWithin_pure, run_fetchByte, Bool.and_eq_true,
      decide_eq_true_eq, and_true, day, true_implies]
    omega
  · rename_i none
    exact iff_of_true rfl fun day => absurd day none

theorem run_datetimeClock (size : Nat) : (datetimeClock addr size).run m =
    (if 7 ≤ size then ascii " " ++ decimal (littleEndian (read m (addr + 5) 1)) ++ ascii ":" ++
      decimal (littleEndian (read m (addr + 6) 1)) ++ ascii ":" ++ decimal (littleEndian (read m (addr + 7) 1)) else [],
        m) := by
  unfold datetimeClock
  split <;> rfl

theorem loadsWithin_datetimeClock (size : Nat) : loadsWithin low high (datetimeClock addr size) m = true ↔
    (7 ≤ size → low ≤ addr + 5 ∧ addr + 8 ≤ high) := by
  unfold datetimeClock
  split
  · rename_i clock
    simp only [loadsWithin_bind, loadsWithin_fetchByte, loadsWithin_pure, run_fetchByte, Bool.and_eq_true,
      decide_eq_true_eq, and_true, clock, true_implies]
    omega
  · rename_i none
    exact iff_of_true rfl fun clock => absurd clock none

end Loads

theorem fieldAt_beyond {fields : Bytes} (n : Nat) (beyond : fields.length ≤ k) : fieldAt fields k n = 0 := by
  rw [fieldAt, drop_eq_nil_of_le beyond, take_nil]
  rfl

theorem paddedDecimal_ne_nil (n : Nat) : paddedDecimal 6 n ≠ [] := by
  have width := width_le_paddedDecimal 6 n
  intro empty
  rw [empty] at width
  cases width

theorem paddedDecimal_length_le (small : n < 1000000) : (paddedDecimal 6 n).length ≤ 6 := by
  have digits := @decimal_length n 6 (by decide) small
  simp only [paddedDecimal, length_append, length_replicate]
  omega

/-- The microseconds that `%06u` prints. -/
def Fraction.ofMicroseconds (n : Nat) (small : n < 1000000) : Fraction where
  digits := paddedDecimal 6 n
  nonempty := paddedDecimal_ne_nil n
  numeric _ member := isDigit_iff.mpr (mem_paddedDecimal member)
  short := paddedDecimal_length_le small

theorem Fraction.microseconds_of (n : Nat) (small : n < 1000000) :
    (Fraction.ofMicroseconds n small).microseconds = n := by
  have width := width_le_paddedDecimal 6 n
  have full : (paddedDecimal 6 n).length = 6 := Nat.le_antisymm (paddedDecimal_length_le small) width
  show digitsValue (paddedDecimal 6 n) * 10 ^ (6 - (paddedDecimal 6 n).length) = n
  rw [full, digitsValue_paddedDecimal, Nat.pow_zero, Nat.mul_one]

section Encoded

variable {m : Mem} {a : Nat} {len : UInt8} {fields : Bytes} (held : read m a (len :: fields).length = len :: fields)
include held

def dateText (year month day : Nat) (clock : Option Clock) : DateText := ⟨.ofNat year, .ofNat month, .ofNat day, clock⟩

theorem processDateType_run (full : fields.length = 4) :
    ((processDateType a).run m).1 =
      ((dateText (fieldAt fields 0 2) (fieldAt fields 2 1) (fieldAt fields 3 1) none).text, len.toNat + 1) := by
  have first := read_length_byte held
  have year := read_encoded held (k := 0) (n := 2) (by omega)
  have month := read_encoded held (k := 2) (n := 1) (by omega)
  have day := read_encoded held (k := 3) (n := 1) (by omega)
  rw [← first, ← year, ← month, ← day]
  simp only [dateText, DateText.text, Option.elim, append_nil]
  rfl

omit held in
theorem decodeDateTime_some {lengths : List Nat} (decoded : decodeDateTime lengths (len :: fields) = some v) :
    len.toNat ∈ lengths ∧ fields.length = len.toNat ∧ fieldAt fields 7 4 < 1000000 ∧
      v = ⟨fieldAt fields 0 2, fieldAt fields 2 1, fieldAt fields 3 1, fieldAt fields 4 1, fieldAt fields 5 1,
        fieldAt fields 6 1, fieldAt fields 7 4⟩ := by
  rw [decodeDateTime] at decoded
  split at decoded
  · rename_i legal
    exact ⟨legal.1, legal.2.1, legal.2.2, (Option.some.inj decoded).symm⟩
  · cases decoded

theorem date_param_iff (decoded : decodeDateTime [0, 4] (len :: fields) = some v) :
    ReadsParam processDateType (DenotesDate v) m a (len :: fields) ↔ len ≠ 0 := by
  obtain ⟨legal, full, _, rfl⟩ := decodeDateTime_some decoded
  have loads : loadsWithin a (a + (len :: fields).length) (processDateType a) m = true ↔ 4 ≤ fields.length := by
    simp only [processDateType, loadsWithin_bind, loadsWithin_fetchByte, loadsWithin_fetchInt, loadsWithin_pure,
      run_fetchByte, run_fetchInt, Bool.and_eq_true, decide_eq_true_eq, and_true, length_cons]
    omega
  simp only [mem_cons, not_mem_nil, or_false] at legal
  constructor
  · rintro ⟨_, _, announced⟩ rfl
    have four := loads.mp announced
    rw [full] at four
    cases four
  · intro some'
    have four : len.toNat = 4 := legal.resolve_left fun zero => some' (UInt8.toNat_inj.mp zero)
    have run := processDateType_run held (full.trans four)
    have zero : ∀ k n, 4 ≤ k → fieldAt fields k n = 0 := fun k n beyond => fieldAt_beyond n (by omega)
    refine ⟨?_, ?_, loads.mpr (by omega)⟩
    · rw [run]
      refine ⟨_, rfl, ?_⟩
      simp [dateText, DateText.value, Numeral.value_ofNat, zero]
    · rw [run]
      rfl

/-- The clock of a date-time value of length `size`. -/
def datetimeText (size : Nat) (fields : Bytes) (small : fieldAt fields 7 4 < 1000000) : DateText :=
  dateText (fieldAt fields 0 2) (fieldAt fields 2 1) (fieldAt fields 3 1)
    (if 7 ≤ size then some ⟨.ofNat (fieldAt fields 4 1), .ofNat (fieldAt fields 5 1), .ofNat (fieldAt fields 6 1),
      if 11 ≤ size then some (.ofMicroseconds (fieldAt fields 7 4) small) else none⟩ else none)

omit held in
theorem datetimeText_value (full : fields.length = size) (legal : size = 4 ∨ size = 7 ∨ size = 11)
    (small : fieldAt fields 7 4 < 1000000) :
    (datetimeText size fields small).value =
      ⟨fieldAt fields 0 2, fieldAt fields 2 1, fieldAt fields 3 1, fieldAt fields 4 1,
        fieldAt fields 5 1, fieldAt fields 6 1, fieldAt fields 7 4⟩ := by
  have zero : ∀ k n, size ≤ k → fieldAt fields k n = 0 := fun k n beyond => fieldAt_beyond n (by omega)
  rcases legal with rfl | rfl | rfl
  · simp [datetimeText, dateText, DateText.value, Numeral.value_ofNat, zero]
  · simp [datetimeText, dateText, DateText.value, Numeral.value_ofNat, Clock.microseconds, zero]
  · simp [datetimeText, dateText, DateText.value, Numeral.value_ofNat, Clock.microseconds, Fraction.microseconds_of]

theorem processDatetimeTimestampType_run (full : fields.length = len.toNat)
    (legal : len.toNat = 4 ∨ len.toNat = 7 ∨ len.toNat = 11) (small : fieldAt fields 7 4 < 1000000) :
    ((processDatetimeTimestampType a).run m).1 = ((datetimeText len.toNat fields small).text, len.toNat + 1) := by
  have first := read_length_byte held
  have field := @read_encoded m a len fields held
  have year : littleEndian (read m (a + 1) 2) = _ := @field 0 2 (by omega)
  have month : littleEndian (read m (a + 3) 1) = _ := @field 2 1 (by omega)
  have day : littleEndian (read m (a + 4) 1) = _ := @field 3 1 (by omega)
  simp only [processDatetimeTimestampType, run_bind, run_fetchByte, run_fetchInt, run_datetimeDay, run_datetimeClock,
    run_secondPart, run_pure, first, year, month, day, datetimeText, dateText, DateText.text, Numeral.ofNat]
  rcases legal with four | longer
  · simp [four]
  have hour : littleEndian (read m (a + 5) 1) = _ := @field 4 1 (by omega)
  have minute : littleEndian (read m (a + 6) 1) = _ := @field 5 1 (by omega)
  have second : littleEndian (read m (a + 7) 1) = _ := @field 6 1 (by omega)
  rcases longer with seven | eleven
  · simp [seven, hour, minute, second, Clock.text]
  · have microsecond : littleEndian (read m (a + 8) 4) = _ := @field 7 4 (by omega)
    simp [eleven, hour, minute, second, microsecond, Clock.text, Fraction.ofMicroseconds]

theorem datetime_param_iff (decoded : decodeDateTime [0, 4, 7, 11] (len :: fields) = some v) :
    ReadsParam processDatetimeTimestampType (DenotesDate v) m a (len :: fields) ↔ len ≠ 0 := by
  obtain ⟨legal, full, small, rfl⟩ := decodeDateTime_some decoded
  have first := read_length_byte held
  have loads : loadsWithin a (a + (len :: fields).length) (processDatetimeTimestampType a) m = true ↔
      len.toNat ≠ 0 := by
    simp only [processDatetimeTimestampType, loadsWithin_bind, loadsWithin_fetchByte, loadsWithin_fetchInt,
      loadsWithin_pure,
      loadsWithin_datetimeDay, loadsWithin_datetimeClock, loadsWithin_secondPart, run_fetchByte, run_fetchInt,
      run_datetimeDay, run_datetimeClock, Bool.and_eq_true, decide_eq_true_eq, and_true, length_cons, first, full]
    simp only [mem_cons, not_mem_nil, or_false] at legal
    omega
  simp only [mem_cons, not_mem_nil, or_false] at legal
  constructor
  · rintro ⟨_, _, announced⟩ rfl
    exact loads.mp announced rfl
  · intro some'
    have longer := legal.resolve_left fun zero => some' (UInt8.toNat_inj.mp zero)
    have run := processDatetimeTimestampType_run held full longer small
    refine ⟨?_, ?_, loads.mpr (by omega)⟩
    · rw [run]
      exact ⟨_, rfl, datetimeText_value full longer small⟩
    · rw [run]
      rfl

omit held in
theorem decodeTime_some {v : Int} (decoded : decodeTime (len :: fields) = some v) :
    (len.toNat = 0 ∨ len.toNat = 8 ∨ len.toNat = 12) ∧ fields.length = len.toNat ∧ fieldAt fields 8 4 < 1000000 := by
  rw [decodeTime] at decoded
  split at decoded
  · rename_i legal
    simpa using legal
  · cases decoded

def timeHours (fields : Bytes) : Nat := fieldAt fields 1 4 * 24 + fieldAt fields 5 1

/-- The text of a time value of length `size`; the hours are counted in 32 bits. -/
def timeText (size : Nat) (fields : Bytes) (small : fieldAt fields 8 4 < 1000000) : TimeText where
  negative := decide (fieldAt fields 0 1 ≠ 0)
  clock := ⟨.ofNat (timeHours fields % 2 ^ 32), .ofNat (fieldAt fields 6 1), .ofNat (fieldAt fields 7 1),
    if 8 < size then some (.ofMicroseconds (fieldAt fields 8 4) small) else none⟩

theorem processTimeType_run (full : fields.length = len.toNat)
    (legal : len.toNat = 8 ∨ len.toNat = 12) (small : fieldAt fields 8 4 < 1000000) :
    ((processTimeType a).run m).1 = ((timeText len.toNat fields small).text, len.toNat + 1) := by
  have first := read_length_byte held
  have field := @read_encoded m a len fields held
  have negative : littleEndian (read m (a + 1) 1) = _ := @field 0 1 (by omega)
  have day : littleEndian (read m (a + 2) 4) = _ := @field 1 4 (by omega)
  have hours : littleEndian (read m (a + 6) 1) = _ := @field 5 1 (by omega)
  have minute : littleEndian (read m (a + 7) 1) = _ := @field 6 1 (by omega)
  have second : littleEndian (read m (a + 8) 1) = _ := @field 7 1 (by omega)
  simp only [processTimeType, run_bind, run_fetchByte, run_fetchInt, run_secondPart, run_pure, first, negative, day,
    hours, minute,
    second, timeText, timeHours, TimeText.text, Clock.text, Numeral.ofNat, Nat.add_comm (fieldAt fields 5 1)]
  rcases legal with eight | twelve
  · by_cases sign : fieldAt fields 0 1 = 0
    · simp [eight, sign]
    · simp [eight, sign]
  · have microsecond : littleEndian (read m (a + 9) 4) = _ := @field 8 4 (by omega)
    by_cases sign : fieldAt fields 0 1 = 0 <;> simp [twelve, sign, microsecond, Fraction.ofMicroseconds]

omit held in
theorem timeText_value_iff {v : Int} (decoded : decodeTime (len :: fields) = some v)
    (small : fieldAt fields 8 4 < 1000000) (legal : len.toNat = 8 ∨ len.toNat = 12) (full : fields.length = len.toNat) :
    (timeText len.toNat fields small).value = v ↔ timeHours fields < 2 ^ 32 := by
  have micro : (timeText len.toNat fields small).clock.microseconds = fieldAt fields 8 4 := by
    rcases legal with eight | twelve
    · simp [timeText, Clock.microseconds, eight, fieldAt_beyond 4 (show fields.length ≤ 8 by omega)]
    · simp [timeText, Clock.microseconds, twelve, Fraction.microseconds_of]
  rw [decodeTime] at decoded
  rw [TimeText.value, Clock.total, micro, ← Option.some_inj, ← decoded]
  simp only [timeText, Numeral.value_ofNat]
  rw [← timeHours]
  by_cases negative : fieldAt fields 0 1 = 0 <;>
  · simp [negative]
    omega

theorem time_param_iff {v : Int}
    (decoded : decodeTime (len :: fields) = some v) :
    ReadsParam processTimeType (DenotesTime v) m a (len :: fields) ↔ len ≠ 0 ∧ timeHours fields < 2 ^ 32 := by
  obtain ⟨legal, full, small⟩ := decodeTime_some decoded
  have first := read_length_byte held
  have loads : loadsWithin a (a + (len :: fields).length) (processTimeType a) m = true ↔ len.toNat ≠ 0 := by
    simp only [processTimeType, loadsWithin_bind, loadsWithin_fetchByte, loadsWithin_fetchInt, loadsWithin_pure,
      loadsWithin_secondPart, run_fetchByte, run_fetchInt, Bool.and_eq_true, decide_eq_true_eq, and_true, length_cons,
      first, full]
    omega
  by_cases empty : len = 0
  · subst empty
    refine iff_of_false ?_ fun both => both.1 rfl
    rintro ⟨_, _, announced⟩
    exact loads.mp announced rfl
  · have longer := legal.resolve_left fun zero => empty (UInt8.toNat_inj.mp zero)
    have run := processTimeType_run held full longer small
    have value := timeText_value_iff decoded small longer full
    constructor
    · rintro ⟨⟨t, same, denoted⟩, _, _⟩
      rw [run] at same
      exact ⟨empty, value.mp ((TimeText.value_unique same).symm.trans denoted)⟩
    · rintro ⟨_, room⟩
      refine ⟨?_, ?_, loads.mpr (by omega)⟩
      · rw [run]
        exact ⟨_, rfl, value.mpr room⟩
      · rw [run]
        rfl

end Encoded

/-- A temporal parameter is read as its bytes say exactly if it is not empty and the hours of a TIME fit
32 bits. -/
theorem temporal_params_iff (m : Mem) (a : Nat) (len : UInt8) (fields : Bytes)
    (held : read m a (len :: fields).length = len :: fields) : (∀ v, decodeDateTime [0, 4] (len :: fields) = some v →
      (ReadsParam processDateType (DenotesDate v) m a (len :: fields) ↔ len ≠ 0)) ∧
    (∀ v, decodeDateTime [0, 4, 7, 11] (len :: fields) = some v →
      (ReadsParam processDatetimeTimestampType (DenotesDate v) m a (len :: fields) ↔ len ≠ 0)) ∧
    ∀ v, decodeTime (len :: fields) = some v →
      (ReadsParam processTimeType (DenotesTime v) m a (len :: fields) ↔ len ≠ 0 ∧ timeHours fields < 2 ^ 32) :=
  ⟨fun _ => date_param_iff held, fun _ => datetime_param_iff held, fun _ => time_param_iff held⟩

/-- 12 March 2024 as a DATE parameter. -/
theorem date_param_march : ReadsParam processDateType (DenotesDate ⟨2024, 3, 12, 0, 0, 0, 0⟩)
    (load [4, 232, 7, 3, 12] 0 fun _ => 0) 0 [4, 232, 7, 3, 12] :=
  ((temporal_params_iff (load [4, 232, 7, 3, 12] 0 fun _ => 0) 0 4 [232, 7, 3, 12] (by decide)).1 _ (by decide)).mpr
  (by decide)

/-- Behind the empty encoding of the zero date, other bytes are read and printed. -/
theorem empty_date_param : decodeDateTime [0, 4] [0] = some ⟨0, 0, 0, 0, 0, 0, 0⟩ ∧
    ¬ReadsParam processDateType (DenotesDate ⟨0, 0, 0, 0, 0, 0, 0⟩) (load [0, 1, 2, 3, 4] 0 fun _ => 0) 0 [0] :=
  ⟨by decide, fun reads => (date_param_iff (by decide) (by decide)).mp reads rfl⟩

end OpenHalo
