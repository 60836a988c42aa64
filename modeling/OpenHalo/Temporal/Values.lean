import OpenHalo.Lib.Numeral

namespace OpenHalo
open Octets

structure DateTime where
  year : Nat
  month : Nat
  day : Nat
  hour : Nat
  minute : Nat
  second : Nat
  microsecond : Nat
deriving Repr, DecidableEq

structure Fraction extends Numeral where
  short : digits.length ≤ 6

/-- The digits count from the left: `.5` is half a second. -/
def Fraction.microseconds (f : Fraction) : Nat := f.value * 10 ^ (6 - f.digits.length)

structure Clock where
  hour : Numeral
  minute : Numeral
  second : Numeral
  fraction : Option Fraction

structure DateText where
  year : Numeral
  month : Numeral
  day : Numeral
  clock : Option Clock

structure TimeText where
  negative : Bool
  clock : Clock

/-- The rows of digits of a text with the byte behind each; `stop` is behind the last. -/
abbrev Fields := List (Bytes × UInt8)

def Fields.bytes (fields : Fields) : Bytes := fields.flatMap fun field => field.1 ++ [field.2]

def Clock.fields (c : Clock) : Fields :=
  match c.fraction with
  | none => [(c.hour.digits, 58), (c.minute.digits, 58), (c.second.digits, 0)]
  | some f => [(c.hour.digits, 58), (c.minute.digits, 58), (c.second.digits, 46), (f.digits, 0)]

def DateText.fields (t : DateText) : Fields :=
  match t.clock with
  | none => [(t.year.digits, 45), (t.month.digits, 45), (t.day.digits, 0)]
  | some c => (t.year.digits, 45) :: (t.month.digits, 45) :: (t.day.digits, 32) :: c.fields

def TimeText.fields (t : TimeText) : Fields :=
  match t.clock.fields with
  | [] => []
  | (hour, stop) :: rest => ((if t.negative then 45 :: hour else hour), stop) :: rest

/-- `h:m:s[.f]`. -/
def Clock.text (c : Clock) : Bytes :=
  c.hour.digits ++ ascii ":" ++ c.minute.digits ++ ascii ":" ++ c.second.digits ++
    c.fraction.elim [] fun f => ascii "." ++ f.digits

/-- `Y-M-D[ h:m:s[.f]]`. -/
def DateText.text (t : DateText) : Bytes :=
  t.year.digits ++ ascii "-" ++ t.month.digits ++ ascii "-" ++ t.day.digits ++
    t.clock.elim [] fun c => ascii " " ++ c.text

/-- `[-]h:m:s[.f]`. -/
def TimeText.text (t : TimeText) : Bytes := (if t.negative then ascii "-" else []) ++ t.clock.text

def Clock.microseconds (c : Clock) : Nat := c.fraction.elim 0 Fraction.microseconds

def Clock.total (c : Clock) : Nat :=
  ((c.hour.value * 60 + c.minute.value) * 60 + c.second.value) * 1000000 + c.microseconds

def DateText.value (t : DateText) : DateTime :=
  ⟨t.year.value, t.month.value, t.day.value, t.clock.elim 0 (·.hour.value), t.clock.elim 0 (·.minute.value),
    t.clock.elim 0 (·.second.value), t.clock.elim 0 Clock.microseconds⟩

def TimeText.value (t : TimeText) : Int := if t.negative then -t.clock.total else t.clock.total

theorem Clock.text_fields (c : Clock) : c.text ++ [0] = c.fields.bytes := by
  unfold Clock.text Clock.fields
  cases c.fraction <;> simp [Fields.bytes, ascii]

theorem DateText.text_fields (t : DateText) : t.text ++ [0] = t.fields.bytes := by
  unfold DateText.text DateText.fields
  cases t.clock with
  | none => simp [Fields.bytes, ascii]
  | some c =>
    have rest := c.text_fields
    rw [Fields.bytes] at rest
    simp [Fields.bytes, ascii, ← rest]

theorem TimeText.text_fields (t : TimeText) : t.text ++ [0] = t.fields.bytes := by
  have clock := t.clock.text_fields
  rw [TimeText.text, List.append_assoc, clock]
  unfold TimeText.fields Clock.fields
  cases t.clock.fraction <;> cases t.negative <;> simp [Fields.bytes, ascii]

def Clock.tail (c : Clock) : Bytes := c.fraction.elim [0] fun f => 46 :: (f.digits ++ [0])

theorem Clock.text_split (c : Clock) :
    c.text ++ [0] = c.hour.digits ++ 58 :: (c.minute.digits ++ 58 :: (c.second.digits ++ c.tail)) := by
  unfold Clock.text Clock.tail
  cases c.fraction <;> simp [ascii]

theorem Clock.total_unique {c c' : Clock} (same : c.text ++ [0] = c'.text ++ [0]) : c.total = c'.total := by
  rw [c.text_split, c'.text_split] at same
  obtain ⟨hour, _, same⟩ := Numeral.append_inj rfl rfl same
  obtain ⟨minute, _, same⟩ := Numeral.append_inj rfl rfl same
  unfold Clock.tail at same
  unfold Clock.total Clock.microseconds
  rw [hour, minute]
  generalize c.fraction = fraction at same ⊢
  generalize c'.fraction = fraction' at same ⊢
  cases fraction with
  | none =>
    cases fraction' with
    | none =>
      obtain ⟨second, _, _⟩ := Numeral.append_inj rfl rfl same
      rw [second]
    | some f' =>
      obtain ⟨_, stop, _⟩ := Numeral.append_inj rfl rfl same
      cases stop
  | some f =>
    cases fraction' with
    | none =>
      obtain ⟨_, stop, _⟩ := Numeral.append_inj rfl rfl same
      cases stop
    | some f' =>
      obtain ⟨second, _, same⟩ := Numeral.append_inj rfl rfl same
      obtain ⟨digits, _, _⟩ := @Numeral.append_inj f.toNumeral f'.toNumeral 0 0 [] [] rfl rfl same
      simp only [second, Option.elim, Fraction.microseconds, digits]

theorem Clock.text_ne_minus (c : Clock) (rest : Bytes) : c.text ≠ 45 :: rest := by
  intro same
  cases front : c.hour.digits with
  | nil => exact c.hour.nonempty front
  | cons d digits =>
    have digit := c.hour.numeric d (by rw [front]; exact List.mem_cons_self)
    simp only [Clock.text, front, List.cons_append, List.cons.injEq] at same
    rw [same.1] at digit
    cases digit

theorem TimeText.value_unique {t t' : TimeText} (same : t.text = t'.text) : t.value = t'.value := by
  obtain ⟨negative, clock⟩ := t
  obtain ⟨negative', clock'⟩ := t'
  cases negative with
  | false =>
    cases negative' with
    | false => exact congrArg Int.ofNat (Clock.total_unique (congrArg (· ++ [0]) same))
    | true => exact absurd same (clock.text_ne_minus clock'.text)
  | true =>
    cases negative' with
    | false => exact absurd same.symm (clock'.text_ne_minus clock.text)
    | true =>
      have rest : clock.text = clock'.text := List.append_cancel_left same
      have total := Clock.total_unique (congrArg (· ++ [0]) rest)
      simp [TimeText.value, total]

/-- The fields behind the length byte; those that the length leaves out are zero. -/
def fieldAt (fields : Bytes) (at' n : Nat) : Nat := littleEndian ((fields.drop at').take n)

/-- DATE (lengths 0 and 4), DATETIME and TIMESTAMP (0, 4, 7 and 11). -/
def decodeDateTime (lengths : List Nat) : Bytes → Option DateTime
  | [] => none
  | len :: fields =>
    if len.toNat ∈ lengths ∧ fields.length = len.toNat ∧ fieldAt fields 7 4 < 1000000 then
      some ⟨fieldAt fields 0 2, fieldAt fields 2 1, fieldAt fields 3 1, fieldAt fields 4 1, fieldAt fields 5 1,
        fieldAt fields 6 1, fieldAt fields 7 4⟩
    else none

/-- A value of the type TIME, in microseconds: a sign, days, and the time of day. -/
def decodeTime : Bytes → Option Int
  | [] => none
  | len :: fields =>
    if len.toNat ∈ [0, 8, 12] ∧ fields.length = len.toNat ∧ fieldAt fields 8 4 < 1000000 then
      let hours := fieldAt fields 1 4 * 24 + fieldAt fields 5 1
      let total := ((hours * 60 + fieldAt fields 6 1) * 60 + fieldAt fields 7 1) * 1000000 + fieldAt fields 8 4
      some (if fieldAt fields 0 1 ≠ 0 then -total else total)
    else none

end OpenHalo
