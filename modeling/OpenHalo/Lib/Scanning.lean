import Mathlib.Data.List.TakeWhile
import OpenHalo.Lib.Numeral

namespace Octets
open List

variable {b c : UInt8} {q : UInt8 → Bool} {n width : Nat}

/-- `isspace`. -/
def isBlank (c : UInt8) : Bool := c == 32 || (9 ≤ c && c ≤ 13)

/-- `ispunct`. -/
def isPunct (c : UInt8) : Bool :=
  (33 ≤ c && c ≤ 47) || (58 ≤ c && c ≤ 64) || (91 ≤ c && c ≤ 96) || (123 ≤ c && c ≤ 126)

theorem isBlank_not_digit (blank : isBlank c = true) : isDigit c = false :=
  forall_byte (p := fun c => isBlank c = true → isDigit c = false) (by decide +kernel) c blank

theorem isPunct_not_digit (punct : isPunct c = true) : isDigit c = false :=
  forall_byte (p := fun c => isPunct c = true → isDigit c = false) (by decide +kernel) c punct

section Rows

variable {p : UInt8 → Bool} {row rest : Bytes}

/-- The text does not begin with a byte of the class. -/
def Ends (p : UInt8 → Bool) (rest : Bytes) : Prop := ∀ c ∈ rest.head?, p c = false

theorem ends_nil : Ends p [] := fun _ none => nomatch none

theorem ends_cons : Ends p (c :: rest) ↔ p c = false := by
  simp [Ends]

theorem ends_iff_head : Ends p rest ↔ rest.head?.any p = false := by
  cases rest <;> simp [Ends]

theorem ends_append (ends : Ends p rest) (stop : p c = false) (tail : Bytes) : Ends p (rest ++ c :: tail) := by
  cases rest with
  | nil => exact ends_cons.mpr stop
  | cons b rest => exact ends_cons.mpr (ends_cons.mp ends)

theorem ends_byte (apart : ∀ more, rest ≠ b :: more) : Ends (· == b) rest := by
  intro c first
  apply beq_eq_false_iff_ne.mpr
  rintro rfl
  cases rest with
  | nil => cases first
  | cons c more =>
    cases first
    exact apart more rfl

theorem takeWhile_row (all : ∀ c ∈ row, p c = true) (ends : Ends p rest) : (row ++ rest).takeWhile p = row := by
  rw [takeWhile_append_of_pos all]
  cases rest with
  | nil => simp
  | cons c rest => simp [ends_cons.mp ends]

theorem dropWhile_row (all : ∀ c ∈ row, p c = true) (ends : Ends p rest) : (row ++ rest).dropWhile p = rest := by
  rw [dropWhile_append_of_pos all]
  cases rest with
  | nil => rfl
  | cons c rest => rw [dropWhile_cons_of_neg (by simp [ends_cons.mp ends])]

theorem exists_row (p : UInt8 → Bool) (text : Bytes) :
    ∃ row rest, text = row ++ rest ∧ (∀ c ∈ row, p c = true) ∧ Ends p rest := by
  refine ⟨text.takeWhile p, text.dropWhile p, takeWhile_append_dropWhile.symm, fun c => mem_takeWhile_imp, ?_⟩
  intro c first
  have ended := List.head?_dropWhile_not p text
  rw [Option.mem_def.mp first] at ended
  exact ended

/-- A text of bytes of one class. -/
structure Row (p : UInt8 → Bool) where
  bytes : Bytes
  all : ∀ c ∈ bytes, p c = true

abbrev Digits := Row isDigit

abbrev Blanks := Row isBlank

theorem Ends.behind (ends : Ends p rest) (row : Row q) (apart : ∀ c, q c = true → p c = false) :
    Ends p (row.bytes ++ rest) := by
  obtain ⟨bytes, all⟩ := row
  cases bytes with
  | nil => exact ends
  | cons c bytes => exact ends_cons.mpr (apart c (all c (mem_cons_self ..)))

theorem Row.ends (row : Row q) (apart : ∀ c, q c = true → p c = false) : Ends p row.bytes :=
  fun c first => apart c (row.all c (mem_of_mem_head? first))

namespace Row

theorem exists_cons {row : Row p} (nonempty : row.bytes ≠ []) : ∃ c more, row.bytes = c :: more ∧ p c = true := by
  obtain ⟨c, more, same⟩ := exists_cons_of_ne_nil nonempty
  exact ⟨c, more, same, row.all c (same ▸ mem_cons_self)⟩

def empty : Row p := ⟨[], fun _ none => nomatch none⟩

def append (x y : Row p) : Row p where
  bytes := x.bytes ++ y.bytes
  all c member := (mem_append.mp member).elim (x.all c) (y.all c)

end Row

end Rows

section Digits

/-- The number that a group of digits denotes; the empty group denotes 0. -/
def Row.value (ds : Digits) : Nat := digitsValue ds.bytes

theorem paddedDecimal_length (positive : 0 < width) (small : n < 10 ^ width) :
    (paddedDecimal width n).length = width := by
  have short := decimal_length positive small
  simp only [paddedDecimal, length_append, length_replicate]
  omega

theorem paddedDecimal_digits (width n : Nat) : ∀ c ∈ paddedDecimal width n, isDigit c = true :=
  fun _ member => isDigit_iff.mpr (mem_paddedDecimal member)

theorem decimal_digits (n : Nat) : ∀ c ∈ decimal n, isDigit c = true :=
  fun _ member => isDigit_iff.mpr (mem_decimal member)

theorem decimal_length_bounds (positive : 0 < width) (length : (decimal n).length = width + 1) :
    10 ^ width ≤ n ∧ n < 10 ^ (width + 1) := by
  constructor
  · by_contra small
    have short := decimal_length positive (Nat.lt_of_not_le small)
    omega
  · have bound := digitsValue_lt (decimal_digits n)
    rwa [digitsValue_decimal, length] at bound

/-- The numeral that `%0*u` prints. -/
def Numeral.padded (width n : Nat) : Numeral where
  digits := paddedDecimal width n
  nonempty empty := (Numeral.ofNat n).nonempty (append_eq_nil_iff.mp empty).2
  numeric := paddedDecimal_digits width n

@[simp] theorem Numeral.value_padded (width n : Nat) : (Numeral.padded width n).value = n :=
  digitsValue_paddedDecimal width n

theorem Numeral.padded_length (positive : 0 < width) (small : n < 10 ^ width) :
    (Numeral.padded width n).digits.length = width := paddedDecimal_length positive small

end Digits

end Octets
