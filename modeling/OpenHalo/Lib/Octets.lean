import Mathlib.Data.List.Basic
import Mathlib.Data.Nat.Digits.Defs

namespace Octets
open List

/-- Byte strings, as C programs pass them around. -/
abbrev Bytes := List UInt8

/-- The bytes of an ASCII string constant. -/
def ascii (s : String) : Bytes := s.toList.map fun c => UInt8.ofNat c.toNat

/-- `tolower` in the C locale. -/
def lower (b : UInt8) : UInt8 := if 65 ≤ b ∧ b ≤ 90 then b + 32 else b

/-- `strncasecmp(s, t, n) == 0`; a string ends at its first NUL or with the list. -/
def eqNoCase : Nat → Bytes → Bytes → Bool
  | 0, _, _ => true
  | n + 1, s, t =>
    let c := lower (s.headD 0)
    c == lower (t.headD 0) && (c == 0 || eqNoCase n s.tail t.tail)

/-- `strncasecmp(s, w, strlen(w)) == 0`: the text starts with the word. -/
def startsWith (s w : Bytes) : Bool := eqNoCase w.length s w

/-- The bytes before the first NUL. -/
def cstr (s : Bytes) : Bytes := s.takeWhile (· != 0)

theorem cstr_eq {s : Bytes} (text : 0 ∉ s) : cstr s = s := by
  induction s with
  | nil => rfl
  | cons c s ih =>
    have kept : (c != 0) = true := bne_iff_ne.mpr fun zero => text (zero ▸ mem_cons_self)
    rw [cstr, takeWhile_cons, if_pos kept]
    exact congrArg (c :: ·) (ih fun later => text (mem_cons_of_mem c later))

theorem cstr_append {s : Bytes} (text : 0 ∉ s) (rest : Bytes) : cstr (s ++ 0 :: rest) = s := by
  induction s with
  | nil => rfl
  | cons c s ih =>
    have kept : (c != 0) = true := bne_iff_ne.mpr fun zero => text (zero ▸ mem_cons_self)
    rw [cstr, cons_append, takeWhile_cons, if_pos kept]
    exact congrArg (c :: ·) (ih fun later => text (mem_cons_of_mem c later))

/-- An unsigned little-endian integer. -/
def littleEndian : Bytes → Nat
  | [] => 0
  | b :: bs => b.toNat + 256 * littleEndian bs

/-- The low `k` bytes of a number, the lowest first. -/
def toLittleEndian : Nat → Nat → Bytes
  | 0, _ => []
  | k + 1, n => UInt8.ofNat n :: toLittleEndian k (n / 256)

theorem toLittleEndian_length (k n : Nat) : (toLittleEndian k n).length = k := by
  induction k generalizing n with
  | zero => rfl
  | succ k ih => rw [toLittleEndian, length_cons, ih]

theorem littleEndian_lt (bs : Bytes) : littleEndian bs < 256 ^ bs.length := by
  induction bs with
  | nil => decide
  | cons b bs ih =>
    have byte := b.toNat_lt
    rw [littleEndian, length_cons]
    omega

theorem littleEndian_toLittleEndian (k n : Nat) : littleEndian (toLittleEndian k n) = n % 256 ^ k := by
  induction k generalizing n with
  | zero => simp [toLittleEndian, littleEndian, Nat.mod_one]
  | succ k ih =>
    have byte : (UInt8.ofNat n).toNat = n % 256 := UInt8.toNat_ofNat'
    rw [toLittleEndian, littleEndian, ih, byte, Nat.pow_succ', Nat.mod_mul]

theorem toLittleEndian_littleEndian (bs : Bytes) : toLittleEndian bs.length (littleEndian bs) = bs := by
  induction bs with
  | nil => rfl
  | cons b bs ih =>
    have small := b.toNat_lt
    have low : UInt8.ofNat (b.toNat + 256 * littleEndian bs) = b := by
      apply UInt8.toNat_inj.mp
      rw [UInt8.toNat_ofNat']
      omega
    have high : (b.toNat + 256 * littleEndian bs) / 256 = littleEndian bs := by omega
    rw [length_cons, littleEndian, toLittleEndian, low, high, ih]

theorem toLittleEndian_succ (k n : Nat) :
    toLittleEndian (k + 1) n = toLittleEndian k n ++ [UInt8.ofNat (n / 256 ^ k)] := by
  induction k generalizing n with
  | zero => simp [toLittleEndian]
  | succ k ih =>
    rw [toLittleEndian, ih, toLittleEndian, cons_append, Nat.pow_succ', Nat.div_div_eq_div_mul]

theorem toLittleEndian_add_mul (k n m : Nat) : toLittleEndian k (m * 256 ^ k + n) = toLittleEndian k n := by
  induction k generalizing n with
  | zero => rfl
  | succ k ih =>
    have low : UInt8.ofNat (m * 256 ^ (k + 1) + n) = UInt8.ofNat n := by
      apply UInt8.toNat_inj.mp
      rw [UInt8.toNat_ofNat', UInt8.toNat_ofNat', Nat.pow_succ, ← Nat.mul_assoc]
      omega
    have high : (m * 256 ^ (k + 1) + n) / 256 = m * 256 ^ k + n / 256 := by
      rw [Nat.pow_succ, ← Nat.mul_assoc]
      omega
    rw [toLittleEndian, toLittleEndian, low, high, ih]

/-- `%u`: the decimal digits of a natural number. -/
def decimal (n : Nat) : Bytes := (Nat.toDigits 10 n).map fun c => UInt8.ofNat c.toNat

theorem mem_decimal {n : Nat} {c : UInt8} (member : c ∈ decimal n) : 48 ≤ c ∧ c ≤ 57 := by
  obtain ⟨d, digit, rfl⟩ := mem_map.mp member
  have isDigit := Nat.isDigit_of_mem_toDigits (by decide) (Nat.le_refl 10) digit
  have bounds : 48 ≤ d.toNat ∧ d.toNat ≤ 57 := by
    simpa [Char.isDigit, UInt32.le_iff_toNat_le] using isDigit
  have small : (UInt8.ofNat d.toNat).toNat = d.toNat := by
    rw [UInt8.toNat_ofNat']
    omega
  simp only [UInt8.le_iff_toNat_le, small]
  exact bounds

theorem decimal_length {n width : Nat} (positive : 0 < width) (small : n < 10 ^ width) :
    (decimal n).length ≤ width := by
  rw [decimal, length_map]
  exact Nat.toDigits_length 10 n width positive small

/-- `%d`: the same with a minus sign in front of negative numbers. -/
def signedDecimal (n : Int) : Bytes :=
  if n < 0 then 45 :: decimal n.natAbs else decimal n.natAbs

/-- `%0wd`: digits padded with zeros on the left. -/
def paddedDecimal (width n : Nat) : Bytes :=
  List.replicate (width - (decimal n).length) 48 ++ decimal n

theorem mem_paddedDecimal {width n : Nat} {c : UInt8} (member : c ∈ paddedDecimal width n) : 48 ≤ c ∧ c ≤ 57 := by
  rcases mem_append.mp member with zero | digit
  · rw [eq_of_mem_replicate zero]
    decide
  · exact mem_decimal digit

theorem width_le_paddedDecimal (width n : Nat) : width ≤ (paddedDecimal width n).length := by
  simp only [paddedDecimal, length_append, length_replicate]
  omega

/-- The value of a two's-complement word of `bits` bits. -/
def signed (bits n : Nat) : Int :=
  if n < 2 ^ (bits - 1) then n else (n : Int) - 2 ^ bits

/-- Conversion to a signed word, which keeps the low bits. -/
def toInt32 (x : Int) : Int := (x + 2 ^ 31) % 2 ^ 32 - 2 ^ 31

def toInt64 (x : Int) : Int := (x + 2 ^ 63) % 2 ^ 64 - 2 ^ 63

theorem toInt64_eq {x : Int} (low : -2 ^ 63 ≤ x) (high : x < 2 ^ 63) : toInt64 x = x := by
  unfold toInt64
  omega

theorem forall_byte {p : UInt8 → Prop} (all : ∀ n < 256, p (UInt8.ofNat n)) (b : UInt8) : p b := by
  have value := all b.toNat b.toNat_lt
  rwa [UInt8.ofNat_toNat] at value

end Octets
