import OpenHalo.Lib.Octets
import OpenHalo.Lib.Positional

namespace Octets
open Positional List

def isDigit (c : UInt8) : Bool := 48 ≤ c && c ≤ 57

theorem isDigit_iff {c : UInt8} : isDigit c = true ↔ 48 ≤ c ∧ c ≤ 57 := by simp [isDigit]

/-- The number that a row of digits denotes. -/
def digitsValue (ds : Bytes) : Nat := value 10 (ds.map fun c => c.toNat - 48)

theorem digitsValue_append (xs ys : Bytes) :
    digitsValue (xs ++ ys) = digitsValue xs * 10 ^ ys.length + digitsValue ys := by
  rw [digitsValue, map_append, value_append, length_map]
  rfl

theorem digitsValue_cons (c : UInt8) (ds : Bytes) :
    digitsValue (c :: ds) = (c.toNat - 48) * 10 ^ ds.length + digitsValue ds := by
  rw [digitsValue, map_cons, value_cons, length_map]
  rfl

theorem isDigit_value {c : UInt8} (digit : isDigit c = true) : 48 ≤ c.toNat ∧ c.toNat - 48 < 10 := by
  have bounds := isDigit_iff.mp digit
  have low : 48 ≤ c.toNat := bounds.1
  have high : c.toNat ≤ 57 := bounds.2
  omega

theorem digits_lt {ds : Bytes} (numeric : ∀ c ∈ ds, isDigit c = true) : ∀ d ∈ ds.map fun c => c.toNat - 48, d < 10 :=
  forall_mem_map.mpr fun c member => (isDigit_value (numeric c member)).2

theorem digitsValue_lt {ds : Bytes} (numeric : ∀ c ∈ ds, isDigit c = true) : digitsValue ds < 10 ^ ds.length := by
  rw [← length_map fun c : UInt8 => c.toNat - 48]
  exact value_lt_pow (by decide) (digits_lt numeric)

theorem digits_ext {xs ys : Bytes} (digits : ∀ c ∈ xs, isDigit c = true) (digits' : ∀ c ∈ ys, isDigit c = true)
    (length : xs.length = ys.length) (same : digitsValue xs = digitsValue ys) : xs = ys := by
  have restored (ds : Bytes) (numeric : ∀ c ∈ ds, isDigit c = true) :
      (ds.map fun c => c.toNat - 48).map (fun d => UInt8.ofNat (d + 48)) = ds := by
    rw [map_map]
    refine (map_congr_left fun c member => ?_).trans (map_id ds)
    rw [Function.comp_apply, Nat.sub_add_cancel (isDigit_value (numeric c member)).1, UInt8.ofNat_toNat]
    rfl
  have values := value_inj (by decide) (by rw [length_map, length_map, length]) (digits_lt digits)
    (digits_lt digits') same
  rw [← restored xs digits, values, restored ys digits']

theorem foldl_digits (ds : Bytes) (start : Nat) :
    ds.foldl (fun result c => result * 10 + (c.toNat - 48)) start = start * 10 ^ ds.length + digitsValue ds := by
  induction ds generalizing start with
  | nil => simp [digitsValue]
  | cons c ds ih =>
    rw [foldl_cons, ih, digitsValue_cons, length_cons]
    ring

theorem digitsValue_decimal (n : Nat) : digitsValue (decimal n) = n := by
  induction n using Nat.strong_induction_on with
  | _ n ih =>
    have digit : ∀ d < 10, digitsValue [UInt8.ofNat d.digitChar.toNat] = d := by decide
    rw [decimal, Nat.toDigits_eq_if (by decide)]
    split
    · rename_i small
      exact digit n small
    have rest := ih (n / 10) (Nat.div_lt_self (by omega) (by decide))
    rw [map_append, digitsValue_append, map_singleton, digit _ (Nat.mod_lt n (by decide))]
    rw [decimal] at rest
    rw [length_singleton]
    omega

theorem digitsValue_zeros (k : Nat) : digitsValue (List.replicate k 48) = 0 := by
  rw [digitsValue, map_replicate]
  exact value_replicate_zero k

theorem digitsValue_paddedDecimal (width n : Nat) : digitsValue (paddedDecimal width n) = n := by
  rw [paddedDecimal, digitsValue_append, digitsValue_zeros, Nat.zero_mul, Nat.zero_add, digitsValue_decimal]

/-- A row of digits that is not empty. -/
@[ext] structure Numeral where
  digits : Bytes
  nonempty : digits ≠ []
  numeric : ∀ c ∈ digits, isDigit c = true

namespace Numeral

def value (n : Numeral) : Nat := digitsValue n.digits

theorem length_pos (n : Numeral) : 0 < n.digits.length := length_pos_iff.mpr n.nonempty

/-- The numeral that `%u` prints. -/
def ofNat (n : Nat) : Numeral where
  digits := decimal n
  nonempty := by
    intro empty
    have length := congrArg List.length empty
    rw [decimal, length_map, length_nil, length_eq_zero_iff] at length
    exact Nat.toDigits_ne_nil length
  numeric c member := isDigit_iff.mpr (mem_decimal member)

theorem value_ofNat (n : Nat) : (ofNat n).value = n := digitsValue_decimal n

/-- Numerals are read off a text up to the first byte that is no digit. -/
theorem append_inj {x y : Numeral} {s t : UInt8} {r r' : Bytes} (stop : isDigit s = false) (stop' : isDigit t = false)
    (same : x.digits ++ s :: r = y.digits ++ t :: r') : x = y ∧ s = t ∧ r = r' := by
  have taken : ∀ (z : Numeral) (u : UInt8) (rest : Bytes), isDigit u = false →
      (z.digits ++ u :: rest).takeWhile isDigit = z.digits := by
    intro z u rest ends
    rw [takeWhile_append_of_pos z.numeric, takeWhile_cons, ends]
    simp
  have digits : x.digits = y.digits := by rw [← taken x s r stop, ← taken y t r' stop', same]
  rw [digits, append_cancel_left_eq, List.cons.injEq] at same
  exact ⟨Numeral.ext digits, same⟩

end Numeral

end Octets
