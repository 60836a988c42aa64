import Mathlib.Tactic.IntervalCases
import OpenHalo.Rows.BitColumn

namespace OpenHalo
open Octets Positional List

/-- `num` after `k` doublings in a word of `w` bits. -/
def doubled (w : Nat) : Nat → Nat
  | 0 => 1
  | k + 1 => doubled w k * 2 % 2 ^ w

/-- The loop over the characters; `none` stands for NULL. -/
def varbitLoop (w limit : Nat) : Bytes → Nat → Option Nat
  | [], ret => some ret
  | c :: rest, ret =>
    if c = 49 then
      let ret := (ret + doubled w rest.length) % 2 ^ w
      if limit < ret then none else varbitLoop w limit rest ret
    else varbitLoop w limit rest ret

def convertTextVarbitToBigint (bitData : Bytes) : Option Nat := varbitLoop 64 (2 ^ 63 - 1) bitData 0

def convertVarbitToBigint (s : List Bool) : Option Nat := varbitLoop 64 (2 ^ 63 - 1) (bitText s) 0

def convertVarbitToInt (s : List Bool) : Option Nat := varbitLoop 64 (2 ^ 31 - 1) (bitText s) 0

def convertVarbitToSmallint (s : List Bool) : Option Nat := varbitLoop 32 (2 ^ 15 - 1) (bitText s) 0

theorem doubled_eq (w k : Nat) : doubled (w + 1) k = 2 ^ k % 2 ^ (w + 1) := by
  induction k with
  | zero => exact (Nat.mod_eq_of_lt (Nat.one_lt_two_pow (by omega))).symm
  | succ k ih => rw [doubled, ih, Nat.mod_mul_mod, ← Nat.pow_succ]

theorem varbitLoop_eq {w limit ret : Nat} (s : List Bool) (half : limit < 2 ^ w) (within : ret ≤ limit) :
    varbitLoop (w + 1) limit (bitText s) ret =
      if ret + bitValue s % 2 ^ (w + 1) ≤ limit then some (ret + bitValue s % 2 ^ (w + 1)) else none := by
  induction s generalizing ret with
  | nil => simp [bitText, varbitLoop, bitValue, within]
  | cons b s ih =>
    have size : (bitText s).length = s.length := length_map _
    rw [bitValue_cons]
    cases b with
    | false =>
      rw [Bool.toNat_false, Nat.zero_mul, Nat.zero_add, ← ih within]
      rfl
    | true =>
      show (let ret := (ret + doubled (w + 1) (bitText s).length) % 2 ^ (w + 1)
        if limit < ret then none else varbitLoop (w + 1) limit (bitText s) ret) = _
      rw [size, doubled_eq, Bool.toNat_true, Nat.one_mul]
      rcases Nat.lt_or_ge w s.length with lost | held
      · rw [Nat.mod_eq_zero_of_dvd (Nat.pow_dvd_pow 2 lost), Nat.add_zero, Nat.mod_eq_of_lt (by omega), Nat.add_mod,
          Nat.mod_eq_zero_of_dvd (Nat.pow_dvd_pow 2 lost), Nat.zero_add, Nat.mod_mod, ← ih within]
        exact if_neg (by omega)
      · have low := bitValue_lt s
        have power : 2 ^ s.length ≤ 2 ^ w := Nat.pow_le_pow_right (by decide) held
        rw [Nat.mod_eq_of_lt (by omega : 2 ^ s.length < 2 ^ (w + 1)), Nat.mod_eq_of_lt (by omega),
          Nat.mod_eq_of_lt (by omega)]
        dsimp only
        split
        · rw [if_neg (by omega)]
        · rw [ih (by omega), Nat.mod_eq_of_lt (by omega), Nat.add_assoc]

def exactOrNull (limit : Nat) (s : List Bool) : Option Nat := if bitValue s ≤ limit then some (bitValue s) else none

theorem varbitLoop_exact_iff {w limit : Nat} (s : List Bool) (half : limit < 2 ^ w) :
    varbitLoop (w + 1) limit (bitText s) 0 = exactOrNull limit s ↔
      bitValue s ≤ limit ∨ limit < bitValue s % 2 ^ (w + 1) := by
  have below := Nat.mod_le (bitValue s) (2 ^ (w + 1))
  rw [varbitLoop_eq s half (Nat.zero_le _), exactOrNull]
  split_ifs with small exact exact
  · rw [Nat.mod_eq_of_lt (by omega)]
    simp [exact]
  · simp
    omega
  · omega
  · simp
    omega

/-- A value above the limit is taken for a smaller one if it fits without the bits beyond the word. -/
theorem varbit_to_integer_iff (s : List Bool) :
    (convertVarbitToBigint s = exactOrNull (2 ^ 63 - 1) s ∧ convertVarbitToInt s = exactOrNull (2 ^ 31 - 1) s ∧
      convertVarbitToSmallint s = exactOrNull (2 ^ 15 - 1) s ∧
      convertTextVarbitToBigint (bitText s) = exactOrNull (2 ^ 63 - 1) s) ↔
    (bitValue s < 2 ^ 63 ∨ 2 ^ 63 ≤ bitValue s % 2 ^ 64) ∧ (bitValue s < 2 ^ 31 ∨ 2 ^ 31 ≤ bitValue s % 2 ^ 64) ∧
      (bitValue s < 2 ^ 15 ∨ 2 ^ 15 ≤ bitValue s % 2 ^ 32) := by
  have bigint := @varbitLoop_exact_iff 63 (2 ^ 63 - 1) s (by decide)
  have int := @varbitLoop_exact_iff 63 (2 ^ 31 - 1) s (by decide)
  have smallint := @varbitLoop_exact_iff 31 (2 ^ 15 - 1) s (by decide)
  rw [convertTextVarbitToBigint, convertVarbitToBigint, convertVarbitToInt, convertVarbitToSmallint]
  rw [bigint, int, smallint]
  omega

theorem varbit_to_integer_lost : convertVarbitToBigint (true :: List.replicate 64 false) ≠
    exactOrNull (2 ^ 63 - 1) (true :: List.replicate 64 false) := by
  decide +kernel

/-- A bit string as it is stored: its length, and its bytes with zeros behind the last bit. -/
structure VarBit where
  len : Nat
  bits : Bytes
deriving DecidableEq

def byteBits (b : UInt8) : List Bool := (List.range 8).map fun i => b.toNat.testBit (7 - i)

/-- `varbit_out`, with `true` for the character `1`. -/
def VarBit.out (v : VarBit) : List Bool := (v.bits.flatMap byteBits).take v.len

def bits8 (n : Int) : UInt8 := UInt8.ofNat (n % 256).toNat

theorem toNat_bits8 (n : Int) : ((bits8 n).toNat : Int) = n % 256 := by
  rw [bits8, UInt8.toNat_ofNat']
  omega

def halvings : Nat → Nat → Nat
  | 0, _ => 0
  | fuel + 1, arg => if arg / 2 = 0 then 1 else halvings fuel (arg / 2) + 1

def varbitTypmod (arg : Int) : Nat := if 0 ≤ arg then halvings 64 arg.toNat else 64

/-- The whole bytes of `destbitsleft = 8 * k + r`, and the last fractional one. -/
def storeBytes (arg : Int) : Nat → Nat → Bytes
  | 0, r => if 0 < r then [bits8 (arg * 2 ^ (8 - r))] else []
  | k + 1, r => bits8 (arg / 2 ^ (8 * k + r)) :: storeBytes arg k r

def convertBigintToVarbit (arg : Int) : VarBit :=
  let typmod := varbitTypmod arg
  ⟨typmod, storeBytes arg (typmod / 8) (typmod % 8)⟩

def convertIntToVarbit (arg : Int) : VarBit :=
  let typmod := varbitTypmod arg
  let srcbitsleft := min 32 typmod
  let fill : Bytes := List.replicate ((typmod - srcbitsleft) / 8) (if arg < 0 then 255 else 0)
  let destbitsleft := typmod - 8 * ((typmod - srcbitsleft) / 8)
  let fractional :=
    if srcbitsleft < destbitsleft then
      let val := (arg / 2 ^ (destbitsleft - 8)) % 2 ^ 32
      [bits8 (if arg < 0 then val.toNat ||| (2 ^ 32 - 1) <<< (srcbitsleft + 8 - destbitsleft) else val)]
    else []
  let destbitsleft := if srcbitsleft < destbitsleft then destbitsleft - 8 else destbitsleft
  ⟨typmod, fill ++ fractional ++ storeBytes arg (destbitsleft / 8) (destbitsleft % 8)⟩

def convertSmallintToVarbit (arg : Int) : VarBit := convertIntToVarbit arg

theorem byteBits_value :
    ∀ b : UInt8, bitValue (byteBits b) = b.toNat ∧ ∀ r < 8, bitValue ((byteBits b).take r) = b.toNat / 2 ^ (8 - r) :=
  forall_byte (by decide +kernel)

theorem storeBytes_out (arg : Int) (k : Nat) {r : Nat} (fraction : r < 8) :
    (VarBit.out ⟨8 * k + r, storeBytes arg k r⟩).length = 8 * k + r ∧
      (bitValue (VarBit.out ⟨8 * k + r, storeBytes arg k r⟩) : Int) = arg % 2 ^ (8 * k + r) := by
  induction k with
  | zero =>
    have byte := toNat_bits8 (arg * 2 ^ (8 - r))
    have value := (byteBits_value (bits8 (arg * 2 ^ (8 - r)))).2 r fraction
    simp only [VarBit.out, storeBytes]
    split
    · have eight : (byteBits (bits8 (arg * 2 ^ (8 - r)))).length = 8 := rfl
      rw [Nat.zero_add, flatMap_singleton, value, length_take, eight]
      interval_cases r <;> simp at byte ⊢ <;> omega
    · obtain rfl : r = 0 := by omega
      exact ⟨rfl, (Int.emod_one arg).symm⟩
  | succ k ih =>
    obtain ⟨length, rest⟩ := ih
    have byte := toNat_bits8 (arg / 2 ^ (8 * k + r))
    have value := (byteBits_value (bits8 (arg / 2 ^ (8 * k + r)))).1
    have front : VarBit.out ⟨8 * (k + 1) + r, storeBytes arg (k + 1) r⟩ =
        byteBits (bits8 (arg / 2 ^ (8 * k + r))) ++ VarBit.out ⟨8 * k + r, storeBytes arg k r⟩ := by
      have eight : (byteBits (bits8 (arg / 2 ^ (8 * k + r)))).length = 8 := rfl
      simp only [VarBit.out, storeBytes, flatMap_cons, take_append, eight]
      rw [take_of_length_le (by rw [eight]; omega), show 8 * (k + 1) + r - 8 = 8 * k + r by omega]
    rw [front, length_append, bitValue_append, length, value]
    refine ⟨by show 8 + _ = _; omega, ?_⟩
    have power : (2 : Int) ^ (8 * (k + 1) + r) = 2 ^ (8 * k + r) * 256 := by
      rw [show 8 * (k + 1) + r = 8 * k + r + 8 by omega, pow_add]
      rfl
    push_cast
    rw [byte, rest, power, Int.emod_def arg (_ * _), ← Int.ediv_ediv_of_nonneg (by positivity), Int.emod_def,
      Int.emod_def arg]
    ring

theorem halvings_spec {fuel arg : Nat} (enough : arg < 2 ^ (fuel + 1)) :
    0 < halvings (fuel + 1) arg ∧ halvings (fuel + 1) arg ≤ fuel + 1 ∧ arg < 2 ^ halvings (fuel + 1) arg ∧
      (arg = 0 ∨ 2 ^ (halvings (fuel + 1) arg - 1) ≤ arg) := by
  induction fuel generalizing arg with
  | zero =>
    unfold halvings
    rw [if_pos (by omega)]
    omega
  | succ fuel ih =>
    rw [halvings]
    split
    · omega
    obtain ⟨positive, most, above, below⟩ := @ih (arg / 2) (by omega)
    have half : 2 ^ halvings (fuel + 1) (arg / 2) = 2 * 2 ^ (halvings (fuel + 1) (arg / 2) - 1) := by
      rw [← Nat.pow_succ', Nat.succ_eq_add_one, Nat.sub_add_cancel positive]
    rw [Nat.add_sub_cancel]
    omega

theorem varbitTypmod_least {n : Int} (nonneg : 0 ≤ n) (high : n < 2 ^ 63) : IsLeast {len : Nat | 1 ≤ len ∧ n < 2 ^ len}
    (varbitTypmod n) := by
  obtain ⟨m, rfl⟩ := Int.eq_ofNat_of_zero_le nonneg
  obtain ⟨positive, -, above, below⟩ := @halvings_spec 63 m (by omega)
  rw [varbitTypmod, if_pos nonneg, Int.toNat_natCast]
  refine ⟨⟨positive, by exact_mod_cast above⟩, ?_⟩
  rintro len ⟨one, fits⟩
  by_contra shorter
  have fits : m < 2 ^ len := by exact_mod_cast fits
  have power : 2 ^ len ≤ 2 ^ (halvings 64 m - 1) := Nat.pow_le_pow_right (by decide) (by omega)
  rcases below with rfl | below
  · exact absurd (show halvings 64 0 = 1 from rfl) (by omega)
  · exact absurd (below.trans_lt fits) (Nat.not_lt.mpr power)

theorem convertIntToVarbit_eq {n : Int} (low : -2 ^ 31 ≤ n) (high : n < 2 ^ 31) :
    convertIntToVarbit n = convertBigintToVarbit n := by
  rcases Int.lt_or_le n 0 with negative | nonneg
  · have typmod : varbitTypmod n = 64 := if_neg (by omega)
    have sign : bits8 (n / 2 ^ (8 * 7 + 0)) = 255 ∧ bits8 (n / 2 ^ (8 * 6 + 0)) = 255 ∧
        bits8 (n / 2 ^ (8 * 5 + 0)) = 255 ∧ bits8 (n / 2 ^ (8 * 4 + 0)) = 255 := by
      refine ⟨?_, ?_, ?_, ?_⟩
      all_goals
        rw [show n / _ = -1 by omega]
        rfl
    simp only [convertIntToVarbit, convertBigintToVarbit, typmod, negative]
    simp only [storeBytes, sign]
    rfl
  · have fits : varbitTypmod n ≤ 32 :=
      ((varbitTypmod_least nonneg (by omega)).2 ⟨by decide, high⟩ : _ ≤ 31).trans (by decide)
    simp only [convertIntToVarbit, convertBigintToVarbit, Nat.min_eq_right fits, Nat.sub_self, Nat.zero_div,
      Nat.mul_zero, Nat.sub_zero, Nat.lt_irrefl, if_false, List.replicate_zero, nil_append, append_nil]

theorem convertBigintToVarbit_out (n : Int) : (convertBigintToVarbit n).out.length = varbitTypmod n ∧
    (bitValue (convertBigintToVarbit n).out : Int) = n % 2 ^ varbitTypmod n := by
  have stored := @storeBytes_out n (varbitTypmod n / 8) (varbitTypmod n % 8) (Nat.mod_lt _ (by decide))
  rwa [Nat.div_add_mod] at stored

theorem varbitLoop_small {w limit : Nat} {s : List Bool} (half : limit < 2 ^ w) (small : bitValue s ≤ limit) :
    varbitLoop (w + 1) limit (bitText s) 0 = some (bitValue s) :=
  ((varbitLoop_exact_iff s half).mpr (.inl small)).trans (if_pos small)

/-- The bits of an integer are its value modulo 2 ^ 64, and convert back. -/
theorem integer_varbit (n : Int) (low : -2 ^ 63 ≤ n) (high : n < 2 ^ 63) :
    (bitValue (convertBigintToVarbit n).out : Int) = n % 2 ^ 64 ∧
    (0 ≤ n → IsLeast {len : Nat | 1 ≤ len ∧ n < 2 ^ len} (convertBigintToVarbit n).out.length) ∧
    (n < 0 → (convertBigintToVarbit n).out.length = 64) ∧
    (-2 ^ 31 ≤ n → n < 2 ^ 31 → convertIntToVarbit n = convertBigintToVarbit n) ∧
    (-2 ^ 15 ≤ n → n < 2 ^ 15 → convertSmallintToVarbit n = convertBigintToVarbit n) ∧
    (0 ≤ n → convertVarbitToBigint (convertBigintToVarbit n).out = some n.toNat ∧
      (n < 2 ^ 31 → convertVarbitToInt (convertIntToVarbit n).out = some n.toNat) ∧
      (n < 2 ^ 15 → convertVarbitToSmallint (convertSmallintToVarbit n).out = some n.toNat)) := by
  obtain ⟨length, value⟩ := convertBigintToVarbit_out n
  have nonnegative : 0 ≤ n → bitValue (convertBigintToVarbit n).out = n.toNat := by
    intro nonneg
    rw [Int.emod_eq_of_lt nonneg (varbitTypmod_least nonneg high).1.2] at value
    omega
  have negative : n < 0 → varbitTypmod n = 64 := fun negative => if_neg (by omega)
  refine ⟨?_, fun nonneg => length ▸ varbitTypmod_least nonneg high, fun below => length.trans (negative below),
    convertIntToVarbit_eq, fun _ _ => convertIntToVarbit_eq (by omega) (by omega), fun nonneg => ?_⟩
  · rcases Int.lt_or_le n 0 with below | nonneg
    · rw [value, negative below]
    · omega
  · have exact := nonnegative nonneg
    rw [← exact]
    refine ⟨varbitLoop_small (by decide) (by omega), fun int => ?_, fun smallint => ?_⟩
    · rw [convertIntToVarbit_eq (by omega) int]
      exact varbitLoop_small (by decide) (by omega)
    · rw [convertSmallintToVarbit, convertIntToVarbit_eq (by omega) (by omega)]
      exact varbitLoop_small (by decide) (by omega)

theorem integer_varbit_five : convertVarbitToBigint (convertBigintToVarbit 5).out = some 5 :=
  ((integer_varbit 5 (by decide) (by decide)).2.2.2.2.2 (by decide)).1

/-- The characters stored for a digit. The last branch takes everything else for `f`. -/
def hexDigitBits (c : UInt8) : Bytes :=
  ascii (match Char.ofNat c.toNat with
    | '0' => "0000" | '1' => "0001" | '2' => "0010" | '3' => "0011"
    | '4' => "0100" | '5' => "0101" | '6' => "0110" | '7' => "0111"
    | '8' => "1000" | '9' => "1001" | 'a' | 'A' => "1010" | 'b' | 'B' => "1011"
    | 'c' | 'C' => "1100" | 'd' | 'D' => "1101" | 'e' | 'E' => "1110" | _ => "1111")

/-- `ret + j`, where `j` passes zeros and stops at the bound. -/
def skipZeros : Nat → Bytes → Bytes
  | bound + 1, c :: ret => if c = 48 then skipZeros bound ret else c :: ret
  | _, ret => ret

def convertTextHexToTextVarbit (data : Bytes) : Bytes :=
  let retSize := data.length * 4 + 1
  if data.length ≤ 16 then skipZeros (retSize - 2) (data.flatMap hexDigitBits) else List.replicate 64 49

abbrev IsHexDigit (c : UInt8) : Prop := (48 ≤ c ∧ c ≤ 57) ∨ (65 ≤ c ∧ c ≤ 70) ∨ (97 ≤ c ∧ c ≤ 102)

def hexDigitValue (c : UInt8) : Nat := c.toNat - if c ≤ 57 then 48 else if c ≤ 70 then 55 else 87

theorem bitText_injective : Function.Injective bitText := by
  have characters : ∀ a b : Bool, (if a then 49 else 48 : UInt8) = (if b then 49 else 48) → a = b := by decide
  exact map_injective_iff.mpr characters

theorem hexDigitBits_eq : ∀ c : UInt8, IsHexDigit c → ∃ s ∈ [(byteBits (UInt8.ofNat (hexDigitValue c))).drop 4],
    hexDigitBits c = bitText s ∧ s.length = 4 ∧ bitValue s = hexDigitValue c :=
  forall_byte (by decide +kernel)

theorem hexDigits_bits {h : Bytes} (digits : ∀ c ∈ h, IsHexDigit c) :
    ∃ s, h.flatMap hexDigitBits = bitText s ∧ s.length = 4 * h.length ∧
    bitValue s = value 16 (h.map hexDigitValue) := by
  induction h with
  | nil => exact ⟨[], rfl, rfl, rfl⟩
  | cons c h ih =>
    obtain ⟨digit, digits⟩ := forall_mem_cons.mp digits
    obtain ⟨four, _, text, length, worth⟩ := hexDigitBits_eq c digit
    obtain ⟨s, texts, lengths, worths⟩ := ih digits
    refine ⟨four ++ s, ?_, ?_, ?_⟩
    · rw [flatMap_cons, text, texts, bitText, bitText, bitText, map_append]
    · rw [length_append, length, lengths, length_cons]
      omega
    · rw [bitValue_append, worth, worths, lengths, map_cons, value_cons, length_map, Nat.pow_mul]

theorem skipZeros_bits (bound : Nat) (s : List Bool) :
    ∃ t, skipZeros bound (bitText s) = bitText t ∧ bitValue t = bitValue s := by
  induction bound generalizing s with
  | zero => exact ⟨s, rfl, rfl⟩
  | succ bound ih =>
    rcases s with _ | ⟨_ | _, s⟩
    · exact ⟨[], rfl, rfl⟩
    · obtain ⟨t, skipped, same⟩ := ih s
      refine ⟨t, skipped, ?_⟩
      rw [same, bitValue_cons, Bool.toNat_false, Nat.zero_mul, Nat.zero_add]
    · exact ⟨true :: s, rfl, rfl⟩

/-- More than sixteen digits are taken for a large number, zeros or not. -/
theorem hex_text_value_iff (h : Bytes) (digits : ∀ c ∈ h, IsHexDigit c) :
    (∃ s, convertTextHexToTextVarbit h = bitText s ∧ bitValue s = min (value 16 (h.map hexDigitValue)) (2 ^ 64 - 1)) ↔
      h.length ≤ 16 ∨ 2 ^ 64 - 1 ≤ value 16 (h.map hexDigitValue) := by
  obtain ⟨bits, text, length, worth⟩ := hexDigits_bits digits
  rw [convertTextHexToTextVarbit]
  split
  next short =>
    obtain ⟨s, skipped, same⟩ := skipZeros_bits (h.length * 4 + 1 - 2) bits
    have small : bitValue bits < 2 ^ 64 := (bitValue_lt bits).trans_le (Nat.pow_le_pow_right (by decide) (by omega))
    refine ⟨fun _ => .inl short, fun _ => ⟨s, text ▸ skipped, ?_⟩⟩
    omega
  next long =>
    have ones : List.replicate 64 49 = bitText (List.replicate 64 true) := rfl
    have most : bitValue (List.replicate 64 true) = 2 ^ 64 - 1 := by decide +kernel
    constructor
    · rintro ⟨s, same, saturated⟩
      rw [← bitText_injective (ones.symm.trans same)] at saturated
      omega
    · intro large
      refine ⟨_, ones, ?_⟩
      omega

theorem hex_text_value_seventeen :
    convertTextHexToTextVarbit (ascii "00000000000000001") = bitText (List.replicate 64 true) ∧
    bitValue (List.replicate 64 true) = 2 ^ 64 - 1 ∧ value 16 ((ascii "00000000000000001").map hexDigitValue) = 1 := by
  decide +kernel

theorem hex_text_value_two : ∃ s, convertTextHexToTextVarbit (ascii "1F") = bitText s ∧ bitValue s = 31 :=
  (hex_text_value_iff (ascii "1F") (by decide +kernel)).mpr (.inl (by decide))

end OpenHalo
