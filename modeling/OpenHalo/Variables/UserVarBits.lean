import OpenHalo.Convert.Varbit
import OpenHalo.Variables.UserVarText

namespace OpenHalo.UserVar
open Octets Positional List

variable {byteLen zeros : Nat} {bits : List Bool}

/-- `str` with `strLen`, NULL up to the first one, and `pre_zero_bit_num`. -/
abbrev BitState := Option (Bytes × Nat) × Nat

def bitStep (byteLen : Nat) : BitState → Bool → Except String BitState
  | (some (str, strLen), zeros), bit => .ok (some (str ++ [bitChar bit], strLen), zeros)
  | (none, zeros), false => .ok (none, zeros + 1)
  | (none, zeros), true =>
    let vaild_bit_num := byteLen * 8 - zeros
    if 64 < vaild_bit_num then .error "Data too long for type bit" else
      .ok (some (ascii "b1", 1 + vaild_bit_num), zeros)

/-- The text when the loop has ended. -/
def BitState.text : BitState → Bytes
  | (none, _) => []
  | (some (str, strLen), _) => str.take strLen

def bytea2str (byte : Bytes) : Except String Bytes := do
  let state ← (byte.flatMap byteBits).foldlM (bitStep byte.length) (none, 0)
  .ok state.text

def binaryDigit (c : UInt8) : Except String Bool :=
  if c = 49 then .ok true else if c = 48 then .ok false else .error "is not a valid binary digit"

def hexadecimalDigit (c : UInt8) : Except String (List Bool) :=
  match get_hex c with
  | .ok x => .ok ((byteBits x).drop 4)
  | .error _ => .error "is not a valid hexadecimal digit"

def VARBITMAXLEN : Nat := 2 ^ 31 - 8

/-- `bit_in` without a type modifier. -/
def bit_in (input_string : Bytes) : Except String (List Bool) :=
  let first := input_string.headD 0
  if first = 98 ∨ first = 66 then input_string.tail.mapM binaryDigit
  else if first = 120 ∨ first = 88 then
    if VARBITMAXLEN / 4 < input_string.tail.length then .error "bit string length exceeds the maximum allowed"
    else do return (← input_string.tail.mapM hexadecimalDigit).flatten
  else input_string.mapM binaryDigit

/-- `varbit_in` differs in what it makes of a type modifier. -/
def varbit_in (input_string : Bytes) : Except String (List Bool) := bit_in input_string

def mys_bytea2bit (byte : Bytes) : Except String (List Bool) := do bit_in (← bytea2str byte)

def mys_bytea2varbit (byte : Bytes) : Except String (List Bool) := do varbit_in (← bytea2str byte)

theorem bitStep_written (str : Bytes) (strLen : Nat) :
    bits.foldlM (bitStep byteLen) (some (str, strLen), zeros) =
      .ok (some (str ++ bits.map bitChar, strLen), zeros) := by
  induction bits generalizing str with
  | nil => rw [map_nil, append_nil]; rfl
  | cons b bits ih =>
    rw [map_cons, append_cons]
    exact ih _

/-- The characters written are as many as the terminator leaves. -/
theorem bitStep_text (left : zeros + bits.length = byteLen * 8) (short : (bits.dropWhile (!·)).length ≤ 64) :
    ∃ state, bits.foldlM (bitStep byteLen) (none, zeros) = .ok state ∧
      state.text = if bits.dropWhile (!·) = [] then [] else 98 :: (bits.dropWhile (!·)).map bitChar := by
  induction bits generalizing zeros with
  | nil => exact ⟨_, rfl, rfl⟩
  | cons b bits ih =>
    rw [length_cons] at left
    cases b with
    | false => exact @ih (zeros + 1) (by omega) short
    | true =>
      have count : byteLen * 8 - zeros = bits.length + 1 := by omega
      have few : ¬ 64 < bits.length + 1 := Nat.not_lt.mpr short
      have started : bitStep byteLen (none, zeros) true = .ok (some (ascii "b1", 1 + (bits.length + 1)), zeros) := by
        rw [bitStep, count, if_neg few]
      refine ⟨(some (ascii "b1" ++ bits.map bitChar, 1 + (bits.length + 1)), zeros), ?_, ?_⟩
      · rw [foldlM_cons, started]
        exact bitStep_written _ _
      · apply take_of_length_le
        rw [length_append, length_map]
        show 2 + bits.length ≤ _
        omega

theorem mapM_binaryDigit (bits : List Bool) : (bits.map bitChar).mapM binaryDigit = .ok bits := by
  induction bits with
  | nil => rfl
  | cons b bits ih =>
    have digit : binaryDigit (bitChar b) = .ok b := by cases b <;> rfl
    rw [map_cons, mapM_cons, digit, ih]
    rfl

theorem bitValue_flatMap (bs : Bytes) :
    bitValue (bs.flatMap byteBits) = bigEndian bs ∧ (bs.flatMap byteBits).length = 8 * bs.length := by
  induction bs with
  | nil => exact ⟨rfl, rfl⟩
  | cons b bs ih =>
    rw [flatMap_cons, bitValue_append, (byteBits_value b).1, ih.1, ih.2, length_append, ih.2, Nat.pow_mul, bigEndian,
      bigEndian, map_cons, value_cons, length_map]
    exact ⟨rfl, (Nat.add_comm 8 _)⟩

theorem bytea2bit_eq {byte : Bytes} (short : ((byte.flatMap byteBits).dropWhile (!·)).length ≤ 64) :
    mys_bytea2bit byte = .ok ((byte.flatMap byteBits).dropWhile (!·)) := by
  have eight := (bitValue_flatMap byte).2
  obtain ⟨state, loop, text⟩ := @bitStep_text byte.length 0 _ (by omega) short
  rw [mys_bytea2bit, bytea2str, loop]
  show bit_in state.text = _
  rw [text]
  split
  next empty => rw [empty]; rfl
  next => exact mapM_binaryDigit _

theorem bigEndian_reverse (bs : Bytes) : bigEndian bs.reverse = littleEndian bs := by
  induction bs with
  | nil => rfl
  | cons b bs ih =>
    rw [bigEndian] at ih
    rw [reverse_cons, bigEndian, map_append, value_append, ih, Nat.mul_comm, Nat.add_comm]
    rfl

theorem bitValue_ext {s t : List Bool} (length : s.length = t.length) (same : bitValue s = bitValue t) : s = t := by
  have small (s : List Bool) : ∀ d ∈ s.map Bool.toNat, d < 2 := forall_mem_map.mpr fun b _ => b.toNat_lt
  have bits := value_inj (by decide) (by rw [length_map, length_map, length]) (small s) (small t) same
  exact map_injective_iff.mpr (by decide : ∀ a b : Bool, a.toNat = b.toNat → a = b) bits

theorem bit_bytes (s : List Bool) :
    (Value.bit s).bytes.length = (s.length + 7) / 8 ∧ bigEndian (Value.bit s).bytes = bitValue s := by
  have room : bitValue s < 256 ^ ((s.length + 7) / 8) := by
    rw [show 256 = 2 ^ 8 from rfl, ← Nat.pow_mul]
    exact (bitValue_lt s).trans_le (Nat.pow_le_pow_right (by decide) (by omega))
  rw [Value.bytes, length_reverse, toLittleEndian_length, bigEndian_reverse, littleEndian_toLittleEndian, binary_eq,
    Nat.mod_eq_of_lt room]
  exact ⟨rfl, rfl⟩

theorem bitValue_zeros (n : Nat) (s : List Bool) : bitValue (List.replicate n false ++ s) = bitValue s := by
  rw [bitValue_append, bitValue, map_replicate, Bool.toNat_false, value_replicate_zero, Nat.zero_mul, Nat.zero_add]

theorem bit_bytes_bits (s : List Bool) :
    (Value.bit s).bytes.flatMap byteBits = List.replicate ((s.length + 7) / 8 * 8 - s.length) false ++ s := by
  obtain ⟨count, total⟩ := bit_bytes s
  obtain ⟨worth, eight⟩ := bitValue_flatMap (Value.bit s).bytes
  apply bitValue_ext
  · rw [eight, count, length_append, length_replicate]
    omega
  · rw [worth, total, bitValue_zeros]

/-- A bit string is its big-endian number, read back without leading zeros. -/
theorem uservar_bits (s : List Bool) (isDigit : Bool) (nonempty : 1 ≤ s.length) (short : s.length ≤ 64) :
    ∃ stored, bitstring2bytea (bitText s) isDigit = .ok stored ∧ stored.data.length = (s.length + 7) / 8 ∧
      bigEndian stored.data = bitValue s ∧ mys_bytea2varbit stored.data = .ok (s.dropWhile (!·)) ∧
      mys_bytea2bit stored.data = .ok (s.dropWhile (!·)) := by
  obtain ⟨count, total⟩ := bit_bytes s
  have bits : ((Value.bit s).bytes.flatMap byteBits).dropWhile (!·) = s.dropWhile (!·) := by
    rw [bit_bytes_bits, dropWhile_append_of_pos]
    intro b zero
    rw [eq_of_mem_replicate zero]
    rfl
  have few : (s.dropWhile (!·)).length ≤ 64 := (dropWhile_suffix _).length_le.trans short
  have read : mys_bytea2bit (Value.bit s).bytes = .ok (s.dropWhile (!·)) := bits ▸ bytea2bit_eq (bits.symm ▸ few)
  exact ⟨_, bitstring2bytea_eq isDigit (by unfold MaxAllocSize; omega), count, total, read, read⟩

theorem uservar_bits_ten :
    ∃ stored, bitstring2bytea (ascii "0000000101") true = .ok stored ∧ bigEndian stored.data = 5 ∧
    mys_bytea2varbit stored.data = .ok [true, false, true] := by
  obtain ⟨stored, assigned, _, total, read, _⟩ :=
    uservar_bits [false, false, false, false, false, false, false, true, false, true] true (by decide) (by decide)
  exact ⟨stored, assigned, total, read⟩

end OpenHalo.UserVar
