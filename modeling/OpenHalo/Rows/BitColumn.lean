import Mathlib.Data.List.GetD
import OpenHalo.Lib.Octets
import OpenHalo.Lib.Positional

namespace OpenHalo
open Octets Positional List

variable {bitLen d fuel hexSize i : Nat}

/-- The sum over `subLen` characters from `start` on. -/
def groupValue (bit : Bytes) (start subLen : Nat) : Nat :=
  ((List.range subLen).map fun j => ((bit.getD (start + j) 0).toNat - 48) * 2 ^ (subLen - j - 1)).sum

/-- The loop, `none` when it leaves the buffer `hex`. C rounds `hexIndex / 2` towards zero. -/
def convertBitLoop (bit : Bytes) : Nat → Int → Int → Bytes → Option Bytes
  | 0, _, _, _ => none
  | fuel + 1, bitIndex, hexIndex, hex =>
    let subLen := if 4 ≤ bitIndex then 4 else bitIndex + 1
    let decimal := groupValue bit (bitIndex + 1 - subLen).toNat subLen.toNat
    let byte := hexIndex.tdiv 2
    if 0 ≤ byte ∧ byte < hex.length then
      let nibble := if hexIndex.tmod 2 = 1 then decimal else decimal <<< 4
      let hex := hex.set byte.toNat (hex.getD byte.toNat 0 ||| UInt8.ofNat nibble)
      if bitIndex - subLen < 0 then some hex else convertBitLoop bit fuel (bitIndex - subLen) (hexIndex - 1) hex
    else none

def convertBitToMySQLHex (bit hex : Bytes) (hexSize : Nat) : Option Bytes :=
  convertBitLoop bit (bit.length + 1) (bit.length - 1) (hexSize * 2 - 1) hex

/-- The size by the declared width, or by the text when no width is declared. -/
def bitHexSize (atttypmod : Int) (bitLen : Nat) : Nat :=
  if 0 < atttypmod then ((atttypmod.toNat + 8 - 1) / 8 * 8) / 8 else bitLen

def bitText (s : List Bool) : Bytes := s.map fun b => if b then 49 else 48

def bitValue (s : List Bool) : Nat := value 2 (s.map Bool.toNat)

def bigEndian (bs : Bytes) : Nat := value 256 (bs.map UInt8.toNat)

/-- From zeros, the code stays inside the buffer and leaves the value of the bits in it. -/
def RightAligned (s : List Bool) (hexSize : Nat) : Prop :=
  ∃ hex, convertBitToMySQLHex (bitText s) (List.replicate hexSize 0) hexSize = some hex ∧ hex.length = hexSize ∧
    bigEndian hex = bitValue s

theorem bitValue_append (s t : List Bool) : bitValue (s ++ t) = bitValue s * 2 ^ t.length + bitValue t := by
  rw [bitValue, map_append, value_append, length_map]
  rfl

theorem bitValue_cons (b : Bool) (s : List Bool) : bitValue (b :: s) = b.toNat * 2 ^ s.length + bitValue s := by
  rw [← singleton_append, bitValue_append]
  cases b <;> rfl

theorem bitValue_lt (s : List Bool) : bitValue s < 2 ^ s.length := by
  rw [← length_map (f := Bool.toNat)]
  apply value_lt_pow (by decide)
  intro d member
  obtain ⟨bit, _, rfl⟩ := mem_map.mp member
  exact bit.toNat_lt

theorem groupValue_bitText (s : List Bool) (start n : Nat) (within : start + n ≤ s.length) :
    groupValue (bitText s) start n = bitValue ((s.drop start).take n) := by
  induction n generalizing start with
  | zero => simp [groupValue, bitValue]
  | succ n ih =>
    have inside : start < s.length := by omega
    have digit : ((bitText s).getD start 0).toNat - 48 = s[start].toNat := by
      rw [bitText, getD_eq_getElem _ _ (by simpa using inside), getElem_map]
      cases s[start] <;> rfl
    have tail : groupValue (bitText s) start (n + 1) = s[start].toNat * 2 ^ n + groupValue (bitText s)
        (start + 1) n := by
      rw [groupValue, range_succ_eq_map, map_cons, sum_cons, map_map, Nat.add_zero, digit]
      congr 1
      apply congrArg List.sum
      apply map_congr_left
      intro j _
      simp only [Function.comp_apply]
      congr 2
      · congr 2
        omega
      · omega
    have front : (s.drop start).take (n + 1) = [s[start]] ++ (s.drop (start + 1)).take n := by
      rw [drop_eq_getElem_cons inside, take_succ_cons, singleton_append]
    have size : ((s.drop (start + 1)).take n).length = n := by
      rw [length_take, length_drop]
      omega
    rw [tail, ih (start + 1) (by omega), front, bitValue_append, size]
    rfl

theorem or_high {old : UInt8} (low : old.toNat < 16) (digit : d < 16) :
    (old ||| UInt8.ofNat (d <<< 4)).toNat = old.toNat + 16 * d := by
  have all : ∀ a < 16, ∀ d < 16, (UInt8.ofNat a ||| UInt8.ofNat (d <<< 4)).toNat = a + 16 * d := by decide
  have same := all old.toNat low d digit
  rwa [UInt8.ofNat_toNat] at same

theorem bigEndian_set {hex : Bytes} {x : Nat} {byte : UInt8} (within : i < hex.length)
    (added : byte.toNat = (hex.getD i 0).toNat + x) :
    bigEndian (hex.set i byte) = bigEndian hex + x * 256 ^ (hex.length - 1 - i) := by
  have inside : i < (hex.map UInt8.toNat).length := by simpa using within
  have sum := @value_set_add 256 (hex.map UInt8.toNat) i inside x
  rw [getD_eq_getElem _ _ within] at added
  rw [getElem_map, ← added, length_map] at sum
  rw [bigEndian, map_set]
  exact sum

/-- `k` groups are done and `left` bits remain: the buffer holds the value of the others, with zeros to
the left. -/
structure BitsDone (s : List Bool) (hexSize left k : Nat) (hex : Bytes) : Prop where
  size : hex.length = hexSize
  groups : left + 4 * k = s.length
  held : bigEndian hex = bitValue (s.drop left)
  empty : ∀ i, 2 * i + k + 1 < 2 * hexSize → hex.getD i 0 = 0
  half : ∀ i, 2 * i + k + 1 = 2 * hexSize → (hex.getD i 0).toNat < 16

theorem bitsDone_start (s : List Bool) (hexSize : Nat) : BitsDone s hexSize s.length 0 (List.replicate hexSize 0) where
  size := length_replicate
  groups := rfl
  held := by
    rw [bigEndian, map_replicate, drop_length]
    exact value_replicate_zero hexSize
  empty i _ := by
    rw [getD_eq_getElem?_getD, List.getElem?_replicate]
    split <;> rfl
  half i odd := by omega

def storeGroup (s : List Bool) (hexSize left k n : Nat) (hex : Bytes) : Bytes :=
  let decimal := groupValue (bitText s) (left - n) n
  let byte := (2 * hexSize - 1 - k) / 2
  hex.set byte (hex.getD byte 0 ||| UInt8.ofNat (if (2 * hexSize - 1 - k) % 2 = 1 then decimal else decimal <<< 4))

section Step

variable {s : List Bool} {hexSize left k n : Nat} {hex : Bytes}

theorem storeGroup_length : (storeGroup s hexSize left k n hex).length = hex.length := length_set

theorem storeGroup_other (other : (2 * hexSize - 1 - k) / 2 ≠ i) :
    (storeGroup s hexSize left k n hex).getD i 0 = hex.getD i 0 := by
  rw [storeGroup, getD_eq_getElem?_getD, List.getElem?_set_ne other, ← getD_eq_getElem?_getD]

theorem BitsDone.group_lt (done : BitsDone s hexSize left k hex) (available : n ≤ left) (short : n ≤ 4) :
    groupValue (bitText s) (left - n) n < 16 := by
  have groups := done.groups
  have small := bitValue_lt ((s.drop (left - n)).take n)
  have bound : 2 ^ ((s.drop (left - n)).take n).length ≤ 2 ^ 4 := by
    apply Nat.pow_le_pow_right (by decide)
    rw [length_take]
    omega
  rw [groupValue_bitText s (left - n) n (by omega)]
  omega

theorem BitsDone.group_split (done : BitsDone s hexSize left k hex) (available : n ≤ left) :
    bitValue (s.drop (left - n)) = groupValue (bitText s) (left - n) n * 2 ^ (4 * k) + bitValue (s.drop left) := by
  have groups := done.groups
  have parts : s.drop (left - n) = (s.drop (left - n)).take n ++ s.drop left := by
    have rest : (s.drop (left - n)).drop n = s.drop left := by
      rw [drop_drop, Nat.sub_add_cancel available]
    rw [← rest, take_append_drop]
  have size : (s.drop left).length = 4 * k := by
    rw [length_drop]
    omega
  rw [groupValue_bitText s (left - n) n (by omega), parts, bitValue_append, size, ← parts]

theorem BitsDone.store (done : BitsDone s hexSize left k hex) (room : k < 2 * hexSize) (available : n ≤ left)
    (short : n ≤ 4) :
    bigEndian (storeGroup s hexSize left k n hex) = bitValue (s.drop (left - n)) ∧
      (k % 2 = 0 → ((storeGroup s hexSize left k n hex).getD ((2 * hexSize - 1 - k) / 2) 0).toNat < 16) := by
  have digit := done.group_lt available short
  have split := done.group_split available
  unfold storeGroup
  dsimp only
  generalize groupValue (bitText s) (left - n) n = d at *
  have within : (2 * hexSize - 1 - k) / 2 < hex.length := by
    rw [done.size]
    omega
  rcases Nat.mod_two_eq_zero_or_one k with even | odd
  · have right : (2 * hexSize - 1 - k) % 2 = 1 := by omega
    have zero := done.empty ((2 * hexSize - 1 - k) / 2) (by omega)
    have byte : (hex.getD ((2 * hexSize - 1 - k) / 2) 0 ||| UInt8.ofNat d).toNat =
        (hex.getD ((2 * hexSize - 1 - k) / 2) 0).toNat + d := by
      rw [zero, UInt8.zero_or, UInt8.toNat_ofNat_of_lt' (Nat.lt_trans digit (by decide))]
      exact (Nat.zero_add d).symm
    have weight : 256 ^ (hex.length - 1 - (2 * hexSize - 1 - k) / 2) = 2 ^ (4 * k) := by
      rw [show (256 : Nat) = 2 ^ 8 from rfl, ← Nat.pow_mul, done.size]
      congr 1
      omega
    rw [if_pos right, bigEndian_set within byte, done.held, weight, split]
    refine ⟨Nat.add_comm _ _, fun _ => ?_⟩
    rw [getD_eq_getElem _ _ (by rw [length_set]; exact within), getElem_set_self, byte, zero]
    simpa using digit
  · have left : ¬ (2 * hexSize - 1 - k) % 2 = 1 := by omega
    have low := done.half ((2 * hexSize - 1 - k) / 2) (by omega)
    have weight : 16 * 256 ^ (hex.length - 1 - (2 * hexSize - 1 - k) / 2) = 2 ^ (4 * k) := by
      rw [show (256 : Nat) = 2 ^ 8 from rfl, show (16 : Nat) = 2 ^ 4 from rfl, ← Nat.pow_mul, ← Nat.pow_add, done.size]
      congr 1
      omega
    rw [if_neg left, bigEndian_set within (or_high low digit), done.held, split, ← weight]
    exact ⟨by ring, fun even => by omega⟩

theorem BitsDone.next (done : BitsDone s hexSize (left + 4) k hex) (room : k < 2 * hexSize) :
    BitsDone s hexSize left (k + 1) (storeGroup s hexSize (left + 4) k 4 hex) := by
  obtain ⟨value, half⟩ := done.store room (Nat.le_add_left 4 left) (Nat.le_refl 4)
  have groups := done.groups
  refine ⟨storeGroup_length.trans done.size, by omega, value, ?_, ?_⟩
  · intro i free
    rw [storeGroup_other (by omega)]
    exact done.empty i (by omega)
  · intro i next
    have byte : (2 * hexSize - 1 - k) / 2 = i := by omega
    rw [← byte]
    exact half (by omega)

theorem convertBitLoop_turn (done : BitsDone s hexSize left k hex) (room : k < 2 * hexSize) :
    convertBitLoop (bitText s) (fuel + 1) (left - 1) (hexSize * 2 - 1 - k) hex =
      let n := if 5 ≤ left then 4 else left
      if left - n = 0 then some (storeGroup s hexSize left k n hex)
      else convertBitLoop (bitText s) fuel ((left - n : Nat) - 1) (hexSize * 2 - 1 - (k + 1 : Nat))
        (storeGroup s hexSize left k n hex) := by
  have index : (hexSize * 2 - 1 - k : Int) = ((2 * hexSize - 1 - k : Nat) : Int) := by omega
  have quotient : ((2 * hexSize - 1 - k : Nat) : Int).tdiv 2 = ((2 * hexSize - 1 - k) / 2 : Nat) := rfl
  have remainder : ((2 * hexSize - 1 - k : Nat) : Int).tmod 2 = ((2 * hexSize - 1 - k) % 2 : Nat) := rfl
  have inside : (0 : Int) ≤ ((2 * hexSize - 1 - k) / 2 : Nat) ∧
      (((2 * hexSize - 1 - k) / 2 : Nat) : Int) < hex.length := by
    have size := done.size
    omega
  have sub : (if (4 : Int) ≤ left - 1 then 4 else (left - 1 : Int) + 1) =
      ((if 5 ≤ left then 4 else left : Nat) : Int) := by
    split <;> split <;> omega
  rw [convertBitLoop]
  rw [sub]
  generalize (if 5 ≤ left then 4 else left) = n at *
  have start : ((left : Int) - 1 + 1 - n).toNat = left - n := by omega
  have finished : ((left : Int) - 1 - n < 0) ↔ left - n = 0 := by omega
  have later : (left : Int) - 1 - n = ((left - n : Nat) : Int) - 1 := by omega
  have following : (hexSize * 2 - 1 - k : Int) - 1 = hexSize * 2 - 1 - (k + 1 : Nat) := by omega
  have bit : (((2 * hexSize - 1 - k) % 2 : Nat) : Int) = 1 ↔ (2 * hexSize - 1 - k) % 2 = 1 := by omega
  rw [following, index, quotient, remainder, if_pos inside, start, later]
  simp only [bit, later ▸ finished]
  rfl

/-- The whole loop leaves the value of all bits. -/
theorem convertBitLoop_value (done : BitsDone s hexSize left k hex) (positive : 1 ≤ hexSize)
    (fits : s.length ≤ 8 * hexSize) (ahead : 0 < left ∨ k = 0) (enough : left < fuel) :
    ∃ hex', convertBitLoop (bitText s) fuel (left - 1) (hexSize * 2 - 1 - k) hex = some hex' ∧ hex'.length = hexSize ∧
      bigEndian hex' = bitValue s := by
  induction fuel generalizing left k hex with
  | zero => omega
  | succ fuel ih =>
    have groups := done.groups
    have room : k < 2 * hexSize := by omega
    rw [convertBitLoop_turn done room]
    by_cases many : 5 ≤ left
    · obtain ⟨rest, rfl⟩ : ∃ rest, left = rest + 4 := ⟨left - 4, by omega⟩
      rw [if_pos many, if_neg (by omega)]
      exact ih (done.next room) (.inl (by omega)) (by omega)
    · obtain ⟨value, _⟩ := done.store room (Nat.le_refl left) (by omega)
      rw [if_neg many, if_pos (Nat.sub_self left)]
      rw [Nat.sub_self] at value
      exact ⟨_, rfl, storeGroup_length.trans done.size, value⟩

end Step

theorem rightAligned (s : List Bool) (positive : 1 ≤ hexSize) (fits : s.length ≤ 8 * hexSize) :
    RightAligned s hexSize := by
  have whole := convertBitLoop_value (bitsDone_start s hexSize) positive fits (.inr rfl) (Nat.lt_succ_self _)
  have length : (bitText s).length = s.length := length_map _
  rw [RightAligned, convertBitToMySQLHex, length]
  simpa using whole

theorem bitHexSize_fits {atttypmod : Int} (declared : 0 < atttypmod → bitLen ≤ atttypmod) :
    bitLen ≤ 8 * bitHexSize atttypmod bitLen := by
  unfold bitHexSize
  split
  · omega
  · omega

/-- A bit string is sent as a right-aligned big-endian integer in every buffer that it fits. -/
theorem bit_column_right_aligned (s : List Bool) :
    (∀ hexSize, 1 ≤ hexSize → s.length ≤ 8 * hexSize → RightAligned s hexSize) ∧
      ∀ atttypmod : Int, (0 < atttypmod → s.length ≤ atttypmod) → 1 ≤ bitHexSize atttypmod s.length →
        RightAligned s (bitHexSize atttypmod s.length) := by
  refine ⟨fun hexSize positive fits => rightAligned s positive fits, ?_⟩
  intro atttypmod declared positive
  exact rightAligned s positive (bitHexSize_fits declared)

theorem bit_column_five : RightAligned [true, false, true, false, true] (bitHexSize 9 5) :=
  (bit_column_right_aligned [true, false, true, false, true]).2 9 (by decide) (by decide)

end OpenHalo
