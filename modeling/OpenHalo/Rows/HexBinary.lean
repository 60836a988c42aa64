import OpenHalo.Lib.Memory

namespace OpenHalo
open Octets Memory List

variable {m str : Mem} {b : Bytes}

def hexValue (ch : UInt8) : Nat := (ascii "0123456789abcde").idxOf ch

def convertToHex (ch1 ch2 : UInt8) : UInt8 :=
  UInt8.ofNat (16 * hexValue ch1 + 15) &&& UInt8.ofNat (240 + hexValue ch2)

def convertCharToInt (ch : UInt8) : Nat := hexValue (lower ch)

/-- `newStr[j++] = convertToHex(str[i], str[i + 1])` for every second `i` below `len`. -/
def decodeHex (len : Nat) : Nat → Nat → Nat → Mem → Nat × Mem
  | 0, _, j, str => (j, str)
  | fuel + 1, i, j, str =>
    if i < len then decodeHex len fuel (i + 2) (j + 1) (write str j [convertToHex (str i) (str (i + 1))]) else (j, str)

/-- The loop behind `_binary`: a backslash is dropped, and `\0` is a zero byte. -/
def unescapeBinary (len : Nat) : Nat → Nat → Nat → Mem → Nat × Mem
  | 0, _, j, str => (j, str)
  | fuel + 1, i, j, str =>
    if i < len then
      if str i = 92 then
        if str (i + 1) = 48 then unescapeBinary len fuel (i + 2) (j + 1) (write str j [0])
        else unescapeBinary len fuel (i + 2) (j + 1) (write str j [str (i + 1)])
      else unescapeBinary len fuel (i + 1) (j + 1) (write str j [str i])
    else (j, str)

/-- The loop behind `x`: two decoded characters are the digits of one byte. -/
def decodeTwice (len : Nat) : Nat → Nat → Nat → Mem → Nat × Mem
  | 0, _, j, str => (j, str)
  | fuel + 1, i, j, str =>
    if i < len then
      let h := convertCharToInt (convertToHex (str i) (str (i + 1)))
      let l := convertCharToInt (convertToHex (str (i + 2)) (str (i + 3)))
      decodeTwice len fuel (i + 4) (j + 1) (write str j [UInt8.ofNat (h <<< 4) ||| UInt8.ofNat l])
    else (j, str)

/-- The result and its buffer; `len` is `strlen(str)` and bounds the turns of the loops. -/
def convertHexToMySQLBinary (len : Nat) (str : Mem) : Nat × Mem :=
  if read str 2 14 = ascii "5f62696e617279" then
    let (decoded, str) := decodeHex len len 16 0 str
    unescapeBinary decoded decoded 0 0 str
  else if read str 2 2 = ascii "78" then decodeTwice len len 4 0 str
  else decodeHex len len 2 0 str

def hexChar (n : Nat) : UInt8 := (ascii "0123456789abcdef").getD n 0

def hexPair (c : UInt8) : Bytes := [hexChar (c.toNat / 16), hexChar (c.toNat % 16)]

def hexOutput (b : Bytes) : Bytes := ascii "\\x" ++ b.flatMap hexPair

/-- The value's buffer, with `junk` around it. -/
def hexBuffer (b : Bytes) (junk : Mem) : Mem := load (hexOutput b ++ [0]) 0 junk

def SentUnchanged (b : Bytes) (junk : Mem) : Prop :=
  let sent := convertHexToMySQLBinary (hexOutput b).length (hexBuffer b junk)
  sent.1 = b.length ∧ read sent.2 0 b.length = b

theorem convertToHex_hexPair (c : UInt8) : convertToHex (hexChar (c.toNat / 16)) (hexChar (c.toNat % 16)) = c :=
  @forall_byte (fun c => convertToHex (hexChar (c.toNat / 16)) (hexChar (c.toNat % 16)) = c) (by decide +kernel) c

theorem hexChar_ne_zero (c : UInt8) : hexChar (c.toNat / 16) ≠ 0 :=
  @forall_byte (fun c => hexChar (c.toNat / 16) ≠ 0) (by decide +kernel) c

/-- From address `a` on there are the digits of `b` and the terminator. -/
def HexAt (m : Mem) : Nat → Bytes → Prop
  | a, [] => m a = 0
  | a, c :: b => m a = hexChar (c.toNat / 16) ∧ m (a + 1) = hexChar (c.toNat % 16) ∧ HexAt m (a + 2) b

theorem HexAt.congr {m' : Mem} {a : Nat} (hex : HexAt m a b) (same : ∀ i, a ≤ i → m' i = m i) :
    HexAt m' a b := by
  induction b generalizing a with
  | nil => exact (same a (Nat.le_refl a)).trans hex
  | cons c b ih =>
    obtain ⟨high, low, rest⟩ := hex
    exact ⟨(same a (by omega)).trans high, (same (a + 1) (by omega)).trans low,
      ih rest fun i above => same i (by omega)⟩

theorem HexAt.of_write (m : Mem) (a : Nat) (b : Bytes) : HexAt (write m a (b.flatMap hexPair ++ [0])) a b := by
  induction b generalizing m a with
  | nil => simp [HexAt, write]
  | cons c b ih =>
    have front : (c :: b).flatMap hexPair ++ [0] = hexPair c ++ (b.flatMap hexPair ++ [0]) := by simp
    rw [front, write_append]
    refine ⟨?_, ?_, ih _ _⟩ <;>
    · simp [write, hexPair]

theorem hexAt_hexBuffer (b : Bytes) (junk : Mem) : HexAt (hexBuffer b junk) 2 b := by
  have split : hexBuffer b junk = write (write junk 0 (ascii "\\x")) 2 (b.flatMap hexPair ++ [0]) := by
    rw [hexBuffer, load, hexOutput, append_assoc, write_append]
    rfl
  rw [split]
  exact HexAt.of_write _ 2 b

theorem length_hexOutput (b : Bytes) : (hexOutput b).length = 2 + 2 * b.length := by
  have marker : (ascii "\\x").length = 2 := rfl
  have pairs : (b.flatMap hexPair).length = 2 * b.length := by
    induction b with
    | nil => rfl
    | cons c b ih =>
      rw [flatMap_cons, length_append]
      simp only [hexPair, length_cons, length_nil]
      omega
  rw [hexOutput, length_append, marker, pairs]

theorem HexAt.starts_iff {a : Nat} (hex : HexAt m a b) (w : Bytes) :
    read m a (2 * w.length) = w.flatMap hexPair ↔ w <+: b := by
  induction w generalizing a b with
  | nil => simp [Memory.read]
  | cons d w ih =>
    have two : 2 * (d :: w).length = 2 * w.length + 1 + 1 := by
      rw [length_cons]
      omega
    have pairs : read m a (2 * (d :: w).length) = (d :: w).flatMap hexPair ↔
        m a = hexChar (d.toNat / 16) ∧ m (a + 1) = hexChar (d.toNat % 16) ∧
        read m (a + 2) (2 * w.length) = w.flatMap hexPair := by
      rw [two, read_succ, read_succ, flatMap_cons, hexPair]
      simp
    rw [pairs]
    cases b with
    | nil =>
      refine iff_of_false ?_ (by simp)
      rintro ⟨first, _⟩
      exact hexChar_ne_zero d (first.symm.trans hex)
    | cons c b =>
      obtain ⟨high, low, rest⟩ := hex
      rw [high, low, cons_prefix_cons, ← ih rest, ← and_assoc]
      refine and_congr_left fun _ => ?_
      constructor
      · rintro ⟨sameHigh, sameLow⟩
        rw [← convertToHex_hexPair c, ← convertToHex_hexPair d, sameHigh, sameLow]
      · rintro rfl
        exact ⟨rfl, rfl⟩

theorem decodeHex_eq {fuel i j : Nat} (hex : HexAt str i b) (enough : b.length ≤ fuel)
    (behind : j ≤ i) : decodeHex (i + 2 * b.length) fuel i j str = (j + b.length, write str j b) := by
  induction b generalizing fuel i j str with
  | nil =>
    rw [write_nil]
    cases fuel with
    | zero => rfl
    | succ fuel => exact if_neg (by simp)
  | cons c b ih =>
    cases fuel with
    | zero => simp at enough
    | succ fuel =>
      obtain ⟨high, low, rest⟩ := hex
      have byte : convertToHex (str i) (str (i + 1)) = c := by rw [high, low, convertToHex_hexPair]
      have later : HexAt (write str j [c]) (i + 2) b := by
        refine rest.congr fun k above => write_after ?_
        rw [length_singleton]
        omega
      have total : i + 2 * (c :: b).length = i + 2 + 2 * b.length := by
        rw [length_cons]
        omega
      have stored : write (write str j [c]) (j + 1) b = write str j (c :: b) := (write_append str j [c] b).symm
      rw [decodeHex, if_pos (by rw [length_cons]; omega), byte, total, ih later (by omega) (by omega), stored,
        length_cons, Nat.add_right_comm, Nat.add_assoc]

theorem decodeHex_count (len fuel i j : Nat) (str : Mem) :
    2 * (decodeHex len fuel i j str).1 ≤ 2 * j + (len + 1 - i) := by
  induction fuel generalizing i j str with
  | zero =>
    show 2 * j ≤ _
    omega
  | succ fuel ih =>
    rw [decodeHex]
    split
    · have rest := ih (i + 2) (j + 1) (write str j [convertToHex (str i) (str (i + 1))])
      omega
    · omega

theorem unescapeBinary_count (len fuel i j : Nat) (str : Mem) :
    (unescapeBinary len fuel i j str).1 ≤ j + (len - i) := by
  induction fuel generalizing i j str with
  | zero => exact Nat.le_add_right _ _
  | succ fuel ih =>
    rw [unescapeBinary]
    split
    · split
      · split
        · exact Nat.le_trans (ih _ _ _) (by omega)
        · exact Nat.le_trans (ih _ _ _) (by omega)
      · exact Nat.le_trans (ih _ _ _) (by omega)
    · exact Nat.le_add_right _ _

theorem decodeTwice_count (len fuel i j : Nat) (str : Mem) :
    4 * (decodeTwice len fuel i j str).1 ≤ 4 * j + (len + 3 - i) := by
  induction fuel generalizing i j str with
  | zero =>
    show 4 * j ≤ _
    omega
  | succ fuel ih =>
    rw [decodeTwice]
    split
    · exact Nat.le_trans (ih _ _ _) (by omega)
    · omega

/-- A binary value is sent as it is exactly if it starts neither with `_binary` nor with x. -/
theorem binary_column_iff (b : Bytes) (junk : Mem) :
    SentUnchanged b junk ↔ ¬ ascii "_binary" <+: b ∧ ¬ ascii "x" <+: b := by
  have hex := hexAt_hexBuffer b junk
  have binary : read (hexBuffer b junk) 2 14 = ascii "5f62696e617279" ↔ ascii "_binary" <+: b :=
    hex.starts_iff (ascii "_binary")
  have x : read (hexBuffer b junk) 2 2 = ascii "78" ↔ ascii "x" <+: b := hex.starts_iff (ascii "x")
  unfold SentUnchanged convertHexToMySQLBinary
  rw [length_hexOutput]
  by_cases marked : ascii "_binary" <+: b
  · rw [if_pos (binary.mpr marked)]
    refine iff_of_false ?_ fun neither => neither.1 marked
    rintro ⟨count, _⟩
    have long : 7 ≤ b.length := marked.length_le
    have decoded := decodeHex_count (2 + 2 * b.length) (2 + 2 * b.length) 16 0 (hexBuffer b junk)
    have kept := unescapeBinary_count (decodeHex (2 + 2 * b.length) (2 + 2 * b.length) 16 0 (hexBuffer b junk)).1
      (decodeHex (2 + 2 * b.length) (2 + 2 * b.length) 16 0 (hexBuffer b junk)).1 0 0
      (decodeHex (2 + 2 * b.length) (2 + 2 * b.length) 16 0 (hexBuffer b junk)).2
    dsimp only at count
    omega
  · rw [if_neg (mt binary.mp marked)]
    by_cases crossed : ascii "x" <+: b
    · rw [if_pos (x.mpr crossed)]
      refine iff_of_false ?_ fun neither => neither.2 crossed
      have long : 1 ≤ b.length := crossed.length_le
      have decoded := decodeTwice_count (2 + 2 * b.length) (2 + 2 * b.length) 4 0 (hexBuffer b junk)
      omega
    · rw [if_neg (mt x.mp crossed), decodeHex_eq hex (by omega) (by omega), Nat.zero_add]
      exact iff_of_true ⟨rfl, read_write_self (hexBuffer b junk) 0 b⟩ ⟨marked, crossed⟩

/-- The value x is sent as nothing. -/
theorem x_lost : ¬SentUnchanged (ascii "x") fun _ => 0 := by
  rintro ⟨count, _⟩
  exact absurd count (by decide)

end OpenHalo
