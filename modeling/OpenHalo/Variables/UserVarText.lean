import Mathlib.Tactic.Positivity
import OpenHalo.Logon.NativePassword
import OpenHalo.Rows.BitColumn

namespace OpenHalo.UserVar
open Octets List

variable {k size : Nat} {value : Value} {data varValue : Bytes}

/-- A value with the byte behind it, which tells numbers from strings. -/
structure Bytea where
  data : Bytes
  behind : UInt8
deriving Repr, DecidableEq

def Bytea.isDigit (b : Bytea) : Bool := b.behind == 49

/-- `bytea_output`. -/
inductive ByteaOutput
  | BYTEA_OUTPUT_HEX | BYTEA_OUTPUT_ESCAPE
deriving Repr, DecidableEq

/-- A value by its base type; types without a conversion of their own by the text of their output function. -/
inductive Value
  | bytea (data : Bytes)
  | bit (bits : List Bool)
  | bool (b : Bool)
  | other (text : Except String Bytes)

/-- The declared type, as far as `varValueIsDigit` looks at it. -/
inductive Declared
  | BYTEAOID (behind : UInt8)
  | BOOLOID
  | BITOID
  | category (ncategory : UInt8)

structure Datum where
  value : Value
  declared : Declared

def varValueIsDigit : Declared → Bool
  | .BYTEAOID behind => behind == 49
  | .BOOLOID => true
  | .BITOID => true
  | .category ncategory => ncategory == 78

def binary (bits : List Bool) : Nat := bits.foldl (fun n b => 2 * n + b.toNat) 0

/-- A bit string is a number in as few bytes as hold its bits, high byte first. -/
def Value.bytes : Value → Bytes
  | .bytea data => data
  | .bit bits => (toLittleEndian ((bits.length + 7) / 8) (binary bits)).reverse
  | .bool b => [if b then 49 else 48]
  | .other (.ok text) => text
  | .other (.error _) => []

def Datum.meaning (d : Datum) : Bytes × Bool := (d.value.bytes, varValueIsDigit d.declared)

def MaxAllocSize : Nat := 0x3fffffff

def palloc (size : Nat) : Except String Unit :=
  if size ≤ MaxAllocSize then .ok () else .error ("invalid memory alloc request size " ++ toString size)

/-- `byteaout` for one byte in the escape format. -/
def escaped (c : UInt8) : Bytes :=
  if c = 92 then [92, 92]
  else if c < 32 ∨ 126 < c then [92, (c >>> 6 &&& 3) + 48, (c >>> 3 &&& 7) + 48, (c &&& 7) + 48]
  else [c]

def byteaout : ByteaOutput → Bytes → Except String Bytes
  | .BYTEA_OUTPUT_HEX, data => do
    palloc (data.length * 2 + 3)
    .ok (92 :: 120 :: hexBytes data)
  | .BYTEA_OUTPUT_ESCAPE, data =>
    let text := data.flatMap escaped
    if MaxAllocSize < text.length + 1 then .error "result of bytea output conversion is too large" else .ok text

def bitChar (b : Bool) : UInt8 := if b then 49 else 48

def varbit_out (bits : List Bool) : Except String Bytes := do
  palloc (bits.length + 1)
  .ok (bits.map bitChar)

/-- `boolout` on a connection of the MySQL protocol. -/
def boolout (b : Bool) : Bytes := [bitChar b]

/-- `OidOutputFunctionCall`. -/
def Value.output (bytea_output : ByteaOutput) : Value → Except String Bytes
  | .bytea data => byteaout bytea_output data
  | .bit bits => varbit_out bits
  | .bool b => .ok (boolout b)
  | .other text => text

def get_hex (c : UInt8) : Except String UInt8 :=
  if 48 ≤ c ∧ c ≤ 57 then .ok (c - 48)
  else if 65 ≤ c ∧ c ≤ 70 then .ok (c - 55)
  else if 97 ≤ c ∧ c ≤ 102 then .ok (c - 87)
  else .error "invalid hexadecimal digit"

def isBlank (c : UInt8) : Bool := c == 32 || c == 10 || c == 9 || c == 13

def hex_decode : Bytes → Except String Bytes
  | [] => .ok []
  | [c] =>
    if isBlank c then .ok []
    else do
      let _ ← get_hex c
      .error "invalid hexadecimal data: odd number of digits"
  | c :: d :: src =>
    if isBlank c then hex_decode (d :: src)
    else do
      let v1 ← get_hex c
      let v2 ← get_hex d
      let dst ← hex_decode src
      .ok ((v1 <<< 4 ||| v2) :: dst)

/-- `VAR_VALUE_EXTEND_BYTES` behind the value. -/
def extend (isDigit : Bool) : UInt8 := if isDigit then 49 else 0

def byteastring2bytea (byteastring : Bytes) (isDigit : Bool) : Except String Bytea :=
  match byteastring with
  | 92 :: 120 :: digits => do
    palloc (digits.length / 2 + 4 + 1)
    let data ← hex_decode digits
    .ok ⟨data, extend isDigit⟩
  | _ => .error "Invalid string format for bytea_output(BYTEA_OUTPUT_ESCAPE)"

/-- One byte of `bitstring2bytea`, from zero. -/
def bitByte (chars : Bytes) : UInt8 := chars.foldl (fun rp c => rp * 2 + (c - 48)) 0

def bitBytes : Nat → Bytes → Bytes
  | 0, _ => []
  | j + 1, chars => bitByte (chars.take 8) :: bitBytes j (chars.drop 8)

/-- For an empty string the first loop reads behind it; the extension byte overwrites the result. -/
def bitstring2bytea (bitstring : Bytes) (isDigit : Bool) : Except String Bytea := do
  let bitLen := bitstring.length
  let byteLen := (bitLen + 8 - 1) / 8
  let needPrePadBitNum := byteLen * 8 - bitLen
  palloc (byteLen + 4 + 1)
  let first := 8 - needPrePadBitNum
  let data := if byteLen = 0 then [] else
    bitByte (bitstring.take first) :: bitBytes (byteLen - 1) (bitstring.drop first)
  .ok ⟨data, extend isDigit⟩

def boolstring2bytea (boolstring : Bytes) (isDigit : Bool) : Except String Bytea :=
  .ok ⟨[if boolstring.head? = some 49 then 49 else 48], extend isDigit⟩

def cstring2bytea (cstring : Bytes) (isDigit : Bool) : Except String Bytea := do
  palloc (cstring.length + 4 + 1)
  .ok ⟨cstring, extend isDigit⟩

def Value.convert (v : Value) (varValue : Bytes) (isDigit : Bool) : Except String Bytea :=
  match v with
  | .bytea _ => byteastring2bytea varValue isDigit
  | .bit _ => bitstring2bytea varValue isDigit
  | .bool _ => boolstring2bytea varValue isDigit
  | .other _ => cstring2bytea varValue isDigit

def Value.Storable (bytea_output : ByteaOutput) : Value → Prop
  | .bytea data => bytea_output = .BYTEA_OUTPUT_HEX ∧ data.length * 2 + 3 ≤ MaxAllocSize
  | .bit bits => bits.length + 1 ≤ MaxAllocSize
  | .bool _ => True
  | .other (.ok text) => text.length + 5 ≤ MaxAllocSize
  | .other (.error _) => False

def Datum.stored (bytea_output : ByteaOutput) (d : Datum) : Except String Bytea := do
  let varValue ← d.value.output bytea_output
  d.value.convert varValue (varValueIsDigit d.declared)

theorem palloc_ok (small : size ≤ MaxAllocSize) : palloc size = .ok () := if_pos small

theorem palloc_error (large : ¬ size ≤ MaxAllocSize) : ∃ message, palloc size = .error message :=
  ⟨_, if_neg large⟩

theorem get_hex_hexDigit (b : UInt8) :
    get_hex (hexDigit (b >>> 4)) = .ok (b >>> 4) ∧ get_hex (hexDigit (b &&& 15)) = .ok (b &&& 15) ∧
      isBlank (hexDigit (b >>> 4)) = false ∧ (b >>> 4) <<< 4 ||| (b &&& 15) = b := by
  revert b
  apply forall_byte
  decide +kernel

theorem hex_decode_hexBytes (data : Bytes) : hex_decode (hexBytes data) = .ok data := by
  induction data with
  | nil => rfl
  | cons b data ih =>
    obtain ⟨high, low, solid, joined⟩ := get_hex_hexDigit b
    have digits : hexBytes (b :: data) = hexDigit (b >>> 4) :: hexDigit (b &&& 15) :: hexBytes data := rfl
    rw [digits, hex_decode, solid, high, low, ih]
    exact congrArg (fun c => Except.ok (c :: data)) joined

theorem escaped_ne_hex (c : UInt8) (more : Bytes) (digits : Bytes) : escaped c ++ more ≠ 92 :: 120 :: digits := by
  intro same
  have octal : ∀ c : UInt8, (c >>> 6 &&& 3) + 48 ≠ 120 := by
    apply forall_byte
    decide +kernel
  unfold escaped at same
  split at same
  next => cases same
  next ordinary =>
    split at same
    next =>
      injection same with _ same
      injection same with second _
      exact octal c second
    next =>
      injection same with first _
      exact ordinary first

theorem byteastring2bytea_escape (data : Bytes) (isDigit : Bool) :
    ∃ message, byteastring2bytea (data.flatMap escaped) isDigit = .error message := by
  unfold byteastring2bytea
  split
  next digits text =>
    cases data with
    | nil => cases text
    | cons c data => exact absurd text (escaped_ne_hex c _ digits)
  next => exact ⟨_, rfl⟩

variable {bytea_output : ByteaOutput} (bits : List Bool)

theorem binary_eq : binary bits = bitValue bits := by
  induction bits using reverseRecOn with
  | nil => rfl
  | append_singleton bits b ih =>
    rw [bitValue_append, ← ih, binary, foldl_append, Nat.mul_comm]
    cases b <;> rfl

theorem bitByte_eq : bitByte (bits.map bitChar) = UInt8.ofNat (binary bits) := by
  -- the loop multiplies and adds in bytes what `binary` multiplies and adds in numbers
  have step (n : Nat) (b : Bool) : UInt8.ofNat n * 2 + (bitChar b - 48) = UInt8.ofNat (2 * n + b.toNat) := by
    rw [UInt8.ofNat_add, UInt8.ofNat_mul, UInt8.mul_comm]
    cases b <;> rfl
  have loop (n : Nat) : (bits.map bitChar).foldl (fun rp c => rp * 2 + (c - 48)) (UInt8.ofNat n) =
      UInt8.ofNat (bits.foldl (fun n b => 2 * n + b.toNat) n) := by
    induction bits generalizing n with
    | nil => rfl
    | cons b bits ih => rw [map_cons, foldl_cons, step, ih, foldl_cons]
  exact loop 0

theorem bytes_append (front back : List Bool) (whole : back.length = 8 * k) :
    (toLittleEndian (k + 1) (binary (front ++ back))).reverse =
      UInt8.ofNat (binary front) :: (toLittleEndian k (binary back)).reverse := by
  have scale : 2 ^ back.length = 256 ^ k := by rw [whole, Nat.pow_mul]
  have small := scale ▸ bitValue_lt back
  rw [binary_eq, binary_eq, binary_eq, bitValue_append, scale, toLittleEndian_succ, toLittleEndian_add_mul,
    Nat.mul_comm, Nat.mul_add_div (by positivity), Nat.div_eq_of_lt small, Nat.add_zero, reverse_append]
  rfl

theorem bitBytes_eq (k : Nat) (bits : List Bool) (whole : bits.length = 8 * k) :
    bitBytes k (bits.map bitChar) = (toLittleEndian k (binary bits)).reverse := by
  induction k generalizing bits with
  | zero => rfl
  | succ k ih =>
    have rest : (bits.drop 8).length = 8 * k := by
      rw [length_drop]
      omega
    have groups := bytes_append (bits.take 8) (bits.drop 8) rest
    rw [take_append_drop] at groups
    rw [bitBytes, ← map_take, ← map_drop, bitByte_eq, ih _ rest, groups]

theorem bitstring2bytea_eq {bits : List Bool} (isDigit : Bool) (small : bits.length + 1 ≤ MaxAllocSize) :
    bitstring2bytea (bits.map bitChar) isDigit = .ok ⟨(Value.bit bits).bytes, extend isDigit⟩ := by
  have allocated : palloc ((bits.length + 8 - 1) / 8 + 4 + 1) = .ok () := by
    apply palloc_ok
    unfold MaxAllocSize at small ⊢
    omega
  simp only [bitstring2bytea, length_map, allocated, Value.bytes]
  by_cases empty : bits = []
  · subst empty
    rfl
  have positive := length_pos_iff.mpr empty
  obtain ⟨k, bytes⟩ : ∃ k, (bits.length + 8 - 1) / 8 = k + 1 := ⟨(bits.length + 8 - 1) / 8 - 1, by omega⟩
  have rest : (bits.drop (8 - ((k + 1) * 8 - bits.length))).length = 8 * k := by
    rw [length_drop]
    omega
  have groups := bytes_append (bits.take (8 - ((k + 1) * 8 - bits.length))) _ rest
  rw [take_append_drop] at groups
  have same : (bits.length + 7) / 8 = k + 1 := bytes
  simp only [bytes, same, groups, Nat.add_one_ne_zero, if_false, Nat.add_sub_cancel, ← map_take, ← map_drop,
    bitByte_eq, bitBytes_eq k _ rest]
  rfl

theorem stored_output (output : value.output bytea_output = .ok varValue)
    (declared : Declared) :
    Datum.stored bytea_output ⟨value, declared⟩ = value.convert varValue (varValueIsDigit declared) := by
  rw [Datum.stored, output]
  rfl

theorem stored_raised {message : String} (output : value.output bytea_output = .error message)
    (declared : Declared) : Datum.stored bytea_output ⟨value, declared⟩ = .error message := by
  rw [Datum.stored, output]
  rfl

theorem byteaout_hex (small : data.length * 2 + 3 ≤ MaxAllocSize) :
    byteaout .BYTEA_OUTPUT_HEX data = .ok (92 :: 120 :: hexBytes data) := by
  rw [byteaout, palloc_ok small]
  rfl

theorem byteastring2bytea_hex (isDigit : Bool) (small : data.length * 2 + 3 ≤ MaxAllocSize) :
    byteastring2bytea (92 :: 120 :: hexBytes data) isDigit = .ok ⟨data, extend isDigit⟩ := by
  have allocated : palloc ((hexBytes data).length / 2 + 4 + 1) = .ok () := by
    apply palloc_ok
    rw [hexBytes_length]
    unfold MaxAllocSize at small ⊢
    omega
  rw [byteastring2bytea, allocated, hex_decode_hexBytes]
  rfl

theorem varbit_out_ok {bits : List Bool} (small : bits.length + 1 ≤ MaxAllocSize) :
    varbit_out bits = .ok (bits.map bitChar) := by
  rw [varbit_out, palloc_ok small]
  rfl

theorem stored_ok {d : Datum} (storable : d.value.Storable bytea_output) :
    d.stored bytea_output = .ok ⟨d.value.bytes, extend (varValueIsDigit d.declared)⟩ := by
  obtain ⟨value, declared⟩ := d
  cases value with
  | bytea data =>
    obtain ⟨rfl, small⟩ := storable
    have output : (Value.bytea data).output .BYTEA_OUTPUT_HEX = .ok (92 :: 120 :: hexBytes data) := byteaout_hex small
    rw [stored_output output]
    exact byteastring2bytea_hex _ small
  | bit bits =>
    have output : (Value.bit bits).output bytea_output = .ok (bits.map bitChar) := varbit_out_ok storable
    rw [stored_output output]
    exact bitstring2bytea_eq _ storable
  | bool b => cases b <;> rfl
  | other text =>
    cases text with
    | error message => exact absurd storable id
    | ok text =>
      have output : (Value.other (.ok text)).output bytea_output = .ok text := rfl
      rw [stored_output output, Value.convert, cstring2bytea, palloc_ok storable]
      rfl

theorem stored_error {d : Datum} (refused : ¬ d.value.Storable bytea_output) :
    ∃ message, d.stored bytea_output = .error message := by
  obtain ⟨value, declared⟩ := d
  cases value with
  | bytea data =>
    cases bytea_output with
    | BYTEA_OUTPUT_HEX =>
      obtain ⟨message, raised⟩ := palloc_error (fun small => refused ⟨rfl, small⟩)
      refine ⟨message, stored_raised ?_ declared⟩
      rw [Value.output, byteaout, raised]
      rfl
    | BYTEA_OUTPUT_ESCAPE =>
      by_cases large : MaxAllocSize < (data.flatMap escaped).length + 1
      · have output : (Value.bytea data).output .BYTEA_OUTPUT_ESCAPE =
            .error "result of bytea output conversion is too large" := if_pos large
        exact ⟨_, stored_raised output declared⟩
      · have output : (Value.bytea data).output .BYTEA_OUTPUT_ESCAPE = .ok (data.flatMap escaped) := if_neg large
        rw [stored_output output]
        exact byteastring2bytea_escape data _
  | bit bits =>
    obtain ⟨message, raised⟩ := palloc_error refused
    refine ⟨message, stored_raised ?_ declared⟩
    rw [Value.output, varbit_out, raised]
    rfl
  | bool b => exact absurd trivial refused
  | other text =>
    cases text with
    | error message => exact ⟨message, stored_raised rfl declared⟩
    | ok text =>
      have output : (Value.other (.ok text)).output bytea_output = .ok text := rfl
      obtain ⟨message, raised⟩ := palloc_error refused
      refine ⟨message, ?_⟩
      rw [stored_output output, Value.convert, cstring2bytea, raised]
      rfl

end OpenHalo.UserVar
