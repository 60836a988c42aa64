import OpenHalo.ParamLoop
import OpenHalo.Rows.RowWriter
import OpenHalo.Session.CommandLength

namespace OpenHalo
open Octets Memory Memory.Prog
open List hiding beq_eq_decide

variable {src : Mem} {a i n : Nat} {bs size : Bytes}

inductive IsLenenc : Bytes → Nat → Prop
  | one {n : Nat} : n < 251 → IsLenenc (toLittleEndian 1 n) n
  | two {n : Nat} : n < 256 ^ 2 → IsLenenc (252 :: toLittleEndian 2 n) n
  | three {n : Nat} : n < 256 ^ 3 → IsLenenc (253 :: toLittleEndian 3 n) n
  | eight {n : Nat} : n < 256 ^ 8 → IsLenenc (254 :: toLittleEndian 8 n) n

/-- A value behind its length, which is one of `sizes`. -/
def TemporalBytes (sizes : List Nat) (bs : Bytes) : Prop :=
  ∃ data : Bytes, data.length ∈ sizes ∧ bs = toLittleEndian 1 data.length ++ data

def ValueBytes (type : FieldType) (bs : Bytes) : Prop :=
  match type with
  | .tiny | .bool => bs.length = 1
  | .short | .year => bs.length = 2
  | .long | .int24 | .float => bs.length = 4
  | .longlong | .double => bs.length = 8
  | .date | .datetime | .timestamp => TemporalBytes [0, 4, 7, 11] bs
  | .time => TemporalBytes [0, 8, 12] bs
  | .decimal | .newdecimal | .tinyBlob | .mediumBlob | .longBlob | .blob | .varchar | .varString | .string | .enum
  | .set | .json => ∃ size data, IsLenenc size data.length ∧ bs = size ++ data
  | .null | .newdate | .bit | .timestamp2 | .datetime2 | .time2 | .typedArray | .invalid | .geometry => False

/-- A parameter: its type, with the unsigned flag in the high byte, and its value unless it is NULL. -/
structure Param where
  type : Nat
  value : Option Bytes

def Param.bytes (q : Param) : Bytes := q.value.getD []

/-- A COM_STMT_EXECUTE packet; `head` is the statement id, the flags and the iteration count. -/
structure ExecutePacket where
  head : Bytes
  bitmap : Bytes
  flag : UInt8
  params : List Param

namespace ExecutePacket
variable (p : ExecutePacket)

def typeBlock : Bytes := if p.flag ≠ 0 then p.params.flatMap fun q => toLittleEndian 2 q.type else []

def bytes : Bytes := p.head ++ (p.bitmap ++ ([p.flag] ++ (p.typeBlock ++ p.params.flatMap Param.bytes)))

/-- Where the value of parameter `i` starts. -/
def valueOffset (i : Nat) : Nat :=
  10 + p.bitmap.length + p.typeBlock.length + ((p.params.take i).map fun q => q.bytes.length).sum

/-- Packets as clients send them; `bound` are the types left by an earlier packet. -/
structure WellFormed (bound : Nat → Nat) : Prop where
  head : p.head.length = 9
  count : p.params.length ≤ 65535
  bitmap : p.bitmap.length = (p.params.length + 7) / 8
  nulls : ∀ i q, p.params[i]? = some q → (p.bitmap.getD (i / 8) 0).toNat.testBit (i % 8) = q.value.isNone
  typed : ∀ q ∈ p.params, q.type < 65536
  earlier : p.flag = 0 → ∀ i q, i < 256 → p.params[i]? = some q → bound i = q.type
  values : ∀ q ∈ p.params, ∀ bs, q.value = some bs → ∃ type, FieldType.ofCode (q.type % 256) = some type ∧
    ValueBytes type bs

/-- No type is looked up or stored behind the 256 words of `paramTypes`. -/
def TypesWithin : Prop :=
  (p.flag ≠ 0 → p.params.length ≤ 256) ∧ ∀ i q, p.params[i]? = some q → 256 ≤ i → q.value = none

end ExecutePacket

/-- The entry of a statement with `n` parameters. -/
structure PreStmtInfo.PreparedFor (pSI : PreStmtInfo) (n : Nat) : Prop where
  paramNum : pSI.paramNum = n
  nullBitmapLength : pSI.nullBitmapLength = (n + 7) / 8
  paramTypeOffset : pSI.paramTypeOffset = 10 + (n + 7) / 8
  paramValueOffset1 : pSI.paramValueOffset1 = 10 + (n + 7) / 8 + n * 2
  paramValueOffset2 : pSI.paramValueOffset2 = 10 + (n + 7) / 8

/-- What `rewriteExtendExeStmt_` knows when its loop comes to a parameter. -/
structure ExecuteTurn where
  allSet : Bool
  newTypes : Option (Nat → Nat)
  cursor : Cursor

section turns
variable (pSI : PreStmtInfo) (types : Nat → Nat) (nullBitmap : Mem) (oldStmt : Nat)

/-- `rewriteExtendExeStmt_`, stopped at parameter `i`. -/
def executeTurn (i : Nat) : Prog ExecuteTurn := do
  put RESERVED_FOR_ADDITIONAL_SQL (executeHeader pSI)
  let (e, newTypes) ← readExecution pSI types nullBitmap oldStmt
  let c ← assembleParams e.allSet e.types oldStmt RESERVED_FOR_ADDITIONAL_SQL i 0 ⟨26, e.values⟩
  return ⟨e.allSet, newTypes, c⟩

/-- Behind that parameter the loop goes on with the rest. -/
theorem rewriteExtendExeStmt_turn {i left maxlen : Nat} (count : i + left = pSI.paramNum)
    (positive : 0 < pSI.paramNum) :
    rewriteExtendExeStmt_ pSI types nullBitmap oldStmt maxlen = (do
      let turn ← executeTurn pSI types nullBitmap oldStmt i
      let c ← assembleParams turn.allSet (turn.newTypes.getD types) oldStmt RESERVED_FOR_ADDITIONAL_SQL left i
        turn.cursor
      put (RESERVED_FOR_ADDITIONAL_SQL + (c.out - 1)) [0]
      return ⟨c.out, RESERVED_FOR_ADDITIONAL_SQL, turn.newTypes⟩) := by
  rw [rewriteExtendExeStmt_split _ _ _ _ _ positive, executeBody, executeTurn, readExecution, ← count]
  simp only [assembleParams_add, bind_bind, Nat.zero_add]
  rfl

/-- The decision about parameter `i`, in the memory as it is then. -/
def decidesNull (m : Mem) (i : Nat) : Bool :=
  let turn := (executeTurn pSI types nullBitmap oldStmt i).run m
  ((isNullParam turn.1.allSet oldStmt i).run turn.2).1

/-- Every value is read where the packet has it, NULL is skipped, the last value ends the packet, and
`paramTypes` is accessed within its 256 words: for the types that are stored, and for those of the
parameters that are not NULL. -/
structure Aligned (m : Mem) (p : ExecutePacket) : Prop where
  nulls : ∀ i q, p.params[i]? = some q → decidesNull pSI types nullBitmap oldStmt m i = q.value.isNone
  values : ∀ i q, p.params[i]? = some q → q.value ≠ none →
    ((executeTurn pSI types nullBitmap oldStmt i).run m).1.cursor.inp = p.valueOffset i
  ended : p.params ≠ [] →
    ((executeTurn pSI types nullBitmap oldStmt p.params.length).run m).1.cursor.inp = p.bytes.length
  stored : ∀ i newTypes, ((executeTurn pSI types nullBitmap oldStmt i).run m).1.newTypes = some newTypes →
    pSI.paramNum ≤ 256
  loaded : ∀ i q, p.params[i]? = some q → decidesNull pSI types nullBitmap oldStmt m i = false → i < 256

/-- Up to some parameter the writer keeps behind the reader; from there on all values are there and have
a fixed size. -/
def SteeredInTime (m : Mem) : Prop :=
  let e := pSI.execution types nullBitmap m oldStmt
  ∃ k, k ≤ pSI.paramNum ∧
    KeepsBehind m e.allSet e.types oldStmt RESERVED_FOR_ADDITIONAL_SQL k 0 ⟨26, e.values⟩ ∧
    ∀ i, k ≤ i → i < pSI.paramNum → e.allSet = true ∧ (paramKind (e.types i)).fixedSize.isSome

end turns

theorem read_inside {m : Mem} {a : Nat} {front mid back : Bytes}
    (held : read m a (front ++ (mid ++ back)).length = front ++ (mid ++ back)) :
    read m (a + front.length) mid.length = mid := by
  rw [length_append, read_append, length_append, read_append] at held
  obtain ⟨_, rest⟩ := append_inj held (read_length _ _ _)
  exact (append_inj rest (read_length _ _ _)).1

theorem processLenencString_value (form : IsLenenc size n)
    (held : read src a size.length = size) : valueFrom src (processLenencString a) = (n, size.length) := by
  have wide : ∀ (marker : UInt8)
      (k : Nat), read src a (marker :: toLittleEndian k n).length = marker :: toLittleEndian k n →
      n < 256 ^ k → littleEndian (read src a 1) = marker.toNat ∧ littleEndian (read src (a + 1) k) = n := by
    intro marker k whole small
    rw [length_cons, toLittleEndian_length, read_succ] at whole
    obtain ⟨first, rest⟩ := List.cons.inj whole
    rw [rest, littleEndian_toLittleEndian, Nat.mod_eq_of_lt small]
    exact ⟨by simp [first, Memory.read, littleEndian], rfl⟩
  have byte : valueFrom src (fetchByte a) = littleEndian (read src a 1) := rfl
  rw [processLenencString, valueFrom_bind, byte]
  cases form with
  | one small =>
    have value : littleEndian (read src a 1) = n := by
      rw [toLittleEndian_length] at held
      rw [held, littleEndian_toLittleEndian, Nat.mod_eq_of_lt (by omega)]
    rw [value, if_pos small]
    rfl
  | two small =>
    obtain ⟨first, rest⟩ := wide 252 2 held small
    rw [first]
    change (littleEndian (read src (a + 1) 2), 3) = _
    rw [rest]
    rfl
  | three small =>
    obtain ⟨first, rest⟩ := wide 253 3 held small
    rw [first]
    change (littleEndian (read src (a + 1) 3), 4) = _
    rw [rest]
    rfl
  | eight small =>
    obtain ⟨first, rest⟩ := wide 254 8 held small
    rw [first]
    change (littleEndian (read src (a + 1) 8), 9) = _
    rw [rest]
    rfl

theorem assembleLenencUnsignedLong_isLenenc (v : UInt64) : IsLenenc (assembleLenencUnsignedLong v.toNat) v.toNat := by
  unfold assembleLenencUnsignedLong
  split_ifs with one two three
  · exact .one one
  · exact .two (by omega)
  · exact .three (by omega)
  · exact .eight v.toNat_lt

/-- What is written in front of any bytes is read back, with its size. -/
theorem lenenc_round_trip (v : UInt64) (m : Mem) (buf : Nat) :
    let written := assembleLenencUnsignedLong v.toNat
    valueFrom (write m buf written) (processLenencString buf) = (v.toNat, written.length) ∧
      (v.toNat < 2 ^ 31 → written.length = calcLenencIntLen v.toNat) ∧
      ∃ first rest, written = first :: rest ∧ first ≠ 0xFB ∧ first ≠ 0xFF := by
  intro written
  have form : IsLenenc written v.toNat := assembleLenencUnsignedLong_isLenenc v
  refine ⟨processLenencString_value form (read_write_self m buf written), fun _ => assembleLenencUnsignedLong_length _,
    ?_⟩
  clear_value written
  cases form with
  | one small =>
    refine ⟨_, _, rfl, ?_, ?_⟩ <;> simp [← UInt8.toNat_inj] <;> omega
  | two | three | eight => exact ⟨_, _, rfl, by decide, by decide⟩

theorem temporal_size {sizes : List Nat} (value : TemporalBytes sizes bs)
    (small : ∀ n ∈ sizes, n < 256)
    (held : read src a bs.length = bs) : littleEndian (read src a 1) + 1 = bs.length := by
  obtain ⟨data, member, rfl⟩ := value
  have short := small _ member
  have first := @read_inside src a [] (toLittleEndian 1 data.length) data held
  change read src a 1 = _ at first
  rw [first, littleEndian_toLittleEndian, Nat.mod_eq_of_lt (by omega), length_append, toLittleEndian_length,
    Nat.add_comm]

theorem processTimeType_size (src : Mem) (a : Nat) :
    (valueFrom src (processTimeType a)).2 = littleEndian (read src a 1) + 1 := by
  unfold processTimeType
  simp only [valueFrom_bind]
  rfl

theorem processDatetimeTimestampType_size (src : Mem) (a : Nat) :
    (valueFrom src (processDatetimeTimestampType a)).2 = littleEndian (read src a 1) + 1 := by
  unfold processDatetimeTimestampType
  simp only [valueFrom_bind]
  rfl

theorem render_size {type : Nat} {field : FieldType}
    (known : FieldType.ofCode (type % 256) = some field) (value : ValueBytes field bs)
    (held : read src a bs.length = bs) :
    ((paramKind type).render src a).1 = bs.length := by
  have lengths : ∀ sizes, TemporalBytes sizes bs → (∀ n ∈ sizes, n < 256) →
      littleEndian (read src a 1) + 1 = bs.length :=
    fun sizes temporal small => temporal_size temporal small held
  have counted : (∃ size data, IsLenenc size data.length ∧ bs = size ++ data) →
      (valueFrom src (processLenencString a)).2 + (valueFrom src (processLenencString a)).1 = bs.length := by
    rintro ⟨size, data, form, rfl⟩
    have front : read src a size.length = size := @read_inside src a [] size data held
    rw [processLenencString_value form front, length_append]
  unfold paramKind
  rw [known]
  cases field with
  | tiny | bool | short | year | long | int24 | float | longlong | double => exact value.symm
  | date => exact lengths _ value (by decide)
  | time => exact (processTimeType_size src a).trans (lengths _ value (by decide))
  | datetime | timestamp => exact (processDatetimeTimestampType_size src a).trans (lengths _ value (by decide))
  | decimal | newdecimal | tinyBlob | mediumBlob | longBlob | blob | varchar | varString | string | enum | set | json =>
    exact counted value
  | null | newdate | bit | timestamp2 | datetime2 | time2 | typedArray | invalid | geometry => exact absurd value id

theorem flatMap_pairs {params : List Param} {q : Param} (member : params[i]? = some q) :
    ((params.flatMap fun q => toLittleEndian 2 q.type).drop (2 * i)).take 2 = toLittleEndian 2 q.type := by
  induction params generalizing i with
  | nil => cases member
  | cons first params ih =>
    have two : (toLittleEndian 2 first.type).length = 2 := toLittleEndian_length _ _
    cases i with
    | zero =>
      cases member
      exact take_left' two
    | succ i =>
      exact ih member

namespace ExecutePacket
variable {p : ExecutePacket} {pSI : PreStmtInfo} {types : Nat → Nat} {nullBitmap src : Mem} {oldStmt : Nat}

theorem typeBlock_length : p.typeBlock.length = if p.flag ≠ 0 then p.params.length * 2 else 0 := by
  unfold typeBlock
  split
  · simp [toLittleEndian_length]
  · rfl

theorem valueOffset_succ {q : Param} (member : p.params[i]? = some q) :
    p.valueOffset (i + 1) = p.valueOffset i + q.bytes.length := by
  unfold valueOffset
  rw [take_add_one, member, map_append, sum_append]
  exact (Nat.add_assoc _ _ _).symm

theorem flag_toNat : p.flag.toNat ≠ 0 ↔ p.flag ≠ 0 := by
  rw [← UInt8.toNat_zero, Ne, UInt8.toNat_inj]

section held
variable {i : Nat} {q : Param} (prepared : pSI.PreparedFor p.params.length) (formed : p.WellFormed types)
  (held : read src oldStmt p.bytes.length = p.bytes)

include formed in
theorem valueOffset_end : p.valueOffset p.params.length = p.bytes.length := by
  unfold valueOffset bytes
  simp only [take_length, length_append, length_flatMap, formed.head, length_singleton]
  omega

include formed held

theorem read_bitmap : read src (oldStmt + 9) p.bitmap.length = p.bitmap := by
  have inside := read_inside held
  rwa [formed.head] at inside

theorem read_value (member : p.params[i]? = some q) :
    read src (oldStmt + p.valueOffset i) q.bytes.length = q.bytes := by
  obtain ⟨less, here⟩ := List.getElem?_eq_some_iff.mp member
  have pieces : p.params = p.params.take i ++ (q :: p.params.drop (i + 1)) := by
    rw [← here, getElem_cons_drop, take_append_drop]
  have values : p.params.flatMap Param.bytes =
      (p.params.take i).flatMap Param.bytes ++ (q.bytes ++ (p.params.drop (i + 1)).flatMap Param.bytes) := by
    conv_lhs => rw [pieces]
    rw [flatMap_append, flatMap_cons]
  have place : (p.head ++ (p.bitmap ++ ([p.flag] ++ (p.typeBlock ++ (p.params.take i).flatMap Param.bytes)))).length =
      p.valueOffset i := by
    unfold valueOffset
    simp only [length_append, length_flatMap, formed.head, length_singleton]
    omega
  rw [← place]
  refine @read_inside src oldStmt _ q.bytes ((p.params.drop (i + 1)).flatMap Param.bytes) ?_
  rw [bytes, values] at held
  simpa using held

theorem read_null (member : p.params[i]? = some q) :
    (littleEndian (read src (oldStmt + 9 + i / 8) 1) / 2 ^ (i % 8) % 2 != 0) = q.value.isNone := by
  obtain ⟨less, _⟩ := List.getElem?_eq_some_iff.mp member
  have inside : i / 8 < p.bitmap.length := by
    rw [formed.bitmap]
    omega
  have byte : p.bitmap.getD (i / 8) 0 = src (oldStmt + 9 + i / 8) := by
    rw [← read_bitmap formed held]
    simp [Memory.read, inside]
  rw [← formed.nulls i q member, byte]
  simp [Memory.read, littleEndian, Nat.testBit_eq_decide_div_mod_eq, beq_eq_decide]

include prepared

theorem bindFlag_eq : pSI.bindFlag src oldStmt = p.flag.toNat := by
  have place : oldStmt + (p.head ++ p.bitmap).length = oldStmt + 9 + pSI.nullBitmapLength := by
    rw [length_append, formed.head, formed.bitmap, prepared.nullBitmapLength, Nat.add_assoc]
  have flag := @read_inside src oldStmt (p.head ++ p.bitmap) [p.flag] (p.typeBlock ++ p.params.flatMap Param.bytes)
    (by simpa [bytes] using held)
  rw [place] at flag
  unfold PreStmtInfo.bindFlag
  rw [show read src (oldStmt + 9 + pSI.nullBitmapLength) 1 = [p.flag] from flag]
  exact Nat.add_zero _

theorem newTypes_eq : pSI.newTypes src oldStmt = if p.flag ≠ 0 then some (packetTypes p.typeBlock) else none := by
  unfold PreStmtInfo.newTypes
  rw [bindFlag_eq prepared formed held]
  simp only [flag_toNat]
  split
  · rename_i set
    have place : oldStmt + (p.head ++ (p.bitmap ++ [p.flag])).length = oldStmt + pSI.paramTypeOffset := by
      simp only [length_append, formed.head, formed.bitmap, prepared.paramTypeOffset, length_singleton]
      omega
    have size : 2 * pSI.paramNum = p.typeBlock.length := by
      rw [typeBlock_length, if_pos set, prepared.paramNum, Nat.mul_comm]
    have block := @read_inside src oldStmt (p.head ++ (p.bitmap ++ [p.flag])) p.typeBlock (p.params.flatMap Param.bytes)
      (by simpa [bytes] using held)
    rw [place] at block
    rw [size, block]
  · rfl

theorem types_eq (member : p.params[i]? = some q) (within : p.flag = 0 → i < 256) :
    (pSI.execution types nullBitmap src oldStmt).types i = q.type := by
  unfold PreStmtInfo.execution
  rw [newTypes_eq prepared formed held]
  by_cases set : p.flag = 0
  · rw [if_neg (not_not.mpr set)]
    exact formed.earlier set i q (within set) member
  have small : q.type < 256 ^ 2 := formed.typed q (mem_of_getElem? member)
  rw [if_pos set]
  show littleEndian ((p.typeBlock.drop (2 * i)).take 2) = _
  rw [typeBlock, if_pos set, flatMap_pairs member, littleEndian_toLittleEndian, Nat.mod_eq_of_lt small]

theorem values_eq : (pSI.execution types nullBitmap src oldStmt).values = p.valueOffset 0 := by
  have block := @typeBlock_length p
  unfold PreStmtInfo.execution valueOffset
  rw [bindFlag_eq prepared formed held, formed.bitmap, block]
  simp only [flag_toNat, prepared.paramValueOffset1, prepared.paramValueOffset2]
  split <;> rfl

/-- The bitmap is compared with zeros, unless a parameter behind the first 256 is NULL before that. -/
theorem nullBit_eq (zeros : ∀ i, i < 256 → nullBitmap i = 0)
    (later : ∀ i q, p.params[i]? = some q → 256 ≤ i → q.value = none) (member : p.params[i]? = some q) :
    nullBit src (pSI.execution types nullBitmap src oldStmt).allSet oldStmt i = q.value.isNone := by
  have bit := read_null formed held member
  unfold nullBit
  rw [bit]
  cases all : (pSI.execution types nullBitmap src oldStmt).allSet with
  | false => rfl
  | true =>
    have same : p.bitmap = read nullBitmap 0 p.bitmap.length := by
      have compared := beq_iff_eq.mp all
      rwa [prepared.nullBitmapLength, ← formed.bitmap, read_bitmap formed held] at compared
    have clear : ∀ j r, p.params[j]? = some r → j < 2048 → r.value.isNone = false := by
      intro j r other early
      have byte : p.bitmap.getD (j / 8) 0 = 0 := by
        rw [same, getD_eq_getElem?_getD, Memory.read, List.getElem?_map]
        cases inside : (List.range p.bitmap.length)[j / 8]? with
        | none => rfl
        | some k =>
          obtain ⟨_, place⟩ := List.getElem?_eq_some_iff.mp inside
          rw [getElem_range] at place
          exact zeros _ (by omega)
      rw [← formed.nulls j r other, byte]
      exact Nat.zero_testBit _
    by_cases early : i < 2048
    · rw [clear i q member early]
      rfl
    obtain ⟨less, _⟩ := List.getElem?_eq_some_iff.mp member
    have first : p.params[256]? = some p.params[256] := List.getElem?_eq_getElem (by omega)
    have set := clear 256 _ first (by omega)
    rw [later 256 _ first (Nat.le_refl _)] at set
    cases set

/-- On a copy, one turn takes the cursor over the bytes of its parameter. -/
theorem copy_cursor (zeros : ∀ i, i < 256 → nullBitmap i = 0) (within : p.TypesWithin) (less : i ≤ p.params.length) :
    let e := pSI.execution types nullBitmap src oldStmt
    (valueFrom src (assembleParams e.allSet e.types oldStmt RESERVED_FOR_ADDITIONAL_SQL i 0 ⟨26, e.values⟩)).inp =
      p.valueOffset i := by
  intro e
  induction i with
  | zero => exact @values_eq p pSI types nullBitmap src oldStmt prepared formed held
  | succ i ih =>
    obtain ⟨q, member⟩ : ∃ q, p.params[i]? = some q := ⟨_, List.getElem?_eq_getElem (by omega)⟩
    rw [valueFrom_assembleParams_last, valueOffset_succ member]
    rw [ih (by omega), Nat.zero_add, nullBit_eq prepared formed held zeros within.2 member]
    cases value : q.value with
    | none => simp [paramRender, Param.bytes, value]
    | some bs =>
      obtain ⟨field, known, shape⟩ := formed.values q (mem_of_getElem? member) bs value
      have early : i < 256 := by
        by_contra beyond
        rw [within.2 i q member (by omega)] at value
        cases value
      have there := read_value formed held member
      have bytes : q.bytes = bs := by rw [Param.bytes, value, Option.getD_some]
      rw [bytes] at there ⊢
      rw [types_eq prepared formed held member fun _ => early]
      exact congrArg (p.valueOffset i + ·) (render_size known shape there)

end held
end ExecutePacket

section inPlace
variable (pSI : PreStmtInfo) (types : Nat → Nat) (nullBitmap : Mem) {src : Mem} {oldStmt : Nat}

def PreStmtInfo.headed (src : Mem) : Mem := write src RESERVED_FOR_ADDITIONAL_SQL (executeHeader pSI)

theorem agree_headed (src : Mem) :
    Agree (Prog.mark (fun _ => false) RESERVED_FOR_ADDITIONAL_SQL (executeHeader pSI).length) src (pSI.headed src) :=
  Agree.write fun _ _ => rfl

theorem executeTurn_run (above : 91 ≤ oldStmt) (i : Nat) :
    let e := pSI.execution types nullBitmap src oldStmt
    let loop :=
      (assembleParams e.allSet e.types oldStmt RESERVED_FOR_ADDITIONAL_SQL i 0 ⟨26, e.values⟩).run (pSI.headed src)
    (executeTurn pSI types nullBitmap oldStmt i).run src = (⟨e.allSet, pSI.newTypes src oldStmt, loop.1⟩, loop.2) := by
  have reads := readExecution_reads pSI types nullBitmap oldStmt
  have unread := reads.cleanFrom src (executeHeader_filled pSI) above (show 64 + 26 ≤ oldStmt by omega)
  have taken := run_eq_runFrom _ (agree_headed pSI src) unread
  rw [reads.runFrom, readExecution_value] at taken
  have header : (put RESERVED_FOR_ADDITIONAL_SQL (executeHeader pSI)).run src = ((), pSI.headed src) := rfl
  unfold executeTurn
  rw [run_bind, header]
  rw [run_bind, taken]
  rw [run_bind]
  rfl

variable {pSI types nullBitmap} (above : 91 ≤ oldStmt) (inTime : SteeredInTime pSI types nullBitmap oldStmt src)
include above inTime

theorem SteeredInTime.cursor (less : i ≤ pSI.paramNum) :
    let e := pSI.execution types nullBitmap src oldStmt
    ((executeTurn pSI types nullBitmap oldStmt i).run src).1.cursor.inp =
      (valueFrom src (assembleParams e.allSet e.types oldStmt RESERVED_FOR_ADDITIONAL_SQL i 0 ⟨26, e.values⟩)).inp := by
  intro e
  obtain ⟨k, _, keeps, fixed⟩ := inTime
  have early : ∀ j, j ≤ k → _ :=
    fun j before => keeps.cursor (executeHeader_filled pSI) above (agree_headed pSI src) before
  rw [executeTurn_run pSI types nullBitmap above]
  by_cases before : i ≤ k
  · rw [early i before]
  -- from `k` on the cursor advances by known sizes
  obtain ⟨b, rfl⟩ : ∃ b, i = k + b := ⟨i - k, by omega⟩
  have all : e.allSet = true := (fixed k (Nat.le_refl k) (by omega)).1
  have sizes : ∀ j, j < b → (paramKind (e.types (0 + k + j))).fixedSize =
      some (((paramKind (e.types (0 + k + j))).fixedSize).getD 0) := by
    intro j later
    obtain ⟨_, sized⟩ := fixed (0 + k + j) (by omega) (by omega)
    exact (Option.some_get sized).symm.trans (congrArg some (Option.get_eq_getD _))
  rw [assembleParams_add, run_bind, valueFrom_bind, early k (Nat.le_refl k)]
  have rest := fun c => @assembleParams_fixed e.types oldStmt RESERVED_FOR_ADDITIONAL_SQL
    (fun j => ((paramKind (e.types j)).fixedSize).getD 0) b (0 + k) sizes c
  rw [show (pSI.execution types nullBitmap src oldStmt).allSet = true from all]
  exact ((rest _).run _).trans ((rest _).valueFrom src).symm

theorem SteeredInTime.null (less : i < pSI.paramNum) :
    decidesNull pSI types nullBitmap oldStmt src i =
      nullBit src (pSI.execution types nullBitmap src oldStmt).allSet oldStmt i := by
  obtain ⟨k, _, keeps, fixed⟩ := inTime
  unfold decidesNull
  rw [executeTurn_run pSI types nullBitmap above]
  by_cases before : i < k
  · have early := keeps.null (executeHeader_filled pSI) above (agree_headed pSI src) before
    rwa [Nat.zero_add] at early
  · rw [(fixed i (by omega) less).1]
    rfl

end inPlace

section
variable {p : ExecutePacket} {pSI : PreStmtInfo} {types : Nat → Nat} {nullBitmap src : Mem} {oldStmt : Nat}
  (prepared : pSI.PreparedFor p.params.length) (formed : p.WellFormed types)
  (held : read src oldStmt p.bytes.length = p.bytes) (above : 91 ≤ oldStmt)
include prepared formed held above

theorem Aligned.typesWithin (aligned : Aligned pSI types nullBitmap oldStmt src p) : p.TypesWithin := by
  constructor
  · intro set
    have turn := @executeTurn_run pSI types nullBitmap src oldStmt above 0
    have bound := aligned.stored 0 (packetTypes p.typeBlock) (by
      rw [turn, ExecutePacket.newTypes_eq prepared formed held, if_pos set])
    rwa [prepared.paramNum] at bound
  · intro i q member beyond
    by_contra given
    have looked := aligned.nulls i q member
    rw [Option.isNone_eq_false_iff.mpr (Option.isSome_iff_ne_none.mpr given)] at looked
    have early := aligned.loaded i q member looked
    omega

theorem aligned_of_inTime (zeros : ∀ i, i < 256 → nullBitmap i = 0)
    (inTime : SteeredInTime pSI types nullBitmap oldStmt src)
    (within : p.TypesWithin) : Aligned pSI types nullBitmap oldStmt src p := by
  have nulls : ∀ i q, p.params[i]? = some q → decidesNull pSI types nullBitmap oldStmt src i = q.value.isNone := by
    intro i q member
    obtain ⟨less, _⟩ := List.getElem?_eq_some_iff.mp member
    rw [inTime.null above (by rw [prepared.paramNum]; exact less)]
    exact ExecutePacket.nullBit_eq prepared formed held zeros within.2 member
  have cursor : ∀ i, i ≤ p.params.length →
      ((executeTurn pSI types nullBitmap oldStmt i).run src).1.cursor.inp = p.valueOffset i := by
    intro i less
    rw [inTime.cursor above (by rw [prepared.paramNum]; exact less)]
    exact ExecutePacket.copy_cursor prepared formed held zeros within less
  refine ⟨nulls, ?_, ?_, ?_, ?_⟩
  · intro i q member _
    obtain ⟨less, _⟩ := List.getElem?_eq_some_iff.mp member
    exact cursor i less.le
  · intro _
    rw [cursor _ (Nat.le_refl _), ExecutePacket.valueOffset_end formed]
  · intro i newTypes stored
    have turn := @executeTurn_run pSI types nullBitmap src oldStmt above i
    rw [turn, ExecutePacket.newTypes_eq prepared formed held] at stored
    split at stored
    · rw [prepared.paramNum]
      exact within.1 (by assumption)
    · cases stored
  · intro i q member looked
    rw [nulls i q member] at looked
    by_contra beyond
    rw [within.2 i q member (by omega)] at looked
    cases looked

end

/-- When what steers the cursor is read in time, all parameters are read where they are exactly when no
type lies behind `paramTypes`. -/
theorem execute_aligned {p : ExecutePacket} {pSI : PreStmtInfo} {types : Nat → Nat} {nullBitmap : Mem} (junk : Mem)
    (prepared : pSI.PreparedFor p.params.length) (formed : p.WellFormed types)
    (zeros : ∀ i, i < 256 → nullBitmap i = 0) :
    let inBuf := (readCommand (23 :: p.bytes) junk).2
    (SteeredInTime pSI types nullBitmap inBuf.offset inBuf.data ∧ p.TypesWithin →
        Aligned pSI types nullBitmap inBuf.offset inBuf.data p) ∧
      (Aligned pSI types nullBitmap inBuf.offset inBuf.data p → p.TypesWithin) := by
  intro inBuf
  have held := (readCommand_arrived 23 p.bytes junk).bytes
  have above : 91 ≤ inBuf.offset := show 91 ≤ 129 by decide
  constructor
  · rintro ⟨inTime, within⟩
    exact aligned_of_inTime prepared formed held above zeros inTime within
  · exact fun aligned => aligned.typesWithin prepared formed held above

/-- A string of `n` letters and NULL, for the statement with two parameters. -/
def textAndNull (n : Nat) : ExecutePacket where
  head := [1, 0, 0, 0, 0, 1, 0, 0, 0]
  bitmap := [2]
  flag := 1
  params := [⟨254, some (toLittleEndian 1 n ++ List.replicate n 97)⟩, ⟨254, none⟩]

theorem wellFormed_two {a b : Param} {bits : UInt8} (first : bits.toNat.testBit 0 = a.value.isNone)
    (second : bits.toNat.testBit 1 = b.value.isNone) (typed : a.type < 65536 ∧ b.type < 65536)
    (values : ∀ q ∈ [a, b], ∀ bs, q.value = some bs → ∃ type,
      FieldType.ofCode (q.type % 256) = some type ∧ ValueBytes type bs)
    (types : Nat → Nat) : (ExecutePacket.mk [1, 0, 0, 0, 0, 1, 0, 0, 0] [bits] 1 [a, b]).WellFormed types where
  head := rfl
  count := show 2 ≤ 65535 by decide
  bitmap := show 1 = (2 + 7) / 8 by decide
  nulls := by
    intro i q member
    obtain ⟨less, rfl⟩ := List.getElem?_eq_some_iff.mp member
    obtain rfl | rfl : i = 0 ∨ i = 1 := by
      have two : i < 2 := less
      omega
    · exact first
    · exact second
  typed := by
    intro q member
    obtain rfl | rfl : q = a ∨ q = b := by simpa using member
    · exact typed.1
    · exact typed.2
  earlier := fun unset => absurd unset (show ¬(1 : UInt8) = 0 by decide)
  values := values

theorem textAndNull_wellFormed (short : n < 251) (types : Nat → Nat) : (textAndNull n).WellFormed types := by
  refine wellFormed_two rfl rfl ⟨show 254 < 65536 by decide, show 254 < 65536 by decide⟩ ?_ types
  simp only [forall_mem_cons, not_mem_nil, false_implies, implies_true, and_true]
  refine ⟨?_, nofun⟩
  rintro bs ⟨⟩
  refine ⟨.string, rfl, toLittleEndian 1 n, List.replicate n 97, ?_, rfl⟩
  rw [length_replicate]
  exact .one short

theorem pair_preparedFor : PreStmtInfo.pair.PreparedFor 2 := ⟨rfl, rfl, rfl, rfl, rfl⟩

theorem execute_aligned_two_letters :
    Aligned .pair (fun _ => 0) (fun _ => 0) 129 (readCommand (23 :: (textAndNull 2).bytes) fun _ => 0).2.data
    (textAndNull 2) := by
  refine (execute_aligned (fun _ => 0) pair_preparedFor (textAndNull_wellFormed (by decide) _) fun _ _ => rfl).1 ⟨?_,
    ?_⟩
  · refine ⟨2, Nat.le_refl 2, ⟨?_, ?_, ?_, ?_, trivial⟩, ?_⟩
    · decide +kernel
    · decide +kernel
    · decide +kernel
    · decide +kernel
    · intro i behind within
      have two : i < 2 := within
      omega
  · refine ⟨fun _ => by decide, fun i q member beyond => ?_⟩
    have less : i < 2 := (List.getElem?_eq_some_iff.mp member).1
    omega

def manyNulls : ExecutePacket where
  head := [1, 0, 0, 0, 0, 1, 0, 0, 0]
  bitmap := List.replicate 32 255 ++ [1]
  flag := 1
  params := List.replicate 257 ⟨3, none⟩

def PreStmtInfo.many : PreStmtInfo :=
  { PreStmtInfo.pair with
    paramNum := 257, nullBitmapLength := 33, paramTypeOffset := 43, paramValueOffset1 := 557, paramValueOffset2 := 43 }

theorem manyNulls_wellFormed (types : Nat → Nat) : manyNulls.WellFormed types where
  head := rfl
  count := by decide +kernel
  bitmap := by decide +kernel
  nulls := by
    intro i q member
    have clear : ∀ i, i < 257 → (manyNulls.bitmap.getD (i / 8) 0).toNat.testBit (i % 8) = true := by decide +kernel
    obtain ⟨less, _⟩ := List.getElem?_eq_some_iff.mp member
    have count : manyNulls.params.length = 257 := length_replicate
    rw [clear i (by omega), eq_of_mem_replicate (mem_of_getElem? member)]
    rfl
  typed := by
    intro q member
    rw [eq_of_mem_replicate member]
    decide
  earlier := fun unset => absurd unset (by decide)
  values := by
    intro q member bs value
    rw [eq_of_mem_replicate member] at value
    cases value

/-- Fifty letters run over the null bitmap, and the 257th type is stored behind `paramTypes`. -/
theorem execute_misaligned :
    ((textAndNull 50).WellFormed (fun _ => 0) ∧
      ¬Aligned .pair (fun _ => 0) (fun _ => 0) 129 (readCommand (23 :: (textAndNull 50).bytes) fun _ => 0).2.data
        (textAndNull 50)) ∧
      manyNulls.WellFormed (fun _ => 0) ∧
        ¬Aligned .many (fun _ => 0) (fun _ => 0) 129 (readCommand (23 :: manyNulls.bytes) fun _ => 0).2.data
        manyNulls := by
  refine ⟨⟨textAndNull_wellFormed (by decide) _, fun aligned => ?_⟩, manyNulls_wellFormed _, fun aligned => ?_⟩
  · have null := aligned.nulls 1 ⟨254, none⟩ rfl
    revert null
    decide +kernel
  · have prepared : PreStmtInfo.many.PreparedFor manyNulls.params.length :=
      ⟨by decide +kernel, by decide +kernel, by decide +kernel, by decide +kernel, by decide +kernel⟩
    have held := (readCommand_arrived 23 manyNulls.bytes fun _ => 0).bytes
    have within := aligned.typesWithin prepared (manyNulls_wellFormed _) held (by decide)
    exact absurd (within.1 (by decide)) (by decide +kernel)

end OpenHalo
