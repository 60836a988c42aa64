import OpenHalo.Lib.InPlace
import OpenHalo.PreStmtRewrite

namespace OpenHalo
open Octets Memory Memory.Prog List

/-- How a parameter is assembled, whatever its field type is called. -/
inductive ParamKind
  | integer (size : Nat) (unsigned_type : Bool)
  | float (size e f : Nat)
  | temporal (process : Nat → Prog (Bytes × Nat))
  | number
  | string
  | absent

def FieldType.kind (unsigned_type : Bool) : Option FieldType → ParamKind
  | some .decimal | some .newdecimal => .number
  | some .tiny | some .bool => .integer 1 unsigned_type
  | some .short | some .year => .integer 2 unsigned_type
  | some .long | some .int24 => .integer 4 unsigned_type
  | some .longlong => .integer 8 unsigned_type
  | some .float => .float 4 8 23
  | some .double => .float 8 11 52
  | some .date => .temporal processDateType
  | some .time => .temporal processTimeType
  | some .datetime | some .timestamp => .temporal processDatetimeTimestampType
  | some .tinyBlob | some .mediumBlob | some .longBlob | some .blob => .string
  | some .varchar | some .varString | some .string | some .enum | some .set | some .json => .string
  | some .null | some .newdate | some .bit | some .timestamp2 | some .datetime2 | some .time2
  | some .typedArray | some .invalid | some .geometry | none => .absent

def paramKind (paramType : Nat) : ParamKind :=
  FieldType.kind (paramType / 256 % 256 != 0) (FieldType.ofCode (paramType % 256))

def ParamKind.assemble (sql newStmt : Nat) (c : Cursor) : ParamKind → Prog Cursor
  | integer size unsigned_type => assembleInteger size unsigned_type sql newStmt c
  | float size e f => assembleFloat size e f sql newStmt c
  | temporal process => assembleTemporal process sql newStmt c
  | number => assembleDecimal sql newStmt c
  | string => assembleString sql newStmt c
  | absent => return c

theorem assembleExtendExeStmtParmVal_kind (paramType sql newStmt : Nat) (c : Cursor) :
    assembleExtendExeStmtParmVal paramType sql newStmt c = (paramKind paramType).assemble sql newStmt c := by
  unfold assembleExtendExeStmtParmVal paramKind
  cases FieldType.ofCode (paramType % 256) with
  | none => rfl
  | some type => cases type <;> rfl

def ParamKind.render (src : Mem) (a : Nat) : ParamKind → Nat × Bytes
  | integer size unsigned_type =>
    let value_int := littleEndian (read src a size)
    (size, if unsigned_type then decimal value_int else signedDecimal (signed (8 * size) value_int))
  | float size e f => (size, floatText e f (littleEndian (read src a size)))
  | temporal process =>
    let value := valueFrom src (process a)
    (value.2, ascii "'" ++ value.1 ++ ascii "'")
  | number =>
    let lenenc := valueFrom src (processLenencString a)
    (lenenc.2 + lenenc.1, read src (a + lenenc.2) lenenc.1)
  | string =>
    let lenenc := valueFrom src (processLenencString a)
    (lenenc.2 + lenenc.1, ascii "'" ++ read src (a + lenenc.2) lenenc.1 ++ ascii "'")
  | absent => (0, [])

/-- The terminator of `sprintf` behind the text, which the next byte covers. -/
def ParamKind.terminator : ParamKind → Bytes
  | temporal _ => [0]
  | integer _ _ | float _ _ _ | number | string | absent => []

def ParamKind.Reads : ParamKind → Prop
  | integer size _ | float size _ _ => 0 < size
  | temporal process => ∀ a, Reader a (process a)
  | number | string | absent => True

variable (a : Nat) (pSI : PreStmtInfo)

theorem fetchByte_reader : Reader a (fetchByte a) := (Reader.fetch a 0).bind fun _ => trivial

theorem fetchByte_reads {a addr : Nat} (above : a ≤ addr) : ReadsFrom a (fetchByte addr) :=
  (ReadsFrom.fetch above).bind fun _ => trivial

theorem fetchInt_reads {a addr n : Nat} (above : a ≤ addr) : ReadsFrom a (fetchInt addr n) :=
  (ReadsFrom.fetch above).bind fun _ => trivial

theorem processLenencString_reader : Reader a (processLenencString a) := by
  apply (fetchByte_reader a).bind
  intro first
  split
  · trivial
  split
  · exact (fetchInt_reads (by omega)).bind fun _ => trivial
  · split
    · exact (fetchInt_reads (by omega)).bind fun _ => trivial
    · exact (fetchInt_reads (by omega)).bind fun _ => trivial

theorem secondPart_reads {a addr : Nat} (present : Bool) (above : a ≤ addr) :
    ReadsFrom a (secondPart present addr) := by
  unfold secondPart
  split
  · exact (fetchInt_reads above).bind fun _ => trivial
  · trivial

theorem processDateType_reader : Reader a (processDateType a) := by
  apply (fetchByte_reader a).bind
  intro _
  apply (fetchInt_reads (by omega)).bind
  intro _
  apply (fetchByte_reads (by omega)).bind
  intro _
  apply (fetchByte_reads (by omega)).bind
  intro _
  trivial

theorem processTimeType_reader : Reader a (processTimeType a) := by
  apply (fetchByte_reader a).bind
  intro _
  apply (fetchByte_reads (by omega)).bind
  intro _
  apply (fetchInt_reads (by omega)).bind
  intro _
  apply (fetchByte_reads (by omega)).bind
  intro _
  apply (fetchByte_reads (by omega)).bind
  intro _
  apply (fetchByte_reads (by omega)).bind
  intro _
  apply (secondPart_reads _ (by omega)).bind
  intro _
  trivial

theorem processDatetimeTimestampType_reader : Reader a (processDatetimeTimestampType a) := by
  apply (fetchByte_reader a).bind
  intro len
  apply (fetchInt_reads (by omega)).bind
  intro year
  have day : ReadsFrom a (datetimeDay year a len) := by
    unfold datetimeDay
    split
    · exact (fetchByte_reads (by omega)).bind fun _ => (fetchByte_reads (by omega)).bind fun _ => trivial
    · trivial
  apply day.bind
  intro _
  have clock : ReadsFrom a (datetimeClock a len) := by
    unfold datetimeClock
    split
    · exact (fetchByte_reads (by omega)).bind fun _ => (fetchByte_reads (by omega)).bind fun _ =>
        (fetchByte_reads (by omega)).bind fun _ => trivial
    · trivial
  apply clock.bind
  intro _
  apply (secondPart_reads _ (by omega)).bind
  intro _
  trivial

theorem paramKind_reads (paramType : Nat) : (paramKind paramType).Reads := by
  unfold paramKind
  cases FieldType.ofCode (paramType % 256) with
  | none => trivial
  | some type =>
    cases type with
    | date => exact processDateType_reader
    | time => exact processTimeType_reader
    | datetime | timestamp => exact processDatetimeTimestampType_reader
    | _ => first | trivial | exact Nat.zero_lt_succ _

theorem ParamKind.assemble_writes (kind : ParamKind) (reads : kind.Reads) (src : Mem) (sql newStmt : Nat)
    (c : Cursor) :
    let rendered := kind.render src (sql + c.inp)
    Writes src (kind.assemble sql newStmt c) (newStmt + c.out) (rendered.2 ++ kind.terminator)
      ⟨c.out + rendered.2.length, c.inp + rendered.1⟩ := by
  intro rendered
  cases kind with
  | integer | float =>
    apply Writes.after_reads (fetchInt_reads (Nat.le_refl _))
    rw [terminator, append_nil]
    exact Writes.put_ret src _ _ _
  | temporal process =>
    apply Writes.after_reads (reads _).loads
    exact Writes.put_ret src _ _ _
  | number =>
    apply Writes.after_reads (processLenencString_reader _).loads
    simp only [rendered, render, terminator, append_nil, read_length, ← Nat.add_assoc]
    generalize valueFrom src (processLenencString (sql + c.inp)) = lenenc
    have copied := (Writes.memcpy src (newStmt + c.out) (sql + c.inp + lenenc.2) lenenc.1).bind
      (f := fun _ => pure (⟨c.out + lenenc.1, c.inp + lenenc.2 + lenenc.1⟩ : Cursor)) (Writes.ret src _ _)
    rwa [append_nil] at copied
  | string =>
    apply Writes.after_reads (processLenencString_reader _).loads
    simp only [rendered, render, terminator, append_nil]
    generalize valueFrom src (processLenencString (sql + c.inp)) = lenenc
    apply Writes.put_bind
    apply (Writes.memcpy src _ _ _).bind
    have closed := Writes.put_ret src (newStmt + c.out + 1 + lenenc.1) (ascii "'")
      (⟨c.out + lenenc.1 + 2, c.inp + lenenc.2 + lenenc.1⟩ : Cursor)
    simpa [valueFrom, fetch, ascii, Nat.add_assoc, Nat.add_comm 1] using closed
  | absent => exact Writes.ret src _ c

theorem ParamKind.terminator_length (kind : ParamKind) : kind.terminator.length ≤ 1 := by
  cases kind <;> simp [terminator]

/-- Whether bit `i` of the null bitmap in the packet is set and looked at. -/
def nullBit (src : Mem) (allSet : Bool) (oldStmt i : Nat) : Bool :=
  !allSet && littleEndian (read src (oldStmt + 9 + i / 8) 1) / 2 ^ (i % 8) % 2 != 0

theorem isNullParam_value (src : Mem) (allSet : Bool) (oldStmt i : Nat) :
    valueFrom src (isNullParam allSet oldStmt i) = nullBit src allSet oldStmt i := by
  cases allSet <;> rfl

theorem isNullParam_reads (allSet : Bool) (oldStmt i : Nat) :
    ReadsFrom oldStmt (isNullParam allSet oldStmt i) := by
  unfold isNullParam
  split
  · trivial
  · exact (fetchByte_reads (by omega)).bind fun _ => trivial

def paramRender (src : Mem) (null : Bool) (paramType a : Nat) : Nat × Bytes :=
  if null then (0, ascii "NULL") else (paramKind paramType).render src a

theorem assembleParam_writes (src : Mem) (null : Bool) (paramType oldStmt newStmt : Nat) (c : Cursor) :
    let rendered := paramRender src null paramType (oldStmt + c.inp)
    ∃ terminator : Bytes, terminator.length ≤ 1 ∧
      Writes src (assembleParam null paramType oldStmt newStmt c) (newStmt + c.out) (rendered.2 ++ terminator)
        ⟨c.out + rendered.2.length, c.inp + rendered.1⟩ := by
  cases null with
  | true => exact ⟨[], Nat.zero_le _, Writes.put_ret src _ _ _⟩
  | false =>
    refine ⟨(paramKind paramType).terminator, (paramKind paramType).terminator_length, ?_⟩
    have stored := (paramKind paramType).assemble_writes (paramKind_reads paramType) src oldStmt newStmt c
    rwa [← assembleExtendExeStmtParmVal_kind] at stored

/-- The parameters from number `i` on, each followed by a comma. -/
def paramsText (src : Mem) (allSet : Bool) (types : Nat → Nat) (oldStmt : Nat) : Nat → Nat → Nat → Bytes
  | 0, _, _ => []
  | left + 1, i, inp =>
    let rendered := paramRender src (nullBit src allSet oldStmt i) (types i) (oldStmt + inp)
    rendered.2 ++ ascii "," ++ paramsText src allSet types oldStmt left (i + 1) (inp + rendered.1)

theorem assembleParams_writes (src : Mem) (allSet : Bool) (types : Nat → Nat) (oldStmt newStmt left i : Nat)
    (c : Cursor) :
    let text := paramsText src allSet types oldStmt left i c.inp
    ∃ inp, Writes src (assembleParams allSet types oldStmt newStmt left i c) (newStmt + c.out) text
      ⟨c.out + text.length, inp⟩ := by
  induction left generalizing i c with
  | zero => exact ⟨c.inp, Writes.ret src _ c⟩
  | succ left ih =>
    obtain ⟨terminator, short, value⟩ := assembleParam_writes src (nullBit src allSet oldStmt i) (types i)
      oldStmt newStmt c
    obtain ⟨inp, rest⟩ := ih (i + 1) ⟨c.out + (paramRender src (nullBit src allSet oldStmt i) (types i)
      (oldStmt + c.inp)).2.length + 1, c.inp + (paramRender src (nullBit src allSet oldStmt i) (types i)
      (oldStmt + c.inp)).1⟩
    refine ⟨inp, ?_⟩
    unfold assembleParams paramsText
    apply Writes.after_reads (isNullParam_reads allSet oldStmt i)
    rw [isNullParam_value]
    generalize paramRender src (nullBit src allSet oldStmt i) (types i) (oldStmt + c.inp) = rendered at *
    rw [append_assoc]
    apply Writes.overwriting terminator value
    · rw [length_append]
      exact Nat.le_trans short (Nat.le_add_right 1 _)
    · have comma := Writes.put_bind (newStmt + (c.out + rendered.2.length)) (ascii ",") (f := fun _ =>
        assembleParams allSet types oldStmt newStmt left (i + 1) ⟨c.out + rendered.2.length + 1, _⟩) rest
      have single : (ascii ",").length = 1 := rfl
      simpa [single, Nat.add_assoc, Nat.add_comm 1] using comma

structure Execution where
  allSet : Bool
  types : Nat → Nat
  values : Nat

def PreStmtInfo.bindFlag (pSI : PreStmtInfo) (src : Mem) (oldStmt : Nat) : Nat :=
  littleEndian (read src (oldStmt + 9 + pSI.nullBitmapLength) 1)

def PreStmtInfo.newTypes (pSI : PreStmtInfo) (src : Mem) (oldStmt : Nat) : Option (Nat → Nat) :=
  if pSI.bindFlag src oldStmt ≠ 0 then
    some (packetTypes (read src (oldStmt + pSI.paramTypeOffset) (2 * pSI.paramNum)))
  else none

def PreStmtInfo.execution (pSI : PreStmtInfo) (types : Nat → Nat) (nullBitmap : Mem) (src : Mem)
    (oldStmt : Nat) : Execution where
  allSet := read src (oldStmt + 9) pSI.nullBitmapLength == read nullBitmap 0 pSI.nullBitmapLength
  types := (pSI.newTypes src oldStmt).getD types
  values := if pSI.bindFlag src oldStmt ≠ 0 then pSI.paramValueOffset1 else pSI.paramValueOffset2

theorem fetchTypes_reads {a addr : Nat} (flag paramNum : Nat) (above : a ≤ addr) :
    ReadsFrom a (fetchTypes flag addr paramNum) := by
  unfold fetchTypes
  split
  · exact (ReadsFrom.fetch above).bind fun _ => trivial
  · trivial

theorem fetchTypes_value (src : Mem) (oldStmt : Nat) :
    valueFrom src (fetchTypes (pSI.bindFlag src oldStmt) (oldStmt + pSI.paramTypeOffset) pSI.paramNum) =
      pSI.newTypes src oldStmt := by
  unfold fetchTypes PreStmtInfo.newTypes
  split <;> rfl

def executeHeader (pSI : PreStmtInfo) : Bytes :=
  snprintf 27 (ascii "execute " ++ cstr pSI.name ++ ascii " using ")

theorem executeHeader_length : (executeHeader pSI).length ≤ 27 := by
  simp only [executeHeader, snprintf, length_append, length_take, length_singleton]
  omega

/-- What the code takes from the packet before it comes to the parameters. -/
def readExecution (pSI : PreStmtInfo) (types : Nat → Nat) (nullBitmap : Mem) (oldStmt : Nat) :
    Prog (Execution × Option (Nat → Nat)) := do
  let flag ← fetchByte (oldStmt + 9 + pSI.nullBitmapLength)
  let newTypes ← fetchTypes flag (oldStmt + pSI.paramTypeOffset) pSI.paramNum
  let bitmap ← fetch (oldStmt + 9) pSI.nullBitmapLength
  return (⟨bitmap == read nullBitmap 0 pSI.nullBitmapLength, newTypes.getD types,
    if flag ≠ 0 then pSI.paramValueOffset1 else pSI.paramValueOffset2⟩, newTypes)

/-- Behind the header: the packet is taken apart, parameters are assembled, and the last comma becomes
the terminator. -/
def executeBody (pSI : PreStmtInfo) (types : Nat → Nat) (nullBitmap : Mem) (oldStmt newStmt : Nat) :
    Prog ExecuteText := do
  let (e, newTypes) ← readExecution pSI types nullBitmap oldStmt
  let c ← assembleParams e.allSet e.types oldStmt newStmt pSI.paramNum 0 ⟨26, e.values⟩
  put (newStmt + (c.out - 1)) [0]
  return ⟨c.out, newStmt, newTypes⟩

theorem readExecution_reads (types : Nat → Nat) (nullBitmap : Mem) (oldStmt : Nat) :
    ReadsFrom oldStmt (readExecution pSI types nullBitmap oldStmt) :=
  (fetchByte_reads (by omega)).bind fun _ => (fetchTypes_reads _ _ (by omega)).bind fun _ =>
    (ReadsFrom.fetch (by omega)).bind fun _ => trivial

theorem readExecution_value (types : Nat → Nat) (nullBitmap src : Mem) (oldStmt : Nat) :
    valueFrom src (readExecution pSI types nullBitmap oldStmt) =
      (pSI.execution types nullBitmap src oldStmt, pSI.newTypes src oldStmt) := by
  unfold readExecution
  rw [valueFrom_bind, show valueFrom src (fetchByte (oldStmt + 9 + pSI.nullBitmapLength)) = pSI.bindFlag src oldStmt
    from rfl, valueFrom_bind, fetchTypes_value]
  rfl

theorem rewriteExtendExeStmt_split (types : Nat → Nat) (nullBitmap : Mem) (offset maxlen : Nat)
    (positive : 0 < pSI.paramNum) :
    rewriteExtendExeStmt_ pSI types nullBitmap offset maxlen =
      (do put RESERVED_FOR_ADDITIONAL_SQL (executeHeader pSI)
          executeBody pSI types nullBitmap offset RESERVED_FOR_ADDITIONAL_SQL) := by
  rw [rewriteExtendExeStmt_, if_pos positive, executeBody, readExecution]
  simp only [bind_bind]
  rfl

def PreStmtInfo.valuesText (pSI : PreStmtInfo) (types : Nat → Nat) (nullBitmap src : Mem) (oldStmt : Nat) : Bytes :=
  let e := pSI.execution types nullBitmap src oldStmt
  paramsText src e.allSet e.types oldStmt pSI.paramNum 0 e.values

theorem paramsText_length (src : Mem) (allSet : Bool) (types : Nat → Nat) (oldStmt left i inp : Nat) :
    left ≤ (paramsText src allSet types oldStmt left i inp).length := by
  induction left generalizing i inp with
  | zero => exact Nat.zero_le _
  | succ left ih =>
    have rest := ih (i + 1) (inp + (paramRender src (nullBit src allSet oldStmt i) (types i) (oldStmt + inp)).1)
    have single : (ascii ",").length = 1 := rfl
    simp only [paramsText, length_append]
    omega

theorem executeBody_writes (types : Nat → Nat) (nullBitmap src : Mem) (oldStmt newStmt : Nat)
    (positive : 0 < pSI.paramNum) :
    let text := pSI.valuesText types nullBitmap src oldStmt
    Writes src (executeBody pSI types nullBitmap oldStmt newStmt) (newStmt + 26) (text.dropLast ++ [0])
      ⟨26 + text.length, newStmt, pSI.newTypes src oldStmt⟩ := by
  intro text
  have long : 1 ≤ text.length := Nat.le_trans positive (paramsText_length _ _ _ _ _ _ _)
  obtain ⟨inp, values⟩ := assembleParams_writes src (pSI.execution types nullBitmap src oldStmt).allSet
    (pSI.execution types nullBitmap src oldStmt).types oldStmt newStmt pSI.paramNum 0
    ⟨26, (pSI.execution types nullBitmap src oldStmt).values⟩
  have place : newStmt + (26 + text.length - 1) = newStmt + 26 + text.dropLast.length := by
    rw [length_dropLast]
    omega
  have ended := Writes.put_ret src (newStmt + 26 + text.dropLast.length) [0]
    (ExecuteText.mk (26 + text.length) newStmt (pSI.newTypes src oldStmt))
  rw [← place] at ended
  have lastComma := dropLast_append_getLast (ne_nil_of_length_pos long)
  apply Writes.after_reads (readExecution_reads pSI types nullBitmap oldStmt)
  rw [readExecution_value]
  apply Writes.overwriting [text.getLast (ne_nil_of_length_pos long)] (v := ⟨26 + text.length, inp⟩)
  · rw [lastComma]
    exact values
  · exact Nat.le_refl 1
  · rw [← place]
    exact ended

end OpenHalo
