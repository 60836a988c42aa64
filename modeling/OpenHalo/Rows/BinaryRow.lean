import OpenHalo.Rows.TextRow

namespace OpenHalo
open Octets Framing List

variable {conv : Conversions} {bytes columnVal : Bytes} {added i : Nat} {writes : List Write}

/-- The column types `printTupBinary` tells apart. -/
inductive ColumnType
  | tiny | short | long | int24 | longlong | float | double | decimal | newdecimal
  | timestamp | date | datetime | time | year
  | varString | string | blob | bit | enum | set | geometry
  | other (code : Nat)
deriving Repr, DecidableEq

structure Attribute where
  columnType : ColumnType
  typeName : Bytes
  atttypmod : Int

/-- A column: its description and the text of its value, `none` for NULL. -/
structure BinaryColumn where
  att : Attribute
  columnValue : Option Bytes

/-- The conversions of values. Their bytes do not matter for the framing, but a bit string fills its
buffer. -/
structure Conversions where
  atof : Bytes → UInt64
  toFloat : UInt64 → UInt32
  convertTimestamp : Bytes → Bytes
  convertTime : Bytes → Bytes
  convertHexToMySQLBinary : Bytes → Bytes
  convertBitToMySQLHex : Bytes → Nat → Bytes
  hexed : ∀ bit hexSize, (convertBitToMySQLHex bit hexSize).length = hexSize

/-- Why a row is not printed: an error, or a write behind the end of
`payloadBuf`. -/
inductive RowError
  | raised (edata : ErrorData)
  | overrun

structure Measured where
  columnType : ColumnType
  atttypmod : Int
  columnVal : Bytes

def hexSize (atttypmod : Int) : Nat := (atttypmod + 7).toNat / 8

def ColumnType.direct : ColumnType → Bool
  | .varString | .blob => true
  | _ => false

section conversions
variable (conv : Conversions)

/-- The first loop of `printTupBinary`: the bytes of a value and what it adds to the length of the row. -/
def measure (att : Attribute) (columnValue : Bytes) : Except ErrorData (Bytes × Nat) :=
  let counted := fun columnVal : Bytes => (columnVal, calcLenencIntLen columnVal.length + columnVal.length)
  let binary := fun name : String =>
    if att.typeName.take name.length = ascii name then conv.convertHexToMySQLBinary columnValue else columnValue
  match att.columnType with
  | .long | .int24 | .float => .ok (columnValue, 4)
  | .double | .longlong => .ok (columnValue, 8)
  | .short | .year => .ok (columnValue, 2)
  | .tiny => .ok (columnValue, 1)
  | .timestamp | .date | .datetime =>
    let columnVal := conv.convertTimestamp columnValue
    .ok (columnVal, columnVal.length)
  | .time =>
    let columnVal := conv.convertTime columnValue
    .ok (columnVal, columnVal.length)
  | .varString => .ok (counted (binary "varbinary"))
  | .string => .ok (counted (binary "binary"))
  | .blob => .ok (counted (binary "blob"))
  | .bit => .ok (counted (conv.convertBitToMySQLHex columnValue (hexSize att.atttypmod)))
  | .decimal | .newdecimal | .enum | .set | .geometry => .ok (counted columnValue)
  | .other code => .error (elogError (ascii "invalid column type (" ++ decimal code ++ ascii ")"))

def measureAll : List BinaryColumn → Except ErrorData (List Measured × Nat)
  | [] => .ok ([], 0)
  | column :: columns =>
    match column.columnValue with
    | none => measureAll columns
    | some columnValue =>
      match measure conv column.att columnValue, measureAll columns with
      | .ok (columnVal, added), .ok (later, total) =>
        .ok (⟨column.att.columnType, column.att.atttypmod, columnVal⟩ :: later, added + total)
      | .error edata, _ => .error edata
      | .ok _, .error edata => .error edata

/-- `k` bytes of a number, as `memcpy` takes them. -/
def lowBytes (k : Nat) (n : Int) : Bytes := toLittleEndian k (n % 2 ^ (8 * k)).toNat

def encode (columnType : ColumnType) (columnVal : Bytes) : Bytes :=
  match columnType with
  | .long | .int24 => lowBytes 4 (atoll columnVal)
  | .short | .year => lowBytes 2 (atoll columnVal)
  | .tiny => lowBytes 1 (atoll columnVal)
  | .longlong => lowBytes 8 (atoll columnVal)
  | .float => toLittleEndian 4 (conv.toFloat (conv.atof columnVal)).toNat
  | .double => toLittleEndian 8 (conv.atof columnVal).toNat
  | .timestamp | .date | .datetime | .time => columnVal
  | .decimal | .newdecimal | .enum | .set | .geometry | .varString | .string | .blob | .bit =>
    assembleLenencUnsignedLong columnVal.length ++ columnVal
  | .other _ => []

/-- `memcpy` to the end of `payloadBuf`, which has 102400 bytes. -/
def appendScratch (payloadBuf bytes : Bytes) : Except RowError Bytes :=
  if payloadBuf.length + bytes.length ≤ 102400 then .ok (payloadBuf ++ bytes) else .error .overrun

def wholeColumns : Bytes → List Measured → Except RowError (List Write)
  | payloadBuf, [] => .ok [.payload payloadBuf]
  | payloadBuf, m :: ms =>
    if m.columnType.direct then do
      let payloadBuf ← appendScratch payloadBuf (assembleLenencUnsignedLong m.columnVal.length)
      let later ← wholeColumns [] ms
      .ok (.payload payloadBuf :: .payload m.columnVal :: later)
    else do
      let payloadBuf ← appendScratch payloadBuf (encode conv m.columnType m.columnVal)
      wholeColumns payloadBuf ms

/-- `payloadBuf` is written, across a packet boundary if need be. -/
def splitScratch (s : Splitting) (payloadBuf : Bytes) : List Write × Splitting :=
  if payloadBuf.length ≤ s.packetFreeSize then ([.payload payloadBuf], s.take payloadBuf.length)
  else
    ([.payload (payloadBuf.take s.packetFreeSize), s.head, .payload (payloadBuf.drop s.packetFreeSize)],
      s.turn.take (payloadBuf.length - s.packetFreeSize))

/-- A value of a split row. A bit string is converted again, with the size of the last column of the
first loop. -/
def encodeSplit (lastTypmod : Int) (m : Measured) : Bytes :=
  if m.columnType = .bit then
    let hex := conv.convertBitToMySQLHex (cstr m.columnVal) (hexSize lastTypmod)
    assembleLenencUnsignedLong hex.length ++ hex
  else encode conv m.columnType m.columnVal

def splitColumns (lastTypmod : Int) : Splitting → Bytes → List Measured → Except RowError (List Write)
  | s, payloadBuf, [] =>
    if payloadBuf.length ≤ s.packetFreeSize then .ok [.payload payloadBuf]
    else
      .ok [.payload (payloadBuf.take s.packetFreeSize), .header (payloadBuf.length - s.packetFreeSize),
        .payload (payloadBuf.drop s.packetFreeSize)]
  | s, payloadBuf, m :: ms =>
    if m.columnType.direct then do
      let payloadBuf ← appendScratch payloadBuf (assembleLenencUnsignedLong m.columnVal.length)
      let first := splitScratch s payloadBuf
      let second := splitValue first.2 m.columnVal
      let later ← splitColumns lastTypmod second.2 [] ms
      .ok (first.1 ++ (second.1 ++ later))
    else do
      let payloadBuf ← appendScratch payloadBuf (encodeSplit conv lastTypmod m)
      splitColumns lastTypmod s payloadBuf ms

end conversions

/-- `payloadBuf[((i + 2) / 8) + 1] |= (1 << ((i + 2) % 8))`, on the bitmap. -/
def setNull (bitmap : Bytes) (i : Nat) : Bytes :=
  bitmap.modify ((i + 2) / 8) (· ||| UInt8.ofNat (2 ^ ((i + 2) % 8)))

def markNulls : Nat → List BinaryColumn → Bytes → Bytes
  | _, [], bitmap => bitmap
  | i, column :: columns, bitmap =>
    markNulls (i + 1) columns (if column.columnValue.isNone then setNull bitmap i else bitmap)

def nullBitmap (columns : List BinaryColumn) : Bytes :=
  markNulls 0 columns (List.replicate ((columns.length + 9) / 8) 0)

/-- The second half of `printTupBinary`. The first packet has less room by the header byte and bitmap in
`payloadBuf`. -/
def binaryWrites (conv : Conversions) (columns : List BinaryColumn) (ms : List Measured) (rowRemainLen : Nat) :
    Except RowError (List Write) :=
  let payloadBuf := 0 :: nullBitmap columns
  let nullBitmap_len := (columns.length + 9) / 8
  if rowRemainLen ≤ MYS_MAX_PACKET_LENGTH then do
    let later ← wholeColumns conv payloadBuf ms
    .ok (.header rowRemainLen :: later)
  else do
    let lastTypmod := (ms.getLast?.map Measured.atttypmod).getD 0
    let later ← splitColumns conv lastTypmod ⟨rowRemainLen, MYS_MAX_PACKET_LENGTH - 1 - nullBitmap_len⟩ payloadBuf ms
    .ok (.header MYS_MAX_PACKET_LENGTH :: later)

/-- `printTupBinary`: the ids and the calls that write the row. -/
def printTupBinary (conv : Conversions) (ids : InsertIds) (columns : List BinaryColumn) (commandTag : CommandTag) :
    Except RowError (InsertIds × List Write) :=
  if 1017 < columns.length then .error (.raised (columnNumberError columns.length))
  else match commandTag, columns.findSome? BinaryColumn.columnValue with
    | .plain .insert, some columnValue => .ok (ids.note columnValue, [])
    | _, _ =>
      match measureAll conv columns with
      | .error edata => .error (.raised edata)
      | .ok (ms, total) => (binaryWrites conv columns ms (1 + (columns.length + 9) / 8 + total)).map (ids, ·)

/-- Bit `k` of a bitmap. -/
def bitAt (bitmap : Bytes) (k : Nat) : Bool := (bitmap.getD (k / 8) 0).toNat.testBit (k % 8)

/-- Bit `i + 2` says whether column `i` is NULL, and no other bit is set. -/
def IsNullBitmap (columns : List BinaryColumn) (bitmap : Bytes) : Prop :=
  bitmap.length = (columns.length + 9) / 8 ∧
    ∀ k, bitAt bitmap k = true ↔ ∃ i column, k = i + 2 ∧ columns[i]? = some column ∧ column.columnValue = none

def binaryPayload (conv : Conversions) (bitmap : Bytes) (ms : List Measured) : Bytes :=
  0 :: bitmap ++ ms.flatMap fun m => encode conv m.columnType m.columnVal

def body : List Write → Bytes
  | [] => []
  | .header _ :: _ => []
  | .payload bytes :: ws => bytes ++ body ws
  | .filled bytes n :: ws => bytes.take n ++ body ws

def announced : List Write → List (Nat × Bytes)
  | [] => []
  | .header payloadLen :: ws => (payloadLen, body ws) :: announced ws
  | .payload _ :: ws => announced ws
  | .filled _ _ :: ws => announced ws

/-- `printTupBinary` writes the packets of one payload, that of the row, each as long as its header says. -/
def BinaryFramed (conv : Conversions) (net : NetTransceiver) (ids : InsertIds) (columns : List BinaryColumn)
    (commandTag : CommandTag) (ms : List Measured) : Prop :=
  ∃ bitmap ids' writes, IsNullBitmap columns bitmap ∧
    printTupBinary conv ids columns commandTag = .ok (ids', writes) ∧
    announced writes =
      ((cut MYS_MAX_PACKET_LENGTH (binaryPayload conv bitmap ms)).map fun packet => (packet.length, packet)) ∧
    Carries net writes (binaryPayload conv bitmap ms)

/-- `payloadBuf` is large enough: it is emptied by the direct columns only. -/
def scratchFits (conv : Conversions) : Nat → List Measured → Bool
  | _, [] => true
  | payloadBufIndex, m :: ms =>
    if m.columnType.direct then
      payloadBufIndex + calcLenencIntLen m.columnVal.length ≤ 102400 && scratchFits conv 0 ms
    else
      payloadBufIndex + (encode conv m.columnType m.columnVal).length ≤ 102400 &&
        scratchFits conv (payloadBufIndex + (encode conv m.columnType m.columnVal).length) ms

theorem lowBytes_length (k : Nat) (n : Int) : (lowBytes k n).length = k := toLittleEndian_length _ _

theorem encode_length {att : Attribute} {columnValue : Bytes}
    (measured : measure conv att columnValue = .ok (columnVal, added)) :
    (encode conv att.columnType columnVal).length = added := by
  have written := assembleLenencUnsignedLong_length columnVal.length
  unfold measure at measured
  cases kind : att.columnType <;> rw [kind] at measured <;> cases measured <;>
    simp only [encode, lowBytes_length, toLittleEndian_length, length_append, written]

variable {columns : List BinaryColumn} {ms : List Measured} {total : Nat} {bitmap : Bytes} {ws : List Write}
  {payloadBuf : Bytes} {s : Splitting}

theorem measureAll_cons {column : BinaryColumn}
    (measured : measureAll conv (column :: columns) = .ok (ms, total)) :
    (column.columnValue = none ∧ measureAll conv columns = .ok (ms, total)) ∨
      ∃ columnValue columnVal added later rest, column.columnValue = some columnValue ∧
        measure conv column.att columnValue = .ok (columnVal, added) ∧ measureAll conv columns = .ok (later, rest) ∧
        ms = ⟨column.att.columnType, column.att.atttypmod, columnVal⟩ :: later ∧ total = added + rest := by
  rw [measureAll] at measured
  split at measured
  · rename_i null
    exact .inl ⟨null, measured⟩
  rename_i columnValue value
  split at measured
  · rename_i columnVal added later rest here behind
    cases measured
    exact .inr ⟨columnValue, columnVal, added, later, rest, value, here, behind, rfl, rfl⟩
  · cases measured
  · cases measured

theorem measureAll_length (measured : measureAll conv columns = .ok (ms, total)) :
    (ms.flatMap fun m => encode conv m.columnType m.columnVal).length = total := by
  induction columns generalizing ms total with
  | nil =>
    cases measured
    rfl
  | cons column columns ih =>
    obtain ⟨_, behind⟩ | ⟨_, _, _, later, rest, _, here, behind, rfl, rfl⟩ := measureAll_cons measured
    · exact ih behind
    have first := encode_length here
    have others := ih behind
    rw [flatMap_cons, length_append, others, first]

theorem setNull_length (bitmap : Bytes) (i : Nat) : (setNull bitmap i).length = bitmap.length := length_modify ..

theorem bitAt_setNull (inside : (i + 2) / 8 < bitmap.length) (k : Nat) :
    bitAt (setNull bitmap i) k = (bitAt bitmap k || decide (k = i + 2)) := by
  have power : 2 ^ ((i + 2) % 8) < 256 := Nat.pow_lt_pow_right (by omega) (show (i + 2) % 8 < 8 by omega)
  have mask : (UInt8.ofNat (2 ^ ((i + 2) % 8))).toNat = 2 ^ ((i + 2) % 8) := Nat.mod_eq_of_lt power
  unfold bitAt setNull
  rw [getD_eq_getElem?_getD, getD_eq_getElem?_getD, List.getElem?_modify]
  by_cases place : (i + 2) / 8 = k / 8
  · rw [← place, List.getElem?_eq_getElem inside]
    have same : (i + 2) % 8 = k % 8 ↔ k = i + 2 := by omega
    simp only [if_true, Option.map_eq_map, Option.map_some, Option.getD_some, UInt8.toNat_or, mask, Nat.testBit_or,
      Nat.testBit_two_pow, same]
  · have other : k ≠ i + 2 := by omega
    simp only [place, if_false, other, decide_false, Bool.or_false, Option.map_eq_map, Option.map_id']

theorem markNulls_length (i : Nat) (columns : List BinaryColumn) (bitmap : Bytes) :
    (markNulls i columns bitmap).length = bitmap.length := by
  induction columns generalizing i bitmap with
  | nil => rfl
  | cons column columns ih =>
    rw [markNulls, ih]
    split
    · exact setNull_length bitmap i
    · rfl

theorem bitAt_markNulls (inside : i + columns.length + 2 ≤ 8 * bitmap.length) (k : Nat) :
    bitAt (markNulls i columns bitmap) k = true ↔ bitAt bitmap k = true ∨
      ∃ j column, k = i + j + 2 ∧ columns[j]? = some column ∧ column.columnValue = none := by
  induction columns generalizing i bitmap with
  | nil => simp [markNulls]
  | cons column columns ih =>
    rw [length_cons] at inside
    have shift : (∃ j c, k = i + j + 2 ∧ (column :: columns)[j]? = some c ∧ c.columnValue = none) ↔
        (k = i + 2 ∧ column.columnValue = none) ∨
          ∃ j c, k = i + 1 + j + 2 ∧ columns[j]? = some c ∧ c.columnValue = none := by
      constructor
      · rintro ⟨j, c, place, found, null⟩
        cases j with
        | zero =>
          cases found
          exact .inl ⟨place, null⟩
        | succ j => exact .inr ⟨j, c, by omega, found, null⟩
      · rintro (⟨place, null⟩ | ⟨j, c, place, found, null⟩)
        · exact ⟨0, column, place, rfl, null⟩
        · exact ⟨j + 1, c, by omega, found, null⟩
    rw [markNulls, shift]
    by_cases null : column.columnValue = none
    · rw [if_pos (Option.isNone_iff_eq_none.mpr null), ih (by rw [setNull_length]; omega), bitAt_setNull (by omega)]
      simp [null, or_assoc]
    · rw [if_neg (fun isNone => null (Option.isNone_iff_eq_none.mp isNone)), ih (by omega)]
      simp [null]

theorem nullBitmap_spec (columns : List BinaryColumn) : IsNullBitmap columns (nullBitmap columns) := by
  have blank : ∀ n k, bitAt (List.replicate n 0) k = false := by
    intro n k
    unfold bitAt
    rw [getD_eq_getElem?_getD, List.getElem?_replicate]
    split <;> exact Nat.zero_testBit _
  have size : (nullBitmap columns).length = (columns.length + 9) / 8 := by
    rw [nullBitmap, markNulls_length, length_replicate]
  refine ⟨size, fun k => ?_⟩
  rw [nullBitmap, bitAt_markNulls (by rw [length_replicate]; omega), blank]
  simp

/-- Calls inside one packet: they write `bytes` and open no other. -/
structure Plain (ws : List Write) (bytes : Bytes) : Prop where
  body : body ws = bytes
  announced : announced ws = []
  rendered : ∀ seq, rendered seq ws = bytes
  fits : ∀ w ∈ ws, w.Fits

theorem Plain.nil : Plain [] [] := ⟨rfl, rfl, fun _ => rfl, nofun⟩

theorem Plain.payload (later : Plain ws bytes) (front : Bytes) :
    Plain (.payload front :: ws) (front ++ bytes) := by
  refine ⟨?_, later.announced, fun seq => ?_, forall_mem_cons.mpr ⟨trivial, later.fits⟩⟩
  · rw [OpenHalo.body, later.body]
  · rw [OpenHalo.rendered, later.rendered]

theorem appendScratch_ok {payloadBuf result : Bytes} :
    appendScratch payloadBuf bytes = .ok result ↔
      payloadBuf.length + bytes.length ≤ 102400 ∧ result = payloadBuf ++ bytes := by
  unfold appendScratch
  split
  · rename_i room
    exact ⟨fun same => ⟨room, (Except.ok.inj same).symm⟩, fun same => congrArg Except.ok same.2.symm⟩
  · rename_i full
    exact ⟨nofun, fun same => absurd same.1 full⟩

theorem encode_direct {m : Measured} (direct : m.columnType.direct = true) :
    encode conv m.columnType m.columnVal = assembleLenencUnsignedLong m.columnVal.length ++ m.columnVal := by
  cases kind : m.columnType <;> rw [kind] at direct <;> first | rfl | cases direct

theorem except_bind_ok {ε α β : Type} {x : Except ε α} {f : α → Except ε β} {b : β} (result : (x >>= f) = .ok b) :
    ∃ a, x = .ok a ∧ f a = .ok b := by
  cases x with
  | error e => cases result
  | ok a => exact ⟨a, rfl, result⟩

/-- A row in one packet is written if `payloadBuf` is large enough. -/
theorem wholeColumns_fits (fits : scratchFits conv payloadBuf.length ms = true) :
    ∃ ws, wholeColumns conv payloadBuf ms = .ok ws ∧
      Plain ws (payloadBuf ++ ms.flatMap fun m => encode conv m.columnType m.columnVal) := by
  induction ms generalizing payloadBuf with
  | nil => exact ⟨_, rfl, Plain.nil.payload payloadBuf⟩
  | cons m ms ih =>
    rw [scratchFits] at fits
    rw [wholeColumns, flatMap_cons]
    by_cases direct : m.columnType.direct = true
    · rw [if_pos direct, Bool.and_eq_true, decide_eq_true_eq, ← assembleLenencUnsignedLong_length] at fits
      obtain ⟨ws, written, plain⟩ := @ih [] fits.2
      rw [if_pos direct, appendScratch_ok.mpr ⟨fits.1, rfl⟩]
      refine ⟨.payload (payloadBuf ++ assembleLenencUnsignedLong m.columnVal.length) :: .payload m.columnVal :: ws, ?_,
        ?_⟩
      · rw [written]
        rfl
      · have whole := (plain.payload m.columnVal).payload
          (payloadBuf ++ assembleLenencUnsignedLong m.columnVal.length)
        rw [encode_direct direct]
        simpa only [append_assoc, nil_append] using whole
    · rw [if_neg direct, Bool.and_eq_true, decide_eq_true_eq] at fits
      rw [if_neg direct, appendScratch_ok.mpr ⟨fits.1, rfl⟩, ← append_assoc]
      exact ih (by rw [length_append]; exact fits.2)

theorem scratchFits_of_written (written : wholeColumns conv payloadBuf ms = .ok ws) :
    scratchFits conv payloadBuf.length ms = true := by
  induction ms generalizing payloadBuf ws with
  | nil => rfl
  | cons m ms ih =>
    rw [wholeColumns] at written
    rw [scratchFits]
    by_cases direct : m.columnType.direct = true
    · rw [if_pos direct] at written
      obtain ⟨_, appended, rest⟩ := except_bind_ok written
      obtain ⟨later, behind, _⟩ := except_bind_ok rest
      obtain ⟨room, _⟩ := appendScratch_ok.mp appended
      rw [if_pos direct, Bool.and_eq_true, decide_eq_true_eq, ← assembleLenencUnsignedLong_length]
      exact ⟨room, ih behind⟩
    · rw [if_neg direct] at written
      obtain ⟨next, appended, behind⟩ := except_bind_ok written
      obtain ⟨room, rfl⟩ := appendScratch_ok.mp appended
      have rest := ih behind
      rw [length_append] at rest
      rw [if_neg direct, Bool.and_eq_true, decide_eq_true_eq]
      exact ⟨room, rest⟩

/-- Calls that put no more into the open packet than `packetFreeSize` allows. -/
def Within (s : Splitting) (r : List Write × Splitting) : Prop :=
  ∀ rest, (body rest).length ≤ r.2.packetFreeSize → (body (r.1 ++ rest)).length ≤ s.packetFreeSize

theorem within_fits (room : bytes.length ≤ s.packetFreeSize) :
    Within s ([.payload bytes], s.take bytes.length) := by
  intro rest short
  have left : (body rest).length ≤ s.packetFreeSize - bytes.length := short
  rw [singleton_append, body, length_append]
  omega

theorem within_over (s next : Splitting) (bytes : Bytes) (payloadLen : Nat) (ws : List Write) :
    Within s (.payload (bytes.take s.packetFreeSize) :: .header payloadLen :: ws, next) := by
  intro rest _
  rw [cons_append, cons_append, body, body, append_nil, length_take]
  exact Nat.min_le_left _ _

theorem splitScratch_within (s : Splitting) (payloadBuf : Bytes) : Within s (splitScratch s payloadBuf) := by
  unfold splitScratch
  split
  · rename_i room
    exact within_fits room
  · exact within_over s _ payloadBuf _ _

theorem splitValue_within (s : Splitting) (columnVal : Bytes) : Within s (splitValue s columnVal) := by
  rw [splitValue]
  split
  · rename_i room
    exact within_fits room
  · exact within_over s _ columnVal _ _

theorem splitColumns_body {lastTypmod : Int}
    (written : splitColumns conv lastTypmod s payloadBuf ms = .ok ws) : (body ws).length ≤ s.packetFreeSize := by
  induction ms generalizing s payloadBuf ws with
  | nil =>
    rw [splitColumns] at written
    split at written
    · rename_i room
      cases written
      exact within_fits room [] (Nat.zero_le _)
    · cases written
      exact within_over s s payloadBuf (payloadBuf.length - s.packetFreeSize)
        [.payload (payloadBuf.drop s.packetFreeSize)] [] (Nat.zero_le _)
  | cons m ms ih =>
    rw [splitColumns] at written
    split at written
    · obtain ⟨next, _, rest⟩ := except_bind_ok written
      obtain ⟨later, behind, same⟩ := except_bind_ok rest
      cases same
      exact splitScratch_within s next _ (splitValue_within _ m.columnVal later (ih behind))
    · obtain ⟨_, _, behind⟩ := except_bind_ok written
      exact ih behind

theorem splitColumns_direct {conv : Conversions} {lastTypmod : Int} {payloadBuf next : Bytes} {m : Measured}
    {later : List Write} (direct : m.columnType.direct = true)
    (appended : appendScratch payloadBuf (assembleLenencUnsignedLong m.columnVal.length) = .ok next)
    (behind : splitColumns conv lastTypmod (splitValue (splitScratch s next).2 m.columnVal).2 [] ms = .ok later) :
    splitColumns conv lastTypmod s payloadBuf (m :: ms) =
      .ok ((splitScratch s next).1 ++ ((splitValue (splitScratch s next).2 m.columnVal).1 ++ later)) := by
  rw [splitColumns, if_pos direct]
  simp only [bind, Except.bind, appended, behind]

theorem nullBitmap_length (columns : List BinaryColumn) :
    (0 :: nullBitmap columns).length = 1 + (columns.length + 9) / 8 := by
  rw [length_cons, (nullBitmap_spec columns).1, Nat.add_comm]

theorem binaryPayload_length (isBitmap : IsNullBitmap columns bitmap)
    (measured : measureAll conv columns = .ok (ms, total)) :
    (binaryPayload conv bitmap ms).length = 1 + (columns.length + 9) / 8 + total := by
  have values := measureAll_length measured
  rw [binaryPayload, length_append, length_cons, isBitmap.1]
  omega

theorem printTupBinary_select {conv : Conversions} {ids : InsertIds} {commandTag : CommandTag}
    (supported : columns.length ≤ 1017) (sent : commandTag ≠ .plain .insert)
    (measured : measureAll conv columns = .ok (ms, total)) :
    printTupBinary conv ids columns commandTag =
      (binaryWrites conv columns ms (1 + (columns.length + 9) / 8 + total)).map (ids, ·) := by
  unfold printTupBinary
  rw [if_neg (Nat.not_lt.mpr supported)]
  split
  · exact absurd rfl sent
  · rw [measured]

theorem map_ok {ε α β : Type} {x : Except ε α} {f : α → β} {b : β} (result : x.map f = .ok b) :
    ∃ a, x = .ok a ∧ f a = b := by
  cases x with
  | error e => cases result
  | ok a => exact ⟨a, rfl, Except.ok.inj result⟩

/-- The announced packets are those of the payload only if the row is short and `payloadBuf` large enough. -/
theorem announced_cut (isBitmap : IsNullBitmap columns bitmap)
    (measured : measureAll conv columns = .ok (ms, total))
    (written : binaryWrites conv columns ms (1 + (columns.length + 9) / 8 + total) = .ok writes)
    (packets : announced writes =
      (cut MYS_MAX_PACKET_LENGTH (binaryPayload conv bitmap ms)).map fun packet => (packet.length, packet)) :
    (binaryPayload conv bitmap ms).length < MYS_MAX_PACKET_LENGTH ∧
      scratchFits conv (1 + (columns.length + 9) / 8) ms = true := by
  have positive := MYS_MAX_PACKET_LENGTH_pos
  have length := binaryPayload_length isBitmap measured
  unfold binaryWrites at written
  split at written
  · obtain ⟨later, whole, same⟩ := except_bind_ok written
    cases same
    have fits := scratchFits_of_written whole
    obtain ⟨_, again, plain⟩ := wholeColumns_fits fits
    cases whole.symm.trans again
    rw [nullBitmap_length] at fits
    refine ⟨?_, fits⟩
    -- a full packet would have to be followed by an empty one
    by_contra full
    rw [announced, plain.announced, cut_long positive (by omega)] at packets
    have count := congrArg List.length packets
    have more : 0 < (cut MYS_MAX_PACKET_LENGTH ((binaryPayload conv bitmap ms).drop MYS_MAX_PACKET_LENGTH)).length := by
      unfold cut
      cases ((binaryPayload conv bitmap ms).drop MYS_MAX_PACKET_LENGTH).length / MYS_MAX_PACKET_LENGTH <;>
        exact Nat.succ_pos _
    simp only [length_cons, length_nil, length_map] at count
    omega
  · obtain ⟨later, split', same⟩ := except_bind_ok written
    cases same
    -- the first packet holds less than its header says
    have short := splitColumns_body split'
    rw [cut_long positive (by omega)] at packets
    have content : body later = (binaryPayload conv bitmap ms).take MYS_MAX_PACKET_LENGTH :=
      (Prod.mk.inj (List.cons.inj packets).1).2
    rw [content, length_take] at short
    dsimp only at short
    omega

/-- Binary rows are framed exactly if they are short and their short values fit `payloadBuf`. -/
theorem binary_rows_framed_iff {conv : Conversions} {net : NetTransceiver} (ready : net.Ready) (ids : InsertIds)
    {columns : List BinaryColumn} (supported : columns.length ≤ 1017) {commandTag : CommandTag}
    (sent : commandTag ≠ .plain .insert) {ms : List Measured} {total : Nat}
    (measured : measureAll conv columns = .ok (ms, total)) :
    BinaryFramed conv net ids columns commandTag ms ↔
      1 + (columns.length + 9) / 8 + total < MYS_MAX_PACKET_LENGTH ∧
        scratchFits conv (1 + (columns.length + 9) / 8) ms = true := by
  have printing := @printTupBinary_select columns ms total conv ids commandTag supported sent measured
  constructor
  · rintro ⟨bitmap, ids', writes, isBitmap, printed, packets, _⟩
    rw [printing] at printed
    obtain ⟨_, written, same⟩ := map_ok printed
    cases same
    rw [← binaryPayload_length isBitmap measured]
    exact announced_cut isBitmap measured written packets
  · rintro ⟨short, fits⟩
    have isBitmap := nullBitmap_spec columns
    have length := binaryPayload_length isBitmap measured
    rw [← nullBitmap_length] at fits
    obtain ⟨ws, whole, plain⟩ := wholeColumns_fits fits
    have written : binaryWrites conv columns ms (1 + (columns.length + 9) / 8 + total) =
        .ok (.header (1 + (columns.length + 9) / 8 + total) :: ws) := by
      unfold binaryWrites
      rw [if_pos (Nat.le_of_lt short), whole]
      rfl
    have fitting : ∀ w ∈ Write.header (1 + (columns.length + 9) / 8 + total) :: ws, w.Fits :=
      forall_mem_cons.mpr ⟨trivial, plain.fits⟩
    refine ⟨nullBitmap columns, ids, _, isBitmap, ?_, ?_, (carries_iff ready fitting _).mpr ?_⟩
    · rw [printing, written]
      rfl
    · rw [announced, plain.announced, plain.body, cut_short (by omega), ← length]
      rfl
    · rw [frames_short (by omega), rendered, plain.rendered, ← length]
      rfl

def noConversions : Conversions where
  atof _ := 0
  toFloat _ := 0
  convertTimestamp := id
  convertTime := id
  convertHexToMySQLBinary := id
  convertBitToMySQLHex _ hexSize := List.replicate hexSize 0
  hexed _ _ := length_replicate

def shortBinaryRow : List BinaryColumn :=
  [⟨⟨.long, ascii "int4", -1⟩, some (ascii "-7")⟩, ⟨⟨.short, ascii "int2", -1⟩, none⟩,
    ⟨⟨.varString, ascii "varchar", -1⟩, some (ascii "ab")⟩]

theorem binary_rows_framed_short :
    BinaryFramed noConversions (initNetTransceiver []) ⟨0, 0, 0⟩ shortBinaryRow (.plain .select)
        [⟨.long, -1, ascii "-7"⟩, ⟨.varString, -1, ascii "ab"⟩] :=
  (binary_rows_framed_iff initNetTransceiver_ready ⟨0, 0, 0⟩ (by decide) (by decide) rfl).mpr ⟨by decide, by decide⟩

def stringRow (columnVal : Bytes) : List BinaryColumn := [⟨⟨.varString, ascii "varchar", -1⟩, some columnVal⟩]

/-- What stands in front of a value of `2 ^ 24` bytes. -/
def wideFront : Bytes := [0, 0] ++ assembleLenencUnsignedLong (2 ^ 24)

/-- Two bytes of the first packet are missing when the second is opened, which gets two more. -/
def wideWrites (columnVal : Bytes) : List Write :=
  [.header MYS_MAX_PACKET_LENGTH, .payload wideFront, .payload (columnVal.take (MYS_MAX_PACKET_LENGTH - 13)),
    .header 12, .payload (columnVal.drop (MYS_MAX_PACKET_LENGTH - 13)), .payload []]

theorem stringRow_bitmap (columnVal : Bytes) : ((stringRow columnVal).length + 9) / 8 = 1 := by
  simp [stringRow]

section wide
variable {columnVal : Bytes} (size : columnVal.length = 2 ^ 24)
include size

theorem stringRow_measured (conv : Conversions) :
    measureAll conv (stringRow columnVal) = .ok ([⟨.varString, -1, columnVal⟩], 9 + 2 ^ 24) := by
  have plain : measure conv ⟨.varString, ascii "varchar", -1⟩ columnVal =
      .ok (columnVal, calcLenencIntLen columnVal.length + columnVal.length) := rfl
  have wide : calcLenencIntLen (2 ^ 24) = 9 := by decide
  rw [stringRow]
  simp only [plain, measureAll, size, wide, Nat.add_zero]

theorem stringRow_written (conv : Conversions) :
    binaryWrites conv (stringRow columnVal) [⟨.varString, -1, columnVal⟩] (2 + (9 + 2 ^ 24)) =
      .ok (wideWrites columnVal) := by
  have limit : MYS_MAX_PACKET_LENGTH = 16777215 := rfl
  have bitmap : nullBitmap (stringRow columnVal) = [0] := by
    simp [nullBitmap, stringRow, markNulls]
  have appended : appendScratch [0, 0] (assembleLenencUnsignedLong columnVal.length) = .ok wideFront := by
    rw [size]
    exact appendScratch_ok.mpr ⟨by decide, rfl⟩
  have scratch : splitScratch ⟨2 + (9 + 2 ^ 24), MYS_MAX_PACKET_LENGTH - 2⟩ wideFront =
      ([.payload wideFront], ⟨2 + (9 + 2 ^ 24), MYS_MAX_PACKET_LENGTH - 13⟩) := by
    rfl
  have left : (columnVal.drop (MYS_MAX_PACKET_LENGTH - 13)).length = 14 := by
    rw [length_drop, size]
    decide
  have value : splitValue ⟨2 + (9 + 2 ^ 24), MYS_MAX_PACKET_LENGTH - 13⟩ columnVal =
      ([.payload (columnVal.take (MYS_MAX_PACKET_LENGTH - 13)), .header 12,
        .payload (columnVal.drop (MYS_MAX_PACKET_LENGTH - 13))], ⟨12, MYS_MAX_PACKET_LENGTH - 14⟩) := by
    have rest : sizeSub (2 + (9 + 2 ^ 24)) MYS_MAX_PACKET_LENGTH = 12 := by decide
    have turned : (Splitting.mk (2 + (9 + 2 ^ 24)) (MYS_MAX_PACKET_LENGTH - 13)).turn =
        ⟨12, MYS_MAX_PACKET_LENGTH⟩ := by
      rw [Splitting.turn, rest]
    have headed : (Splitting.mk (2 + (9 + 2 ^ 24)) (MYS_MAX_PACKET_LENGTH - 13)).head = .header 12 := by
      rfl
    rw [splitValue, if_neg (by rw [size, limit]; decide), turned, headed, splitValue,
      if_pos (by rw [left, limit]; decide), left]
    rfl
  have columns : splitColumns conv (-1) ⟨2 + (9 + 2 ^ 24), MYS_MAX_PACKET_LENGTH - 2⟩ [0, 0]
      [⟨.varString, -1, columnVal⟩] = .ok (wideWrites columnVal).tail := by
    have behind : splitColumns conv (-1) (splitValue (splitScratch ⟨2 + (9 + 2 ^ 24), MYS_MAX_PACKET_LENGTH - 2⟩
        wideFront).2 columnVal).2 [] [] = .ok [.payload []] := by
      rw [splitColumns, length_nil, if_pos (Nat.zero_le _)]
    rw [@splitColumns_direct [] _ conv (-1) [0, 0] _ ⟨.varString, -1, columnVal⟩ _ rfl appended behind, scratch, value]
    rfl
  have long : ¬2 + (9 + 2 ^ 24) ≤ MYS_MAX_PACKET_LENGTH := by decide
  have room : MYS_MAX_PACKET_LENGTH - 1 - ((stringRow columnVal).length + 9) / 8 = MYS_MAX_PACKET_LENGTH - 2 := by
    rw [stringRow_bitmap]
    rfl
  unfold binaryWrites
  rw [if_neg long, bitmap, room]
  show (splitColumns conv (-1) _ [0, 0] _ >>= _) = _
  rw [columns]
  rfl

/-- In the place of a byte of the payload the stream has the length of the second packet. -/
theorem stringRow_not_carried (conv : Conversions) {net : NetTransceiver} (ready : net.Ready)
    (isBitmap : IsNullBitmap (stringRow columnVal) bitmap) (other : columnVal[MYS_MAX_PACKET_LENGTH - 13]? = some 97)
    (written : binaryWrites conv (stringRow columnVal) [⟨.varString, -1, columnVal⟩] (2 + (9 + 2 ^ 24)) = .ok writes) :
    ¬Carries net writes (binaryPayload conv bitmap [⟨.varString, -1, columnVal⟩]) := by
  have limit : MYS_MAX_PACKET_LENGTH = 16777215 := rfl
  cases (stringRow_written size conv).symm.trans written
  have one : bitmap.length = 1 := isBitmap.1.trans (stringRow_bitmap columnVal)
  have payload : binaryPayload conv bitmap [⟨.varString, -1, columnVal⟩] =
      (0 :: bitmap ++ assembleLenencUnsignedLong (2 ^ 24)) ++ columnVal := by
    simp only [binaryPayload, flatMap_cons, flatMap_nil, encode, size, append_nil, append_assoc]
  have front : (0 :: bitmap ++ assembleLenencUnsignedLong (2 ^ 24)).length = 11 := by
    rw [length_append, length_cons, one]
    decide
  have total : (binaryPayload conv bitmap [⟨.varString, -1, columnVal⟩]).length = 2 ^ 24 + 11 := by
    rw [payload, length_append, front, Nat.add_comm]
    exact congrArg (· + 11) size
  have fits : ∀ w ∈ wideWrites columnVal, w.Fits := by simp [wideWrites, Write.Fits]
  rw [carries_iff ready fits, frames_long MYS_MAX_PACKET_LENGTH_pos (by omega)]
  intro same
  simp only [wideWrites, rendered] at same
  have behind := append_cancel_left same
  have sent : (wideFront ++ columnVal.take (MYS_MAX_PACKET_LENGTH - 13)).length = MYS_MAX_PACKET_LENGTH - 2 := by
    rw [length_append, length_take, size]
    decide
  have stream : ((wideFront ++ columnVal.take (MYS_MAX_PACKET_LENGTH - 13)) ++
      (Framing.header 12 (net.netPacketSeqID + 1) ++ (columnVal.drop (MYS_MAX_PACKET_LENGTH - 13) ++ ([] ++ []))))[
        MYS_MAX_PACKET_LENGTH - 2]? = some 12 := by
    rw [List.getElem?_append_right (Nat.le_of_eq sent), sent, Nat.sub_self,
      List.getElem?_append_left (by rw [header_length]; decide)]
    rfl
  have framed : ∀ rest, ((binaryPayload conv bitmap [⟨.varString, -1, columnVal⟩]).take MYS_MAX_PACKET_LENGTH ++ rest)[
      MYS_MAX_PACKET_LENGTH - 2]? = some 97 := by
    intro rest
    have place : MYS_MAX_PACKET_LENGTH - 2 - 11 = MYS_MAX_PACKET_LENGTH - 13 := by omega
    rw [List.getElem?_append_left (by rw [length_take, total, limit]; decide), List.getElem?_take_of_lt (by omega),
      payload, List.getElem?_append_right (by rw [front, limit]; decide), front, place, other]
  rw [append_assoc, behind, framed] at stream
  cases stream

end wide

/-- A value of `2 ^ 24` bytes. -/
def wideValue : Bytes := List.replicate (2 ^ 24) 97

/-- The row is split, and the packets are not those of its payload. -/
theorem binary_row_misframed :
    ¬BinaryFramed noConversions (initNetTransceiver []) ⟨0, 0, 0⟩ (stringRow wideValue) (.plain .select)
        [⟨.varString, -1, wideValue⟩] ∧
      ∀ bitmap ids' writes, IsNullBitmap (stringRow wideValue) bitmap →
        printTupBinary noConversions ⟨0, 0, 0⟩ (stringRow wideValue) (.plain .select) = .ok (ids', writes) →
        ¬Carries (initNetTransceiver []) writes (binaryPayload noConversions bitmap [⟨.varString, -1, wideValue⟩]) := by
  have size : wideValue.length = 2 ^ 24 := length_replicate
  have letter : wideValue[MYS_MAX_PACKET_LENGTH - 13]? = some 97 := by
    rw [wideValue, List.getElem?_replicate, if_pos (by decide)]
  have measured := stringRow_measured size noConversions
  refine (and_iff_right_of_imp fun carried => ?_).mpr fun bitmap ids' writes isBitmap printed => ?_
  · rintro ⟨bitmap, ids', writes, isBitmap, printed, _, framed⟩
    exact carried bitmap ids' writes isBitmap printed framed
  · rw [printTupBinary_select (by rw [stringRow, length_singleton]; decide) (by decide) measured] at printed
    obtain ⟨_, written, same⟩ := map_ok printed
    cases same
    exact stringRow_not_carried size noConversions initNetTransceiver_ready isBitmap letter written

end OpenHalo
