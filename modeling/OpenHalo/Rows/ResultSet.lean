import OpenHalo.Rows.TextRow
import OpenHalo.Session.OkPacket

namespace OpenHalo
open Octets Framing Decoding List

/-- Bits of `frontEndCaps`. -/
def MYS_CLT_DEPRECATE_EOF : Nat := 24
def MYS_CLT_OPTIONAL_RESULTSET_METADATA : Nat := 25

/-- What the loop of `printTupStartupForOther` has for a column. -/
structure ColDef where
  schemaName : Bytes
  tableName : Bytes
  orgTableName : Bytes
  columnName : Bytes
  orgColumnName : Bytes
  characterSet : Nat
  columnLen : Int
  columnType : Nat
  columnFlags : Nat
  named : ∀ name ∈ [schemaName, tableName, orgTableName, columnName, orgColumnName], name.length < 64
  sized : characterSet < 256 ^ 2 ∧ columnType < 256 ^ 1 ∧ columnFlags < 256 ^ 2

namespace ColDef
variable (c : ColDef)

def names : List Bytes := [ascii "def", c.schemaName, c.tableName, c.orgTableName, c.columnName, c.orgColumnName]

def decimals : Nat :=
  if c.columnType = 0 then 0x51 else if c.columnType = 4 ∨ c.columnType = 5 ∨ c.columnType = 253 then 31 else 0

/-- The fields of fixed length, each with the number of its bytes. -/
def numbers : List (Nat × Nat) :=
  [(2, c.characterSet), (4, (c.columnLen % 2 ^ 32).toNat), (1, c.columnType), (2, c.columnFlags), (1, c.decimals),
    (2, 0)]

def assembleColDefPacket41Payload : Bytes :=
  c.names.flatMap (assembleLenencString ∘ some) ++
    (assembleLenencUnsignedLong 0x0c ++ c.numbers.flatMap fun field => toLittleEndian field.1 field.2)

def assembleColDefPacket320Payload : Bytes :=
  assembleLenencString (some c.tableName) ++ assembleLenencString (some c.columnName)

def assembleColDefPacketPayload (frontEndCaps : Nat) : Bytes :=
  if frontEndCaps.testBit MYS_CLT_PROTOCOL_41 then c.assembleColDefPacket41Payload else c.assembleColDefPacket320Payload

end ColDef

/-- `metadataFollowFlag` is 0 in every call, so its byte is never written. -/
def assembleColCountPacketPayload (columnCount : Nat) : Bytes := assembleLenencUnsignedLong columnCount

namespace OkVars
variable (v : OkVars)

def assembleEOFPacketPayload (warnings statusFlags : Nat) : Option Bytes :=
  if v.frontEndCaps.testBit MYS_CLT_DEPRECATE_EOF then
    (v.assembleOKEOFCommonPacketPayload statusFlags warnings).map (0xFE :: ·)
  else if v.frontEndCaps.testBit MYS_CLT_PROTOCOL_41 then
    some (0xFE :: (toLittleEndian 2 warnings ++ toLittleEndian 2 statusFlags))
  else some [0xFE]

def sendEOFPacketNoFlush (warnings serverStatus : Nat) : Option (List Bytes) :=
  if v.frontEndCaps.testBit MYS_CLT_DEPRECATE_EOF then some []
  else (v.assembleEOFPacketPayload warnings serverStatus).map ([·])

/-- The payloads it sends. -/
def printTupStartupForOther (columns : List ColDef) (warnings serverStatus : Nat) : Option (List Bytes) :=
  (v.sendEOFPacketNoFlush warnings serverStatus).map fun eof =>
    assembleColCountPacketPayload columns.length ::
      ((if v.frontEndCaps.testBit MYS_CLT_OPTIONAL_RESULTSET_METADATA then []
        else columns.map (·.assembleColDefPacketPayload v.frontEndCaps)) ++ eof)

end OkVars

def columnDefinition : Decoder (List Bytes × List Nat) := do
  let names ← inTurn (replicate 6 lenencString)
  let _ ← lenenc
  Prod.mk names <$> inTurn ([2, 4, 1, 2, 1, 2].map fixed)

def readColumn : Decoder (Option Bytes) := fun s =>
  if s.head? = some 0xFB then some (none, s.tail) else (some <$> lenencString).run s

/-- Rows, up to the packet that ends them. -/
def readRows (n : Nat) : List Bytes → Option (List (List (Option Bytes)) × Bytes)
  | [] => none
  | payload :: payloads =>
    if payload.head? = some 0xFE ∧ payload.length < MYS_MAX_PACKET_LENGTH then
      if payloads = [] then some ([], payload) else none
    else do
      let row ← whole (inTurn (replicate n readColumn)) payload
      let (rows, last) ← readRows n payloads
      some (row :: rows, last)

/-- The packet behind the definitions. -/
def skipEOF (frontEndCaps : Nat) (payloads : List Bytes) : Option (List Bytes) :=
  if frontEndCaps.testBit MYS_CLT_DEPRECATE_EOF then some payloads
  else if payloads.head?.bind head? = some 0xFE then some payloads.tail
  else none

/-- A count of 0 would be an OK packet. -/
def readResultSet (frontEndCaps : Nat) :
    List Bytes → Option (List (List Bytes × List Nat) × List (List (Option Bytes)) × Bytes)
  | [] => none
  | count :: payloads => do
    let n ← whole lenenc count
    if n = 0 then none
    else
      let definitions ← (payloads.take n).mapM (whole columnDefinition)
      let payloads ← skipEOF frontEndCaps (payloads.drop n)
      let rows ← readRows n payloads
      some (definitions, rows)

variable {v : OkVars} {columns : List ColDef} {rows : List TextRow} {last : Bytes}
  {warnings warnings' serverStatus serverStatus' : Nat}

theorem ColDef.decodes (c : ColDef) :
    Decodes columnDefinition c.assembleColDefPacket41Payload (c.names, c.numbers.map Prod.snd) := by
  have names : Decodes (inTurn (c.names.map fun _ => lenencString)) (c.names.flatMap (assembleLenencString ∘ some))
      (c.names.map id) := by
    refine decodes_inTurn fun name member => decodes_assembled_string ?_
    rcases mem_cons.mp member with rfl | member
    · decide
    · exact (c.named name member).trans (by decide)
  have numbers : Decodes (inTurn (c.numbers.map fun field => fixed field.1))
      (c.numbers.flatMap fun field => toLittleEndian field.1 field.2) (c.numbers.map Prod.snd) := by
    refine decodes_inTurn fun field member => decodes_fixed ?_
    obtain ⟨set, type, flags⟩ := c.sized
    have decimals : c.decimals < 256 ^ 1 := by
      unfold ColDef.decimals
      split_ifs <;> decide
    simp only [ColDef.numbers, mem_cons, not_mem_nil, or_false] at member
    rcases member with rfl | rfl | rfl | rfl | rfl | rfl
    all_goals first | assumption | dsimp only; omega
  rw [map_id] at names
  exact names.bind ((decodes_assembled (by decide)).bind numbers.map)

/-- The first byte is not that of NULL, nor that of an EOF packet unless the string is long. -/
theorem assembleLenencUnsignedLong_first (n : Nat) : ∃ first rest, assembleLenencUnsignedLong n = first :: rest ∧
    first ≠ 0xFB ∧ (first = 0xFE → MYS_MAX_PACKET_LENGTH ≤ n) := by
  unfold assembleLenencUnsignedLong
  split_ifs with one two three
  · refine ⟨_, _, rfl, ?_, ?_⟩ <;> simp [← UInt8.toNat_inj] <;> omega
  · exact ⟨_, _, rfl, by decide, nofun⟩
  · exact ⟨_, _, rfl, by decide, nofun⟩
  · exact ⟨_, _, rfl, by decide, fun _ => Nat.le_of_not_lt three⟩

theorem decodes_textField {column : Option Bytes} (sized : ∀ v, column = some v → v.length < 2 ^ 31) :
    Decodes readColumn (textField column) column := by
  cases column with
  | none => exact fun rest => rfl
  | some v =>
    intro rest
    obtain ⟨first, tail, written, value, -⟩ := assembleLenencUnsignedLong_first v.length
    have read := (decodes_lenencString (decodes_assembled ((sized v rfl).trans (by decide)))).map (f := some) rest
    rw [textField, ← read, written]
    exact if_neg fun same => value (Option.some.inj same)

theorem decodes_row (row : TextRow) :
    Decodes (inTurn (replicate row.columns.length readColumn)) (textPayload row.columns) row.columns := by
  have columns := @decodes_inTurn _ _ (fun _ => readColumn) textField id row.columns fun column member =>
    decodes_textField fun v same => row.sized v (same ▸ member)
  rwa [map_id, map_const'] at columns

theorem row_not_last {columns : List (Option Bytes)} (opens : (textPayload columns).head? = some 0xFE) :
    MYS_MAX_PACKET_LENGTH ≤ (textPayload columns).length := by
  match columns with
  | [] => cases opens
  | none :: _ => cases opens
  | some v :: rest =>
    obtain ⟨first, tail, written, -, long⟩ := assembleLenencUnsignedLong_first v.length
    rw [textPayload, flatMap_cons, textField, written] at opens
    have large := long (Option.some.inj opens)
    rw [textPayload, flatMap_cons, textField, length_append, length_append]
    omega

theorem readRows_textPayload {n : Nat} (shaped : ∀ row ∈ rows, row.columns.length = n) (ends : last.head? = some 0xFE)
    (short : last.length < MYS_MAX_PACKET_LENGTH) :
    readRows n (rows.map (textPayload ·.columns) ++ [last]) = some (rows.map TextRow.columns, last) := by
  induction rows with
  | nil => exact if_pos ⟨ends, short⟩
  | cons row rows ih =>
    have later := ih fun other member => shaped other (mem_cons_of_mem _ member)
    have here := (decodes_row row).whole
    rw [shaped row mem_cons_self] at here
    rw [map_cons, cons_append, readRows, if_neg fun both => Nat.not_lt.mpr (row_not_last both.1) both.2, here, later]
    rfl

theorem assembleEOFPacketPayload_head (assembled : v.assembleEOFPacketPayload warnings serverStatus = some last) :
    last.head? = some 0xFE := by
  unfold OkVars.assembleEOFPacketPayload at assembled
  split_ifs at assembled
  · obtain ⟨rest, -, rfl⟩ := Option.map_eq_some_iff.mp assembled
    rfl
  all_goals
    cases assembled
    rfl

theorem skipEOF_sent {eof : List Bytes} (sent : v.sendEOFPacketNoFlush warnings serverStatus = some eof)
    (payloads : List Bytes) :
    skipEOF v.frontEndCaps (eof ++ payloads) = some payloads := by
  unfold OkVars.sendEOFPacketNoFlush at sent
  split_ifs at sent with deprecated
  · cases sent
    exact if_pos deprecated
  · obtain ⟨eof, assembled, rfl⟩ := Option.map_eq_some_iff.mp sent
    exact (if_neg deprecated).trans (if_pos (assembleEOFPacketPayload_head assembled))

/-- What each row in turn puts on the stream is one payload, that of the row. -/
def RowsFramed (ids : InsertIds) (commandTag : CommandTag) : NetTransceiver → List TextRow → Prop
  | _, [] => True
  | net, row :: rows => ∃ writes net' bytes, printTupText ids row.columns commandTag = .ok (ids, writes) ∧
      performAll writes net = .ok net' ∧ net'.stream = net.stream ++ bytes ∧
      reassemble MYS_MAX_PACKET_LENGTH (bytes.length + 1) net.netPacketSeqID bytes =
        some (textPayload row.columns, []) ∧ RowsFramed ids commandTag net' rows

theorem rowsFramed {net : NetTransceiver} (ready : net.Ready) (ids : InsertIds) {commandTag : CommandTag}
    (sent : commandTag ≠ .plain .insert) (ends : ∀ row ∈ rows,
      ¬(0 < (textPayload row.columns).length ∧ MYS_MAX_PACKET_LENGTH ∣ (textPayload row.columns).length)) :
    RowsFramed ids commandTag net rows := by
  induction rows generalizing net with
  | nil => trivial
  | cons row rows ih =>
    obtain ⟨framed, fits⟩ := textWrites_rendered row net.netPacketSeqID
    obtain ⟨net', done, wrote⟩ := performAll_ready ready (Nat.mod_eq_of_lt ready.numbered).symm fits
    rw [terminator_eq_nil_iff.mpr (ends row mem_cons_self), append_nil] at framed
    rw [← framed] at wrote
    refine ⟨_, net', _, printTupText_select sent, done, wrote.stream, ?_,
      ih wrote.ready fun other member => ends other (mem_cons_of_mem _ member)⟩
    exact (reassemble_eq_iff MYS_MAX_PACKET_LENGTH_pos (by decide)).mpr rfl

def idColumn : ColDef :=
  ⟨ascii "public", ascii "t", ascii "t", ascii "id", ascii "id", 63, 4, 3, 1, by decide, by decide⟩

end OpenHalo
