import OpenHalo.Lib.Decoding
import OpenHalo.Logon.Handshake
import OpenHalo.Rows.RowWriter

namespace OpenHalo
open Octets Decoding List

/-- Bits of `frontEndCaps`. -/
def MYS_CLT_TRANSACTIONS : Nat := 13
def MYS_CLT_SESSION_TRACK : Nat := 23

def SERVER_SESSION_STATE_CHANGED : Nat := 14

/-- What an OK packet is made of; texts stand in their arrays before the terminator. -/
structure OkVars where
  frontEndCaps : Nat
  affectedRows : Int
  lastInsertIDForPacket : Nat
  sessionStateChanged : Bool
  sessionStateType : Int
  inSsTrackSystemVariables : Bool
  isSsTrackSchemaOn : Bool
  isSsTrackStateChangeOn : Bool
  sessionTrackInfo : Bytes
  systemVarName : Bytes
  systemVarVal : Bytes

def assembleLenencString : Option Bytes → Bytes
  | some str => if 0 < str.length then assembleLenencUnsignedLong str.length ++ str else [0]
  | none => assembleLenencUnsignedLong 0

def assembleLenencString2 (str : Bytes) : Bytes :=
  if 0 < str.length then assembleLenencUnsignedLong str.length ++ str else [0]

/-- A copy to the end of a local array of 1024 bytes; `none` if it goes behind
it. -/
def appendLocal (buf bytes : Bytes) : Option Bytes :=
  if buf.length + bytes.length ≤ 1024 then some (buf ++ bytes) else none

namespace OkVars

/-- `systemVarVal`, or NULL if it is empty. -/
def valueString (v : OkVars) : Bytes :=
  if v.systemVarVal ≠ [] then assembleLenencString (some v.systemVarVal) else assembleLenencString none

/-- `sessionStateInfo` and `dataOfTheChangedSessionInfo` for the variable or schema that has changed. -/
def changedSessionInfo (v : OkVars) : Option (Bytes × Bytes) :=
  if v.sessionStateChanged then
    if v.sessionStateType = 0 ∧ v.inSsTrackSystemVariables then do
      let sessionStateInfo ← appendLocal [] (assembleLenencUnsignedLong 0)
      let dataOfTheChangedSessionInfo ← appendLocal [] (assembleLenencString (some v.systemVarName))
      let dataOfTheChangedSessionInfo ← appendLocal dataOfTheChangedSessionInfo v.valueString
      some (sessionStateInfo, dataOfTheChangedSessionInfo)
    else if v.sessionStateType = 1 ∧ v.isSsTrackSchemaOn then do
      let sessionStateInfo ← appendLocal [] (assembleLenencUnsignedLong 1)
      let dataOfTheChangedSessionInfo ← appendLocal [] v.valueString
      some (sessionStateInfo, dataOfTheChangedSessionInfo)
    else some ([], [])
  else some ([], [])

/-- The note of a changed state, which goes to the data of the entry before it, if there is one. -/
def noteStateChange (v : OkVars) (sessionStateInfo dataOfTheChangedSessionInfo : Bytes) : Option (Bytes × Bytes) :=
  if v.isSsTrackStateChangeOn then
    if 0 < dataOfTheChangedSessionInfo.length then do
      let dataOfTheChangedSessionInfo ← appendLocal dataOfTheChangedSessionInfo (assembleLenencUnsignedLong 2)
      let dataOfTheChangedSessionInfo ←
        appendLocal dataOfTheChangedSessionInfo (assembleLenencString (some (ascii "1")))
      some (sessionStateInfo, dataOfTheChangedSessionInfo)
    else do
      let sessionStateInfo ← appendLocal sessionStateInfo (assembleLenencUnsignedLong 2)
      let sessionStateInfo ← appendLocal sessionStateInfo (assembleLenencString (some (ascii "1")))
      some (sessionStateInfo, dataOfTheChangedSessionInfo)
  else some (sessionStateInfo, dataOfTheChangedSessionInfo)

def sessionStateInfo (v : OkVars) : Option Bytes := do
  let changed ← v.changedSessionInfo
  let noted ← v.noteStateChange changed.1 changed.2
  if 0 < noted.2.length then appendLocal noted.1 (assembleLenencString2 noted.2) else some noted.1

def frontFields (v : OkVars) (statusFlags warnings : Nat) : Bytes :=
  assembleLenencUnsignedLong (if 0 ≤ v.affectedRows then v.affectedRows.toNat else 0) ++
    assembleLenencUnsignedLong v.lastInsertIDForPacket ++
    if v.frontEndCaps.testBit MYS_CLT_PROTOCOL_41 then toLittleEndian 2 statusFlags ++ toLittleEndian 2 warnings
    else if v.frontEndCaps.testBit MYS_CLT_TRANSACTIONS then toLittleEndian 2 statusFlags
    else []

/-- The bytes behind the header, `none` if a local array has no room. -/
def assembleOKEOFCommonPacketPayload (v : OkVars) (statusFlags warnings : Nat) : Option Bytes :=
  if v.frontEndCaps.testBit MYS_CLT_SESSION_TRACK then do
    let info :=
      if v.sessionStateChanged ∨ v.sessionTrackInfo ≠ [] then assembleLenencString (some v.sessionTrackInfo) else []
    let sessionStateInfo ← v.sessionStateInfo
    let state := if 0 < sessionStateInfo.length then assembleLenencString2 sessionStateInfo else []
    some (v.frontFields statusFlags warnings ++ (info ++ state))
  else some (v.frontFields statusFlags warnings ++ v.sessionTrackInfo)

def cleared (v : OkVars) : OkVars := { v with sessionTrackInfo := [], systemVarName := [], systemVarVal := [] }

def assembleOKPacketPayload (v : OkVars) (statusFlags warnings : Nat) : Option (Bytes × OkVars) :=
  (v.assembleOKEOFCommonPacketPayload statusFlags warnings).map fun payload => (0 :: payload, v.cleared)

end OkVars

inductive StateChange
  | systemVariable (name value : Bytes)
  | schema (name : Bytes)
  | stateChange (isTracked : Bytes)
deriving Repr, DecidableEq

/-- An OK packet as the client has it: `none` where the packet has no such
field. -/
structure OkPacket where
  affectedRows : Nat
  lastInsertId : Nat
  statusFlags : Option Nat
  warnings : Option Nat
  info : Bytes
  changes : Option (List StateChange)
deriving Repr, DecidableEq

def readChange (type : Nat) (data : Bytes) : Option StateChange :=
  match type with
  | 0 => whole (do let name ← lenencString; let value ← lenencString; pure (.systemVariable name value)) data
  | 1 => whole (StateChange.schema <$> lenencString) data
  | 2 => some (.stateChange data)
  | _ => none

def stateEntry : Decoder StateChange := do
  let type ← fixed 1
  let data ← lenencString
  StateT.lift (readChange type data)

def statusField (caps : Nat) : Decoder (Option Nat) :=
  if caps.testBit MYS_CLT_PROTOCOL_41 ∨ caps.testBit MYS_CLT_TRANSACTIONS then some <$> fixed 2 else pure none

def warningsField (caps : Nat) : Decoder (Option Nat) :=
  if caps.testBit MYS_CLT_PROTOCOL_41 then some <$> fixed 2 else pure none

def announcesState (statusFlags : Option Nat) : Bool := (statusFlags.getD 0).testBit SERVER_SESSION_STATE_CHANGED

/-- The end of the packet: for a client that tracks the session a string with its length, missing if
nothing else follows, and the state the status announces; for another one all that is left. -/
def readTail (caps : Nat) (statusFlags : Option Nat) (tail : Bytes) : Option (Bytes × Option (List StateChange)) :=
  if caps.testBit MYS_CLT_SESSION_TRACK then
    if announcesState statusFlags then do
      let (info, state) ← whole (do let info ← lenencString; let state ← lenencString; pure (info, state)) tail
      let changes ← entries stateEntry state.length state
      some (info, some changes)
    else if tail = [] then some ([], none)
    else (whole lenencString tail).map (·, none)
  else some (tail, none)

def okFields (caps : Nat) : Decoder (Nat × Nat × Nat × Option Nat × Option Nat) := do
  let header ← fixed 1
  let affectedRows ← lenenc
  let lastInsertId ← lenenc
  let statusFlags ← statusField caps
  let warnings ← warningsField caps
  pure (header, affectedRows, lastInsertId, statusFlags, warnings)

def readOkPacket (caps : Nat) (payload : Bytes) : Option OkPacket := do
  let ((header, affectedRows, lastInsertId, statusFlags, warnings), tail) ← (okFields caps).run payload
  if header = 0 then
    let (info, changes) ← readTail caps statusFlags tail
    some ⟨affectedRows, lastInsertId, statusFlags, warnings, info, changes⟩
  else none

namespace OkVars
variable (v : OkVars)

def ReportsChange : Prop :=
  v.sessionStateChanged = true ∧
    (v.sessionStateType = 0 ∧ v.inSsTrackSystemVariables = true ∨ v.sessionStateType = 1 ∧ v.isSsTrackSchemaOn = true)

def changes : List StateChange :=
  if v.sessionStateChanged then
    (if v.sessionStateType = 0 ∧ v.inSsTrackSystemVariables then [.systemVariable v.systemVarName v.systemVarVal] else
      []) ++ (if v.sessionStateType = 1 ∧ v.isSsTrackSchemaOn then [.schema v.systemVarVal] else []) ++
      (if v.isSsTrackStateChangeOn then [.stateChange (ascii "1")] else [])
  else []

def sentStatus (statusFlags : Nat) : Option Nat :=
  if v.frontEndCaps.testBit MYS_CLT_PROTOCOL_41 ∨
    v.frontEndCaps.testBit MYS_CLT_TRANSACTIONS then some statusFlags else none

def sentWarnings (warnings : Nat) : Option Nat :=
  if v.frontEndCaps.testBit MYS_CLT_PROTOCOL_41 then some warnings else none

def packet (statusFlags warnings : Nat) : OkPacket where
  affectedRows := v.affectedRows.toNat
  lastInsertId := v.lastInsertIDForPacket
  statusFlags := v.sentStatus statusFlags
  warnings := v.sentWarnings warnings
  info := v.sessionTrackInfo
  changes :=
    if v.frontEndCaps.testBit MYS_CLT_SESSION_TRACK ∧
      announcesState (v.sentStatus statusFlags) then some v.changes else none

def Decodable (statusFlags warnings : Nat) : Prop :=
  ∃ payload v', v.assembleOKPacketPayload statusFlags warnings = some (payload, v') ∧
    readOkPacket v.frontEndCaps payload = some (v.packet statusFlags warnings)

def entry : Option (Nat × Bytes) :=
  if v.sessionStateChanged then
    if v.sessionStateType = 0 ∧ v.inSsTrackSystemVariables then
      some (0, assembleLenencString (some v.systemVarName) ++ v.valueString)
    else if v.sessionStateType = 1 ∧ v.isSsTrackSchemaOn then some (1, v.valueString)
    else none
  else none

def note : Bytes := if v.isSsTrackStateChangeOn then [2, 1, 49] else []

/-- `dataOfTheChangedSessionInfo` in the end. -/
def stateData : Bytes :=
  match v.entry with
  | some (_, data) => data ++ v.note
  | none => []

/-- `sessionStateInfo` in the end. -/
def stateInfo : Bytes :=
  match v.entry with
  | some (type, data) => UInt8.ofNat type :: assembleLenencString2 (data ++ v.note)
  | none => v.note

/-- The values are those of C variables, and the local arrays have room for
them. -/
structure Fits (statusFlags warnings : Nat) : Prop where
  affectedRows : 0 ≤ v.affectedRows ∧ v.affectedRows < 2 ^ 63
  lastInsertIDForPacket : v.lastInsertIDForPacket < 2 ^ 64
  statusFlags : statusFlags < 2 ^ 16
  warnings : warnings < 2 ^ 16
  sessionTrackInfo : v.sessionTrackInfo.length < 1024
  systemVarName : v.systemVarName.length < 1024
  systemVarVal : v.systemVarVal.length < 1024
  stateData : v.stateData.length ≤ 1024
  stateInfo : v.stateInfo.length ≤ 1024

end OkVars

theorem appendLocal_room {buf bytes : Bytes} (room : (buf ++ bytes).length ≤ 1024) :
    appendLocal buf bytes = some (buf ++ bytes) :=
  if_pos (length_append ▸ room)

theorem assembleLenencString_pos (str : Option Bytes) : 0 < (assembleLenencString str).length := by
  cases str with
  | none => decide
  | some str =>
    rw [assembleLenencString]
    split
    · rw [length_append]
      omega
    · decide

theorem decodes_assembled {n : Nat} (small : n < 2 ^ 64) : Decodes lenenc (assembleLenencUnsignedLong n) n := by
  unfold assembleLenencUnsignedLong
  split
  · rename_i short
    exact decodes_lenenc_short short
  split
  · exact @decodes_lenenc 0xFC 2 n (by simp) (by omega)
  · split
    · exact @decodes_lenenc 0xFD 3 n (by simp) (by omega)
    · exact @decodes_lenenc 0xFE 8 n (by simp) (by omega)

theorem decodes_assembled_string {str : Bytes} (small : str.length < 2 ^ 64) :
    Decodes lenencString (assembleLenencString (some str)) str := by
  have counted := decodes_lenencString (decodes_assembled small)
  rw [assembleLenencString]
  split
  · exact counted
  rename_i empty
  have nil : str = [] := by simpa using empty
  subst nil
  exact counted

namespace OkVars
variable {v : OkVars}

theorem decodes_valueString (small : v.systemVarVal.length < 2 ^ 64) :
    Decodes lenencString v.valueString v.systemVarVal := by
  have value := decodes_assembled_string small
  unfold valueString
  split
  · exact value
  rename_i empty
  have nil : v.systemVarVal = [] := by simpa using empty
  rw [nil] at value ⊢
  exact value

theorem valueString_pos : 0 < v.valueString.length := by
  unfold valueString
  split <;> exact assembleLenencString_pos _

theorem entry_isSome : v.entry.isSome ↔ v.ReportsChange := by
  unfold entry ReportsChange
  grind

theorem entry_eq_none : v.entry = none ↔ ¬ v.ReportsChange := by
  rw [← entry_isSome, Option.not_isSome_iff_eq_none]

variable {data : Bytes} {type : Nat}

theorem entry_inv (entry : v.entry = some (type, data)) :
    v.sessionStateChanged = true ∧
      (v.sessionStateType = 0 ∧ v.inSsTrackSystemVariables = true ∧ type = 0 ∧
          data = assembleLenencString (some v.systemVarName) ++ v.valueString ∨
        v.sessionStateType = 1 ∧ v.isSsTrackSchemaOn = true ∧ type = 1 ∧ data = v.valueString) := by
  unfold OkVars.entry at entry
  grind

theorem entry_data_pos (entry : v.entry = some (type, data)) : 0 < data.length := by
  have value := @valueString_pos v
  obtain ⟨_, ⟨_, _, _, rfl⟩ | ⟨_, _, _, rfl⟩⟩ := entry_inv entry
  · rw [length_append]
    omega
  · exact value

theorem changedSessionInfo_entry (entry : v.entry = some (type, data)) (room : data.length ≤ 1024) :
    v.changedSessionInfo = some ([UInt8.ofNat type], data) := by
  have zero : appendLocal [] (assembleLenencUnsignedLong 0) = some [0] := by decide
  have one : appendLocal [] (assembleLenencUnsignedLong 1) = some [1] := by decide
  unfold changedSessionInfo
  obtain ⟨changed, ⟨type, tracked, rfl, rfl⟩ | ⟨type, tracked, rfl, rfl⟩⟩ := entry_inv entry
  · have name : (assembleLenencString (some v.systemVarName)).length ≤ 1024 := by
      rw [length_append] at room
      omega
    rw [if_pos changed, if_pos ⟨type, tracked⟩, zero, appendLocal_room name]
    show (appendLocal _ v.valueString >>= _) = _
    rw [nil_append, appendLocal_room room]
    rfl
  · rw [if_pos changed, if_neg (by omega), if_pos ⟨type, tracked⟩, one, appendLocal_room room]
    rfl

theorem changedSessionInfo_none (entry : v.entry = none) : v.changedSessionInfo = some ([], []) := by
  unfold OkVars.entry at entry
  unfold changedSessionInfo
  grind

theorem noteStateChange_data {info : Bytes} (nonempty : 0 < data.length) (room : (data ++ v.note).length ≤ 1024) :
    v.noteStateChange info data = some (info, data ++ v.note) := by
  have two : assembleLenencUnsignedLong 2 = [2] := by decide
  have text : assembleLenencString (some (ascii "1")) = [1, 49] := by decide
  unfold noteStateChange note at *
  rw [if_pos nonempty, two, text]
  split at room
  · rename_i on
    rw [append_cons] at room
    rw [if_pos on, if_pos on, appendLocal_room (by rw [length_append] at room; omega)]
    show (appendLocal (data ++ [2]) _ >>= _) = _
    rw [appendLocal_room room, ← append_cons]
    rfl
  · rename_i off
    rw [if_neg off, if_neg off, append_nil]

theorem noteStateChange_nil : v.noteStateChange [] [] = some (v.note, []) := by
  unfold noteStateChange note
  split <;> rfl

theorem sessionStateInfo_room (data : v.stateData.length ≤ 1024) (info : v.stateInfo.length ≤ 1024) :
    v.sessionStateInfo = some v.stateInfo := by
  unfold sessionStateInfo stateData stateInfo at *
  cases entry : v.entry with
  | none =>
    rw [changedSessionInfo_none entry]
    show (v.noteStateChange [] [] >>= _) = _
    rw [noteStateChange_nil]
    rfl
  | some reported =>
    obtain ⟨type, change⟩ := reported
    simp only [entry] at data info
    have nonempty := entry_data_pos entry
    have sum := @length_append _ change v.note
    rw [changedSessionInfo_entry entry (by omega)]
    show (v.noteStateChange [UInt8.ofNat type] change >>= _) = _
    rw [noteStateChange_data nonempty data]
    show (if 0 < (change ++ v.note).length then _ else _) = _
    rw [if_pos (by omega), appendLocal_room info]
    rfl

def infoText (v : OkVars) : Bytes :=
  if v.sessionStateChanged ∨ v.sessionTrackInfo ≠ [] then assembleLenencString (some v.sessionTrackInfo) else []

def stateText (v : OkVars) : Bytes := if 0 < v.stateInfo.length then assembleLenencString2 v.stateInfo else []

theorem assembleOKPacketPayload_track (track : v.frontEndCaps.testBit MYS_CLT_SESSION_TRACK = true)
    (data : v.stateData.length ≤ 1024) (info : v.stateInfo.length ≤ 1024) (statusFlags warnings : Nat) :
    v.assembleOKPacketPayload statusFlags warnings =
      some (0 :: (v.frontFields statusFlags warnings ++ (v.infoText ++ v.stateText)), v.cleared) := by
  unfold assembleOKPacketPayload assembleOKEOFCommonPacketPayload
  rw [if_pos track, sessionStateInfo_room data info]
  rfl

theorem assembleOKPacketPayload_plain (plain : v.frontEndCaps.testBit MYS_CLT_SESSION_TRACK = false)
    (statusFlags warnings : Nat) :
    v.assembleOKPacketPayload statusFlags warnings =
      some (0 :: (v.frontFields statusFlags warnings ++ v.sessionTrackInfo), v.cleared) := by
  unfold assembleOKPacketPayload assembleOKEOFCommonPacketPayload
  rw [plain]
  rfl

section reading
variable {statusFlags warnings : Nat} (fits : v.Fits statusFlags warnings)
include fits

theorem decodes_okFields :
    Decodes (okFields v.frontEndCaps) (0 :: v.frontFields statusFlags warnings)
      (0, v.affectedRows.toNat, v.lastInsertIDForPacket, v.sentStatus statusFlags, v.sentWarnings warnings) := by
  have header : Decodes (fixed 1) [0] 0 := @decodes_fixed 1 0 (by decide)
  have rows : Decodes lenenc (assembleLenencUnsignedLong v.affectedRows.toNat) v.affectedRows.toNat := by
    have range := fits.affectedRows
    exact decodes_assembled (by omega)
  have id := decodes_assembled fits.lastInsertIDForPacket
  have status : Decodes (statusField v.frontEndCaps)
      (if v.frontEndCaps.testBit MYS_CLT_PROTOCOL_41 ∨ v.frontEndCaps.testBit MYS_CLT_TRANSACTIONS then
        toLittleEndian 2 statusFlags else []) (v.sentStatus statusFlags) := by
    unfold statusField sentStatus
    split
    · exact (decodes_fixed fits.statusFlags : Decodes (fixed 2) _ _).map
    · exact Decodes.pure none
  have warned : Decodes (warningsField v.frontEndCaps)
      (if v.frontEndCaps.testBit MYS_CLT_PROTOCOL_41 then toLittleEndian 2 warnings else [])
      (v.sentWarnings warnings) := by
    unfold warningsField sentWarnings
    split
    · exact (decodes_fixed fits.warnings : Decodes (fixed 2) _ _).map
    · exact Decodes.pure none
  have text : 0 :: v.frontFields statusFlags warnings = [0] ++ (assembleLenencUnsignedLong v.affectedRows.toNat ++
      (assembleLenencUnsignedLong v.lastInsertIDForPacket ++
        ((if v.frontEndCaps.testBit MYS_CLT_PROTOCOL_41 ∨ v.frontEndCaps.testBit MYS_CLT_TRANSACTIONS then
          toLittleEndian 2 statusFlags else []) ++
        ((if v.frontEndCaps.testBit MYS_CLT_PROTOCOL_41 then toLittleEndian 2 warnings else []) ++ [])))) := by
    unfold frontFields
    rw [if_pos fits.affectedRows.1]
    split <;> simp [*]
  rw [text]
  exact header.bind (rows.bind (id.bind (status.bind (warned.bind (Decodes.pure _)))))

theorem readOkPacket_append (tail : Bytes) :
    readOkPacket v.frontEndCaps (0 :: (v.frontFields statusFlags warnings ++ tail)) =
      (readTail v.frontEndCaps (v.sentStatus statusFlags) tail).map fun read =>
        ⟨v.affectedRows.toNat, v.lastInsertIDForPacket, v.sentStatus statusFlags, v.sentWarnings warnings, read.1,
          read.2⟩ := by
  have fields := decodes_okFields fits tail
  rw [cons_append] at fields
  rw [readOkPacket, fields]
  show (readTail v.frontEndCaps (v.sentStatus statusFlags) tail >>= _) = _
  cases readTail v.frontEndCaps (v.sentStatus statusFlags) tail <;> rfl

theorem decodable_iff_tail (track : v.frontEndCaps.testBit MYS_CLT_SESSION_TRACK = true) :
    v.Decodable statusFlags warnings ↔
      readTail v.frontEndCaps (v.sentStatus statusFlags) (v.infoText ++ v.stateText) =
        some (v.sessionTrackInfo, if announcesState (v.sentStatus statusFlags) then some v.changes else none) := by
  unfold Decodable
  simp only [assembleOKPacketPayload_track track fits.stateData fits.stateInfo, Option.some.injEq, Prod.mk.injEq]
  constructor
  · rintro ⟨payload, _, ⟨rfl, rfl⟩, read⟩
    rw [readOkPacket_append fits] at read
    obtain ⟨⟨info, changes⟩, tail, same⟩ := Option.map_eq_some_iff.mp read
    simp only [packet, track, true_and, OkPacket.mk.injEq] at same
    rw [tail, same.1, same.2]
  · intro tail
    refine ⟨_, _, ⟨rfl, rfl⟩, ?_⟩
    rw [readOkPacket_append fits, tail]
    simp [packet, track]

theorem readChange_entry (entry : v.entry = some (type, data)) :
    ∃ change, v.changes = change :: (if v.isSsTrackStateChangeOn then [.stateChange (ascii "1")] else []) ∧
      ∀ rest, readChange type (data ++ rest) = if rest = [] then some change else none := by
  have name := fits.systemVarName
  have value := fits.systemVarVal
  have nameRead : Decodes lenencString (assembleLenencString (some v.systemVarName)) v.systemVarName :=
    decodes_assembled_string (by omega)
  have valueRead : Decodes lenencString v.valueString v.systemVarVal := decodes_valueString (by omega)
  unfold changes
  obtain ⟨changed, ⟨type, tracked, rfl, rfl⟩ | ⟨type, tracked, rfl, rfl⟩⟩ := entry_inv entry
  · refine ⟨.systemVariable v.systemVarName v.systemVarVal, ?_, ?_⟩
    · simp [changed, type, tracked]
    · exact (nameRead.both valueRead StateChange.systemVariable).whole_append
  · refine ⟨.schema v.systemVarVal, ?_, ?_⟩
    · simp [changed, type, tracked]
    · exact (valueRead.map (f := StateChange.schema)).whole_append

omit fits in
theorem run_stateEntry (byte : type < 256) (small : data.length < 2 ^ 64) (rest : Bytes) :
    stateEntry.run ((UInt8.ofNat type :: assembleLenencString2 data) ++ rest) =
      (readChange type data).map (·, rest) := by
  have first : Decodes (fixed 1) [UInt8.ofNat type] type := @decodes_fixed 1 type (by omega)
  have second := decodes_assembled_string small
  have text : (UInt8.ofNat type :: assembleLenencString2 data) ++ rest =
      [UInt8.ofNat type] ++ (assembleLenencString (some data) ++ rest) := rfl
  rw [text, stateEntry, first.run_bind, second.run_bind]
  cases readChange type data <;> rfl

theorem entries_reported (reported : v.ReportsChange) :
    entries stateEntry v.stateInfo.length v.stateInfo = if v.isSsTrackStateChangeOn then none else some v.changes := by
  have data := fits.stateData
  obtain ⟨⟨type, change⟩, entry⟩ := Option.isSome_iff_exists.mp (entry_isSome.mpr reported)
  obtain ⟨first, changes, read⟩ := readChange_entry fits entry
  have byte : type < 256 := by
    obtain ⟨_, ⟨_, _, rfl, _⟩ | ⟨_, _, rfl, _⟩⟩ := entry_inv entry <;> decide
  have info : v.stateInfo = UInt8.ofNat type :: assembleLenencString2 (change ++ v.note) := by
    rw [stateInfo, entry]
  have small : (change ++ v.note).length < 2 ^ 64 := by
    rw [stateData, entry] at data
    dsimp only at data
    omega
  have run := run_stateEntry byte small []
  rw [append_nil, read v.note] at run
  rw [info, length_cons, entries, run, changes]
  unfold note
  by_cases on : v.isSsTrackStateChangeOn = true
  · simp [on]
  · simp [on, entries_nil]

omit fits in
theorem entries_note (unreported : ¬ v.ReportsChange) (on : v.isSsTrackStateChangeOn = true) :
    entries stateEntry v.stateInfo.length v.stateInfo = some [.stateChange (ascii "1")] := by
  have entry := entry_eq_none.mpr unreported
  have info : v.stateInfo = [2, 1, 49] := by simp [stateInfo, entry, note, on]
  rw [info]
  rfl

theorem infoText_read : Decodes lenencString (assembleLenencString (some v.sessionTrackInfo)) v.sessionTrackInfo := by
  have small := fits.sessionTrackInfo
  exact decodes_assembled_string (by omega)

theorem stateText_cases :
    ¬ v.ReportsChange ∧ v.isSsTrackStateChangeOn = false ∧ v.stateText = [] ∨
      (v.ReportsChange ∨ v.isSsTrackStateChangeOn = true) ∧ v.stateText ≠ [] ∧
        Decodes lenencString v.stateText v.stateInfo := by
  have small := fits.stateInfo
  have read : Decodes lenencString (assembleLenencString2 v.stateInfo) v.stateInfo :=
    decodes_assembled_string (by omega)
  have filled : assembleLenencString2 v.stateInfo ≠ [] :=
    ne_nil_of_length_pos (assembleLenencString_pos (some v.stateInfo))
  have nonempty : v.stateInfo = [] ↔ ¬ v.ReportsChange ∧ v.isSsTrackStateChangeOn = false := by
    rw [← entry_eq_none, stateInfo]
    cases v.entry <;> simp [note]
  unfold stateText
  by_cases state : v.stateInfo = []
  · obtain ⟨unreported, off⟩ := nonempty.mp state
    exact .inl ⟨unreported, off, by simp [state]⟩
  have some : v.ReportsChange ∨ v.isSsTrackStateChangeOn = true := by
    have either := mt nonempty.mpr state
    rwa [not_and_or, not_not, Bool.not_eq_false] at either
  rw [if_pos (length_pos_iff.mpr state)]
  exact .inr ⟨some, filled, read⟩

omit fits in
theorem whole_pair_short {s x : Bytes} (read : Decodes lenencString s x) :
    whole (do let info ← lenencString; let state ← lenencString; pure (info, state)) s = none := by
  have run := read.run_bind (fun info => do let state ← lenencString; pure (info, state)) []
  rw [append_nil] at run
  rw [whole, run]
  rfl

omit fits in
theorem changes_unreported (unreported : ¬ v.ReportsChange) (on : v.isSsTrackStateChangeOn = true) :
    [.stateChange (ascii "1")] = v.changes ↔ v.sessionStateChanged = true := by
  have some : v.sessionStateChanged = true →
      ¬ (v.sessionStateType = 0 ∧ v.inSsTrackSystemVariables = true) ∧
        ¬ (v.sessionStateType = 1 ∧ v.isSsTrackSchemaOn = true) := by
    intro changed
    exact ⟨fun variable' => unreported ⟨changed, .inl variable'⟩, fun schema => unreported ⟨changed, .inr schema⟩⟩
  unfold changes
  by_cases changed : v.sessionStateChanged = true
  · simp [changed, (some changed).1, (some changed).2, on]
  · simp [changed]

theorem readTail_announced (track : v.frontEndCaps.testBit MYS_CLT_SESSION_TRACK = true)
    (announced : announcesState (v.sentStatus statusFlags) = true) :
    readTail v.frontEndCaps (v.sentStatus statusFlags) (v.infoText ++ v.stateText) =
        some (v.sessionTrackInfo, some v.changes) ↔
      v.sessionStateChanged = true ∧ (v.ReportsChange ↔ v.isSsTrackStateChangeOn = false) := by
  have info := infoText_read fits
  unfold readTail
  rw [if_pos track, if_pos announced]
  by_cases given : v.sessionStateChanged = true ∨ v.sessionTrackInfo ≠ []
  · rw [infoText, if_pos given]
    obtain ⟨unreported, off, none⟩ | ⟨some, _, state⟩ := stateText_cases fits
    · rw [none, append_nil, whole_pair_short info]
      simp [unreported, off]
    rw [(info.both state Prod.mk).whole]
    show (entries stateEntry v.stateInfo.length v.stateInfo >>= _) = _ ↔ _
    by_cases reported : v.ReportsChange
    · rw [entries_reported fits reported]
      by_cases on : v.isSsTrackStateChangeOn = true <;> simp [on, reported, reported.1]
    · have on := some.resolve_left reported
      rw [entries_note reported on]
      simp [changes_unreported reported on, reported, on]
  · have changed : v.sessionStateChanged = false := by
      simp only [not_or, Bool.not_eq_true] at given
      exact given.1
    rw [infoText, if_neg given, nil_append]
    obtain ⟨_, _, none⟩ | ⟨_, _, state⟩ := stateText_cases fits
    · rw [none]
      simp only [changed, Bool.false_eq_true, false_and, iff_false]
      intro read
      cases read
    · rw [whole_pair_short state]
      simp [changed]

theorem readTail_silent (track : v.frontEndCaps.testBit MYS_CLT_SESSION_TRACK = true)
    (silent : announcesState (v.sentStatus statusFlags) = false) :
    readTail v.frontEndCaps (v.sentStatus statusFlags) (v.infoText ++ v.stateText) =
        some (v.sessionTrackInfo, none) ↔ ¬ v.ReportsChange ∧ v.isSsTrackStateChangeOn = false := by
  have info := infoText_read fits
  have filled : assembleLenencString (some v.sessionTrackInfo) ≠ [] :=
    ne_nil_of_length_pos (assembleLenencString_pos _)
  unfold readTail
  rw [if_pos track, silent]
  by_cases given : v.sessionStateChanged = true ∨ v.sessionTrackInfo ≠ []
  · rw [infoText, if_pos given, info.whole_append]
    obtain ⟨unreported, off, none⟩ | ⟨some, state, _⟩ := stateText_cases fits
    · simp [none, filled, unreported, off]
    have not : ¬ (¬ v.ReportsChange ∧ v.isSsTrackStateChangeOn = false) := by
      rwa [not_and_or, not_not, Bool.not_eq_false]
    simp [state, not]
  · simp only [not_or, Bool.not_eq_true, not_not] at given
    have unreported : ¬ v.ReportsChange := fun reported => by simp [reported.1] at given
    have entry := entry_eq_none.mpr unreported
    have empty : v.infoText = [] := by simp [infoText, given]
    rw [empty, nil_append, given.2]
    obtain ⟨_, off, none⟩ | ⟨some, state, read⟩ := stateText_cases fits
    · simp [none, unreported, off]
    have on := some.resolve_left unreported
    have noted : v.stateInfo = [2, 1, 49] := by simp [stateInfo, entry, note, on]
    rw [read.whole, noted]
    simp [state, on]

end reading

/-- The OK packet can be decoded exactly if it has one entry where the status announces a state, and
none elsewhere. -/
theorem ok_packet_decodable_iff {statusFlags warnings : Nat} (fits : v.Fits statusFlags warnings) :
    v.Decodable statusFlags warnings ↔
      (v.frontEndCaps.testBit MYS_CLT_SESSION_TRACK = true →
        if announcesState (v.sentStatus statusFlags) then
          v.sessionStateChanged = true ∧ (v.ReportsChange ↔ v.isSsTrackStateChangeOn = false)
        else ¬ v.ReportsChange ∧ v.isSsTrackStateChangeOn = false) := by
  by_cases track : v.frontEndCaps.testBit MYS_CLT_SESSION_TRACK = true
  · rw [decodable_iff_tail fits track]
    simp only [track, true_implies]
    split
    · rename_i announced
      exact readTail_announced fits track announced
    · rename_i silent
      exact readTail_silent fits track (by simpa using silent)
  · have read := readOkPacket_append fits v.sessionTrackInfo
    refine iff_of_true ?_ fun tracked => absurd tracked track
    refine ⟨_, _, assembleOKPacketPayload_plain (by simpa using track) statusFlags warnings, ?_⟩
    rw [read, readTail]
    simp [packet, track]

/-- `use db` with the settings that a session has from the start. -/
def afterUse : OkVars where
  frontEndCaps := 2 ^ MYS_CLT_PROTOCOL_41 + 2 ^ MYS_CLT_SESSION_TRACK
  affectedRows := 0
  lastInsertIDForPacket := 0
  sessionStateChanged := true
  sessionStateType := 1
  inSsTrackSystemVariables := false
  isSsTrackSchemaOn := true
  isSsTrackStateChangeOn := false
  sessionTrackInfo := []
  systemVarName := []
  systemVarVal := ascii "db"

theorem ok_packet_decodable_use :
    afterUse.Decodable 0x4002 0 :=
  (ok_packet_decodable_iff
    ⟨by decide, by decide, by decide, by decide, by decide, by decide, by decide, by decide, by decide⟩).mpr fun _ => by
      rw [if_pos (by decide)]
      exact ⟨rfl, by unfold ReportsChange; decide⟩

/-- The same with a note of a changed state, which ends up in the data of the schema. -/
def afterUseNoted : OkVars := { afterUse with isSsTrackStateChangeOn := true }

theorem noted_schema_unreadable :
    afterUseNoted.Fits 0x4002 0 ∧ ¬ afterUseNoted.Decodable 0x4002 0 := by
  have assembled : (afterUseNoted.assembleOKPacketPayload 0x4002 0).map Prod.fst =
      some [0, 0, 0, 2, 0x40, 0, 0, 0, 8, 1, 6, 2, 100, 98, 2, 1, 49] := by decide
  refine ⟨⟨by decide, by decide, by decide, by decide, by decide, by decide, by decide, by decide, by decide⟩, ?_⟩
  rintro ⟨payload, v', same, read⟩
  rw [same] at assembled
  cases assembled
  cases read

end OkVars

end OpenHalo
