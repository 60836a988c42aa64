import OpenHalo.ProcessCommand
import OpenHalo.Session.OkPacket

namespace OpenHalo
open Octets Memory List

inductive UseRequest
  | statement
  | initDb
deriving Repr, DecidableEq

namespace UseRequest

/-- The bytes in front of the name: `stmt + 4` behind the word, else `stmt` itself. -/
def skipped : UseRequest → Nat
  | statement => 4
  | initDb => 0

/-- How many bytes are copied: `len - 5` and `len - 1`. -/
def copied (r : UseRequest) (inBuf : StringInfo) : Int := (inBuf.len : Int) - 1 - r.skipped

/-- The copy of the name and a terminator; `none` for a negative number of bytes or a terminator behind
the array. -/
def systemVarVal (r : UseRequest) (inBuf : StringInfo) : Option Bytes :=
  if 0 ≤ r.copied inBuf ∧ r.copied inBuf < 1024 then
    some (cstr (read inBuf.data (inBuf.offset + r.skipped) (r.copied inBuf).toNat))
  else none

/-- The branch of `processCommand`. -/
def process (cfg : Config) (a : Adapter) (t : PreStmts) (origLen : Int) (inBuf : StringInfo) : UseRequest → Dispatch
  | statement => processQuery cfg a t origLen inBuf
  | initDb => processUseDatabase a t inBuf

end UseRequest

/-- When `endSet` sends its OK packet for a database. No function fills the other two texts. -/
def OkVars.selected (v : OkVars) (value : Bytes) : OkVars :=
  { v with
    sessionStateChanged := OpenHalo.isSsTrackStateChangeOn || OpenHalo.isSsTrackSchemaOn
    sessionStateType := 1
    inSsTrackSystemVariables := OpenHalo.inSsTrackSystemVariables
    isSsTrackSchemaOn := OpenHalo.isSsTrackSchemaOn
    isSsTrackStateChangeOn := OpenHalo.isSsTrackStateChangeOn
    sessionTrackInfo := []
    systemVarName := []
    systemVarVal := value }

/-- The command is refused, or the name gets into `systemVarVal` and from there into the OK packet
without leaving an array; the write buffer has 102400 bytes. -/
def BuffersRespected (v : OkVars) (statusFlags warnings : Nat) (r : UseRequest) (inBuf : StringInfo) (d : Dispatch) :
    Prop :=
  (∃ a t, d = refuse a t 1049 "Invalid client data" "42000") ∨
    ∃ value payload v', r.systemVarVal inBuf = some value ∧
      (v.selected value).assembleOKPacketPayload statusFlags warnings = some (payload, v') ∧ 4 + payload.length ≤ 102400

structure StringInfo.HoldsText (inBuf : StringInfo) (text : Bytes) : Prop where
  bytes : read inBuf.data inBuf.offset text.length = text
  len : inBuf.len = text.length + 1

section requests
variable {cfg : Config} {a : Adapter} {t : PreStmts} {origLen : Int} {inBuf : StringInfo} {text : Bytes}
  {r : UseRequest}

theorem UseRequest.process_refused (word : r = .statement → queryWord inBuf = .use) (holds : inBuf.HoldsText text) :
    (∃ a' t', r.process cfg a t origLen inBuf = refuse a' t' 1049 "Invalid client data" "42000") ↔
      r.skipped + 1024 < text.length := by
  have len := holds.len
  have other : ∀ d : Dispatch, (∀ a' t' packets, d ≠ .answered a' t' packets) →
      ¬ ∃ a' t', d = refuse a' t' 1049 "Invalid client data" "42000" := by
    rintro d unanswered ⟨a', t', same⟩
    exact unanswered _ t' _ same
  cases r with
  | statement =>
    rw [process, processQuery, word rfl]
    dsimp only [skipped]
    split
    · exact iff_of_false (other _ (by simp)) (by omega)
    split
    · exact iff_of_false (other _ (by simp)) (by omega)
    · exact iff_of_true ⟨_, _, rfl⟩ (by omega)
  | initDb =>
    have handed : ∀ a inBuf a' t' packets, forward a t inBuf ≠ .answered a' t' packets := by
      intro a inBuf a' t' packets
      unfold forward
      split <;> simp
    rw [process, processUseDatabase]
    dsimp only [skipped]
    split
    · exact iff_of_false (other _ (handed _ _)) (by omega)
    · exact iff_of_true ⟨_, _, rfl⟩ (by omega)

/-- The copy into `systemVarVal`. -/
theorem UseRequest.systemVarVal_eq (holds : inBuf.HoldsText text) :
    r.systemVarVal inBuf =
      if r.skipped ≤ text.length ∧ text.length < r.skipped + 1024 then some (cstr (text.drop r.skipped)) else none := by
  have len := holds.len
  have count : r.copied inBuf = (text.length : Int) - r.skipped := by
    unfold copied
    omega
  unfold systemVarVal
  by_cases room : r.skipped ≤ text.length ∧ text.length < r.skipped + 1024
  · have size : text.length = r.skipped + (r.copied inBuf).toNat := by omega
    have name : read inBuf.data (inBuf.offset + r.skipped) (r.copied inBuf).toNat = text.drop r.skipped := by
      have front := holds.bytes
      rw [size, read_append] at front
      rw [← front, drop_left' (read_length _ _ _)]
    rw [if_pos room, if_pos (by omega), name]
  · rw [if_neg room, if_neg (by omega)]

end requests

section packets
variable {v : OkVars} {value : Bytes} {statusFlags warnings : Nat}

theorem OkVars.frontFields_length : (v.frontFields statusFlags warnings).length ≤ 22 := by
  have rows := calcLenencIntLen_le (if 0 ≤ v.affectedRows then v.affectedRows.toNat else 0)
  have id := calcLenencIntLen_le v.lastInsertIDForPacket
  have status :
      (if v.frontEndCaps.testBit MYS_CLT_PROTOCOL_41 then toLittleEndian 2 statusFlags ++ toLittleEndian 2 warnings
      else if v.frontEndCaps.testBit MYS_CLT_TRANSACTIONS then toLittleEndian 2 statusFlags else []).length ≤ 4 := by
    split
    · simp [toLittleEndian_length]
    · split <;> simp [toLittleEndian_length]
  rw [frontFields, length_append, length_append, assembleLenencUnsignedLong_length,
    assembleLenencUnsignedLong_length]
  omega

theorem OkVars.selected_room :
    (v.selected value).stateData.length ≤ 1024 ∧ (v.selected value).stateInfo.length ≤ 1024 ↔ value.length ≤ 1017 := by
  have entry : (v.selected value).entry = some (1, (v.selected value).valueString) := rfl
  have note : (v.selected value).note = [] := rfl
  have size : (v.selected value).valueString.length = calcLenencIntLen value.length + value.length := by
    unfold valueString assembleLenencString selected
    dsimp only
    by_cases empty : value = []
    · subst empty
      rfl
    · rw [if_pos empty, if_pos (length_pos_iff.mpr empty), length_append, assembleLenencUnsignedLong_length]
  have positive := @valueString_pos (v.selected value)
  rw [stateData, stateInfo, entry, note]
  simp only [append_nil, length_cons, assembleLenencString2, if_pos positive, length_append,
    assembleLenencUnsignedLong_length]
  rw [size]
  unfold calcLenencIntLen
  split_ifs <;> omega

theorem OkVars.selected_full (track : v.frontEndCaps.testBit MYS_CLT_SESSION_TRACK = true)
    (long : 1017 < value.length) :
    (v.selected value).assembleOKPacketPayload statusFlags warnings = none := by
  have outside := mt (@selected_room v value).mp (Nat.not_le.mpr long)
  have data : (v.selected value).stateData = (v.selected value).valueString := append_nil _
  have info : (v.selected value).stateInfo = [1] ++ assembleLenencString2 (v.selected value).valueString :=
    congrArg (fun data => 1 :: assembleLenencString2 data) data
  have full : (v.selected value).sessionStateInfo = none := by
    have steps : (v.selected value).sessionStateInfo = (appendLocal [] (v.selected value).valueString).bind fun data =>
        if 0 < data.length then appendLocal [1] (assembleLenencString2 data) else some [1] := by
      unfold sessionStateInfo changedSessionInfo
      cases appendLocal [] (v.selected value).valueString <;> rfl
    rw [data, info, length_append] at outside
    rw [steps]
    by_cases first : (v.selected value).valueString.length ≤ 1024
    · rw [appendLocal_room first]
      show (if 0 < (v.selected value).valueString.length then _ else _) = none
      rw [if_pos valueString_pos]
      exact if_neg fun room => outside ⟨first, room⟩
    · rw [appendLocal, if_neg (by simpa using first)]
      rfl
  unfold assembleOKPacketPayload assembleOKEOFCommonPacketPayload
  rw [full]
  exact if_pos track ▸ rfl

theorem OkVars.selected_assembled :
    (∃ payload v', (v.selected value).assembleOKPacketPayload statusFlags warnings = some (payload, v') ∧
        4 + payload.length ≤ 102400) ↔
      (v.frontEndCaps.testBit MYS_CLT_SESSION_TRACK = true → value.length ≤ 1017) := by
  have front := @frontFields_length (v.selected value) statusFlags warnings
  by_cases track : v.frontEndCaps.testBit MYS_CLT_SESSION_TRACK = true
  · simp only [track, true_implies]
    by_cases room : value.length ≤ 1017
    · obtain ⟨data, inside⟩ := (@selected_room v value).mpr room
      have info : (v.selected value).infoText = [0] := rfl
      have state : (v.selected value).stateText.length ≤ 9 + 1024 := by
        have counted := calcLenencIntLen_le (v.selected value).stateInfo.length
        unfold stateText assembleLenencString2
        split
        · rw [length_append, assembleLenencUnsignedLong_length]
          omega
        · exact Nat.zero_le _
      refine iff_of_true ⟨_, _, @assembleOKPacketPayload_track (v.selected value) track data inside statusFlags
        warnings, ?_⟩ room
      rw [info]
      simp only [length_cons, length_append, length_nil]
      omega
    · simp [selected_full track (Nat.not_le.mp room), room]
  · have assembled :=
      @assembleOKPacketPayload_plain (v.selected value) (Bool.not_eq_true _ ▸ track) statusFlags warnings
    refine iff_of_true ⟨_, _, assembled, ?_⟩ fun tracked => absurd tracked track
    have text : (v.selected value).sessionTrackInfo = [] := rfl
    rw [text, append_nil, length_cons]
    omega

end packets

/-- The arrays are respected exactly if a name that is not refused leaves room for its terminators. -/
theorem use_buffers_iff {cfg : Config} {a : Adapter} {t : PreStmts} {origLen : Int} {inBuf : StringInfo} {text : Bytes}
    {r : UseRequest} (word : r = .statement → queryWord inBuf = .use) (holds : inBuf.HoldsText text) (v : OkVars)
    (statusFlags warnings : Nat) :
    BuffersRespected v statusFlags warnings r inBuf (r.process cfg a t origLen inBuf) ↔
      r.skipped + 1024 < text.length ∨
        r.skipped ≤ text.length ∧ text.length < r.skipped + 1024 ∧
          (v.frontEndCaps.testBit MYS_CLT_SESSION_TRACK = true → (cstr (text.drop r.skipped)).length ≤ 1017) := by
  unfold BuffersRespected
  rw [UseRequest.process_refused word holds, UseRequest.systemVarVal_eq holds]
  refine or_congr_right ?_
  by_cases room : r.skipped ≤ text.length ∧ text.length < r.skipped + 1024
  · have assembled := @OkVars.selected_assembled v (cstr (text.drop r.skipped)) statusFlags warnings
    simp only [room, if_true, true_and, ← assembled, Option.some.injEq]
    constructor
    · rintro ⟨_, payload, v', rfl, result⟩
      exact ⟨payload, v', result⟩
    · rintro ⟨payload, v', result⟩
      exact ⟨_, payload, v', rfl, result⟩
  · simp only [room, if_false, reduceCtorEq, false_and, exists_false, false_iff]
    rintro ⟨lower, upper, _⟩
    exact room ⟨lower, upper⟩

def useBuffer (text : Bytes) : StringInfo := ⟨write (fun _ => 0) 128 text, 2048, text.length + 1, 128⟩

theorem useBuffer_holds (text : Bytes) : (useBuffer text).HoldsText text :=
  ⟨read_write_self _ _ _, rfl⟩

theorem use_buffers_db : BuffersRespected OkVars.afterUse 2 0 .statement (useBuffer (ascii "use db"))
        (UseRequest.statement.process ⟨[], false, false, false, []⟩ .logon (.initial (fun _ => .initial) fun _ => 0) 6
          (useBuffer (ascii "use db"))) :=
  (use_buffers_iff (fun _ => by decide) (useBuffer_holds _) OkVars.afterUse 2 0).mpr
    (.inr ⟨by decide, by decide, fun _ => by decide⟩)

/-- The word alone copies a negative number of bytes; 1024 and 1018 bytes leave no room for a terminator. -/
theorem use_buffers_left :
    (UseRequest.statement.copied (useBuffer (ascii "use")) = -1 ∧
        ¬ BuffersRespected OkVars.afterUse 2 0 .statement (useBuffer (ascii "use"))
          (UseRequest.statement.process ⟨[], false, false, false, []⟩ .logon (.initial (fun _ => .initial) fun _ => 0) 3
            (useBuffer (ascii "use")))) ∧
      UseRequest.initDb.systemVarVal (useBuffer (List.replicate 1024 97)) = none ∧
      (OkVars.afterUse.selected (List.replicate 1018 97)).assembleOKPacketPayload 0x4002 0 = none := by
  have bare := useBuffer_holds (ascii "use")
  have full := useBuffer_holds (List.replicate 1024 97)
  have kept := @UseRequest.systemVarVal_eq _ _ .initDb full
  refine ⟨⟨by decide, ?_⟩, ?_, ?_⟩
  · have word : UseRequest.statement = .statement → queryWord (useBuffer (ascii "use")) = .use := fun _ => by decide
    have refused :=
      @UseRequest.process_refused ⟨[], false, false, false, []⟩ .logon (.initial (fun _ => .initial) fun _ => 0)
      3 _ _ _ word bare
    rintro (answered | ⟨value, payload, v', copied, _⟩)
    · have long := refused.mp answered
      exact absurd long (by decide)
    · cases copied
  · rw [kept, length_replicate, if_neg (by decide)]
  · have track : OkVars.afterUse.frontEndCaps.testBit MYS_CLT_SESSION_TRACK = true := by decide
    exact OkVars.selected_full track (by rw [length_replicate]; decide)

end OpenHalo
