import OpenHalo.Rows.RowWriter
import OpenHalo.TransactionBlock

namespace OpenHalo
open Octets Framing List

variable {s : Splitting} {remaining : Nat}

/-- The values as `convertColumnValue` leaves them; their lengths are `int`s. -/
structure TextRow where
  columns : List (Option Bytes)
  supported : columns.length ≤ 1017
  sized : ∀ v, some v ∈ columns → v.length < 2 ^ 31

def textField : Option Bytes → Bytes
  | none => [0xFB]
  | some columnVal => assembleLenencUnsignedLong columnVal.length ++ columnVal

def textPayload (columns : List (Option Bytes)) : Bytes := columns.flatMap textField

/-- The first loop of `printTupText`: the length of the row. -/
def textRowLen : List (Option Bytes) → Nat
  | [] => 0
  | some columnVal :: columns => calcLenencIntLen columnVal.length + columnVal.length + textRowLen columns
  | none :: columns => 1 + textRowLen columns

def wholeField : Option Bytes → List Write
  | some columnVal =>
    let lenenc := assembleLenencUnsignedLong columnVal.length
    [.filled lenenc lenenc.length, .payload columnVal]
  | none => [.filled [0xFB] 1]

def splitLenenc (s : Splitting) (lenenc : Bytes) : List Write × Splitting :=
  if lenenc.length ≤ s.packetFreeSize then ([.filled lenenc lenenc.length], s.take lenenc.length)
  else
    ([.filled lenenc s.packetFreeSize, s.head,
        .filled (lenenc.drop s.packetFreeSize) (lenenc.length - s.packetFreeSize)],
      s.turn.take (lenenc.length - s.packetFreeSize))

def splitNull (s : Splitting) : List Write × Splitting :=
  if 1 ≤ s.packetFreeSize then ([.filled [0xFB] 1], s.take 1)
  else ([s.head, .filled [0xFB] 1], s.turn.take 1)

def splitField (s : Splitting) : Option Bytes → List Write × Splitting
  | some columnVal =>
    let first := splitLenenc s (assembleLenencUnsignedLong columnVal.length)
    let second := splitValue first.2 columnVal
    (first.1 ++ second.1, second.2)
  | none => splitNull s

def splitFields : Splitting → List (Option Bytes) → List Write × Splitting
  | s, [] => ([], s)
  | s, column :: columns =>
    let first := splitField s column
    let later := splitFields first.2 columns
    (first.1 ++ later.1, later.2)

/-- The second half of `printTupText`. -/
def textWrites (columns : List (Option Bytes)) : List Write :=
  let rowRemainLen := textRowLen columns
  if rowRemainLen ≤ MYS_MAX_PACKET_LENGTH then .header rowRemainLen :: columns.flatMap wholeField
  else .header MYS_MAX_PACKET_LENGTH :: (splitFields ⟨rowRemainLen, MYS_MAX_PACKET_LENGTH⟩ columns).1

/-- The ids and the calls that write the row. A row of an INSERT with a value is not sent. -/
def printTupText (ids : InsertIds) (columns : List (Option Bytes)) (commandTag : CommandTag) :
    Except ErrorData (InsertIds × List Write) :=
  if 1017 < columns.length then .error (columnNumberError columns.length)
  else match columns.findSome? id with
    | none => .ok (ids, textWrites columns)
    | some columnVal =>
      if commandTag = .plain .insert then .ok (ids.note columnVal, []) else .ok (ids, textWrites columns)

/-- `printTupText` puts one payload in packets on the stream, that of the row, and nothing else. -/
def TextFramed (net : NetTransceiver) (ids : InsertIds) (columns : List (Option Bytes)) (commandTag : CommandTag) :
    Prop :=
  ∃ ids' writes net' bytes, printTupText ids columns commandTag = .ok (ids', writes) ∧
    performAll writes net = .ok net' ∧ net'.stream = net.stream ++ bytes ∧
    reassemble MYS_MAX_PACKET_LENGTH (bytes.length + 1) net.netPacketSeqID bytes = some (textPayload columns, [])

theorem textRowLen_eq (columns : List (Option Bytes)) : textRowLen columns = (textPayload columns).length := by
  induction columns with
  | nil => rfl
  | cons column columns ih =>
    cases column with
    | none =>
      rw [textRowLen, ih, textPayload, textPayload, flatMap_cons, length_append]
      rfl
    | some columnVal =>
      have written := assembleLenencUnsignedLong_length columnVal.length
      rw [textRowLen, ih, textPayload, textPayload, flatMap_cons, length_append, textField, length_append]
      omega

theorem TextRow.payload_lt (row : TextRow) : (textPayload row.columns).length < 2 ^ 64 := by
  have bound : ∀ columns : List (Option Bytes), (∀ v, some v ∈ columns → v.length < 2 ^ 31) →
      (textPayload columns).length ≤ columns.length * 2 ^ 32 := by
    intro columns sized
    induction columns with
    | nil => exact Nat.zero_le _
    | cons column columns ih =>
      have later := ih fun v member => sized v (mem_cons_of_mem _ member)
      have here : (textField column).length ≤ 2 ^ 32 := by
        cases column with
        | none => decide
        | some columnVal =>
          have written := assembleLenencUnsignedLong_length columnVal.length
          have few := calcLenencIntLen_le columnVal.length
          have size := sized columnVal mem_cons_self
          rw [textField, length_append]
          omega
      rw [textPayload, flatMap_cons, length_append, length_cons]
      rw [textPayload] at later
      omega
  have total := bound row.columns row.sized
  have few := Nat.mul_le_mul_right (2 ^ 32) row.supported
  omega

theorem splitLenenc_pours {s : Splitting} {remaining : Nat} (balanced : s.Balanced remaining) {lenenc : Bytes}
    (short : lenenc.length ≤ 9) (needed : lenenc.length ≤ remaining) (seq : Nat) :
    Pours s seq lenenc (splitLenenc s lenenc) ∧ (splitLenenc s lenenc).2.Balanced (remaining - lenenc.length) := by
  have wide : 9 ≤ MYS_MAX_PACKET_LENGTH := by decide
  unfold splitLenenc
  by_cases room : lenenc.length ≤ s.packetFreeSize
  · rw [if_pos room]
    refine ⟨pours_fits room ?_ rfl ⟨Nat.le_refl _, by omega⟩, balanced.take room needed⟩
    rw [rendered, take_length]
    exact append_nil _
  · have exceeds : s.packetFreeSize < lenenc.length := by omega
    have left : (lenenc.drop s.packetFreeSize).length = lenenc.length - s.packetFreeSize := length_drop
    rw [if_neg room, ← left]
    have behind : (lenenc.drop s.packetFreeSize).length ≤ s.turn.packetFreeSize := by
      show _ ≤ MYS_MAX_PACKET_LENGTH
      omega
    have second : Pours s.turn (seq + 1) (lenenc.drop s.packetFreeSize)
        ([.filled (lenenc.drop s.packetFreeSize) (lenenc.drop s.packetFreeSize).length],
          s.turn.take (lenenc.drop s.packetFreeSize).length) := by
      refine pours_fits behind ?_ rfl ⟨Nat.le_refl _, by omega⟩
      rw [rendered, take_length]
      exact append_nil _
    have first : ∀ w ∈ [Write.filled lenenc s.packetFreeSize], w.Fits := forall_mem_singleton.mpr ⟨by omega, by omega⟩
    have settled := (balanced.turn exceeds needed seq).2.2.take behind (by omega)
    have order : remaining - s.packetFreeSize - (lenenc.drop s.packetFreeSize).length = remaining - lenenc.length := by
      omega
    rw [order] at settled
    exact ⟨second.exceeds balanced exceeds needed (append_nil _) rfl first, settled⟩

theorem splitNull_pours (balanced : s.Balanced remaining) (needed : 1 ≤ remaining)
    (seq : Nat) : Pours s seq [0xFB] (splitNull s) ∧ (splitNull s).2.Balanced (remaining - 1) := by
  unfold splitNull
  by_cases room : 1 ≤ s.packetFreeSize
  · rw [if_pos room]
    exact ⟨@pours_fits s [0xFB] room seq (.filled [0xFB] 1) rfl rfl ⟨Nat.le_refl _, by decide⟩,
      balanced.take room needed⟩
  rw [if_neg room]
  have empty : s.packetFreeSize = 0 := by omega
  have exceeds : s.packetFreeSize < [(0xFB : UInt8)].length := by
    rw [empty]
    decide
  have behind : [(0xFB : UInt8)].length ≤ s.turn.packetFreeSize := MYS_MAX_PACKET_LENGTH_pos
  have second : Pours s.turn (seq + 1) ([(0xFB : UInt8)].drop s.packetFreeSize)
      ([.filled [0xFB] 1], s.turn.take 1) := by
    rw [empty]
    exact pours_fits behind rfl rfl ⟨Nat.le_refl _, by decide⟩
  have settled := (balanced.turn exceeds needed seq).2.2.take behind (by rw [empty]; exact needed)
  rw [empty] at settled
  refine ⟨@Pours.exceeds s [0xFB] remaining seq [] _ balanced exceeds needed ?_ rfl nofun second, settled⟩
  rw [empty]
  rfl

theorem splitField_pours (balanced : s.Balanced remaining) (column : Option Bytes)
    (needed : (textField column).length ≤ remaining) (seq : Nat) :
    Pours s seq (textField column) (splitField s column) ∧
      (splitField s column).2.Balanced (remaining - (textField column).length) := by
  cases column with
  | none => exact splitNull_pours balanced needed seq
  | some columnVal =>
    have written := assembleLenencUnsignedLong_length columnVal.length
    have short := calcLenencIntLen_le columnVal.length
    rw [textField, length_append] at needed
    obtain ⟨first, middle⟩ :=
      @splitLenenc_pours s remaining balanced (assembleLenencUnsignedLong columnVal.length) (by omega) (by omega) seq
    obtain ⟨second, settled⟩ := splitValue_pours _ columnVal middle (by omega) (seq + headers (splitLenenc s _).1)
    rw [Nat.sub_sub, ← length_append] at settled
    exact ⟨first.append second, settled⟩

theorem splitFields_pours {columns : List (Option Bytes)} (balanced : s.Balanced (textPayload columns).length)
    (seq : Nat) : Pours s seq (textPayload columns) (splitFields s columns) := by
  induction columns generalizing s seq with
  | nil => exact ⟨rfl, rfl, nofun⟩
  | cons column columns ih =>
    have total :
        (textPayload (column :: columns)).length = (textField column).length + (textPayload columns).length := by
      rw [textPayload, flatMap_cons, length_append]
      rfl
    obtain ⟨first, rest⟩ := splitField_pours balanced column (by omega) seq
    rw [total, Nat.add_sub_cancel_left] at rest
    exact first.append (ih rest (seq + headers (splitField s column).1))

theorem wholeFields_rendered (columns : List (Option Bytes)) (seq : Nat) :
    rendered seq (columns.flatMap wholeField) = textPayload columns ∧ ∀ w ∈ columns.flatMap wholeField, w.Fits := by
  induction columns with
  | nil => exact ⟨rfl, nofun⟩
  | cons column columns ih =>
    obtain ⟨later, fits⟩ := ih
    have here : rendered seq (wholeField column) = textField column ∧ headers (wholeField column) = 0 ∧
        ∀ w ∈ wholeField column, w.Fits := by
      cases column with
      | none =>
        exact ⟨rfl, rfl, forall_mem_singleton.mpr ⟨Nat.le_refl _, by decide⟩⟩
      | some columnVal =>
        have written := assembleLenencUnsignedLong_length columnVal.length
        have short := calcLenencIntLen_le columnVal.length
        refine ⟨?_, rfl, forall_mem_cons.mpr ⟨⟨Nat.le_refl _, by omega⟩, forall_mem_singleton.mpr trivial⟩⟩
        simp only [wholeField, rendered, take_length, append_nil, textField]
    obtain ⟨output, plain, fitsHere⟩ := here
    rw [flatMap_cons, rendered_append, output, plain, Nat.add_zero, later]
    exact ⟨rfl, forall_mem_append.mpr ⟨fitsHere, fits⟩⟩

/-- `printTupText` writes the framing of the row but for the empty packet behind full ones. -/
theorem textWrites_rendered (row : TextRow) (seq : Nat) :
    frames MYS_MAX_PACKET_LENGTH seq (textPayload row.columns) =
        rendered seq (textWrites row.columns) ++ terminator MYS_MAX_PACKET_LENGTH seq (textPayload row.columns) ∧
      ∀ w ∈ textWrites row.columns, w.Fits := by
  have small := row.payload_lt
  have framed := frames_eq_write MYS_MAX_PACKET_LENGTH_pos (textPayload row.columns) seq
  unfold textWrites
  rw [textRowLen_eq]
  by_cases one : (textPayload row.columns).length ≤ MYS_MAX_PACKET_LENGTH
  · obtain ⟨output, fits⟩ := wholeFields_rendered row.columns (seq + 1)
    rw [if_pos one, rendered, output, framed, Nat.min_eq_left one,
      Writer.write_fits (show _ ≤ (Writer.mk MYS_MAX_PACKET_LENGTH _ _).free from one), append_assoc]
    exact ⟨rfl, forall_mem_cons.mpr ⟨trivial, fits⟩⟩
  · have balanced : (Splitting.mk (textPayload row.columns).length MYS_MAX_PACKET_LENGTH).Balanced
        (textPayload row.columns).length := ⟨Nat.add_comm _ _, small⟩
    have pours := splitFields_pours balanced (seq + 1)
    rw [if_neg one, rendered, pours.output, framed, Nat.min_eq_right (by omega)]
    exact ⟨rfl, forall_mem_cons.mpr ⟨trivial, pours.fits⟩⟩

theorem printTupText_select {row : TextRow} {ids : InsertIds} {commandTag : CommandTag}
    (sent : commandTag ≠ .plain .insert) : printTupText ids row.columns commandTag =
      .ok (ids, textWrites row.columns) := by
  unfold printTupText
  rw [if_neg (Nat.not_lt.mpr row.supported)]
  split
  · rfl
  · rw [if_neg sent]

theorem terminator_eq_nil_iff {limit seq : Nat} {payload : Bytes} :
    terminator limit seq payload = [] ↔ ¬(0 < payload.length ∧ limit ∣ payload.length) := by
  unfold terminator
  split
  · rename_i ends
    have header := header_length 0 (seq + payload.length / limit)
    constructor
    · intro empty
      rw [empty] at header
      cases header
    · exact fun other => absurd ends other
  · rename_i open'
    exact ⟨fun _ => open', fun _ => rfl⟩

theorem textFramed_iff_terminator {net : NetTransceiver} (ready : net.Ready) (row : TextRow) (ids : InsertIds)
    {commandTag : CommandTag} (sent : commandTag ≠ .plain .insert) :
    TextFramed net ids row.columns commandTag ↔
      terminator MYS_MAX_PACKET_LENGTH net.netPacketSeqID (textPayload row.columns) = [] := by
  obtain ⟨framed, fits⟩ := textWrites_rendered row net.netPacketSeqID
  have printed := @printTupText_select row ids commandTag sent
  have carried : TextFramed net ids row.columns commandTag ↔
      Carries net (textWrites row.columns) (textPayload row.columns) := by
    constructor
    · rintro ⟨ids', writes, net', bytes, called, rest⟩
      cases printed.symm.trans called
      exact ⟨net', bytes, rest⟩
    · rintro ⟨net', bytes, rest⟩
      exact ⟨ids, textWrites row.columns, net', bytes, printed, rest⟩
  rw [carried, carries_iff ready fits, framed]
  exact self_eq_append_right

/-- A text row is framed exactly if its payload does not fill its last packet. -/
theorem text_rows_framed_iff {net : NetTransceiver} (ready : net.Ready) (row : TextRow) (ids : InsertIds)
    {commandTag : CommandTag} (sent : commandTag ≠ .plain .insert) :
    TextFramed net ids row.columns commandTag ↔
      ¬(0 < (textPayload row.columns).length ∧ MYS_MAX_PACKET_LENGTH ∣ (textPayload row.columns).length) := by
  rw [textFramed_iff_terminator ready row ids sent, terminator_eq_nil_iff]

theorem initNetTransceiver_ready : (initNetTransceiver []).Ready :=
  ⟨Nat.le_refl _, Nat.zero_le _, by decide, by decide, nofun⟩

def shortRow : TextRow := ⟨[some (ascii "a"), none], by decide, by
  intro v member
  rcases mem_cons.mp member with same | rest
  · cases same
    decide
  · cases mem_singleton.mp rest⟩

theorem text_rows_framed_short : TextFramed (initNetTransceiver []) ⟨0, 0, 0⟩ shortRow.columns (.plain .select) :=
  (text_rows_framed_iff initNetTransceiver_ready shortRow ⟨0, 0, 0⟩ (by decide)).mpr (by decide)

theorem calcLenencIntLen_full : calcLenencIntLen (MYS_MAX_PACKET_LENGTH - 4) = 4 := by
  unfold calcLenencIntLen MYS_MAX_PACKET_LENGTH
  simp

/-- A value of `2 ^ 24 - 5` bytes fills a packet with its length. -/
theorem textPayload_full {columnVal : Bytes} (size : columnVal.length = MYS_MAX_PACKET_LENGTH - 4) :
    (textPayload [some columnVal]).length = MYS_MAX_PACKET_LENGTH := by
  have wide : 4 ≤ MYS_MAX_PACKET_LENGTH := by decide
  rw [← textRowLen_eq, textRowLen, textRowLen, size, calcLenencIntLen_full]
  omega

def fullRow : TextRow := ⟨[some (List.replicate (MYS_MAX_PACKET_LENGTH - 4) 97)], by
    rw [length_singleton]
    omega, by
  intro v member
  cases mem_singleton.mp member
  rw [length_replicate]
  decide⟩

/-- The row is one full packet, and the packet that would end it is missing. -/
theorem text_row_unfinished : ¬TextFramed (initNetTransceiver []) ⟨0, 0, 0⟩ fullRow.columns (.plain .select) := by
  have length : (textPayload fullRow.columns).length = MYS_MAX_PACKET_LENGTH :=
    textPayload_full length_replicate
  have full : 0 < (textPayload fullRow.columns).length ∧
      MYS_MAX_PACKET_LENGTH ∣ (textPayload fullRow.columns).length := by
    rw [length]
    exact ⟨MYS_MAX_PACKET_LENGTH_pos, Nat.dvd_refl _⟩
  intro framed
  have ends := (textFramed_iff_terminator initNetTransceiver_ready fullRow ⟨0, 0, 0⟩ (by decide)).mp framed
  exact terminator_eq_nil_iff.mp ends full

end OpenHalo
