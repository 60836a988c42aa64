import OpenHalo.Net.WriteBuffer
import OpenHalo.AdapterState

namespace OpenHalo
open Octets Framing List

variable {net : NetTransceiver} {n remaining seq : Nat} {s : Splitting}

def MYS_MAX_PACKET_LENGTH : Nat := 256 * 256 * 256 - 1

theorem MYS_MAX_PACKET_LENGTH_pos : 0 < MYS_MAX_PACKET_LENGTH := by decide

theorem MYS_MAX_PACKET_LENGTH_lt : MYS_MAX_PACKET_LENGTH < 256 ^ 3 := by decide

def calcLenencIntLen (len : Nat) : Nat :=
  if len < 251 then 1 else if len < 0xffff then 3 else if len < 0xffffff then 4 else 9

def assembleLenencUnsignedLong (val : Nat) : Bytes :=
  if val < 251 then toLittleEndian 1 val
  else if val < 0xffff then 0xFC :: toLittleEndian 2 val
  else if val < 0xffffff then 0xFD :: toLittleEndian 3 val
  else 0xFE :: toLittleEndian 8 val

theorem assembleLenencUnsignedLong_length (val : Nat) :
    (assembleLenencUnsignedLong val).length = calcLenencIntLen val := by
  unfold assembleLenencUnsignedLong calcLenencIntLen
  repeat' split
  all_goals simp only [length_cons, toLittleEndian_length]

theorem calcLenencIntLen_le (len : Nat) : calcLenencIntLen len ≤ 9 := by
  unfold calcLenencIntLen
  repeat' split
  all_goals omega

/-- `atoll`: blanks, a sign, and digits up to the first other character. -/
def atoll (s : Bytes) : Int :=
  let t := s.dropWhile fun c => c = 32 ∨ 9 ≤ c ∧ c ≤ 13
  let digits : Bytes → Nat := fun r =>
    (r.takeWhile fun c => 48 ≤ c ∧ c ≤ 57).foldl (fun n c => 10 * n + (c.toNat - 48)) 0
  let value : Int := match t with
    | 45 :: r => -(digits r : Int)
    | 43 :: r | r => (digits r : Int)
  max (-(2 ^ 63)) (min (2 ^ 63 - 1) value)

structure InsertIds where
  curLastInsertIDTimes : Nat
  lastInsertID : Nat
  lastInsertIDForPacket : Nat
deriving Repr, DecidableEq

def InsertIds.note (ids : InsertIds) (columnVal : Bytes) : InsertIds :=
  if ids.curLastInsertIDTimes + 1 = 1 then
    let id := (atoll columnVal % 2 ^ 64).toNat
    ⟨ids.curLastInsertIDTimes + 1, id, id⟩
  else { ids with curLastInsertIDTimes := ids.curLastInsertIDTimes + 1 }

def columnNumberError (columnCount : Nat) : ErrorData :=
  ⟨261, ascii "table's column number " ++ decimal columnCount ++ ascii " bigger then 1017."⟩

/-- `writePacketHeaderNoFlush`, `writePacketPayloadNoFlush`, and `getWriteBufForPayload` with bytes of
which `finishWriteToBufNoFlush` keeps the first `n`. -/
inductive Write
  | header (payloadLen : Nat)
  | payload (bytes : Bytes)
  | filled (bytes : Bytes) (n : Nat)

def Write.perform (net : NetTransceiver) : Write → Except NetError NetTransceiver
  | .header payloadLen => net.writePacketHeaderNoFlush payloadLen
  | .payload bytes => net.writePacketPayloadNoFlush bytes
  | .filled bytes n => net.fillPayload bytes n

def performAll : List Write → NetTransceiver → Except NetError NetTransceiver
  | [], net => .ok net
  | w :: ws, net => do
    let net ← w.perform net
    performAll ws net

/-- The bytes of the calls, from packet number `seq` on. -/
def rendered : Nat → List Write → Bytes
  | _, [] => []
  | seq, .header payloadLen :: ws => Framing.header payloadLen seq ++ rendered (seq + 1) ws
  | seq, .payload bytes :: ws => bytes ++ rendered seq ws
  | seq, .filled bytes n :: ws => bytes.take n ++ rendered seq ws

def headers : List Write → Nat
  | [] => 0
  | .header _ :: ws => headers ws + 1
  | .payload _ :: ws => headers ws
  | .filled _ _ :: ws => headers ws

def Write.Fits : Write → Prop
  | .header _ => True
  | .payload _ => True
  | .filled bytes n => n ≤ bytes.length ∧ bytes.length ≤ 102400

theorem rendered_append (seq : Nat) (front back : List Write) :
    rendered seq (front ++ back) = rendered seq front ++ rendered (seq + headers front) back := by
  induction front generalizing seq with
  | nil => rfl
  | cons w ws ih =>
    cases w with
    | header payloadLen =>
      have count : seq + 1 + headers ws = seq + (headers ws + 1) := by omega
      rw [cons_append, rendered, ih, rendered, headers, count, append_assoc]
    | payload | filled => rw [cons_append, rendered, ih, rendered, headers, append_assoc]

theorem headers_append (front back : List Write) : headers (front ++ back) = headers front + headers back := by
  induction front with
  | nil => exact (Nat.zero_add _).symm
  | cons w ws ih =>
    cases w with
    | header payloadLen =>
      rw [cons_append, headers, headers]
      omega
    | payload | filled => exact ih

theorem Write.perform_ready (ready : net.Ready) (numbered : net.netPacketSeqID = seq % 256)
    {w : Write} (fits : w.Fits) :
    ∃ net', w.perform net = .ok net' ∧ net.Wrote (rendered seq [w]) (headers [w]) net' := by
  cases w with
  | header payloadLen =>
    obtain ⟨net', sent, wrote⟩ := NetTransceiver.writePacketHeaderNoFlush_ready ready payloadLen
    rw [numbered, header_mod] at wrote
    exact ⟨net', sent, wrote⟩
  | payload bytes =>
    obtain ⟨net', sent, wrote⟩ := NetTransceiver.writeOrFail_ready ready bytes
    rw [← append_nil bytes] at wrote
    exact ⟨net', sent, wrote⟩
  | filled bytes n =>
    obtain ⟨net', sent, wrote⟩ := NetTransceiver.fillPayload_ready ready fits.1 fits.2
    rw [← append_nil (bytes.take n)] at wrote
    exact ⟨net', sent, wrote⟩

theorem performAll_ready {net : NetTransceiver} {seq : Nat} (ready : net.Ready)
    (numbered : net.netPacketSeqID = seq % 256) {ws : List Write} (fits : ∀ w ∈ ws, w.Fits) :
    ∃ net', performAll ws net = .ok net' ∧ net.Wrote (rendered seq ws) (headers ws) net' := by
  induction ws generalizing net seq with
  | nil => exact ⟨net, rfl, ready.wrote_nil⟩
  | cons w ws ih =>
    obtain ⟨middle, first, wroteFirst⟩ := Write.perform_ready ready numbered (fits w mem_cons_self)
    have count : middle.netPacketSeqID = (seq + headers [w]) % 256 := by
      rw [wroteFirst.seq]
      omega
    obtain ⟨last, rest, wroteRest⟩ := ih wroteFirst.ready count fun w' member => fits w' (mem_cons_of_mem _ member)
    refine ⟨last, ?_, ?_⟩
    · rw [performAll, first]
      exact rest
    · have all := wroteFirst.trans wroteRest
      rwa [← rendered_append, ← headers_append] at all

/-- `a - b` in a `size_t`. -/
def sizeSub (a b : Nat) : Nat := (a + 2 ^ 64 - b) % 2 ^ 64

structure Splitting where
  rowRemainLen : Nat
  packetFreeSize : Nat

def Splitting.head (s : Splitting) : Write :=
  let rowRemainLen := sizeSub s.rowRemainLen MYS_MAX_PACKET_LENGTH
  .header (if rowRemainLen ≤ MYS_MAX_PACKET_LENGTH then rowRemainLen else MYS_MAX_PACKET_LENGTH)

def Splitting.turn (s : Splitting) : Splitting :=
  ⟨sizeSub s.rowRemainLen MYS_MAX_PACKET_LENGTH, MYS_MAX_PACKET_LENGTH⟩

/-- The counters once `n` bytes stand in the open packet. -/
def Splitting.take (s : Splitting) (n : Nat) : Splitting := { s with packetFreeSize := s.packetFreeSize - n }

def splitValue (s : Splitting) (columnVal : Bytes) : List Write × Splitting :=
  if columnVal.length ≤ s.packetFreeSize then ([.payload columnVal], s.take columnVal.length)
  else
    let later := splitValue s.turn (columnVal.drop s.packetFreeSize)
    (.payload (columnVal.take s.packetFreeSize) :: s.head :: later.1, later.2)
termination_by 2 * columnVal.length + if s.packetFreeSize = 0 then 1 else 0
decreasing_by
  rename_i exceeds
  have room : s.turn.packetFreeSize ≠ 0 := Nat.ne_of_gt MYS_MAX_PACKET_LENGTH_pos
  rw [if_neg room, length_drop]
  split <;> omega

def Splitting.writer (s : Splitting) (seq : Nat) : Writer := ⟨s.packetFreeSize, s.rowRemainLen, seq⟩

structure Pours (s : Splitting) (seq : Nat) (bytes : Bytes) (r : List Write × Splitting) : Prop where
  output : rendered seq r.1 = ((s.writer seq).write MYS_MAX_PACKET_LENGTH bytes).1
  state : ((s.writer seq).write MYS_MAX_PACKET_LENGTH bytes).2 = r.2.writer (seq + headers r.1)
  fits : ∀ w ∈ r.1, w.Fits

theorem Pours.append {bytes bytes' : Bytes} {r r' : List Write × Splitting}
    (first : Pours s seq bytes r) (second : Pours r.2 (seq + headers r.1) bytes' r') :
    Pours s seq (bytes ++ bytes') (r.1 ++ r'.1, r'.2) := by
  refine ⟨?_, ?_, forall_mem_append.mpr ⟨first.fits, second.fits⟩⟩
  · rw [Writer.write_append, first.state, rendered_append, first.output, second.output]
  · rw [Writer.write_append, first.state]
    rw [second.state, headers_append, Nat.add_assoc]

def Splitting.Balanced (s : Splitting) (remaining : Nat) : Prop :=
  s.rowRemainLen + s.packetFreeSize = MYS_MAX_PACKET_LENGTH + remaining ∧ s.rowRemainLen < 2 ^ 64

/-- A packet is opened only while more than a packet is left. -/
theorem Splitting.Balanced.turn (balanced : s.Balanced remaining)
    (exceeds : s.packetFreeSize < n) (needed : n ≤ remaining) (seq : Nat) :
    s.turn.writer (seq + 1) = (s.writer seq).turn MYS_MAX_PACKET_LENGTH ∧
      rendered seq [s.head] = (s.writer seq).head MYS_MAX_PACKET_LENGTH ∧
      s.turn.Balanced (remaining - s.packetFreeSize) := by
  obtain ⟨sum, small⟩ := balanced
  have left : sizeSub s.rowRemainLen MYS_MAX_PACKET_LENGTH = s.rowRemainLen - MYS_MAX_PACKET_LENGTH := by
    unfold sizeSub
    omega
  refine ⟨?_, ?_, ?_, ?_⟩
  · simp only [Splitting.turn, Splitting.writer, Writer.turn, left]
  · have least : (if s.rowRemainLen - MYS_MAX_PACKET_LENGTH ≤ MYS_MAX_PACKET_LENGTH then
        s.rowRemainLen - MYS_MAX_PACKET_LENGTH else MYS_MAX_PACKET_LENGTH) =
          min (s.rowRemainLen - MYS_MAX_PACKET_LENGTH) MYS_MAX_PACKET_LENGTH := by
      split <;> omega
    simp only [Splitting.head, left, rendered, append_nil, Writer.head, Splitting.writer, least]
  · simp only [Splitting.turn, left]
    omega
  · simp only [Splitting.turn, left]
    omega

theorem Splitting.Balanced.take (balanced : s.Balanced remaining)
    (fits : n ≤ s.packetFreeSize) (needed : n ≤ remaining) : (s.take n).Balanced (remaining - n) := by
  obtain ⟨sum, small⟩ := balanced
  refine ⟨?_, small⟩
  simp only [Splitting.take]
  omega

theorem pours_fits {s : Splitting} {bytes : Bytes} (room : bytes.length ≤ s.packetFreeSize) {seq : Nat} {w : Write}
    (output : rendered seq [w] = bytes) (plain : headers [w] = 0) (fits : w.Fits) :
    Pours s seq bytes ([w], s.take bytes.length) := by
  have written := @Writer.write_fits MYS_MAX_PACKET_LENGTH (s.writer seq) bytes room
  refine ⟨?_, ?_, forall_mem_singleton.mpr fits⟩
  · rw [written, output]
  · rw [written, plain]
    rfl

theorem Pours.exceeds {s : Splitting} {bytes : Bytes} {remaining seq : Nat} {front : List Write}
    {later : List Write × Splitting} (balanced : s.Balanced remaining) (exceeds : s.packetFreeSize < bytes.length)
    (needed : bytes.length ≤ remaining) (output : rendered seq front = bytes.take s.packetFreeSize)
    (plain : headers front = 0) (fits : ∀ w ∈ front, w.Fits)
    (pours : Pours s.turn (seq + 1) (bytes.drop s.packetFreeSize) later) :
    Pours s seq bytes (front ++ s.head :: later.1, later.2) := by
  obtain ⟨turned, headed, _⟩ := balanced.turn exceeds needed seq
  have written := @Writer.write_over MYS_MAX_PACKET_LENGTH MYS_MAX_PACKET_LENGTH_pos (s.writer seq) bytes exceeds
  have opened : rendered seq (s.head :: later.1) = rendered seq [s.head] ++ rendered (seq + 1) later.1 :=
    rendered_append seq [s.head] later.1
  have count : headers (front ++ s.head :: later.1) = 1 + headers later.1 := by
    rw [headers_append, plain, Nat.zero_add]
    exact headers_append [s.head] later.1
  refine ⟨?_, ?_, forall_mem_append.mpr ⟨fits, forall_mem_cons.mpr ⟨trivial, pours.fits⟩⟩⟩
  · rw [written, rendered_append, output, plain, Nat.add_zero, opened, headed, pours.output, turned]
    rfl
  · rw [written, ← turned, count, ← Nat.add_assoc]
    exact pours.state

theorem splitValue_pours (s : Splitting) (columnVal : Bytes) :
    ∀ {remaining : Nat}, s.Balanced remaining → columnVal.length ≤ remaining → ∀ seq,
      Pours s seq columnVal (splitValue s columnVal) ∧
        (splitValue s columnVal).2.Balanced (remaining - columnVal.length) := by
  fun_induction splitValue s columnVal with
  | case1 s columnVal fits =>
    intro remaining balanced needed seq
    exact ⟨pours_fits fits (append_nil _) rfl trivial, balanced.take fits needed⟩
  | case2 s columnVal exceeds later =>
    rename_i ih
    intro remaining balanced needed seq
    have beyond : s.packetFreeSize < columnVal.length := by omega
    have left : (columnVal.drop s.packetFreeSize).length = columnVal.length - s.packetFreeSize := length_drop
    have order : remaining - s.packetFreeSize - (columnVal.length - s.packetFreeSize) =
        remaining - columnVal.length := by
      omega
    obtain ⟨pours, settled⟩ := ih (balanced.turn beyond needed seq).2.2 (by omega) (seq + 1)
    rw [left, order] at settled
    have fits := forall_mem_singleton.mpr (show (Write.payload (columnVal.take s.packetFreeSize)).Fits from trivial)
    exact ⟨pours.exceeds balanced beyond needed (append_nil _) rfl fits, settled⟩

/-- The calls put one payload in packets on the stream, and nothing else. -/
def Carries (net : NetTransceiver) (writes : List Write) (payload : Bytes) : Prop :=
  ∃ net' bytes, performAll writes net = .ok net' ∧ net'.stream = net.stream ++ bytes ∧
    reassemble MYS_MAX_PACKET_LENGTH (bytes.length + 1) net.netPacketSeqID bytes = some (payload, [])

theorem carries_iff (ready : net.Ready) {writes : List Write} (fits : ∀ w ∈ writes, w.Fits)
    (payload : Bytes) : Carries net writes payload ↔
      rendered net.netPacketSeqID writes = frames MYS_MAX_PACKET_LENGTH net.netPacketSeqID payload := by
  obtain ⟨last, performed, wrote⟩ := performAll_ready ready (Nat.mod_eq_of_lt ready.numbered).symm fits
  constructor
  · rintro ⟨net', bytes, done, stream, taken⟩
    cases performed.symm.trans done
    have same : bytes = rendered net.netPacketSeqID writes := append_cancel_left (stream.symm.trans wrote.stream)
    rwa [reassemble_eq_iff MYS_MAX_PACKET_LENGTH_pos MYS_MAX_PACKET_LENGTH_lt, same] at taken
  · intro framed
    refine ⟨last, _, performed, wrote.stream, ?_⟩
    rwa [reassemble_eq_iff MYS_MAX_PACKET_LENGTH_pos MYS_MAX_PACKET_LENGTH_lt]

end OpenHalo
