import OpenHalo.Net.WriteBuffer
import OpenHalo.Serve

namespace OpenHalo
open Octets Memory Framing List

variable {body rest : Bytes} {max_allowed_packet offset : Nat}

def MaxAllocSize : Nat := 0x3fffffff

/-- What `secure_read` finds: at least one byte, an interrupt, the end of the stream, or an error. -/
inductive ReadTurn
  | arrived (first : UInt8) (more : Bytes)
  | interrupted
  | closed
  | failed
deriving Repr, DecidableEq

structure Arrival where
  bytes : Bytes
  complete : Bool
  turns : List ReadTurn

/-- `readBytes`: arrived bytes that are not asked for wait for the next call. -/
def readBytes : Nat → List ReadTurn → Arrival
  | 0, turns => ⟨[], true, turns⟩
  | _ + 1, [] => ⟨[], false, []⟩
  | len + 1, .interrupted :: turns => readBytes (len + 1) turns
  | _ + 1, .closed :: turns => ⟨[], false, turns⟩
  | _ + 1, .failed :: turns => ⟨[], false, turns⟩
  | len + 1, .arrived first more :: turns =>
    match more.drop len with
    | [] =>
      let r := readBytes (len - more.length) turns
      ⟨first :: more ++ r.bytes, r.complete, r.turns⟩
    | next :: later => ⟨first :: more.take len, true, .arrived next later :: turns⟩

inductive HeaderRead
  | packet (payloadLen : Nat) (turns : List ReadTurn)
  | eof
  | outOfOrder (packetSeqIdFromFront : Nat)

def readAndProcessPacketHeader (netPacketSeqID : Nat) (turns : List ReadTurn) : HeaderRead :=
  let r := readBytes 4 turns
  if r.complete then
    let packetSeqIdFromFront := (r.bytes.getD 3 0).toNat
    if packetSeqIdFromFront = netPacketSeqID then .packet (littleEndian (r.bytes.take 3)) r.turns
    else .outOfOrder packetSeqIdFromFront
  else .eof

/-- `enlargeStringInfo`: the allocation at least doubles. -/
def enlargeStringInfo (str : StringInfo) (needed : Nat) : Except ErrorData StringInfo :=
  if MaxAllocSize - str.len ≤ needed then .error ⟨261, ascii "out of memory"⟩
  else if needed + str.len + 1 ≤ str.maxlen then .ok str
  else .ok { str with maxlen := min (enlarge (needed + str.len + 1) 32 (2 * str.maxlen)) MaxAllocSize }

def ensureRoom (inBuf : StringInfo) (payloadLen : Nat) : Except ErrorData StringInfo :=
  if inBuf.maxlen < payloadLen + inBuf.offset + inBuf.len then enlargeStringInfo inBuf (payloadLen + inBuf.offset)
  else .ok inBuf

/-- What has arrived stands in the buffer, but counts only if it is complete. -/
def readPacketPayload (inBuf : StringInfo) (payloadLen : Nat) (turns : List ReadTurn) :
    Except ErrorData (Bool × StringInfo × List ReadTurn) :=
  match ensureRoom inBuf payloadLen with
  | .error edata => .error edata
  | .ok inBuf =>
    let r := readBytes payloadLen turns
    let filled := { inBuf with data := write inBuf.data (inBuf.offset + inBuf.len) r.bytes }
    if r.complete then .ok (true, { filled with len := inBuf.len + payloadLen }, r.turns)
    else .ok (false, filled, r.turns)

def outOfOrderError (expected got : Nat) : ErrorData :=
  elogError (ascii "The packet sequence number from client is error, except " ++ decimal expected ++ ascii " get " ++
    decimal got ++ ascii ".")

def tooLongError (blanks : String) (payloadLen max_allowed_packet : Nat) : ErrorData :=
  elogError (ascii "The length of payload(" ++ decimal payloadLen ++ ascii ") from client bigger than" ++
    ascii blanks ++ ascii "'max_allowed_packet(" ++ decimal max_allowed_packet ++
    ascii ")' bytes. Connection will be disconnect.")

/-- The loop of `readAndProcessPacket` behind a full packet. Each further full one lengthens the
payload, so the limit bounds them. -/
def readFurtherPackets (max_allowed_packet : Nat) :
    Nat → Nat → StringInfo → List ReadTurn → Except ErrorData (Option (StringInfo × List ReadTurn))
  | 0, _, _, _ => .ok none
  | fuel + 1, netPacketSeqID, inBuf, turns =>
    match readAndProcessPacketHeader netPacketSeqID turns with
    | .eof => .ok none
    | .outOfOrder got => .error (outOfOrderError netPacketSeqID got)
    | .packet payloadLen turns =>
      if max_allowed_packet < inBuf.len + payloadLen then
        .error (tooLongError " " (inBuf.len + payloadLen) max_allowed_packet)
      else match readPacketPayload inBuf payloadLen turns with
        | .error edata => .error edata
        | .ok (false, _, _) => .ok none
        | .ok (true, inBuf, turns) =>
          if payloadLen = SINGLE_PACKET_MAX_PAYLOAD_LENGTH then
            readFurtherPackets max_allowed_packet fuel (netPacketSeqID + 1) inBuf turns
          else .ok (some (inBuf, turns))

def StringInfo.terminate (inBuf : StringInfo) : StringInfo :=
  { inBuf with data := write inBuf.data (inBuf.len + inBuf.offset) [0] }

/-- `readAndProcessPacket`: a first packet that is incomplete goes unnoticed. -/
def readAndProcessPacket (max_allowed_packet netPacketSeqID : Nat) (inBuf : StringInfo) (turns : List ReadTurn) :
    Except ErrorData (Option (StringInfo × List ReadTurn)) :=
  match readAndProcessPacketHeader netPacketSeqID turns with
  | .eof => .ok none
  | .outOfOrder got => .error (outOfOrderError netPacketSeqID got)
  | .packet payloadLen turns =>
    if max_allowed_packet < payloadLen then .error (tooLongError "             " payloadLen max_allowed_packet)
    else match readPacketPayload inBuf payloadLen turns with
      | .error edata => .error edata
      | .ok (_, inBuf, turns) =>
        if payloadLen < SINGLE_PACKET_MAX_PAYLOAD_LENGTH then .ok (some (inBuf.terminate, turns))
        else
          match readFurtherPackets max_allowed_packet (max_allowed_packet / SINGLE_PACKET_MAX_PAYLOAD_LENGTH + 1)
              (netPacketSeqID + 1) inBuf turns with
          | .error edata => .error edata
          | .ok none => .ok none
          | .ok (some (inBuf, turns)) => .ok (some (inBuf.terminate, turns))

def resetStringInfo (str : StringInfo) : StringInfo := { str with data := write str.data 0 [0], len := 0 }

def readPayload (max_allowed_packet : Nat) (inBuf : StringInfo) (turns : List ReadTurn) :
    Except ErrorData (StringInfo × List ReadTurn) :=
  match readAndProcessPacket max_allowed_packet 0 (resetStringInfo inBuf) turns with
  | .error edata => .error edata
  | .ok none => .error (elogError (ascii "Client has disconnect when read."))
  | .ok (some r) => .ok r

def delivered : List ReadTurn → Bytes
  | [] => []
  | .arrived first more :: turns => first :: more ++ delivered turns
  | .interrupted :: turns => delivered turns
  | .closed :: turns => delivered turns
  | .failed :: turns => delivered turns

def Intact (turns : List ReadTurn) : Prop := ∀ turn ∈ turns, turn ≠ .closed ∧ turn ≠ .failed

variable {turns : List ReadTurn} {inBuf : StringInfo} {payload : Bytes}

theorem Intact.tail {turn : ReadTurn} (intact : Intact (turn :: turns)) : Intact turns :=
  (forall_mem_cons.mp intact).2

theorem readBytes_delivered {bytes : Bytes} (intact : Intact turns) (arrives : delivered turns = bytes ++ rest) :
    ∃ turns', readBytes bytes.length turns = ⟨bytes, true, turns'⟩ ∧ Intact turns' ∧ delivered turns' = rest := by
  induction turns generalizing bytes with
  | nil =>
    obtain ⟨rfl, rfl⟩ := append_eq_nil_iff.mp arrives.symm
    exact ⟨[], rfl, intact, rfl⟩
  | cons turn turns ih =>
    cases bytes with
    | nil => exact ⟨turn :: turns, rfl, intact, arrives⟩
    | cons b bs =>
      cases turn with
      | interrupted => exact ih intact.tail arrives
      | closed => exact absurd rfl (intact .closed mem_cons_self).1
      | failed => exact absurd rfl (intact .failed mem_cons_self).2
      | arrived first more =>
        obtain ⟨rfl, same⟩ := List.cons.inj arrives
        rw [length_cons, readBytes]
        rcases append_eq_append_iff.mp same with ⟨later, rfl, waits⟩ | ⟨surplus, rfl, waits⟩
        · obtain ⟨turns', read, kept, left⟩ := ih intact.tail waits
          have fits : more.drop (more ++ later).length = [] := by
            rw [drop_eq_nil_iff, length_append]
            omega
          have missing : (more ++ later).length - more.length = later.length := by
            rw [length_append]
            omega
          rw [fits, missing, read]
          exact ⟨turns', rfl, kept, left⟩
        · cases surplus with
          | nil =>
            obtain ⟨turns', read, kept, left⟩ := @ih [] intact.tail waits.symm
            have nothing : readBytes 0 turns = ⟨[], true, turns'⟩ := read
            exact ⟨turns', by simp [nothing], kept, left⟩
          | cons next later =>
            rw [drop_left, take_left]
            exact ⟨_, rfl, forall_mem_cons.mpr ⟨⟨nofun, nofun⟩, intact.tail⟩, waits.symm⟩

theorem readAndProcessPacketHeader_eq {n seq : Nat} {turns' : List ReadTurn} (small : n < 256 ^ 3)
    (numbered : seq < 256) (read : readBytes 4 turns = ⟨header n seq, true, turns'⟩) :
    readAndProcessPacketHeader seq turns = .packet n turns' := by
  obtain ⟨a, b, c, bytes, value⟩ := littleEndian_header small seq
  have number : (UInt8.ofNat seq).toNat = seq := by
    rw [UInt8.toNat_ofNat']
    omega
  have length : ([a, b, c, UInt8.ofNat seq] : Bytes).take 3 = [a, b, c] := rfl
  rw [bytes] at read
  simp only [readAndProcessPacketHeader, read, length, value]
  exact if_pos number

theorem readAndProcessPacketHeader_delivered {n seq : Nat} (intact : Intact turns) (small : n < 256 ^ 3)
    (numbered : seq < 256) (arrives : delivered turns = header n seq ++ rest) :
    ∃ turns', readAndProcessPacketHeader seq turns = .packet n turns' ∧ Intact turns' ∧ delivered turns' = rest := by
  obtain ⟨turns', read, kept, left⟩ := readBytes_delivered intact arrives
  rw [header_length] at read
  exact ⟨turns', readAndProcessPacketHeader_eq small numbered read, kept, left⟩

/-- The buffer holds a payload, or the part of it that has been read. -/
structure StringInfo.Holds (inBuf : StringInfo) (offset : Nat) (payload : Bytes) : Prop where
  allocated : 0 < inBuf.maxlen
  placed : inBuf.offset = offset
  counted : inBuf.len = payload.length
  stored : read inBuf.data offset payload.length = payload

theorem ensureRoom_holds {payloadLen : Nat} (holds : inBuf.Holds offset payload)
    (room : payload.length + payloadLen + offset < MaxAllocSize) :
    ∃ inBuf', ensureRoom inBuf payloadLen = .ok inBuf' ∧ inBuf'.Holds offset payload := by
  obtain ⟨allocated, placed, counted, stored⟩ := holds
  unfold ensureRoom
  split
  · unfold enlargeStringInfo
    rw [if_neg (by omega)]
    split
    · exact ⟨inBuf, rfl, allocated, placed, counted, stored⟩
    refine ⟨_, rfl, ?_, placed, counted, stored⟩
    have grown := le_enlarge (payloadLen + inBuf.offset + inBuf.len + 1) 32 (2 * inBuf.maxlen)
    show 0 < min _ MaxAllocSize
    omega
  · exact ⟨inBuf, rfl, allocated, placed, counted, stored⟩

theorem readPacketPayload_delivered {payload chunk : Bytes} (holds : inBuf.Holds offset payload)
    (room : payload.length + chunk.length + offset < MaxAllocSize) (intact : Intact turns)
    (arrives : delivered turns = chunk ++ rest) :
    ∃ inBuf' turns', readPacketPayload inBuf chunk.length turns = .ok (true, inBuf', turns') ∧
      inBuf'.Holds offset (payload ++ chunk) ∧ Intact turns' ∧ delivered turns' = rest := by
  obtain ⟨large, made, allocated, placed, counted, stored⟩ := ensureRoom_holds holds room
  obtain ⟨turns', read, kept, left⟩ := readBytes_delivered intact arrives
  refine ⟨{ large with data := write large.data (large.offset + large.len) chunk, len := large.len + chunk.length },
    turns', ?_, ⟨allocated, placed, ?_, ?_⟩, kept, left⟩
  · rw [readPacketPayload, made]
    simp [read]
  · simp [counted]
  · have front : Memory.read (write large.data (large.offset + large.len) chunk) offset payload.length = payload := by
      rw [@read_congr _ large.data, stored]
      intro i _ upper
      exact write_before (by omega)
    simp only [length_append]
    rw [read_append, front, placed, counted, read_write_self]

theorem StringInfo.Holds.terminate (holds : inBuf.Holds offset payload) :
    inBuf.terminate.Holds offset payload := by
  obtain ⟨allocated, placed, counted, stored⟩ := holds
  refine ⟨allocated, placed, counted, ?_⟩
  rw [@read_congr _ inBuf.data, stored]
  intro i _ upper
  exact write_before (by omega)

theorem SINGLE_PACKET_MAX_PAYLOAD_LENGTH_pos : 0 < SINGLE_PACKET_MAX_PAYLOAD_LENGTH := by decide

theorem SINGLE_PACKET_MAX_PAYLOAD_LENGTH_lt : SINGLE_PACKET_MAX_PAYLOAD_LENGTH < 256 ^ 3 := by decide

theorem readFurtherPackets_delivered {max_allowed_packet offset : Nat} (payload : Bytes) :
    ∀ {fuel seq : Nat} {inBuf : StringInfo} {front rest : Bytes} {turns : List ReadTurn}, inBuf.Holds offset front →
      front.length + payload.length ≤ max_allowed_packet → front.length + payload.length + offset < MaxAllocSize →
      payload.length / SINGLE_PACKET_MAX_PAYLOAD_LENGTH < fuel →
      seq + payload.length / SINGLE_PACKET_MAX_PAYLOAD_LENGTH < 256 → Intact turns →
      delivered turns = frames SINGLE_PACKET_MAX_PAYLOAD_LENGTH seq payload ++ rest →
      ∃ inBuf' turns', readFurtherPackets max_allowed_packet fuel seq inBuf turns = .ok (some (inBuf', turns')) ∧
        inBuf'.Holds offset (front ++ payload) ∧ Intact turns' ∧ delivered turns' = rest := by
  have positive := SINGLE_PACKET_MAX_PAYLOAD_LENGTH_pos
  have bounded := SINGLE_PACKET_MAX_PAYLOAD_LENGTH_lt
  induction payload using payload_induction positive with
  | short payload short =>
    intro fuel seq inBuf front rest turns holds allowed room enough numbered intact arrives
    obtain ⟨fuel, rfl⟩ := Nat.exists_eq_add_one.mpr (Nat.zero_lt_of_lt enough)
    rw [frames_short short] at arrives
    obtain ⟨turns₁, head, intact₁, arrives₁⟩ := readAndProcessPacketHeader_delivered intact (Nat.lt_trans short bounded)
      (Nat.lt_of_le_of_lt (Nat.le_add_right _ _) numbered) arrives
    obtain ⟨inBuf', turns₂, body, holds', intact₂, arrives₂⟩ := readPacketPayload_delivered holds room intact₁ arrives₁
    refine ⟨inBuf', turns₂, ?_, holds', intact₂, arrives₂⟩
    have within : ¬max_allowed_packet < inBuf.len + payload.length := by
      rw [holds.counted]
      omega
    simp only [readFurtherPackets, head, if_neg within, body, if_neg (Nat.ne_of_lt short)]
  | long payload long ih =>
    intro fuel seq inBuf front rest turns holds allowed room enough numbered intact arrives
    obtain ⟨fuel, rfl⟩ := Nat.exists_eq_add_one.mpr (Nat.zero_lt_of_lt enough)
    have packets : payload.length / SINGLE_PACKET_MAX_PAYLOAD_LENGTH =
        (payload.drop SINGLE_PACKET_MAX_PAYLOAD_LENGTH).length / SINGLE_PACKET_MAX_PAYLOAD_LENGTH + 1 := by
      rw [length_drop]
      exact Nat.div_eq_sub_div positive long
    have full : (payload.take SINGLE_PACKET_MAX_PAYLOAD_LENGTH).length = SINGLE_PACKET_MAX_PAYLOAD_LENGTH :=
      length_take_of_le long
    have left : (payload.drop SINGLE_PACKET_MAX_PAYLOAD_LENGTH).length =
        payload.length - SINGLE_PACKET_MAX_PAYLOAD_LENGTH := length_drop
    rw [packets] at enough numbered
    generalize (payload.drop SINGLE_PACKET_MAX_PAYLOAD_LENGTH).length / SINGLE_PACKET_MAX_PAYLOAD_LENGTH = later
      at enough numbered ih
    rw [frames_long positive long, append_assoc, append_assoc] at arrives
    obtain ⟨turns₁, head, intact₁, arrives₁⟩ := readAndProcessPacketHeader_delivered intact bounded (by omega) arrives
    obtain ⟨next, turns₂, body, holds₂, intact₂, arrives₂⟩ :=
      readPacketPayload_delivered holds (by rw [full]; omega) intact₁ arrives₁
    rw [full] at body
    obtain ⟨inBuf', turns₃, further, holds₃, intact₃, arrives₃⟩ := @ih fuel (seq + 1) _ _ _ _ holds₂
      (by rw [length_append, full, left]; omega) (by rw [length_append, full, left]; omega) (by omega) (by omega)
      intact₂ arrives₂
    rw [append_assoc, take_append_drop] at holds₃
    refine ⟨inBuf', turns₃, ?_, holds₃, intact₃, arrives₃⟩
    have within : ¬max_allowed_packet < inBuf.len + SINGLE_PACKET_MAX_PAYLOAD_LENGTH := by
      rw [holds.counted]
      omega
    simp only [readFurtherPackets, head, if_neg within, body, if_true, further]

theorem readAndProcessPacketHeader_le {seq payloadLen : Nat} {turns' : List ReadTurn}
    (head : readAndProcessPacketHeader seq turns = .packet payloadLen turns') :
    payloadLen ≤ SINGLE_PACKET_MAX_PAYLOAD_LENGTH := by
  have small := littleEndian_lt ((readBytes 4 turns).bytes.take 3)
  have three : ((readBytes 4 turns).bytes.take 3).length ≤ 3 := length_take_le ..
  have power := Nat.pow_le_pow_right (show 0 < 256 by decide) three
  have limit : SINGLE_PACKET_MAX_PAYLOAD_LENGTH + 1 = 256 ^ 3 := by decide
  simp only [readAndProcessPacketHeader] at head
  split at head
  · split at head
    · cases head
      omega
    · cases head
  · cases head

theorem readFurtherPackets_inv {fuel seq : Nat} {inBuf' : StringInfo} {turns' : List ReadTurn}
    (reads : readFurtherPackets max_allowed_packet (fuel + 1) seq inBuf turns = .ok (some (inBuf', turns'))) :
    ∃ payloadLen behind next left, readAndProcessPacketHeader seq turns = .packet payloadLen behind ∧
      inBuf.len + payloadLen ≤ max_allowed_packet ∧ readPacketPayload inBuf payloadLen behind = .ok (true, next, left) ∧
      if payloadLen = SINGLE_PACKET_MAX_PAYLOAD_LENGTH then
        readFurtherPackets max_allowed_packet fuel (seq + 1) next left = .ok (some (inBuf', turns'))
      else next = inBuf' ∧ left = turns' := by
  rw [readFurtherPackets] at reads
  split at reads
  · cases reads
  · cases reads
  rename_i payloadLen behind head
  split at reads
  · cases reads
  rename_i allowed
  split at reads
  · cases reads
  · cases reads
  rename_i next left body
  refine ⟨payloadLen, behind, next, left, head, Nat.not_lt.mp allowed, body, ?_⟩
  split at reads
  next full => rwa [if_pos full]
  next last =>
    rw [if_neg last]
    cases reads
    exact ⟨rfl, rfl⟩

/-- Into an empty buffer the first packet is read as those behind it are. -/
theorem readAndProcessPacket_of_further {seq : Nat} {inBuf' : StringInfo} {turns' : List ReadTurn}
    (empty : inBuf.len = 0) (reads : readFurtherPackets max_allowed_packet
      (max_allowed_packet / SINGLE_PACKET_MAX_PAYLOAD_LENGTH + 2) seq inBuf turns = .ok (some (inBuf', turns'))) :
    readAndProcessPacket max_allowed_packet seq inBuf turns = .ok (some (inBuf'.terminate, turns')) := by
  obtain ⟨payloadLen, behind, next, left, head, allowed, body, rest⟩ := readFurtherPackets_inv reads
  rw [empty, Nat.zero_add] at allowed
  simp only [readAndProcessPacket, head, if_neg (Nat.not_lt.mpr allowed), body]
  split at rest
  next full => rw [if_neg (by omega), rest]
  next last =>
    obtain ⟨rfl, rfl⟩ := rest
    rw [if_pos (Nat.lt_of_le_of_ne (readAndProcessPacketHeader_le head) last)]

theorem packets_lt (limit : payload.length ≤ 2 ^ 30 - 1024) :
    payload.length / SINGLE_PACKET_MAX_PAYLOAD_LENGTH < 64 := by
  rw [Nat.div_lt_iff_lt_mul SINGLE_PACKET_MAX_PAYLOAD_LENGTH_pos]
  have room : 2 ^ 30 - 1024 < 64 * SINGLE_PACKET_MAX_PAYLOAD_LENGTH := by decide
  omega

/-- The framing of a payload is read, however it arrives. -/
theorem readPayload_intact (allowed : payload.length ≤ max_allowed_packet)
    (limit : payload.length ≤ 2 ^ 30 - 1024) (allocated : 0 < inBuf.maxlen) (offset : inBuf.offset < 1023)
    (intact : Intact turns) (arrives : delivered turns = frames SINGLE_PACKET_MAX_PAYLOAD_LENGTH 0 payload ++ rest) :
    ∃ inBuf' turns', readPayload max_allowed_packet inBuf turns = .ok (inBuf', turns') ∧
      inBuf'.Holds inBuf.offset payload ∧ Intact turns' ∧ delivered turns' = rest := by
  have few := packets_lt limit
  have room : payload.length + inBuf.offset < MaxAllocSize := by
    have sizes : 2 ^ 30 - 1024 + 1022 < MaxAllocSize := by decide
    omega
  have fuel : payload.length / SINGLE_PACKET_MAX_PAYLOAD_LENGTH <
      max_allowed_packet / SINGLE_PACKET_MAX_PAYLOAD_LENGTH + 2 :=
    Nat.lt_succ_of_le (Nat.le_succ_of_le (Nat.div_le_div_right allowed))
  have start : (resetStringInfo inBuf).Holds inBuf.offset [] := ⟨allocated, rfl, rfl, rfl⟩
  obtain ⟨last, turns', reads, holds, kept, left⟩ :=
    @readFurtherPackets_delivered max_allowed_packet _ payload _ 0 _ _ _ _ start (by rwa [length_nil, Nat.zero_add])
      (by rwa [length_nil, Nat.zero_add]) fuel (by omega) intact arrives
  refine ⟨last.terminate, turns', ?_, holds.terminate, kept, left⟩
  rw [readPayload, readAndProcessPacket_of_further rfl reads]

/-- What `readCommand` then takes off is the command the session goes on with. -/
theorem readCommand_received {c : UInt8} (holds : inBuf.Holds 128 (c :: body)) (junk : Mem) :
    inBuf.data 128 = (readCommand (c :: body) junk).1 ∧
      read inBuf.data 129 body.length = (readCommand (c :: body) junk).2.stmt := by
  have stored := holds.stored
  rw [length_cons, read_succ] at stored
  obtain ⟨command, text⟩ := List.cons.inj stored
  refine ⟨by rw [readCommand_firstChar, command], ?_⟩
  have loaded := read_write_self junk 128 ((c :: body) ++ [0])
  rw [length_append, read_append] at loaded
  have front := (append_inj loaded (by simp [Memory.read])).1
  rw [length_cons, read_succ] at front
  rw [text]
  exact (List.cons.inj front).2.symm

/-- What is written as packets is read back, in whatever pieces the bytes arrive. -/
theorem packets_round_trip {net : NetTransceiver} (ready : net.Ready) (first : net.netPacketSeqID = 0)
    {max_allowed_packet : Nat} {payload : Bytes} (allowed : payload.length ≤ max_allowed_packet)
    (limit : payload.length ≤ 2 ^ 30 - 1024) :
    ∃ net' bytes, net.writePacketHeaderPayloadNoFlush payload = .ok net' ∧ net'.stream = net.stream ++ bytes ∧
      ∀ (inBuf : StringInfo) (turns : List ReadTurn) (rest : Bytes), 0 < inBuf.maxlen → inBuf.offset < 1023 →
        Intact turns → delivered turns = bytes ++ rest →
        ∃ inBuf' turns', readPayload max_allowed_packet inBuf turns = .ok (inBuf', turns') ∧
          inBuf'.offset = inBuf.offset ∧ inBuf'.len = payload.length ∧
          read inBuf'.data inBuf.offset payload.length = payload ∧ delivered turns' = rest := by
  obtain ⟨net', written, wrote⟩ := @NetTransceiver.writePacketHeaderPayloadNoFlush_ready payload net 0 ready first
  refine ⟨net', _, written, wrote.stream, fun inBuf turns rest allocated offset intact arrives => ?_⟩
  obtain ⟨inBuf', turns', done, holds, -, left⟩ := readPayload_intact allowed limit allocated offset intact arrives
  exact ⟨inBuf', turns', done, holds.placed, holds.counted, holds.stored, left⟩

/-- A short payload, from a connection that takes single bytes. -/
theorem packets_round_trip_query :
    ∃ net' bytes, (initNetTransceiver [.accepted 0, .interrupted]).writePacketHeaderPayloadNoFlush
        (3 :: ascii "select 1") = .ok net' ∧
      net'.stream = (initNetTransceiver [.accepted 0, .interrupted]).stream ++ bytes ∧
      ∀ (inBuf : StringInfo) (turns : List ReadTurn) (rest : Bytes), 0 < inBuf.maxlen → inBuf.offset < 1023 →
        Intact turns → delivered turns = bytes ++ rest →
        ∃ inBuf' turns', readPayload 1024 inBuf turns = .ok (inBuf', turns') ∧
          inBuf'.offset = inBuf.offset ∧ inBuf'.len = (3 :: ascii "select 1").length ∧
          read inBuf'.data inBuf.offset (3 :: ascii "select 1").length = 3 :: ascii "select 1" ∧
          delivered turns' = rest :=
  @packets_round_trip _ ⟨Nat.le_refl _, Nat.zero_le _, by decide, by decide, by decide⟩ rfl 1024 _ (by decide)
    (by decide)

/-- Payloads read one after the other into the same buffer. -/
def readPayloads (max_allowed_packet : Nat) :
    Nat → StringInfo → List ReadTurn → Except ErrorData (List Bytes × List ReadTurn)
  | 0, _, turns => .ok ([], turns)
  | n + 1, inBuf, turns => do
    let (inBuf, turns) ← readPayload max_allowed_packet inBuf turns
    let (payloads, turns) ← readPayloads max_allowed_packet n inBuf turns
    .ok (read inBuf.data inBuf.offset inBuf.len :: payloads, turns)

/-- Commands sent without waiting are read in order, each whole, in whatever pieces they arrive. -/
theorem commands_received {payloads : List Bytes}
    (allowed : ∀ payload ∈ payloads, payload.length ≤ max_allowed_packet ∧ payload.length ≤ 2 ^ 30 - 1024)
    (allocated : 0 < inBuf.maxlen) (offset : inBuf.offset < 1023) (intact : Intact turns)
    (arrives : delivered turns = payloads.flatMap (frames SINGLE_PACKET_MAX_PAYLOAD_LENGTH 0) ++ rest) :
    ∃ turns', readPayloads max_allowed_packet payloads.length inBuf turns = .ok (payloads, turns') ∧
      delivered turns' = rest := by
  induction payloads generalizing inBuf turns with
  | nil => exact ⟨turns, rfl, arrives⟩
  | cons payload payloads ih =>
    obtain ⟨⟨small, limit⟩, later⟩ := forall_mem_cons.mp allowed
    rw [flatMap_cons, append_assoc] at arrives
    obtain ⟨inBuf', turns', done, holds, intact', left⟩ :=
      readPayload_intact small limit allocated offset intact arrives
    obtain ⟨turns₂, rest₂, behind⟩ := ih later holds.allocated (holds.placed ▸ offset) intact' left
    refine ⟨turns₂, ?_, behind⟩
    rw [length_cons, readPayloads, done]
    show (do let r ← readPayloads _ _ _ _; _) = _
    rw [rest₂, holds.placed, holds.counted, holds.stored]
    rfl

theorem commands_received_pings : ∃ turns', readPayloads 1024 2 ⟨fun _ => 0, 1024, 0, 128⟩
    [.arrived 1 [0, 0], .interrupted, .arrived 0 [14, 1, 0, 0, 0, 14]] = .ok ([[14], [14]], turns') ∧
    delivered turns' = [] :=
  @commands_received _ _ _ _ [[14], [14]] (by decide) (by decide) (by decide) (by unfold Intact; decide) (by decide)

end OpenHalo
