import OpenHalo.Lib.Framing
import OpenHalo.Lib.Memory

namespace OpenHalo
open Octets Memory Framing List

def WBUFF_INITIAL_SIZE : Nat := 1024 * 1024
def SINGLE_PACKET_MAX_PAYLOAD_LENGTH : Nat := 256 * 256 * 256 - 1

/-- What `secure_write` does: it takes some bytes, `n + 1` at most, is interrupted, finds the connection
closed, or fails. -/
inductive WriteTurn
  | accepted (n : Nat)
  | interrupted
  | closed
  | failed
deriving Repr, DecidableEq

/-- The writing half: `wire` has the bytes the socket has taken, `turns` what it does next; behind them
it takes all it gets. -/
structure NetTransceiver where
  netPacketSeqID : Nat
  WBuffSize : Nat
  WBuff : Mem
  writePointer : Nat
  sendStart : Nat
  wire : Bytes
  turns : List WriteTurn

/-- `initNetTransceiver`, on a socket with the given future. -/
def initNetTransceiver (turns : List WriteTurn) : NetTransceiver :=
  ⟨0, WBUFF_INITIAL_SIZE, fun _ => 0, 0, 0, [], turns⟩

/-- `eof` is the code of `flushWBuff` and `writeBytes`, `disconnected` the error of their callers,
`exited` a `proc_exit`, `stuck` a loop that a buffer without room never leaves. -/
inductive NetError
  | eof | disconnected | exited | stuck
deriving Repr, DecidableEq

namespace NetTransceiver

def buffered (net : NetTransceiver) : Bytes := read net.WBuff net.sendStart (net.writePointer - net.sendStart)

def stream (net : NetTransceiver) : Bytes := net.wire ++ net.buffered

/-- The socket takes `n` bytes. -/
def send (net : NetTransceiver) (n : Nat) : NetTransceiver :=
  { net with wire := net.wire ++ read net.WBuff net.sendStart n, sendStart := net.sendStart + n }

/-- The end of `flushWBuff`, reached with or without a connection. -/
def rewind (net : NetTransceiver) (turns : List WriteTurn) : NetTransceiver :=
  { net with sendStart := 0, writePointer := 0, turns := turns }

/-- The loop of `flushWBuff`. -/
def flushLoop : List WriteTurn → NetTransceiver → Except NetError NetTransceiver
  | [], net => .ok ((net.send (net.writePointer - net.sendStart)).rewind [])
  | turn :: turns, net =>
    if net.sendStart < net.writePointer then
      match turn with
      | .accepted n => flushLoop turns (net.send (min (n + 1) (net.writePointer - net.sendStart)))
      | .interrupted => flushLoop turns net
      | .closed => .error .eof
      | .failed => .error .exited
    else .ok (net.rewind (turn :: turns))

def flushWBuff (net : NetTransceiver) : Except NetError NetTransceiver := flushLoop net.turns net

/-- `memcpy` to the write pointer. -/
def poke (net : NetTransceiver) (bytes : Bytes) : NetTransceiver :=
  { net with WBuff := write net.WBuff net.writePointer bytes }

def finishWriteToBufNoFlush (net : NetTransceiver) (writedLen : Nat) : NetTransceiver :=
  { net with writePointer := net.writePointer + writedLen }

def makeRoom (net : NetTransceiver) : Except NetError NetTransceiver :=
  if net.WBuffSize ≤ net.writePointer then net.flushWBuff else .ok net

/-- The loop of `writeBytes`: a turn copies some byte unless the buffer has no room. -/
def writeLoop : Nat → NetTransceiver → Bytes → Except NetError NetTransceiver
  | _, net, [] => .ok net
  | 0, _, _ :: _ => .error .stuck
  | fuel + 1, net, buff => do
    let net ← net.makeRoom
    let amount := min (net.WBuffSize - net.writePointer) buff.length
    writeLoop fuel ((net.poke (buff.take amount)).finishWriteToBufNoFlush amount) (buff.drop amount)

def writeBytes (net : NetTransceiver) (buff : Bytes) : Except NetError NetTransceiver := writeLoop buff.length net buff

/-- `writeBytes`, with the error its callers make of a lost connection. -/
def writeOrFail (net : NetTransceiver) (buff : Bytes) : Except NetError NetTransceiver :=
  match net.writeBytes buff with
  | .error .eof => .error .disconnected
  | r => r

def writePacketHeaderNoFlush (net : NetTransceiver) (payloadLen : Nat) : Except NetError NetTransceiver :=
  let buff := header payloadLen net.netPacketSeqID
  let next := if net.netPacketSeqID < 255 then net.netPacketSeqID + 1 else 0
  { net with netPacketSeqID := next }.writeOrFail buff

def writePacketPayloadNoFlush (net : NetTransceiver) (payload : Bytes) : Except NetError NetTransceiver :=
  net.writeOrFail payload

/-- `getWriteBufForPayload`: afterwards the write pointer has 102400 bytes
behind it. -/
def getWriteBufForPayload (net : NetTransceiver) : Except NetError NetTransceiver :=
  if 102400 ≤ net.WBuffSize - net.writePointer then .ok net else net.flushWBuff

/-- A packet is filled in through the pointer of `getWriteBufForPayload`; the first `n` bytes are kept. -/
def fillPayload (net : NetTransceiver) (bytes : Bytes) (n : Nat) : Except NetError NetTransceiver := do
  let net ← net.getWriteBufForPayload
  .ok ((net.poke bytes).finishWriteToBufNoFlush n)

def writePacketHeaderPayloadNoFlush (net : NetTransceiver) (payload : Bytes) : Except NetError NetTransceiver :=
  if SINGLE_PACKET_MAX_PAYLOAD_LENGTH ≤ payload.length then do
    let net ← net.writePacketHeaderNoFlush SINGLE_PACKET_MAX_PAYLOAD_LENGTH
    let net ← net.writePacketPayloadNoFlush (payload.take SINGLE_PACKET_MAX_PAYLOAD_LENGTH)
    net.writePacketHeaderPayloadNoFlush (payload.drop SINGLE_PACKET_MAX_PAYLOAD_LENGTH)
  else do
    let net ← net.writePacketHeaderNoFlush payload.length
    net.writePacketPayloadNoFlush payload
termination_by payload.length
decreasing_by
  rename_i long
  rw [length_drop]
  have positive : 0 < SINGLE_PACKET_MAX_PAYLOAD_LENGTH := by decide
  omega

structure Ready (net : NetTransceiver) : Prop where
  ordered : net.sendStart ≤ net.writePointer
  bounded : net.writePointer ≤ net.WBuffSize
  sized : 102400 ≤ net.WBuffSize
  numbered : net.netPacketSeqID < 256
  connected : ∀ turn ∈ net.turns, turn ≠ .closed ∧ turn ≠ .failed

/-- From `net` to `net'` bytes were written, among them the headers of `packets` packets. -/
structure Wrote (net : NetTransceiver) (bytes : Bytes) (packets : Nat) (net' : NetTransceiver) : Prop where
  ready : net'.Ready
  stream : net'.stream = net.stream ++ bytes
  seq : net'.netPacketSeqID = (net.netPacketSeqID + packets) % 256

variable {net : NetTransceiver} {n : Nat} {bytes : Bytes}

theorem Ready.wrote_nil (ready : net.Ready) : net.Wrote [] 0 net :=
  ⟨ready, (append_nil _).symm, (Nat.mod_eq_of_lt ready.numbered).symm⟩

theorem Wrote.trans {net net' net'' : NetTransceiver} {bytes bytes' : Bytes} {packets packets' : Nat}
    (first : net.Wrote bytes packets net') (second : net'.Wrote bytes' packets' net'') :
    net.Wrote (bytes ++ bytes') (packets + packets') net'' := by
  refine ⟨second.ready, ?_, ?_⟩
  · rw [second.stream, first.stream, append_assoc]
  · rw [second.seq, first.seq]
    omega

theorem send_stream (within : n ≤ net.writePointer - net.sendStart) : (net.send n).stream = net.stream := by
  have parts : net.writePointer - net.sendStart = n + (net.writePointer - (net.sendStart + n)) := by omega
  simp only [stream, buffered, send, append_assoc]
  rw [parts, read_append]

theorem flushLoop_ready {turns : List WriteTurn} (ready : net.Ready)
    (connected : ∀ turn ∈ turns, turn ≠ .closed ∧ turn ≠ .failed) :
    ∃ net', flushLoop turns net = .ok net' ∧ net.Wrote [] 0 net' ∧ net'.writePointer = 0 ∧
      net'.WBuffSize = net.WBuffSize := by
  induction turns generalizing net with
  | nil =>
    refine ⟨_, rfl, ⟨⟨Nat.le_refl _, Nat.zero_le _, ready.sized, ready.numbered, nofun⟩, ?_, ?_⟩, rfl, rfl⟩
    · simp only [stream, rewind, buffered, send, Nat.sub_self, append_nil]
      exact append_nil _
    · exact (Nat.mod_eq_of_lt ready.numbered).symm
  | cons turn turns ih =>
    have later : ∀ turn ∈ turns, turn ≠ .closed ∧ turn ≠ .failed := fun t member =>
      connected t (mem_cons_of_mem _ member)
    obtain ⟨open', fine⟩ := connected turn mem_cons_self
    unfold flushLoop
    split
    · cases turn with
      | accepted n =>
        have within : min (n + 1) (net.writePointer - net.sendStart) ≤ net.writePointer - net.sendStart :=
          Nat.min_le_right _ _
        have sent : (net.send (min (n + 1) (net.writePointer - net.sendStart))).Ready := by
          refine ⟨?_, ready.bounded, ready.sized, ready.numbered, ready.connected⟩
          show net.sendStart + min (n + 1) (net.writePointer - net.sendStart) ≤ net.writePointer
          omega
        obtain ⟨net', done, wrote, pointer, size⟩ := ih sent later
        refine ⟨net', done, ⟨wrote.ready, ?_, wrote.seq⟩, pointer, size⟩
        rw [wrote.stream, send_stream within]
      | interrupted => exact ih ready later
      | closed => exact absurd rfl open'
      | failed => exact absurd rfl fine
    · refine ⟨_, rfl, ⟨⟨Nat.le_refl _, Nat.zero_le _, ready.sized, ready.numbered, connected⟩, ?_, ?_⟩, rfl, rfl⟩
      · have empty : net.writePointer - net.sendStart = 0 := by omega
        simp only [stream, buffered, empty, append_nil]
        rfl
      · exact (Nat.mod_eq_of_lt ready.numbered).symm

theorem flushWBuff_ready (ready : net.Ready) :
    ∃ net', net.flushWBuff = .ok net' ∧ net.Wrote [] 0 net' ∧ net'.writePointer = 0 ∧ net'.WBuffSize = net.WBuffSize :=
  flushLoop_ready ready ready.connected

theorem makeRoom_ready (ready : net.Ready) :
    ∃ net', net.makeRoom = .ok net' ∧ net.Wrote [] 0 net' ∧ net'.writePointer < net'.WBuffSize := by
  have sized := ready.sized
  unfold makeRoom
  by_cases full : net.WBuffSize ≤ net.writePointer
  · obtain ⟨net', done, wrote, pointer, size⟩ := flushWBuff_ready ready
    exact ⟨net', by rw [if_pos full, done], wrote, by omega⟩
  · exact ⟨net, by rw [if_neg full], ready.wrote_nil, by omega⟩

theorem finish_wrote (ready : net.Ready) (room : net.writePointer + n ≤ net.WBuffSize) :
    net.Wrote (read net.WBuff net.writePointer n) 0 (net.finishWriteToBufNoFlush n) := by
  have ordered := ready.ordered
  refine ⟨⟨?_, room, ready.sized, ready.numbered, ready.connected⟩, ?_, (Nat.mod_eq_of_lt ready.numbered).symm⟩
  · show net.sendStart ≤ net.writePointer + n
    omega
  · have parts : net.writePointer + n - net.sendStart = (net.writePointer - net.sendStart) + n := by omega
    have pointer : net.sendStart + (net.writePointer - net.sendStart) = net.writePointer := by omega
    simp only [stream, buffered, finishWriteToBufNoFlush, parts]
    rw [read_append, pointer, append_assoc]

theorem store_wrote (ready : net.Ready) {addr : Nat} (behind : net.writePointer ≤ addr) (bytes : Bytes) :
    net.Wrote [] 0 { net with WBuff := write net.WBuff addr bytes } := by
  refine ⟨{ ready with }, ?_,
    (Nat.mod_eq_of_lt ready.numbered).symm⟩
  have same : read (write net.WBuff addr bytes) net.sendStart (net.writePointer - net.sendStart) = net.buffered := by
    apply read_congr
    intro i _ upper
    exact write_before (by omega)
  simp only [stream, buffered, same, append_nil]

theorem read_write_take (m : Mem) (a : Nat) (within : n ≤ bytes.length) :
    read (write m a bytes) a n = bytes.take n := by
  have all := read_write_self m a bytes
  have split : bytes.length = n + (bytes.length - n) := by omega
  rw [split, read_append] at all
  have front := congrArg (List.take n) all
  rwa [take_left' (by simp [Memory.read])] at front

theorem poke_wrote (ready : net.Ready) (within : n ≤ bytes.length) (room : net.writePointer + n ≤ net.WBuffSize) :
    net.Wrote (bytes.take n) 0 ((net.poke bytes).finishWriteToBufNoFlush n) := by
  have stored := store_wrote ready (Nat.le_refl net.writePointer) bytes
  have finished := @finish_wrote (net.poke bytes) n stored.ready room
  have kept : read (net.poke bytes).WBuff net.writePointer n = bytes.take n := read_write_take _ _ within
  have both := stored.trans finished
  rwa [nil_append, show (net.poke bytes).writePointer = net.writePointer from rfl, kept] at both

theorem writeLoop_ready {fuel : Nat} {buff : Bytes} (ready : net.Ready) (enough : buff.length ≤ fuel) :
    ∃ net', writeLoop fuel net buff = .ok net' ∧ net.Wrote buff 0 net' := by
  induction fuel generalizing net buff with
  | zero =>
    have empty : buff = [] := length_eq_zero_iff.mp (by omega)
    subst empty
    exact ⟨net, rfl, ready.wrote_nil⟩
  | succ fuel ih =>
    cases buff with
    | nil => exact ⟨net, rfl, ready.wrote_nil⟩
    | cons b bs =>
      obtain ⟨start, done, moved, room⟩ := makeRoom_ready ready
      rw [length_cons] at enough
      have copied := @poke_wrote start (min (start.WBuffSize - start.writePointer) (b :: bs).length)
        ((b :: bs).take (min (start.WBuffSize - start.writePointer) (b :: bs).length)) moved.ready
        (by rw [length_take]; omega) (by omega)
      rw [take_take, Nat.min_self] at copied
      have fewer : ((b :: bs).drop (min (start.WBuffSize - start.writePointer) (b :: bs).length)).length ≤ fuel := by
        rw [length_drop, length_cons]
        omega
      obtain ⟨last, finished, rest⟩ := ih copied.ready fewer
      refine ⟨last, ?_, ?_⟩
      · rw [writeLoop, done]
        · exact finished
        · nofun
      · have all := (moved.trans copied).trans rest
        rwa [nil_append, take_append_drop] at all

theorem writeOrFail_ready (ready : net.Ready) (buff : Bytes) :
    ∃ net', net.writeOrFail buff = .ok net' ∧ net.Wrote buff 0 net' := by
  obtain ⟨net', done, wrote⟩ := writeLoop_ready ready (Nat.le_refl buff.length)
  refine ⟨net', ?_, wrote⟩
  rw [writeOrFail, writeBytes, done]

theorem writePacketHeaderNoFlush_ready (ready : net.Ready) (payloadLen : Nat) :
    ∃ net', net.writePacketHeaderNoFlush payloadLen = .ok net' ∧
      net.Wrote (header payloadLen net.netPacketSeqID) 1 net' := by
  have numbered := ready.numbered
  have next : (if net.netPacketSeqID < 255 then net.netPacketSeqID + 1 else 0) = (net.netPacketSeqID + 1) % 256 := by
    split <;> omega
  have counted : Ready { net with netPacketSeqID := (net.netPacketSeqID + 1) % 256 } :=
    ⟨ready.ordered, ready.bounded, ready.sized, by dsimp only; omega, ready.connected⟩
  obtain ⟨net', done, wrote⟩ := writeOrFail_ready counted (header payloadLen net.netPacketSeqID)
  refine ⟨net', ?_, wrote.ready, wrote.stream, ?_⟩
  · rw [writePacketHeaderNoFlush, next, done]
  · rw [wrote.seq]
    simp

theorem fillPayload_ready (ready : net.Ready) (within : n ≤ bytes.length) (small : bytes.length ≤ 102400) :
    ∃ net', net.fillPayload bytes n = .ok net' ∧ net.Wrote (bytes.take n) 0 net' := by
  unfold fillPayload getWriteBufForPayload
  by_cases room : 102400 ≤ net.WBuffSize - net.writePointer
  · rw [if_pos room]
    exact ⟨_, rfl, poke_wrote ready within (by omega)⟩
  obtain ⟨net', done, wrote, pointer, size⟩ := flushWBuff_ready ready
  have sized := wrote.ready.sized
  rw [if_neg room, done]
  exact ⟨_, rfl, wrote.trans (poke_wrote wrote.ready within (by omega))⟩

theorem writePacketHeaderPayloadNoFlush_ready (payload : Bytes) :
    ∀ {net : NetTransceiver} {seq : Nat}, net.Ready → net.netPacketSeqID = seq % 256 →
      ∃ net', net.writePacketHeaderPayloadNoFlush payload = .ok net' ∧
        net.Wrote (frames SINGLE_PACKET_MAX_PAYLOAD_LENGTH seq payload)
          (payload.length / SINGLE_PACKET_MAX_PAYLOAD_LENGTH + 1) net' := by
  have positive : 0 < SINGLE_PACKET_MAX_PAYLOAD_LENGTH := by decide
  induction payload using payload_induction positive with
  | short payload short =>
    intro net seq ready numbered
    obtain ⟨middle, header, wroteHeader⟩ := writePacketHeaderNoFlush_ready ready payload.length
    obtain ⟨last, body, wroteBody⟩ := writeOrFail_ready wroteHeader.ready payload
    refine ⟨last, ?_, ?_⟩
    · rw [writePacketHeaderPayloadNoFlush, if_neg (by omega), header]
      exact body
    · rw [frames_short short, ← header_mod, ← numbered, Nat.div_eq_of_lt short]
      exact wroteHeader.trans wroteBody
  | long payload long ih =>
    intro net seq ready numbered
    obtain ⟨middle, header, wroteHeader⟩ := writePacketHeaderNoFlush_ready ready SINGLE_PACKET_MAX_PAYLOAD_LENGTH
    obtain ⟨next, body, wroteBody⟩ :=
      writeOrFail_ready wroteHeader.ready (payload.take SINGLE_PACKET_MAX_PAYLOAD_LENGTH)
    have counted : next.netPacketSeqID = (seq + 1) % 256 := by
      rw [wroteBody.seq, wroteHeader.seq]
      omega
    obtain ⟨last, rest, wroteRest⟩ := ih wroteBody.ready counted
    have packets : payload.length / SINGLE_PACKET_MAX_PAYLOAD_LENGTH + 1 =
        1 + (0 + ((payload.drop SINGLE_PACKET_MAX_PAYLOAD_LENGTH).length / SINGLE_PACKET_MAX_PAYLOAD_LENGTH + 1)) := by
      rw [length_drop, Nat.div_eq_sub_div positive long]
      omega
    refine ⟨last, ?_, ?_⟩
    · rw [writePacketHeaderPayloadNoFlush, if_pos long, header]
      show (do let net ← middle.writePacketPayloadNoFlush _; net.writePacketHeaderPayloadNoFlush _) = _
      rw [writePacketPayloadNoFlush, body]
      exact rest
    · rw [frames_long positive long, ← header_mod, ← numbered, packets]
      exact wroteHeader.trans (wroteBody.trans wroteRest)

end NetTransceiver

end OpenHalo
