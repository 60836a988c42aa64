import OpenHalo.Net.WriteBuffer

namespace OpenHalo
open Octets Memory Framing List

variable {net net' : NetTransceiver} {n packets seq : Nat}

def EACH_PACKET_HEARDER_LENGTH : Nat := 4

namespace NetTransceiver

/-- The pointer it returns leaves four bytes for the header. -/
def getWriteBufForHeaderPayload (net : NetTransceiver) : Except NetError NetTransceiver :=
  if 102400 ≤ net.WBuffSize - net.writePointer then .ok net else net.flushWBuff

def pokeBehindHeader (net : NetTransceiver) (bytes : Bytes) : NetTransceiver :=
  { net with WBuff := write net.WBuff (net.writePointer + EACH_PACKET_HEARDER_LENGTH) bytes }

def finishWriteToBufFlush (net : NetTransceiver) (writedLen : Nat) : Except NetError NetTransceiver :=
  match (net.finishWriteToBufNoFlush writedLen).flushWBuff with
  | .error .eof => .error .exited
  | r => r

def finish (net : NetTransceiver) (writedLen : Nat) (flush : Bool) : Except NetError NetTransceiver :=
  if flush then net.finishWriteToBufFlush writedLen else .ok (net.finishWriteToBufNoFlush writedLen)

def writePacketPayloadFlush (net : NetTransceiver) (payload : Bytes) : Except NetError NetTransceiver := do
  let net ← net.writeOrFail payload
  net.flushWBuff

def writePacketHeaderPayloadFlush (net : NetTransceiver) (payload : Bytes) : Except NetError NetTransceiver := do
  let net ← net.writePacketHeaderPayloadNoFlush payload
  match net.flushWBuff with
  | .error .eof => .error .disconnected
  | r => r

end NetTransceiver

/-- A `fill` asks for the buffer, stores `bytes` and finishes the first `n` of them; a `fillPacket` does
so behind a header, which it writes in between. -/
inductive WriteOp
  | bytes (buff : Bytes)
  | header (payloadLen : Nat)
  | payloadFlush (payload : Bytes)
  | packets (payload : Bytes)
  | packetsFlush (payload : Bytes)
  | fill (bytes : Bytes) (n : Nat) (flush : Bool)
  | fillPacket (bytes : Bytes) (payloadLen n : Nat) (flush : Bool)
  | flush

namespace WriteOp

def perform (net : NetTransceiver) : WriteOp → Except NetError NetTransceiver
  | .bytes buff => net.writeBytes buff
  | .header payloadLen => net.writePacketHeaderNoFlush payloadLen
  | .payloadFlush payload => net.writePacketPayloadFlush payload
  | .packets payload => net.writePacketHeaderPayloadNoFlush payload
  | .packetsFlush payload => net.writePacketHeaderPayloadFlush payload
  | .fill stored n flushed => do
    let net ← net.getWriteBufForPayload
    (net.poke stored).finish n flushed
  | .fillPacket stored payloadLen n flushed => do
    let net ← net.getWriteBufForHeaderPayload
    let net ← (net.pokeBehindHeader stored).writePacketHeaderNoFlush payloadLen
    net.finish n flushed
  | .flush => net.flushWBuff

def performAll : List WriteOp → NetTransceiver → Except NetError NetTransceiver
  | [], net => .ok net
  | op :: ops, net => do
    let net ← op.perform net
    performAll ops net

/-- The stores stay in the space that was obtained, and only stored bytes are finished. -/
def Within (net : NetTransceiver) : WriteOp → Prop
  | .fill stored n _ => n ≤ stored.length ∧
      ∀ got, net.getWriteBufForPayload = .ok got → got.writePointer + stored.length ≤ got.WBuffSize
  | .fillPacket stored _ n _ => n ≤ stored.length ∧
      ∀ got, net.getWriteBufForHeaderPayload = .ok got →
        got.writePointer + EACH_PACKET_HEARDER_LENGTH + stored.length ≤ got.WBuffSize
  | .bytes _ | .header _ | .payloadFlush _ | .packets _ | .packetsFlush _ | .flush => True

def AllWithin : List WriteOp → NetTransceiver → Prop
  | [], _ => True
  | op :: ops, net => op.Within net ∧ ∀ next, op.perform net = .ok next → AllWithin ops next

def headers : WriteOp → Nat
  | .header _ | .fillPacket _ _ _ _ => 1
  | .packets payload | .packetsFlush payload => payload.length / SINGLE_PACKET_MAX_PAYLOAD_LENGTH + 1
  | .bytes _ | .payloadFlush _ | .fill _ _ _ | .flush => 0

def appended (seq : Nat) : WriteOp → Bytes
  | .bytes buff => buff
  | .header payloadLen => Framing.header payloadLen seq
  | .payloadFlush payload => payload
  | .packets payload | .packetsFlush payload => frames SINGLE_PACKET_MAX_PAYLOAD_LENGTH seq payload
  | .fill stored n _ => stored.take n
  | .fillPacket stored payloadLen n _ => Framing.header payloadLen seq ++ stored.take n
  | .flush => []

/-- Everything the operations write, in order; `seq` numbers the first packet. -/
def appendedAll : Nat → List WriteOp → Bytes
  | _, [] => []
  | seq, op :: ops => op.appended seq ++ appendedAll (seq + op.headers) ops

end WriteOp

namespace NetTransceiver

theorem flush_wrote {bytes : Bytes} (wrote : net.Wrote bytes packets net') :
    ∃ last, net'.flushWBuff = .ok last ∧ net.Wrote bytes packets last := by
  obtain ⟨last, done, moved, _, _⟩ := flushWBuff_ready wrote.ready
  have both := wrote.trans moved
  rw [append_nil] at both
  exact ⟨last, done, both⟩

variable {net : NetTransceiver}

theorem finish_ready (ready : net.Ready) {n : Nat} (room : net.writePointer + n ≤ net.WBuffSize) (flush : Bool) :
    ∃ last, net.finish n flush = .ok last ∧ net.Wrote (read net.WBuff net.writePointer n) 0 last := by
  have finished := finish_wrote ready room
  cases flush with
  | false => exact ⟨_, rfl, finished⟩
  | true =>
    obtain ⟨last, done, wrote⟩ := flush_wrote finished
    refine ⟨last, ?_, wrote⟩
    rw [finish, if_pos rfl, finishWriteToBufFlush, done]

theorem reserve_ready (ready : net.Ready) :
    ∃ got, net.getWriteBufForPayload = .ok got ∧ net.getWriteBufForHeaderPayload = .ok got ∧ net.Wrote [] 0 got ∧
      got.writePointer + 102400 ≤ got.WBuffSize := by
  unfold getWriteBufForPayload getWriteBufForHeaderPayload
  by_cases room : 102400 ≤ net.WBuffSize - net.writePointer
  · rw [if_pos room]
    exact ⟨net, rfl, rfl, ready.wrote_nil, by omega⟩
  obtain ⟨got, done, wrote, pointer, _⟩ := flushWBuff_ready ready
  have sized := wrote.ready.sized
  rw [if_neg room]
  exact ⟨got, done, done, wrote, by omega⟩

theorem writeOrFail_room {buff : Bytes} (room : net.writePointer + buff.length ≤ net.WBuffSize) :
    net.writeOrFail buff = .ok ((net.poke buff).finishWriteToBufNoFlush buff.length) := by
  cases buff with
  | nil =>
    rw [poke, write_nil]
    rfl
  | cons b bs =>
    rw [length_cons] at room
    have amount : min (net.WBuffSize - net.writePointer) (b :: bs).length = (b :: bs).length := by
      rw [length_cons]
      omega
    have space : net.makeRoom = .ok net := by
      rw [makeRoom, if_neg (by omega)]
    have copied : net.writeBytes (b :: bs) = .ok ((net.poke (b :: bs)).finishWriteToBufNoFlush (b :: bs).length) := by
      rw [writeBytes, length_cons, writeLoop, space]
      · show writeLoop _ _ _ = _
        rw [amount, take_length, drop_length, writeLoop]
        rfl
      · intro empty
        cases empty
    rw [writeOrFail, copied]

theorem fillPacket_ready (ready : net.Ready) {stored : Bytes} (payloadLen : Nat) (kept : n ≤ stored.length)
    (room : net.writePointer + 4 + stored.length ≤ net.WBuffSize) (flush : Bool) :
    ∃ last, (do
        let net ← (net.pokeBehindHeader stored).writePacketHeaderNoFlush payloadLen
        net.finish n flush) = .ok last ∧
      net.Wrote (header payloadLen net.netPacketSeqID ++ stored.take n) 1 last := by
  have four := header_length payloadLen net.netPacketSeqID
  have behind := store_wrote ready (Nat.le_add_right net.writePointer 4) stored
  obtain ⟨next, written, wrote⟩ := writePacketHeaderNoFlush_ready behind.ready payloadLen
  -- there is room for the header, so it is stored where it stands
  have direct : (net.pokeBehindHeader stored).writePacketHeaderNoFlush payloadLen =
      .ok ((NetTransceiver.poke { net.pokeBehindHeader stored with
        netPacketSeqID := if net.netPacketSeqID < 255 then net.netPacketSeqID + 1 else 0 }
          (header payloadLen net.netPacketSeqID)).finishWriteToBufNoFlush 4) := by
    have fits : net.writePointer + (header payloadLen net.netPacketSeqID).length ≤ net.WBuffSize := by omega
    have stepped := @writeOrFail_room { net.pokeBehindHeader stored with
      netPacketSeqID := if net.netPacketSeqID < 255 then net.netPacketSeqID + 1 else 0 } _ fits
    exact stepped
  cases written.symm.trans direct
  have value : read (write (write net.WBuff (net.writePointer + 4) stored) net.writePointer
      (header payloadLen net.netPacketSeqID)) (net.writePointer + 4) n = stored.take n := by
    rw [← read_write_take net.WBuff (net.writePointer + 4) kept]
    apply read_congr
    intro i lower _
    exact write_after (by omega)
  obtain ⟨last, finished, rest⟩ := @finish_ready _ wrote.ready n
    (show net.writePointer + 4 + n ≤ net.WBuffSize by omega) flush
  refine ⟨last, ?_, ?_⟩
  · rw [direct]
    exact finished
  · have all := behind.trans (wrote.trans rest)
    rw [nil_append] at all
    convert all using 2
    exact value.symm

end NetTransceiver

theorem WriteOp.perform_ready (ready : net.Ready) (numbered : net.netPacketSeqID = seq % 256)
    (op : WriteOp) (within : op.Within net) :
    ∃ next, op.perform net = .ok next ∧ net.Wrote (op.appended seq) op.headers next := by
  have head : ∀ payloadLen, Framing.header payloadLen seq = Framing.header payloadLen net.netPacketSeqID := by
    intro payloadLen
    rw [numbered, header_mod]
  cases op with
  | bytes buff => exact NetTransceiver.writeLoop_ready ready (Nat.le_refl buff.length)
  | header payloadLen =>
    rw [appended, head]
    exact NetTransceiver.writePacketHeaderNoFlush_ready ready payloadLen
  | payloadFlush payload =>
    obtain ⟨middle, done, wrote⟩ := NetTransceiver.writeOrFail_ready ready payload
    obtain ⟨last, flushed, all⟩ := NetTransceiver.flush_wrote wrote
    exact ⟨last, by rw [perform, NetTransceiver.writePacketPayloadFlush, done]; exact flushed, all⟩
  | packets payload => exact NetTransceiver.writePacketHeaderPayloadNoFlush_ready payload ready numbered
  | packetsFlush payload =>
    obtain ⟨middle, done, wrote⟩ := NetTransceiver.writePacketHeaderPayloadNoFlush_ready payload ready numbered
    obtain ⟨last, flushed, all⟩ := NetTransceiver.flush_wrote wrote
    refine ⟨last, ?_, all⟩
    rw [perform, NetTransceiver.writePacketHeaderPayloadFlush, done]
    show (match middle.flushWBuff with | .error .eof => _ | r => r) = _
    rw [flushed]
  | fill stored n flush =>
    obtain ⟨got, space, _, moved, _⟩ := NetTransceiver.reserve_ready ready
    obtain ⟨kept, room⟩ := within
    have fits := room got space
    have put := NetTransceiver.store_wrote moved.ready (Nat.le_refl got.writePointer) stored
    obtain ⟨last, finished, rest⟩ := @NetTransceiver.finish_ready (got.poke stored) put.ready n
      (show got.writePointer + n ≤ got.WBuffSize by omega) flush
    have value : read (got.poke stored).WBuff (got.poke stored).writePointer n = stored.take n :=
      NetTransceiver.read_write_take _ _ kept
    rw [value] at rest
    have all := moved.trans (put.trans rest)
    exact ⟨last, by rw [perform, space]; exact finished, all⟩
  | fillPacket stored payloadLen n flush =>
    obtain ⟨got, _, space, moved, _⟩ := NetTransceiver.reserve_ready ready
    obtain ⟨kept, room⟩ := within
    obtain ⟨last, finished, rest⟩ := NetTransceiver.fillPacket_ready moved.ready payloadLen kept (room got space) flush
    have same : got.netPacketSeqID = net.netPacketSeqID := by
      rw [moved.seq, Nat.add_zero, Nat.mod_eq_of_lt ready.numbered]
    have all := moved.trans rest
    rw [same, ← head] at all
    exact ⟨last, by rw [perform, space]; exact finished, all⟩
  | flush =>
    obtain ⟨last, done, wrote, _, _⟩ := NetTransceiver.flushWBuff_ready ready
    exact ⟨last, done, wrote⟩

theorem WriteOp.performAll_ready {ops : List WriteOp} {net : NetTransceiver} {seq : Nat} (ready : net.Ready)
    (numbered : net.netPacketSeqID = seq % 256) (within : AllWithin ops net) :
    ∃ last, performAll ops net = .ok last ∧ last.Ready ∧ last.stream = net.stream ++ appendedAll seq ops := by
  induction ops generalizing net seq with
  | nil => exact ⟨net, rfl, ready, (append_nil _).symm⟩
  | cons op ops ih =>
    obtain ⟨here, later⟩ := within
    obtain ⟨next, done, wrote⟩ := op.perform_ready ready numbered here
    have counted : next.netPacketSeqID = (seq + op.headers) % 256 := by
      rw [wrote.seq]
      omega
    obtain ⟨last, rest, settled, stream⟩ := ih wrote.ready counted (later next done)
    refine ⟨last, ?_, settled, ?_⟩
    · rw [performAll, done]
      exact rest
    · rw [stream, wrote.stream, appendedAll, append_assoc]

/-- What the socket has taken and what is buffered is everything that was written, in order and once,
also in the middle of a flush. -/
theorem output_stream_faithful {turns : List WriteTurn} (connected : ∀ turn ∈ turns, turn ≠ .closed ∧ turn ≠ .failed)
    {ops : List WriteOp} (within : WriteOp.AllWithin ops (initNetTransceiver turns)) :
    ∃ net, WriteOp.performAll ops (initNetTransceiver turns) = .ok net ∧
      ∀ sent ≤ net.writePointer - net.sendStart,
        (net.send sent).wire ++ (net.send sent).buffered = WriteOp.appendedAll 0 ops ∧
          0 ≤ (net.send sent).sendStart ∧ (net.send sent).sendStart ≤ (net.send sent).writePointer ∧
          (net.send sent).writePointer ≤ (net.send sent).WBuffSize := by
  have start : (initNetTransceiver turns).Ready :=
    ⟨Nat.le_refl _, Nat.zero_le _, show 102400 ≤ WBUFF_INITIAL_SIZE by decide, Nat.zero_lt_succ _, connected⟩
  obtain ⟨net, done, ready, stream⟩ := @WriteOp.performAll_ready ops _ 0 start rfl within
  have ordered := ready.ordered
  refine ⟨net, done, fun sent waiting => ⟨?_, Nat.zero_le _, ?_, ready.bounded⟩⟩
  · have moved := NetTransceiver.send_stream waiting
    rw [stream] at moved
    exact moved
  · show net.sendStart + sent ≤ net.writePointer
    omega

/-- An OK packet and a value, on an interrupted socket that takes one byte. -/
theorem output_stream_faithful_packet :
    ∃ net, WriteOp.performAll [.fillPacket [0, 0, 0] 3 3 true,
      .bytes [7, 8]] (initNetTransceiver [.accepted 0, .interrupted]) =
        .ok net ∧
      ∀ sent ≤ net.writePointer - net.sendStart,
        (net.send sent).wire ++ (net.send sent).buffered =
            WriteOp.appendedAll 0 [.fillPacket [0, 0, 0] 3 3 true, .bytes [7, 8]] ∧
          0 ≤ (net.send sent).sendStart ∧ (net.send sent).sendStart ≤ (net.send sent).writePointer ∧
          (net.send sent).writePointer ≤ (net.send sent).WBuffSize := by
  refine output_stream_faithful (by decide) ⟨⟨by decide, fun got reserved => ?_⟩,
    fun _ _ => ⟨trivial, fun _ _ => trivial⟩⟩
  cases reserved
  decide

end OpenHalo
