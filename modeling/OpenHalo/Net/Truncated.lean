import OpenHalo.Net.ReceiveBounds

namespace OpenHalo
open Octets Memory Framing List

variable {behind turns : List ReadTurn} {fuel n seq : Nat} {part : Bytes} {r : StringInfo × List ReadTurn}

def Ended : List ReadTurn → Prop
  | [] => True
  | .arrived _ _ :: turns => Ended turns
  | .interrupted :: turns => Ended turns
  | .closed :: turns => delivered turns = []
  | .failed :: turns => delivered turns = []

theorem Ended.of_silent (silent : delivered turns = []) : Ended turns := by
  induction turns with
  | nil => exact trivial
  | cons turn turns ih =>
    cases turn with
    | arrived first more => cases silent
    | interrupted => exact ih silent
    | closed | failed => exact silent

theorem readBytes_ended (ended : Ended turns) (len : Nat) :
    ((readBytes len turns).complete = true ↔ len ≤ (delivered turns).length) ∧
      (readBytes len turns).bytes = (delivered turns).take len ∧ Ended (readBytes len turns).turns ∧
      delivered (readBytes len turns).turns = (delivered turns).drop len := by
  induction turns generalizing len with
  | nil => cases len <;> simp [readBytes, delivered, Ended]
  | cons turn turns ih =>
    cases len with
    | zero => exact ⟨by simp [readBytes], rfl, ended, rfl⟩
    | succ len =>
      cases turn with
      | interrupted => exact ih ended (len + 1)
      | closed | failed =>
        have silent : delivered turns = [] := ended
        simp [readBytes, delivered, silent, Ended.of_silent silent]
      | arrived first more =>
        obtain ⟨whole, bytes, still, left⟩ := ih ended (len - more.length)
        rw [readBytes, delivered]
        split
        · rename_i fits
          have short := drop_eq_nil_iff.mp fits
          simp only [whole, bytes, left, cons_append]
          refine ⟨?_, ?_, still, ?_⟩
          · simp only [length_cons, length_append]
            omega
          · rw [take_succ_cons, take_append, take_of_length_le short]
          · rw [drop_succ_cons, drop_append, fits, nil_append]
        · rename_i next later waits
          have long : len < more.length := by
            have some := congrArg List.length waits
            rw [length_drop, length_cons] at some
            omega
          simp only [cons_append]
          refine ⟨?_, ?_, ended, ?_⟩
          · simp only [length_cons, length_append, true_iff]
            omega
          · rw [take_succ_cons, take_append_of_le_length (by omega)]
          · rw [drop_succ_cons, drop_append_of_le_length (by omega), waits]
            rfl

theorem readAndProcessPacketHeader_ended {payloadLen : Nat} (ended : Ended turns)
    (head : readAndProcessPacketHeader seq turns = .packet payloadLen behind) :
    delivered turns = header payloadLen seq ++ delivered behind ∧ payloadLen < 256 ^ 3 ∧ Ended behind := by
  obtain ⟨whole, bytes, still, left⟩ := readBytes_ended ended 4
  simp only [readAndProcessPacketHeader] at head
  split at head
  · rename_i complete
    have long := whole.mp complete
    split at head
    · rename_i numbered
      cases head
      obtain ⟨a, b, c, d, rest, arrives⟩ : ∃ a b c d rest, delivered turns = a :: b :: c :: d :: rest := by
        generalize delivered turns = arrived at long ⊢
        rcases arrived with _ | ⟨a, _ | ⟨b, _ | ⟨c, _ | ⟨d, rest⟩⟩⟩⟩ <;> simp at long ⊢
      rw [arrives] at bytes left
      have four : (readBytes 4 turns).bytes = [a, b, c, d] := bytes
      rw [four] at numbered ⊢
      refine ⟨?_, littleEndian_lt [a, b, c], still⟩
      have number : UInt8.ofNat seq = d := by
        rw [← numbered]
        exact UInt8.ofNat_toNat
      rw [arrives, left]
      show _ = header (littleEndian [a, b, c]) seq ++ rest
      rw [header_littleEndian, number]
      rfl
    · cases head
  · cases head

theorem readAndProcessPacketHeader_arrives (ended : Ended turns)
    (small : n < 256 ^ 3) (numbered : seq < 256) (arrives : delivered turns = header n seq ++ part) :
    ∃ behind, readAndProcessPacketHeader seq turns = .packet n behind ∧ Ended behind ∧ delivered behind = part := by
  obtain ⟨whole, bytes, still, left⟩ := readBytes_ended ended 4
  rw [arrives] at whole bytes left
  have complete := whole.mpr (by simp [header_length])
  rw [take_left' (header_length n seq)] at bytes
  refine ⟨_, readAndProcessPacketHeader_eq small numbered ?_, still, left.trans (drop_left' (header_length n seq))⟩
  rw [← bytes, ← complete]

/-- Bytes that end in the header or payload of a packet, or behind full packets of the message. -/
inductive Cut : Bytes → Prop
  | inHeader {bytes : Bytes} : bytes.length < 4 → Cut bytes
  | inPayload {n seq : Nat} {part : Bytes} : n < 256 ^ 3 → part.length < n → Cut (header n seq ++ part)
  | behind {seq : Nat} {payload rest : Bytes} : payload.length = SINGLE_PACKET_MAX_PAYLOAD_LENGTH → Cut rest →
      Cut (header SINGLE_PACKET_MAX_PAYLOAD_LENGTH seq ++ (payload ++ rest))

theorem header_append_inj {n' seq' : Nat} {part' : Bytes} (small : n < 256 ^ 3) (small' : n' < 256 ^ 3)
    (same : header n seq ++ part = header n' seq' ++ part') : n = n' ∧ part = part' := by
  obtain ⟨a, b, c, bytes, value⟩ := littleEndian_header small seq
  obtain ⟨a', b', c', bytes', value'⟩ := littleEndian_header small' seq'
  rw [bytes, bytes'] at same
  simp only [cons_append, List.cons.injEq] at same
  obtain ⟨rfl, rfl, rfl, _, rest⟩ := same
  exact ⟨value.symm.trans value', rest⟩

theorem Cut.packet (cut : Cut (header n seq ++ part)) (small : n < 256 ^ 3) :
    part.length < n ∨ n = SINGLE_PACKET_MAX_PAYLOAD_LENGTH ∧ Cut (part.drop SINGLE_PACKET_MAX_PAYLOAD_LENGTH) := by
  generalize arrives : header n seq ++ part = bytes at cut
  cases cut with
  | inHeader short =>
    rw [← arrives, length_append, header_length] at short
    omega
  | inPayload small' short =>
    obtain ⟨rfl, rfl⟩ := header_append_inj small small' arrives
    exact .inl short
  | behind full rest =>
    obtain ⟨rfl, rfl⟩ := header_append_inj small SINGLE_PACKET_MAX_PAYLOAD_LENGTH_lt arrives
    rw [← full, drop_left]
    exact .inr ⟨rfl, rest⟩

theorem readFurtherPackets_cut {max_allowed_packet : Nat} {inBuf : StringInfo} (ended : Ended turns)
    (cut : Cut (delivered turns)) :
    readFurtherPackets max_allowed_packet fuel seq inBuf turns ≠ .ok (some r) := by
  induction fuel generalizing seq inBuf turns with
  | zero => exact nofun
  | succ fuel ih =>
    intro reads
    obtain ⟨payloadLen, behind, next, left, head, _, body, rest⟩ := readFurtherPackets_inv reads
    obtain ⟨_, complete, rfl, _⟩ := readPacketPayload_inv body
    obtain ⟨arrives, small, still⟩ := readAndProcessPacketHeader_ended ended head
    obtain ⟨whole, _, still', left⟩ := readBytes_ended still payloadLen
    have long := whole.mp complete.symm
    rw [arrives] at cut
    rcases cut.packet small with short | ⟨rfl, later⟩
    · omega
    rw [← left] at later
    exact ih still' later rest

/-- The first packet of the message is short and does not come to its end. -/
def FirstPacketCut (max_allowed_packet : Nat) (bytes : Bytes) : Prop :=
  ∃ n part, bytes = header n 0 ++ part ∧ part.length < n ∧ n < SINGLE_PACKET_MAX_PAYLOAD_LENGTH ∧ n ≤ max_allowed_packet

section payload
variable {max_allowed_packet : Nat} {inBuf : StringInfo} {turns : List ReadTurn}

theorem readPayload_firstPacketCut (ended : Ended turns) (reserved : inBuf.offset ≤ 128)
    (cut : FirstPacketCut max_allowed_packet (delivered turns)) :
    ∃ r, readPayload max_allowed_packet inBuf turns = .ok r ∧ r.1.len = 0 := by
  obtain ⟨n, part, arrives, short, under, allowed⟩ := cut
  have bounded := SINGLE_PACKET_MAX_PAYLOAD_LENGTH_lt
  obtain ⟨behind, head, still, left⟩ := readAndProcessPacketHeader_arrives ended (by omega) (by decide) arrives
  obtain ⟨whole, _⟩ := readBytes_ended still n
  have incomplete : (readBytes n behind).complete = false := by
    rw [Bool.eq_false_iff, ne_eq, whole, left]
    omega
  obtain ⟨maxlen, room⟩ : ∃ maxlen, roomFor inBuf.offset inBuf.maxlen 0 n = some maxlen := by
    have limit : 256 ^ 3 + 128 < MaxAllocSize := by decide
    unfold roomFor
    split
    · exact ⟨_, rfl⟩
    · rw [if_neg (by omega)]
      exact ⟨_, rfl⟩
  simp only [readPayload, readAndProcessPacket, head, if_neg (Nat.not_lt.mpr allowed), readPacketPayload_eq,
    resetStringInfo, room, if_pos under, incomplete]
  exact ⟨_, rfl, rfl⟩

theorem readPayload_cut (ended : Ended turns) (cut : Cut (delivered turns))
    (noticed : ¬FirstPacketCut max_allowed_packet (delivered turns)) : readPayload max_allowed_packet inBuf turns ≠
    .ok r := by
  intro reads
  unfold readPayload at reads
  split at reads
  · cases reads
  · cases reads
  rename_i success
  obtain ⟨payloadLen, behind, whole, next, left, last, head, allowed, body, _, rest⟩ := readAndProcessPacket_inv success
  obtain ⟨_, _, rfl, _⟩ := readPacketPayload_inv body
  obtain ⟨arrives, small, still⟩ := readAndProcessPacketHeader_ended ended head
  obtain ⟨_, _, still', left⟩ := readBytes_ended still payloadLen
  rw [arrives] at cut
  split at rest
  · rename_i under
    rcases cut.packet small with short | ⟨full, _⟩
    · exact noticed ⟨payloadLen, delivered behind, arrives, short, under, allowed⟩
    · omega
  · rename_i full
    obtain rfl : payloadLen = SINGLE_PACKET_MAX_PAYLOAD_LENGTH :=
      Nat.le_antisymm (readAndProcessPacketHeader_le head) (Nat.not_lt.mp full)
    refine readFurtherPackets_cut still' ?_ rest
    rw [left]
    rcases cut.packet small with short | ⟨_, behind⟩
    · rw [drop_eq_nil_of_le (Nat.le_of_lt short)]
      exact .inHeader (by decide)
    · exact behind

/-- A cut stream is noticed exactly when the packet is not the only one of its message, or is refused
first. -/
theorem readPayload_cut_iff (ended : Ended turns) (cut : Cut (delivered turns)) (reserved : inBuf.offset ≤ 128) :
    (∀ r, readPayload max_allowed_packet inBuf turns ≠ .ok r) ↔
      ¬FirstPacketCut max_allowed_packet (delivered turns) := by
  constructor
  · intro fails first
    obtain ⟨r, reads, _⟩ := readPayload_firstPacketCut ended reserved first
    exact fails r reads
  · intro noticed r
    exact readPayload_cut ended cut noticed

end payload

/-- A header that breaks off. -/
theorem readPayload_cut_header : Cut (delivered [.arrived 5 [0], .closed]) ∧
    ∀ r, readPayload 67108864 firstBuffer [.arrived 5 [0], .closed] ≠ .ok r := by
  have cut : Cut (delivered [.arrived 5 [0], .closed]) := .inHeader (by decide)
  have noticed : ¬FirstPacketCut 67108864 (delivered [.arrived 5 [0], .closed]) := by
    rintro ⟨n, part, bytes, _⟩
    have length := congrArg List.length bytes
    rw [length_append] at length
    exact absurd (length.symm.le.trans' (Nat.le_add_right 4 _)) (by decide)
  have ended : Ended [.arrived 5 [0], .closed] := rfl
  exact ⟨cut, (readPayload_cut_iff ended cut (Nat.le_refl _)).mpr noticed⟩

/-- A query that breaks off is read as no bytes in front of what an earlier one has left. -/
theorem readPayload_cut_query :
    Ended [.arrived 5 [0, 0, 0, 3, 115], .closed] ∧ Cut (delivered [.arrived 5 [0, 0, 0, 3, 115], .closed]) ∧
      ∃ r, readPayload 67108864 { firstBuffer with data := fun _ => 120 } [.arrived 5 [0, 0, 0, 3, 115], .closed] =
        .ok r ∧ r.1.len = 0 ∧ read r.1.data 128 3 = [0, 115, 120] :=
  ⟨rfl, @Cut.inPayload 5 0 [3, 115] (by decide) (by decide), _, rfl, rfl, by decide⟩

end OpenHalo
