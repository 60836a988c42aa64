import OpenHalo.Net.Receive

namespace OpenHalo
open Octets Memory Framing List

variable {first fuel len max_allowed_packet maxlen offset payloadLen seq size : Nat} {rest turns turns' : List ReadTurn}
variable {inBuf inBuf' : StringInfo} {sizes : List Nat}

/-- Bytes stored in the receive buffer, and its size at that time. -/
structure Store where
  addr : Nat
  bytes : Bytes
  maxlen : Nat
deriving DecidableEq

def Store.Inside (s : Store) : Prop := s.addr + s.bytes.length ≤ s.maxlen

instance (s : Store) : Decidable s.Inside := inferInstanceAs (Decidable (_ ≤ _))

def Store.perform (m : Mem) (s : Store) : Mem := write m s.addr s.bytes

/-- What `readPacketPayload` stores: all that arrives, also when it is not
complete. -/
def payloadStores (inBuf : StringInfo) (payloadLen : Nat) (turns : List ReadTurn) : List Store :=
  match ensureRoom inBuf payloadLen with
  | .error _ => []
  | .ok inBuf => [⟨inBuf.offset + inBuf.len, (readBytes payloadLen turns).bytes, inBuf.maxlen⟩]

def furtherStores (max_allowed_packet : Nat) : Nat → Nat → StringInfo → List ReadTurn → List Store
  | 0, _, _, _ => []
  | fuel + 1, netPacketSeqID, inBuf, turns =>
    match readAndProcessPacketHeader netPacketSeqID turns with
    | .eof => []
    | .outOfOrder _ => []
    | .packet payloadLen turns =>
      if max_allowed_packet < inBuf.len + payloadLen then []
      else payloadStores inBuf payloadLen turns ++
        match readPacketPayload inBuf payloadLen turns with
        | .ok (true, inBuf, turns) =>
          if payloadLen = SINGLE_PACKET_MAX_PAYLOAD_LENGTH then
            furtherStores max_allowed_packet fuel (netPacketSeqID + 1) inBuf turns
          else []
        | _ => []

def terminatorStores : Except ErrorData (Option (StringInfo × List ReadTurn)) → List Store
  | .ok (some (inBuf, _)) => [⟨inBuf.len + inBuf.offset, [0], inBuf.maxlen⟩]
  | _ => []

/-- The payloads, and the terminator if `readAndProcessPacket` gets so far. -/
def readAndProcessPacketStores (max_allowed_packet netPacketSeqID : Nat) (inBuf : StringInfo) (turns : List ReadTurn) :
    List Store :=
  (match readAndProcessPacketHeader netPacketSeqID turns with
    | .eof => []
    | .outOfOrder _ => []
    | .packet payloadLen turns =>
      if max_allowed_packet < payloadLen then []
      else payloadStores inBuf payloadLen turns ++
        match readPacketPayload inBuf payloadLen turns with
        | .error _ => []
        | .ok (_, inBuf, turns) =>
          if payloadLen < SINGLE_PACKET_MAX_PAYLOAD_LENGTH then []
          else furtherStores max_allowed_packet (max_allowed_packet / SINGLE_PACKET_MAX_PAYLOAD_LENGTH + 1)
            (netPacketSeqID + 1) inBuf turns) ++
    terminatorStores (readAndProcessPacket max_allowed_packet netPacketSeqID inBuf turns)

/-- The size of a buffer for a payload of this length behind `len` bytes, if it can be had. -/
def roomFor (offset maxlen len payloadLen : Nat) : Option Nat :=
  if payloadLen + offset + len ≤ maxlen then some maxlen
  else if MaxAllocSize - len ≤ payloadLen + offset then none
  else some (min (enlarge (payloadLen + offset + len + 1) 32 (2 * maxlen)) MaxAllocSize)

theorem ensureRoom_eq (inBuf : StringInfo) (payloadLen : Nat) :
    ensureRoom inBuf payloadLen =
      match roomFor inBuf.offset inBuf.maxlen inBuf.len payloadLen with
      | none => .error ⟨261, ascii "out of memory"⟩
      | some maxlen => .ok { inBuf with maxlen := maxlen } := by
  unfold ensureRoom roomFor
  by_cases fits : payloadLen + inBuf.offset + inBuf.len ≤ inBuf.maxlen
  · rw [if_neg (by omega), if_pos fits]
  rw [if_pos (by omega), enlargeStringInfo]
  split
  · rfl
  · rw [if_neg (by omega)]

theorem roomFor_le (positive : 0 < maxlen)
    (room : roomFor offset maxlen len payloadLen = some size) : payloadLen + offset + len ≤ size ∧ maxlen ≤ size := by
  unfold roomFor at room
  split at room
  · cases room
    omega
  split at room
  · cases room
  · cases room
    have doubled := @needed_le_enlarge (payloadLen + offset + len + 1) 32 (2 * maxlen) (by
      have limit : MaxAllocSize < 2 ^ 32 := by decide
      omega)
    omega

theorem readPacketPayload_eq (inBuf : StringInfo) (payloadLen : Nat) (turns : List ReadTurn) :
    readPacketPayload inBuf payloadLen turns =
      match roomFor inBuf.offset inBuf.maxlen inBuf.len payloadLen with
      | none => .error ⟨261, ascii "out of memory"⟩
      | some maxlen =>
        let r := readBytes payloadLen turns
        .ok (r.complete, ⟨write inBuf.data (inBuf.offset + inBuf.len) r.bytes, maxlen,
          if r.complete then inBuf.len + payloadLen else inBuf.len, inBuf.offset⟩, r.turns) := by
  rw [readPacketPayload, ensureRoom_eq]
  cases roomFor inBuf.offset inBuf.maxlen inBuf.len payloadLen with
  | none => rfl
  | some maxlen =>
    dsimp only
    cases (readBytes payloadLen turns).complete <;> rfl

theorem payloadStores_eq (inBuf : StringInfo) (payloadLen : Nat) (turns : List ReadTurn) :
    payloadStores inBuf payloadLen turns =
      match roomFor inBuf.offset inBuf.maxlen inBuf.len payloadLen with
      | none => []
      | some maxlen => [⟨inBuf.offset + inBuf.len, (readBytes payloadLen turns).bytes, maxlen⟩] := by
  rw [payloadStores, ensureRoom_eq]
  cases roomFor inBuf.offset inBuf.maxlen inBuf.len payloadLen <;> rfl

variable {complete : Bool}

theorem readPacketPayload_inv (reads : readPacketPayload inBuf payloadLen turns = .ok (complete, inBuf', turns')) :
    roomFor inBuf.offset inBuf.maxlen inBuf.len payloadLen = some inBuf'.maxlen ∧
      complete = (readBytes payloadLen turns).complete ∧ turns' = (readBytes payloadLen turns).turns ∧
      inBuf'.offset = inBuf.offset ∧ inBuf'.len = (if complete then inBuf.len + payloadLen else inBuf.len) ∧
      inBuf'.data = write inBuf.data (inBuf.offset + inBuf.len) (readBytes payloadLen turns).bytes := by
  rw [readPacketPayload_eq] at reads
  cases room : roomFor inBuf.offset inBuf.maxlen inBuf.len payloadLen with
  | none => rw [room] at reads; cases reads
  | some maxlen =>
    rw [room] at reads
    cases reads
    exact ⟨rfl, rfl, rfl, rfl, rfl, rfl⟩

theorem readAndProcessPacket_inv
    (reads : readAndProcessPacket max_allowed_packet seq inBuf turns = .ok (some (inBuf', turns'))) :
    ∃ payloadLen behind whole next left last, readAndProcessPacketHeader seq turns = .packet payloadLen behind ∧
      payloadLen ≤ max_allowed_packet ∧ readPacketPayload inBuf payloadLen behind = .ok (whole, next, left) ∧
      inBuf' = last.terminate ∧
      if payloadLen < SINGLE_PACKET_MAX_PAYLOAD_LENGTH then next = last ∧ left = turns'
      else readFurtherPackets max_allowed_packet (max_allowed_packet / SINGLE_PACKET_MAX_PAYLOAD_LENGTH + 1) (seq + 1)
        next left = .ok (some (last, turns')) := by
  rw [readAndProcessPacket] at reads
  split at reads
  · cases reads
  · cases reads
  rename_i payloadLen behind head
  split at reads
  · cases reads
  rename_i allowed
  split at reads
  · cases reads
  rename_i whole next left body
  split at reads
  · rename_i short
    obtain ⟨rfl, rfl⟩ := Prod.mk.inj (Option.some.inj (Except.ok.inj reads))
    refine ⟨payloadLen, behind, whole, next, left, next, head, Nat.not_lt.mp allowed, body, rfl, ?_⟩
    rw [if_pos short]
    exact ⟨rfl, rfl⟩
  rename_i full
  split at reads
  · cases reads
  · cases reads
  rename_i last left' further
  obtain ⟨rfl, rfl⟩ := Prod.mk.inj (Option.some.inj (Except.ok.inj reads))
  refine ⟨payloadLen, behind, whole, next, left, last, head, Nat.not_lt.mp allowed, body, rfl, ?_⟩
  rwa [if_neg full]

theorem readPacketPayload_data (reads : readPacketPayload inBuf payloadLen turns = .ok (complete, inBuf', turns')) :
    inBuf'.data = (payloadStores inBuf payloadLen turns).foldl Store.perform inBuf.data := by
  obtain ⟨room, _, _, _, _, data⟩ := readPacketPayload_inv reads
  rw [payloadStores_eq, room]
  exact data

theorem readFurtherPackets_data
    (reads : readFurtherPackets max_allowed_packet fuel seq inBuf turns = .ok (some (inBuf', turns'))) :
    inBuf'.data = (furtherStores max_allowed_packet fuel seq inBuf turns).foldl Store.perform inBuf.data := by
  induction fuel generalizing seq inBuf turns with
  | zero => cases reads
  | succ fuel ih =>
    obtain ⟨payloadLen, behind, next, left, head, allowed, body, rest⟩ := readFurtherPackets_inv reads
    simp only [furtherStores, head, if_neg (Nat.not_lt.mpr allowed), body]
    rw [foldl_append, ← readPacketPayload_data body]
    split at rest
    · rename_i full
      rw [if_pos full]
      exact ih rest
    · rename_i last
      rw [if_neg last, rest.1]
      rfl

/-- Together the stores make the memory that `readAndProcessPacket` leaves. -/
theorem readAndProcessPacket_data
    (reads : readAndProcessPacket max_allowed_packet seq inBuf turns = .ok (some (inBuf', turns'))) :
    inBuf'.data = (readAndProcessPacketStores max_allowed_packet seq inBuf turns).foldl Store.perform inBuf.data := by
  obtain ⟨payloadLen, behind, whole, next, left, last, head, allowed, body, rfl, rest⟩ := readAndProcessPacket_inv reads
  simp only [readAndProcessPacketStores, head, if_neg (Nat.not_lt.mpr allowed), body, reads]
  rw [foldl_append, foldl_append, ← readPacketPayload_data body]
  split at rest
  · rename_i short
    rw [if_pos short, rest.1]
    rfl
  · rename_i full
    rw [if_neg full, ← readFurtherPackets_data rest]
    rfl

theorem readBytes_length_le (len : Nat) (turns : List ReadTurn) : (readBytes len turns).bytes.length ≤ len := by
  induction turns generalizing len with
  | nil => cases len <;> simp [readBytes]
  | cons turn turns ih =>
    cases len with
    | zero => simp [readBytes]
    | succ len =>
      cases turn with
      | interrupted => exact ih (len + 1)
      | closed | failed => simp [readBytes]
      | arrived first more =>
        rw [readBytes]
        split
        · rename_i fits
          have short := drop_eq_nil_iff.mp fits
          have later := ih (len - more.length)
          simp only [length_append, length_cons]
          omega
        · simp

theorem payloadStores_inside (positive : 0 < inBuf.maxlen) :
    ∀ s ∈ payloadStores inBuf payloadLen turns, s.Inside := by
  intro s member
  rw [payloadStores_eq] at member
  cases room : roomFor inBuf.offset inBuf.maxlen inBuf.len payloadLen with
  | none => rw [room] at member; cases member
  | some maxlen =>
    rw [room] at member
    cases mem_singleton.mp member
    have enough := (roomFor_le positive room).1
    have short := readBytes_length_le payloadLen turns
    show inBuf.offset + inBuf.len + (readBytes payloadLen turns).bytes.length ≤ maxlen
    omega

theorem readPacketPayload_positive (positive : 0 < inBuf.maxlen)
    (reads : readPacketPayload inBuf payloadLen turns = .ok (complete, inBuf', turns')) : 0 < inBuf'.maxlen :=
  Nat.lt_of_lt_of_le positive (roomFor_le positive (readPacketPayload_inv reads).1).2

theorem furtherStores_inside
    (positive : 0 < inBuf.maxlen) : ∀ s ∈ furtherStores max_allowed_packet fuel seq inBuf turns, s.Inside := by
  induction fuel generalizing seq inBuf turns with
  | zero => intro s member; cases member
  | succ fuel ih =>
    intro s member
    rw [furtherStores] at member
    split at member
    · cases member
    · cases member
    split at member
    · cases member
    rcases mem_append.mp member with payload | later
    · exact payloadStores_inside positive s payload
    split at later
    · rename_i body
      split at later
      · exact ih (readPacketPayload_positive positive body) s later
      · cases later
    · cases later

theorem readAndProcessPacketStores_inside
    (positive : 0 < inBuf.maxlen) :
    (∀ s ∈ readAndProcessPacketStores max_allowed_packet seq inBuf turns, s.Inside) ↔
      ∀ inBuf' turns', readAndProcessPacket max_allowed_packet seq inBuf turns = .ok (some (inBuf', turns')) →
        inBuf'.offset + inBuf'.len < inBuf'.maxlen := by
  constructor
  · intro inside inBuf' turns' reads
    have terminator := inside ⟨inBuf'.len + inBuf'.offset, [0], inBuf'.maxlen⟩
      (mem_append_right _ (by rw [reads]; exact mem_singleton_self _))
    have within : inBuf'.len + inBuf'.offset + 1 ≤ inBuf'.maxlen := terminator
    omega
  · intro ends s member
    rcases (mem_append.mp member).symm with terminator | payload
    · unfold terminatorStores at terminator
      split at terminator
      · rename_i inBuf' turns' reads
        cases mem_singleton.mp terminator
        have within := ends inBuf' turns' reads
        show inBuf'.len + inBuf'.offset + 1 ≤ inBuf'.maxlen
        omega
      · cases terminator
    split at payload
    · cases payload
    · cases payload
    split at payload
    · cases payload
    rcases mem_append.mp payload with first | later
    · exact payloadStores_inside positive s first
    split at later
    · cases later
    rename_i body
    split at later
    · cases later
    · exact furtherStores_inside (readPacketPayload_positive positive body) s later

/-- The payload lengths of the packets of one message, all but the last full, and what is unread behind
them. -/
inductive Packets : Nat → List ReadTurn → List Nat → List ReadTurn → Prop
  | last {seq payloadLen turns behind} : readAndProcessPacketHeader seq turns = .packet payloadLen behind →
      payloadLen ≠ SINGLE_PACKET_MAX_PAYLOAD_LENGTH → (readBytes payloadLen behind).complete = true →
      Packets seq turns [payloadLen] (readBytes payloadLen behind).turns
  | full {seq turns behind sizes rest} :
      readAndProcessPacketHeader seq turns = .packet SINGLE_PACKET_MAX_PAYLOAD_LENGTH behind →
      (readBytes SINGLE_PACKET_MAX_PAYLOAD_LENGTH behind).complete = true →
      Packets (seq + 1) (readBytes SINGLE_PACKET_MAX_PAYLOAD_LENGTH behind).turns sizes rest →
      Packets seq turns (SINGLE_PACKET_MAX_PAYLOAD_LENGTH :: sizes) rest

/-- The size of the buffer when packets of these lengths have come behind its first `len` bytes. -/
def capacity (offset : Nat) : Nat → Nat → List Nat → Option Nat
  | maxlen, _, [] => some maxlen
  | maxlen, len, payloadLen :: sizes =>
    match roomFor offset maxlen len payloadLen with
    | none => none
    | some maxlen => capacity offset maxlen (len + payloadLen) sizes

theorem Packets.length_le (packets : Packets seq turns sizes rest) :
    sizes.length ≤ sizes.sum / SINGLE_PACKET_MAX_PAYLOAD_LENGTH + 1 := by
  induction packets with
  | last => simp
  | full _ _ _ ih =>
    rw [length_cons, sum_cons, Nat.add_div_left _ SINGLE_PACKET_MAX_PAYLOAD_LENGTH_pos]
    omega

theorem capacity_cons (room : capacity offset maxlen len (payloadLen :: sizes) = some size) :
    ∃ larger, roomFor offset maxlen len payloadLen = some larger ∧
      capacity offset larger (len + payloadLen) sizes = some size := by
  rw [capacity] at room
  cases grown : roomFor offset maxlen len payloadLen with
  | none => rw [grown] at room; cases room
  | some larger => exact ⟨larger, rfl, by rwa [grown] at room⟩

theorem capacity_le (positive : 0 < maxlen) (fits : offset + len ≤ maxlen)
    (room : capacity offset maxlen len sizes = some size) : offset + len + sizes.sum ≤ size := by
  induction sizes generalizing maxlen len with
  | nil => cases room; simpa using fits
  | cons payloadLen sizes ih =>
    obtain ⟨larger, grown, room⟩ := capacity_cons room
    obtain ⟨enough, longer⟩ := roomFor_le positive grown
    have behind := ih (by omega) (by omega) room
    rw [sum_cons]
    omega

theorem readFurtherPackets_packets
    (reads : readFurtherPackets max_allowed_packet fuel seq inBuf turns = .ok (some (inBuf', turns'))) :
    ∃ sizes, Packets seq turns sizes turns' ∧ inBuf'.len = inBuf.len + sizes.sum ∧ inBuf'.len ≤ max_allowed_packet ∧
      inBuf'.offset = inBuf.offset ∧ capacity inBuf.offset inBuf.maxlen inBuf.len sizes = some inBuf'.maxlen := by
  induction fuel generalizing seq inBuf turns with
  | zero => cases reads
  | succ fuel ih =>
    obtain ⟨payloadLen, behind, next, left, head, allowed, body, rest⟩ := readFurtherPackets_inv reads
    obtain ⟨room, whole, rfl, placed, counted, _⟩ := readPacketPayload_inv body
    rw [if_pos rfl] at counted
    split at rest
    · rename_i full
      subst full
      obtain ⟨sizes, packets, len, limit, offset, size⟩ := ih rest
      refine ⟨_, .full head whole.symm packets, ?_, limit, offset.trans placed, ?_⟩
      · rw [len, counted, sum_cons, Nat.add_assoc]
      · rw [capacity, room]
        rwa [placed, counted] at size
    · rename_i last
      obtain ⟨rfl, rfl⟩ := rest
      refine ⟨_, .last head last whole.symm, ?_, by omega, placed, ?_⟩
      · rw [counted, sum_singleton]
      · rw [capacity, room]
        rfl

theorem Packets.readFurtherPackets {max_allowed_packet fuel seq size : Nat} {inBuf : StringInfo}
    {turns turns' : List ReadTurn} {sizes : List Nat} (packets : Packets seq turns sizes turns')
    (allowed : inBuf.len + sizes.sum ≤ max_allowed_packet)
    (room : capacity inBuf.offset inBuf.maxlen inBuf.len sizes = some size) (enough : sizes.length ≤ fuel) :
    ∃ inBuf', readFurtherPackets max_allowed_packet fuel seq inBuf turns = .ok (some (inBuf', turns')) ∧
      inBuf'.offset = inBuf.offset ∧ inBuf'.len = inBuf.len + sizes.sum ∧ inBuf'.maxlen = size := by
  induction packets generalizing inBuf fuel with
  | @last seq payloadLen turns behind head short whole =>
    obtain ⟨fuel, rfl⟩ := Nat.exists_eq_add_one.mpr enough
    rw [sum_singleton] at allowed
    simp only [OpenHalo.readFurtherPackets, head, if_neg (Nat.not_lt.mpr allowed), readPacketPayload_eq, if_neg short]
    obtain ⟨maxlen, grown, room⟩ := capacity_cons room
    cases room
    simp only [grown, whole, if_true]
    exact ⟨_, rfl, rfl, by rw [sum_singleton], rfl⟩
  | @full seq turns behind sizes rest head whole packets ih =>
    obtain ⟨fuel, rfl⟩ := Nat.exists_eq_add_one.mpr (Nat.zero_lt_of_lt (Nat.lt_of_succ_le enough))
    rw [sum_cons] at allowed
    have first : inBuf.len + SINGLE_PACKET_MAX_PAYLOAD_LENGTH ≤ max_allowed_packet := by omega
    simp only [OpenHalo.readFurtherPackets, head, if_neg (Nat.not_lt.mpr first), readPacketPayload_eq]
    obtain ⟨maxlen, grown, room⟩ := capacity_cons room
    simp only [grown, whole]
    obtain ⟨inBuf', reads, placed, counted, sized⟩ := @ih fuel
      ⟨write inBuf.data (inBuf.offset + inBuf.len) (readBytes SINGLE_PACKET_MAX_PAYLOAD_LENGTH behind).bytes, maxlen,
        inBuf.len + SINGLE_PACKET_MAX_PAYLOAD_LENGTH, inBuf.offset⟩
      (by show _ + _ + _ ≤ _; omega) room (Nat.le_of_succ_le_succ enough)
    refine ⟨inBuf', reads, placed, ?_, sized⟩
    rw [counted, sum_cons, ← Nat.add_assoc]

variable {behind : List ReadTurn}

theorem Packets.enough (packets : Packets seq turns sizes rest) (allowed : sizes.sum ≤ max_allowed_packet) :
    sizes.length ≤ max_allowed_packet / SINGLE_PACKET_MAX_PAYLOAD_LENGTH + 1 :=
  Nat.le_trans packets.length_le (Nat.succ_le_succ (Nat.div_le_div_right allowed))

theorem Packets.readAndProcessPacket_lost
    (head : readAndProcessPacketHeader seq turns = .packet SINGLE_PACKET_MAX_PAYLOAD_LENGTH behind)
    (lost : (readBytes SINGLE_PACKET_MAX_PAYLOAD_LENGTH behind).complete = false)
    (first : SINGLE_PACKET_MAX_PAYLOAD_LENGTH ≤ max_allowed_packet) (empty : inBuf.len = 0)
    (grown : roomFor inBuf.offset inBuf.maxlen 0 SINGLE_PACKET_MAX_PAYLOAD_LENGTH = some maxlen)
    (packets : Packets (seq + 1) (readBytes SINGLE_PACKET_MAX_PAYLOAD_LENGTH behind).turns sizes turns')
    (allowed : sizes.sum ≤ max_allowed_packet) (room : capacity inBuf.offset maxlen 0 sizes = some size) :
    ∃ inBuf', readAndProcessPacket max_allowed_packet seq inBuf turns = .ok (some (inBuf', turns')) ∧
      inBuf'.offset = inBuf.offset ∧ inBuf'.len = sizes.sum ∧ inBuf'.maxlen = size := by
  have body := readPacketPayload_eq inBuf SINGLE_PACKET_MAX_PAYLOAD_LENGTH behind
  rw [empty, grown] at body
  dsimp only at body
  rw [lost, if_neg Bool.false_ne_true] at body
  obtain ⟨last, further, placed, len, sized⟩ := @Packets.readFurtherPackets max_allowed_packet _ _ _
    ⟨write inBuf.data (inBuf.offset + 0) (readBytes SINGLE_PACKET_MAX_PAYLOAD_LENGTH behind).bytes, maxlen, 0,
      inBuf.offset⟩ _ _ _ packets (by rwa [Nat.zero_add]) room (packets.enough allowed)
  refine ⟨last.terminate, ?_, placed, len.trans (Nat.zero_add _), sized⟩
  simp only [readAndProcessPacket, head, if_neg (Nat.not_lt.mpr first), body, if_neg (Nat.lt_irrefl _), further]

theorem Packets.readAndProcessPacket (packets : Packets seq turns sizes turns') (empty : inBuf.len = 0)
    (allowed : sizes.sum ≤ max_allowed_packet) (room : capacity inBuf.offset inBuf.maxlen 0 sizes = some size) :
    ∃ inBuf', readAndProcessPacket max_allowed_packet seq inBuf turns = .ok (some (inBuf', turns')) ∧
      inBuf'.offset = inBuf.offset ∧ inBuf'.len = sizes.sum ∧ inBuf'.maxlen = size := by
  have total : inBuf.len + sizes.sum ≤ max_allowed_packet := by rwa [empty, Nat.zero_add]
  rw [← empty] at room
  obtain ⟨last, reads, placed, len, sized⟩ := packets.readFurtherPackets total room
    (Nat.le_succ_of_le (packets.enough allowed))
  rw [empty, Nat.zero_add] at len
  exact ⟨last.terminate, readAndProcessPacket_of_further empty reads, placed, len, sized⟩

def FillsBuffer (max_allowed_packet seq offset maxlen : Nat) (turns : List ReadTurn) : Prop :=
  ∃ sizes rest, Packets seq turns sizes rest ∧ sizes.sum ≤ max_allowed_packet ∧
    capacity offset maxlen 0 sizes = some (offset + sizes.sum)

/-- So do those behind a full packet that broke off, if the connection goes on. -/
def FillsBufferLate (max_allowed_packet seq offset maxlen : Nat) (turns : List ReadTurn) : Prop :=
  ∃ behind size, readAndProcessPacketHeader seq turns = .packet SINGLE_PACKET_MAX_PAYLOAD_LENGTH behind ∧
    (readBytes SINGLE_PACKET_MAX_PAYLOAD_LENGTH behind).complete = false ∧
    SINGLE_PACKET_MAX_PAYLOAD_LENGTH ≤ max_allowed_packet ∧
    roomFor offset maxlen 0 SINGLE_PACKET_MAX_PAYLOAD_LENGTH = some size ∧
    FillsBuffer max_allowed_packet (seq + 1) offset size (readBytes SINGLE_PACKET_MAX_PAYLOAD_LENGTH behind).turns

theorem fillsBuffer_outside (empty : inBuf.len = 0)
    (fills : FillsBuffer max_allowed_packet seq inBuf.offset inBuf.maxlen turns ∨
      FillsBufferLate max_allowed_packet seq inBuf.offset inBuf.maxlen turns) :
    ∃ inBuf' turns', readAndProcessPacket max_allowed_packet seq inBuf turns = .ok (some (inBuf', turns')) ∧
      inBuf'.offset + inBuf'.len = inBuf'.maxlen := by
  rcases fills with ⟨sizes, rest, packets, allowed, room⟩ | ⟨behind, size, head, lost, first, grown, fills⟩
  · obtain ⟨last, reads, placed, len, sized⟩ := packets.readAndProcessPacket empty allowed room
    exact ⟨last, rest, reads, by rw [placed, len, sized]⟩
  obtain ⟨sizes, rest, packets, allowed, room⟩ := fills
  obtain ⟨last, reads, placed, len, sized⟩ := Packets.readAndProcessPacket_lost head lost first empty grown packets
    allowed room
  exact ⟨last, rest, reads, by rw [placed, len, sized]⟩

theorem terminator_inside (empty : inBuf.len = 0) (sized : 1024 ≤ inBuf.maxlen)
    (reserved : inBuf.offset ≤ 128)
    (fits : ¬FillsBuffer max_allowed_packet seq inBuf.offset inBuf.maxlen turns)
    (late : ¬FillsBufferLate max_allowed_packet seq inBuf.offset inBuf.maxlen turns)
    (reads : readAndProcessPacket max_allowed_packet seq inBuf turns = .ok (some (inBuf', turns'))) :
    inBuf'.offset + inBuf'.len < inBuf'.maxlen := by
  obtain ⟨payloadLen, behind, whole, next, left, last, head, allowed, body, rfl, rest⟩ := readAndProcessPacket_inv reads
  obtain ⟨room, isWhole, rfl, placed, counted, _⟩ := readPacketPayload_inv body
  rw [empty] at room counted
  obtain ⟨enough, larger⟩ := roomFor_le (by omega) room
  show last.offset + last.len < last.maxlen
  by_contra edge
  split at rest
  · rename_i short
    obtain ⟨rfl, _⟩ := rest
    cases whole with
    | false =>
      rw [if_neg nofun] at counted
      omega
    | true =>
      rw [if_pos rfl] at counted
      refine fits ⟨[payloadLen], _, .last head (Nat.ne_of_lt short) isWhole.symm, ?_, ?_⟩
      · rwa [sum_singleton]
      · simp only [capacity, room, sum_singleton, Option.some.injEq]
        omega
  · rename_i full
    obtain rfl : payloadLen = SINGLE_PACKET_MAX_PAYLOAD_LENGTH :=
      Nat.le_antisymm (readAndProcessPacketHeader_le head) (Nat.not_lt.mp full)
    obtain ⟨sizes, packets, len, limit, offset, size⟩ := readFurtherPackets_packets rest
    rw [placed] at size offset
    cases whole with
    | false =>
      rw [if_neg nofun] at counted
      rw [counted] at size len
      have bound := capacity_le (by omega) (by omega) size
      refine late ⟨behind, next.maxlen, head, isWhole.symm, allowed, room, sizes, turns', packets, by omega, ?_⟩
      rw [size, Option.some.injEq]
      omega
    | true =>
      rw [if_pos rfl] at counted
      rw [counted] at size len
      have bound := capacity_le (by omega) (by omega) size
      refine fits ⟨_, turns', .full head isWhole.symm packets, ?_, ?_⟩
      · rw [sum_cons]
        omega
      · simp only [capacity, room, sum_cons, size, Option.some.injEq]
        omega

/-- What is received stays inside exactly when no message ends at the end of the buffer. -/
theorem stores_inside_iff (empty : inBuf.len = 0) (sized : 1024 ≤ inBuf.maxlen) (reserved : inBuf.offset ≤ 128) :
    (∀ s ∈ readAndProcessPacketStores max_allowed_packet seq inBuf turns, s.Inside) ↔
      ¬FillsBuffer max_allowed_packet seq inBuf.offset inBuf.maxlen turns ∧
        ¬FillsBufferLate max_allowed_packet seq inBuf.offset inBuf.maxlen turns := by
  rw [readAndProcessPacketStores_inside (by omega)]
  constructor
  · intro inside
    rw [← not_or]
    intro fills
    obtain ⟨inBuf', turns', reads, full⟩ := fillsBuffer_outside empty fills
    have within := inside inBuf' turns' reads
    omega
  · intro ⟨fits, late⟩ inBuf' turns' reads
    exact terminator_inside empty sized reserved fits late reads

/-- The buffer a session starts with, read at the offset of `readCommand`. -/
def firstBuffer : StringInfo := ⟨fun _ => 0, 1024, 0, 128⟩

theorem stores_inside_firstBuffer : firstBuffer.len = 0 ∧ 1024 ≤ firstBuffer.maxlen ∧ firstBuffer.offset ≤ 128 ∧
    ∀ s ∈ readAndProcessPacketStores 67108864 0 firstBuffer [.arrived 1 [0, 0, 0, 14]], s.Inside := by
  have head : readAndProcessPacketHeader 0 [.arrived 1 [0, 0, 0, 14]] = .packet 1 [.arrived 14 []] := rfl
  refine ⟨rfl, Nat.le_refl _, Nat.le_refl _, (stores_inside_iff rfl (Nat.le_refl _) (Nat.le_refl _)).mpr ⟨?_, ?_⟩⟩
  · rintro ⟨sizes, rest, packets, _, fills⟩
    cases packets with
    | last first _ _ =>
      cases head.symm.trans first
      exact absurd fills (by decide)
    | full first _ _ => exact absurd (HeaderRead.packet.inj (head.symm.trans first)).1 (by decide)
  · rintro ⟨behind, size, first, _⟩
    exact absurd (HeaderRead.packet.inj (head.symm.trans first)).1 (by decide)

/-- A payload of 896 bytes ends with the buffer, and its terminator goes behind it. -/
theorem terminator_outside :
    ¬∀ s ∈ readAndProcessPacketStores 67108864 0 firstBuffer [.arrived 128 ([3, 0, 0, 3] ++ List.replicate 895 32)],
      s.Inside := by
  decide +kernel

end OpenHalo
