import OpenHalo.Logon.HandshakeAccess

namespace OpenHalo
open Octets Memory List

/-- The greeting, as the writes and gaps of `assembleHandshakePacketPayload`. -/
def handshakeSegments (haloMysVersion : Bytes) (enableSSL : Bool) : List Segment :=
  let character_set : UInt8 :=
    if haloMysVersion.take 3 < ascii "5.7" ∨ haloMysVersion.take 3 < ascii "8.0" then 45 else 255
  let capability_flags_1 : Bytes := if enableSSL then [223, 254] else [223, 246]
  [.put [10], .put haloMysVersion, .skip 1, .put [1, 0, 0, 0], .put (salt.take 8), .put [0],
    .put capability_flags_1, .put [character_set], .put [2, 0], .put [239, 129], .put [21], .skip 10,
    .put (salt.drop 8 ++ [0]), .put (ascii "mysql_native_password"), .skip 1]

def assembleHandshakePacketPayload (haloMysVersion : Bytes) (enableSSL : Bool) (payloadBuf : Mem) : Mem × Nat :=
  let segments := handshakeSegments haloMysVersion enableSSL
  (fun i => if i < extent segments then fill payloadBuf 0 segments i else 0, extent segments)

def assembleAuthSwitchRequestPacketPayload : Bytes :=
  [254] ++ ascii "mysql_native_password" ++ [0] ++ salt ++ [0]

/-- Where a client finds the challenge behind a version of `n` bytes: eight bytes behind the thread id,
twelve behind the reserved ones. -/
def greetingNonce (n : Nat) (greeting : Mem) : Bytes :=
  read greeting (1 + n + 1 + 4) 8 ++ read greeting (1 + n + 1 + 4 + 8 + 1 + 2 + 1 + 2 + 2 + 1 + 10) 12

def switchNonce (request : Bytes) : Bytes :=
  ((request.drop 1).dropWhile (· != 0)).drop 1 |>.takeWhile (· != 0)

/-- `pallocO`: memory that is cleared and then marked. -/
def pallocO (size : Nat) : Mem :=
  let len := if size < 50 then size - size % 5 else 50
  (List.range ((len + 5 - 30) / 5)).foldl (fun ret k => write ret (30 + 5 * k) (ascii "gzkn_")) fun _ => 0

/-- The greeting in the buffer of `authenticate`. -/
def greeting (haloMysVersion : Bytes) (enableSSL : Bool) : Mem :=
  (assembleHandshakePacketPayload haloMysVersion enableSSL (pallocO 1024)).1

/-- The challenge for a client that goes by the terminator of the version. -/
def wireNonce (haloMysVersion : Bytes) (enableSSL : Bool) : Bytes :=
  greetingNonce (strnlen (greeting haloMysVersion enableSSL) 1024 1) (greeting haloMysVersion enableSSL)

theorem pallocO_eq_zero_iff (i : Nat) : pallocO 1024 i = 0 ↔ i < 30 ∨ 54 < i := by
  by_cases near : i < 55
  · have marked : ∀ i < 55, (pallocO 1024 i = 0 ↔ i < 30 ∨ 54 < i) := by decide +kernel
    exact marked i near
  refine iff_of_true ?_ (.inr (by omega))
  have mark : (ascii "gzkn_").length = 5 := rfl
  show write (write (write (write (write (fun _ => 0) 30 (ascii "gzkn_")) 35 (ascii "gzkn_")) 40 (ascii "gzkn_")) 45
    (ascii "gzkn_")) 50 (ascii "gzkn_") i = 0
  rw [write_after (by omega), write_after (by omega), write_after (by omega), write_after (by omega),
    write_after (by omega)]

section greeting
variable (haloMysVersion : Bytes) (enableSSL : Bool)

theorem greeting_fill {i : Nat} (inside : i < haloMysVersion.length + 68) :
    greeting haloMysVersion enableSSL i = fill (pallocO 1024) 0 (handshakeSegments haloMysVersion enableSSL) i := by
  have whole : extent (handshakeSegments haloMysVersion enableSSL) = haloMysVersion.length + 68 := by
    cases enableSSL <;> simp [handshakeSegments, extent, Segment.size, salt, ascii] <;> omega
  simp only [greeting, assembleHandshakePacketPayload, whole]
  exact if_pos inside

theorem greeting_field (k : Nat) {bs : Bytes} {back : List Segment}
    (field : (handshakeSegments haloMysVersion enableSSL).drop k = .put bs :: back)
    (inside : extent ((handshakeSegments haloMysVersion enableSSL).take k) + bs.length ≤ haloMysVersion.length + 68) :
    read (greeting haloMysVersion enableSSL) (extent ((handshakeSegments haloMysVersion enableSSL).take k)) bs.length =
      bs := by
  have found := read_fill (pallocO 1024) 0 ((handshakeSegments haloMysVersion enableSSL).take k) back bs
  rw [← field, take_append_drop, Nat.zero_add] at found
  refine Eq.trans (read_congr fun i _ upper => ?_) found
  exact greeting_fill haloMysVersion enableSSL (by omega)

theorem greeting_version : read (greeting haloMysVersion enableSSL) 1 haloMysVersion.length = haloMysVersion :=
  greeting_field haloMysVersion enableSSL 1 rfl (by simp [handshakeSegments, extent, Segment.size]; omega)

theorem greeting_terminator :
    greeting haloMysVersion enableSSL (1 + haloMysVersion.length) = pallocO 1024 (1 + haloMysVersion.length) := by
  rw [greeting_fill _ _ (by omega)]
  have front : extent ((handshakeSegments haloMysVersion enableSSL).take 2) = 1 + haloMysVersion.length := by
    simp [handshakeSegments, extent, Segment.size]
  exact fill_skip (pallocO 1024) 0 ((handshakeSegments haloMysVersion enableSSL).take 2)
    ((handshakeSegments haloMysVersion enableSSL).drop 3) (by omega) (by omega)

theorem greeting_threadId : read (greeting haloMysVersion enableSSL) (2 + haloMysVersion.length) 4 = [1, 0, 0, 0] := by
  have place : extent ((handshakeSegments haloMysVersion enableSSL).take 3) = 2 + haloMysVersion.length := by
    simp [handshakeSegments, extent, Segment.size]
    omega
  have field := @greeting_field haloMysVersion enableSSL 3 [1, 0, 0, 0] _ rfl (by rw [place]; simp; omega)
  rwa [place] at field

theorem greeting_salt : read (greeting haloMysVersion enableSSL) (6 + haloMysVersion.length) 8 = salt.take 8 := by
  have place : extent ((handshakeSegments haloMysVersion enableSSL).take 4) = 6 + haloMysVersion.length := by
    simp [handshakeSegments, extent, Segment.size]
    omega
  have field := @greeting_field haloMysVersion enableSSL 4 (salt.take 8) _ rfl (by rw [place]; simp [salt]; omega)
  rwa [place] at field

theorem greetingNonce_greeting : greetingNonce haloMysVersion.length (greeting haloMysVersion enableSSL) = salt := by
  have first := greeting_salt haloMysVersion enableSSL
  have place : extent ((handshakeSegments haloMysVersion enableSSL).take 12) = 33 + haloMysVersion.length := by
    cases enableSSL <;> simp [handshakeSegments, extent, Segment.size, salt] <;> omega
  have second : read (greeting haloMysVersion enableSSL) (33 + haloMysVersion.length)
      (12 + 1) = salt.drop 8 ++ [0] := by
    rw [← place]
    exact greeting_field haloMysVersion enableSSL 12 rfl (by rw [place]; simp [salt]; omega)
  rw [read_append] at second
  have rest := (append_inj second (read_length _ _ _)).1
  have places : 1 + haloMysVersion.length + 1 + 4 = 6 + haloMysVersion.length := by omega
  have behind : 6 + haloMysVersion.length + 8 + 1 + 2 + 1 + 2 + 2 + 1 + 10 = 33 + haloMysVersion.length := by omega
  rw [greetingNonce, places, behind, first, rest]
  rfl

end greeting

section wire
variable {haloMysVersion : Bytes} {enableSSL : Bool}

theorem version_nonzero (text : 0 ∉ haloMysVersion) {i : Nat} (before : i < haloMysVersion.length) :
    greeting haloMysVersion enableSSL (1 + i) ≠ 0 := by
  intro zero
  have member : greeting haloMysVersion enableSSL (1 + i) ∈
      read (greeting haloMysVersion enableSSL) 1 haloMysVersion.length :=
    mem_map.mpr ⟨i, mem_range.mpr before, rfl⟩
  rw [greeting_version, zero] at member
  exact text member

theorem wireNonce_clear (text : 0 ∉ haloMysVersion) (fits : haloMysVersion.length ≤ 956)
    (clear : haloMysVersion.length < 29 ∨ 53 < haloMysVersion.length) : wireNonce haloMysVersion enableSSL = salt := by
  have string : StrLen (greeting haloMysVersion enableSSL) 1 haloMysVersion.length :=
    ⟨fun i before => version_nonzero text before,
      by rw [greeting_terminator, pallocO_eq_zero_iff]; omega⟩
  rw [wireNonce, strnlen_eq string, Nat.min_eq_right (by omega)]
  exact greetingNonce_greeting haloMysVersion enableSSL

theorem wireNonce_marked (text : 0 ∉ haloMysVersion) (lower : 29 ≤ haloMysVersion.length)
    (upper : haloMysVersion.length ≤ 53) : wireNonce haloMysVersion enableSSL ≠ salt := by
  have threadId := greeting_threadId haloMysVersion enableSSL
  have part := greeting_salt haloMysVersion enableSSL
  have marked : greeting haloMysVersion enableSSL (1 + haloMysVersion.length) ≠ 0 := by
    rw [greeting_terminator, ne_eq, pallocO_eq_zero_iff]
    omega
  have one : greeting haloMysVersion enableSSL (1 + (haloMysVersion.length + 1)) = 1 := by
    rw [show 1 + (haloMysVersion.length + 1) = 2 + haloMysVersion.length by omega]
    exact (List.cons.inj threadId).1
  have string : StrLen (greeting haloMysVersion enableSSL) 1 (haloMysVersion.length + 2) := by
    constructor
    · intro i before
      rcases Nat.lt_trichotomy i haloMysVersion.length with inside | last | behind
      · exact version_nonzero text inside
      · rw [last]
        exact marked
      · obtain rfl : i = haloMysVersion.length + 1 := by omega
        rw [one]
        decide
    · rw [show 1 + (haloMysVersion.length + 2) = 2 + haloMysVersion.length + 1 by omega]
      exact (List.cons.inj (List.cons.inj threadId).2).1
  rw [wireNonce, strnlen_eq string, Nat.min_eq_right (by omega)]
  intro same
  have first : greeting haloMysVersion enableSSL (6 + haloMysVersion.length + 2) = 118 := by
    rw [show 6 + haloMysVersion.length + 2 = 1 + (haloMysVersion.length + 2) + 1 + 4 by omega]
    exact (List.cons.inj same).1
  have third : greeting haloMysVersion enableSSL (6 + haloMysVersion.length + 2) = 1 :=
    (List.cons.inj (List.cons.inj (List.cons.inj part).2).2).1
  rw [first] at third
  cases third

end wire

theorem switchNonce_assemble : switchNonce assembleAuthSwitchRequestPacketPayload = salt := by
  decide

end OpenHalo
