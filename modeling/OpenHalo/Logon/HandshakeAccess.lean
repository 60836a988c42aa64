import OpenHalo.Lib.CString
import OpenHalo.Logon.Handshake

namespace OpenHalo
open Octets Memory List

variable {i n size : Nat} {xs ys : List Access}

/-- What the 4.1 parser does to memory: it copies bytes of the packet, looks for the end of a string,
exchanges a byte for a while, or fills a buffer. -/
inductive Access
  | load (start n : Nat)
  | strlen (start : Nat)
  | exchange (index : Int)
  | fill (size n : Nat)
deriving Repr, DecidableEq

/-- The access stays in the packet, or in the buffer that it fills. -/
def Access.Inside (payload : Bytes) : Access → Prop
  | .load start n => start + n ≤ payload.length
  | .strlen start => 0 ∈ payload.drop start
  | .exchange index => 0 ≤ index ∧ index < payload.length
  | .fill size n => n ≤ size

def AllInside (payload : Bytes) (accesses : List Access) : Prop := ∀ access ∈ accesses, access.Inside payload

/-- `strncpy` of a string with a known length. -/
def strncpy (size start len n : Nat) : List Access := [.load start (min (len + 1) n), .fill size n]

/-- The parser with its accesses; `strlen` looks behind the limits its results are compared with. -/
def traceAuthSwitchResponse (resp : HandshakeResp) : List LogonPacket → List Access × Parse
  | [] => ([], .gone)
  | p :: rest =>
    ([.fill 512 512, .fill 512 p.payload.length, .fill 512 (p.payload.length + 1)],
      readAuthSwitchResponse resp (p :: rest))

/-- `parsePluginName` with its accesses. -/
def tracePluginName (m : Mem) (rest : List LogonPacket) (start : Nat) (resp : HandshakeResp) : List Access × Parse :=
  if resp.clientFlag.testBit MYS_CLT_PLUGIN_AUTH then
    let len := strnlen m 100 start
    let measured := [.fill 100 100, .strlen start]
    if 99 < len then (measured, .returned false resp)
    else
      let copied := measured ++ strncpy 100 start len 99
      if read m start len = ascii "mysql_native_password" then (copied, .returned true resp)
      else
        let switched := traceAuthSwitchResponse resp rest
        (copied ++ switched.1, switched.2)
  else ([], .returned true resp)

/-- `parseDatabase` with its accesses. -/
def traceDatabase (m : Mem) (rest : List LogonPacket) (start : Nat) (resp : HandshakeResp) : List Access × Parse :=
  if resp.clientFlag.testBit MYS_CLT_CONNECT_WITH_DB then
    let len := strnlen m 256 start
    let measured := [.fill 256 256, .strlen start]
    if 255 < len then (measured, .returned false resp)
    else
      let plugin := tracePluginName m rest (start + len + 1) { resp with db := read m start len }
      (measured ++ strncpy 256 start len 255 ++ plugin.1, plugin.2)
  else tracePluginName m rest start resp

/-- The token's length and the token, with the byte behind it exchanged. -/
def traceAuthResp (m : Mem) (rest : List LogonPacket) (authRespBuf : Mem) (clientFlag : Nat) (userName : Bytes)
    (start : Nat) :
    List Access × Parse :=
  let first := if clientFlag.testBit MYS_CLT_PLUGIN_AUTH_LENENC_CLIENT_DATA then [.load start 1] else []
  let size := authRespLenSize clientFlag (m start)
  let auth_resp_len := littleEndian (read m (start + size.1) size.2)
  let auth_resp_start_index := start + size.1 + size.2
  let auth_resp_end_index := (auth_resp_start_index : Int) + signed 64 auth_resp_len
  let measured := first ++ [.load (start + size.1) size.2, .exchange auth_resp_end_index]
  if 511 < auth_resp_len then (measured, .returned false ⟨clientFlag, userName, authRespBuf, []⟩)
  else
    let db := traceDatabase m rest (auth_resp_start_index + auth_resp_len)
      ⟨clientFlag, userName, padded (read m auth_resp_start_index auth_resp_len), []⟩
    (measured ++ [.fill 512 512, .exchange auth_resp_end_index, .load auth_resp_start_index auth_resp_len,
      .fill 512 auth_resp_len] ++ db.1, db.2)

def traceResp41 (m : Mem) (rest : List LogonPacket) (authRespBuf : Mem) : List Access × Parse :=
  let clientFlag := littleEndian (read m 0 4)
  let userName_len := strnlen m 256 32
  let measured := [.strlen 32, .fill 256 256]
  if 255 < userName_len then (measured, .returned false ⟨clientFlag, [], authRespBuf, []⟩)
  else
    let auth := traceAuthResp m rest authRespBuf clientFlag (read m 32 userName_len) (32 + userName_len + 1)
    (measured ++ strncpy 256 32 userName_len 255 ++ auth.1, auth.2)

/-- The flags, the maximal packet size and the character set. -/
def fixedPart : List Access := [.load 0 4, .load 4 4, .load 8 1]

/-- All accesses, each with the packet it is made in. -/
def traceHandshakeResp41PacketPayload (sslOpens : Bool) (first : LogonPacket) (rest : List LogonPacket)
    (authRespBuf : Mem) :
    List (Bytes × Access) × Parse :=
  let made (p : LogonPacket) (accesses : List Access) := accesses.map fun access => (p.payload, access)
  if (littleEndian (read first.data 0 4)).testBit MYS_CLT_SSL then
    match sslOpens, rest with
    | true, p :: rest =>
      let run := traceResp41 p.data rest authRespBuf
      (made first fixedPart ++ made p (fixedPart ++ run.1), run.2)
    | _, _ => (made first fixedPart, .gone)
  else
    let run := traceResp41 first.data rest authRespBuf
    (made first (fixedPart ++ run.1), run.2)

theorem traceAuthSwitchResponse_parses (resp : HandshakeResp) (rest : List LogonPacket) :
    (traceAuthSwitchResponse resp rest).2 = readAuthSwitchResponse resp rest := by
  cases rest with
  | nil | cons => rfl

theorem tracePluginName_parses (m : Mem) (rest : List LogonPacket) (start : Nat) (resp : HandshakeResp) :
    (tracePluginName m rest start resp).2 = parsePluginName m rest start resp := by
  unfold tracePluginName parsePluginName
  split
  · dsimp only
    split
    · rfl
    split
    · rfl
    · exact traceAuthSwitchResponse_parses resp rest
  · rfl

theorem traceDatabase_parses (m : Mem) (rest : List LogonPacket) (start : Nat) (resp : HandshakeResp) :
    (traceDatabase m rest start resp).2 = parseDatabase m rest start resp := by
  unfold traceDatabase parseDatabase
  split
  · dsimp only
    split
    · rfl
    · exact tracePluginName_parses m rest _ _
  · exact tracePluginName_parses m rest start resp

theorem traceResp41_parses (m : Mem) (rest : List LogonPacket) (authRespBuf : Mem) :
    (traceResp41 m rest authRespBuf).2 = parseResp41 m rest authRespBuf := by
  unfold traceResp41 parseResp41
  dsimp only
  split
  · rfl
  unfold traceAuthResp
  dsimp only
  split
  · rfl
  · exact traceDatabase_parses m rest _ _

/-- But for the accesses, it is the parser. -/
theorem traceHandshakeResp41PacketPayload_parses (sslOpens : Bool) (first : LogonPacket) (rest : List LogonPacket)
    (authRespBuf : Mem) :
    (traceHandshakeResp41PacketPayload sslOpens first rest authRespBuf).2 =
      parseHandshakeResp41PacketPayload sslOpens first.data rest authRespBuf := by
  unfold traceHandshakeResp41PacketPayload parseHandshakeResp41PacketPayload
  split
  · cases sslOpens with
    | false => rfl
    | true =>
      cases rest with
      | nil => rfl
      | cons p rest => exact traceResp41_parses p.data rest authRespBuf
  · exact traceResp41_parses first.data rest authRespBuf

def stringAt (payload : Bytes) (start : Nat) : Bytes := cstr (payload.drop start)

/-- The answer to a switch has room in its buffer. -/
def SwitchFits (plugin : Bytes) : List LogonPacket → Prop
  | [] => True
  | p :: _ => plugin.length ≤ 99 → plugin ≠ ascii "mysql_native_password" → p.payload.length ≤ 511

/-- The plugin's name ends in the packet. -/
def PluginFits (payload : Bytes) (rest : List LogonPacket) (clientFlag start : Nat) : Prop :=
  clientFlag.testBit MYS_CLT_PLUGIN_AUTH = true → 0 ∈ payload.drop start ∧ SwitchFits (stringAt payload start) rest

/-- The database's name ends in the packet, and the rest fits. -/
def DatabaseFits (payload : Bytes) (rest : List LogonPacket) (clientFlag start : Nat) : Prop :=
  if clientFlag.testBit MYS_CLT_CONNECT_WITH_DB then
    0 ∈ payload.drop start ∧ ((stringAt payload start).length ≤ 255 →
      PluginFits payload rest clientFlag (start + (stringAt payload start).length + 1))
  else PluginFits payload rest clientFlag start

/-- The token and one byte behind it are in the packet, and the rest fits. -/
def AuthRespFits (payload : Bytes) (rest : List LogonPacket) (clientFlag start : Nat) : Prop :=
  let size := authRespLenSize clientFlag (payload.getD start 0)
  let auth_resp_len := littleEndian ((payload.drop (start + size.1)).take size.2)
  let auth_resp_start_index := start + size.1 + size.2
  let auth_resp_end_index := (auth_resp_start_index : Int) + signed 64 auth_resp_len
  auth_resp_start_index ≤ payload.length ∧ 0 ≤ auth_resp_end_index ∧ auth_resp_end_index < payload.length ∧
    (auth_resp_len ≤ 511 → DatabaseFits payload rest clientFlag (auth_resp_start_index + auth_resp_len))

/-- The user's name ends in the packet, and the rest fits. -/
def RespFits (payload : Bytes) (rest : List LogonPacket) : Prop :=
  0 ∈ payload.drop 32 ∧ ((stringAt payload 32).length ≤ 255 →
    AuthRespFits payload rest (littleEndian (payload.take 4)) (32 + (stringAt payload 32).length + 1))

/-- Every field ends in its packet. -/
def HandshakeFits (sslOpens : Bool) (first : LogonPacket) (rest : List LogonPacket) : Prop :=
  9 ≤ first.payload.length ∧
    if (littleEndian (first.payload.take 4)).testBit MYS_CLT_SSL then
      match sslOpens, rest with
      | true, p :: rest => 9 ≤ p.payload.length ∧ RespFits p.payload rest
      | _, _ => True
    else RespFits first.payload rest

section Packet

variable {p : LogonPacket} {start : Nat}

theorem LogonPacket.data_inside (inside : i < p.payload.length) : p.data i = p.payload.getD i 0 := by
  simp only [LogonPacket.data, load, write, Nat.zero_le, if_true, Nat.sub_zero]
  rw [getD_append _ _ _ _ inside, getD_eq_getElem _ _ inside, getD_eq_getElem _ _ inside]

theorem LogonPacket.read_inside {n : Nat} (inside : start + n ≤ p.payload.length) :
    read p.data start n = (p.payload.drop start).take n := by
  apply ext_getElem
  · rw [read_length, length_take, length_drop]
    omega
  · intro i bound _
    rw [read_length] at bound
    rw [getElem_read, getElem_take, getElem_drop, LogonPacket.data_inside (by omega),
      getD_eq_getElem _ _ (by omega)]

variable {payload : Bytes} (rest : List LogonPacket)

theorem stringAt_inside (ends : 0 ∈ payload.drop start) :
    start + (stringAt payload start).length + 1 ≤ payload.length := by
  obtain ⟨rest, split⟩ := cstr_split ends
  have lengths := congrArg List.length split
  rw [length_drop, length_append, length_cons] at lengths
  rw [stringAt]
  omega

theorem LogonPacket.read_string (ends : 0 ∈ p.payload.drop start) :
    read p.data start (stringAt p.payload start).length = stringAt p.payload start := by
  have inside := stringAt_inside ends
  rw [LogonPacket.read_inside (by omega), stringAt, cstr]
  obtain ⟨rest, split⟩ := List.takeWhile_prefix (l := p.payload.drop start) (· != (0 : UInt8))
  nth_rewrite 2 [← split]
  rw [take_left]

theorem LogonPacket.strLen (ends : 0 ∈ p.payload.drop start) :
    StrLen p.data start (stringAt p.payload start).length := by
  have inside := stringAt_inside ends
  constructor
  · intro i before zero
    have member : p.data (start + i) ∈ read p.data start (stringAt p.payload start).length :=
      mem_map.mpr ⟨i, mem_range.mpr before, rfl⟩
    rw [LogonPacket.read_string ends, zero] at member
    exact cstr_nonzero _ member
  · obtain ⟨rest, split⟩ := cstr_split ends
    have last := congrArg (fun s => s.getD (stringAt p.payload start).length 0) split
    rw [LogonPacket.data_inside (by omega)]
    rw [stringAt, getD_append_right _ _ _ _ (Nat.le_refl _), Nat.sub_self] at last
    rw [getD_eq_getElem?_getD, List.getElem?_drop] at last
    exact last

theorem strnlen_eq {m : Mem} {a : Nat} (string : StrLen m a n) (limit : Nat) : strnlen m limit a = min limit n := by
  induction limit generalizing a n with
  | zero => rw [strnlen, Nat.zero_min]
  | succ limit ih =>
    rw [strnlen]
    cases n with
    | zero =>
      have zero : m a = 0 := string.ended
      rw [if_pos zero, Nat.min_zero]
    | succ n =>
      have nonzero : m a ≠ 0 := string.nonzero 0 (Nat.succ_pos n)
      rw [if_neg nonzero, ih string.tail]
      omega

/-- A string that ends in the packet is measured there. -/
theorem LogonPacket.strnlen (ends : 0 ∈ p.payload.drop start) (limit : Nat) :
    OpenHalo.strnlen p.data limit start = min limit (stringAt p.payload start).length :=
  strnlen_eq (LogonPacket.strLen ends) limit

theorem signed_small (small : n ≤ 511) : signed 64 n = n := by
  rw [signed, if_pos (by omega)]

theorem strncpy_inside {len : Nat} (room : n ≤ size) (ends : 0 ∈ p.payload.drop start)
    (whole : len = (stringAt p.payload start).length) : AllInside p.payload (strncpy size start len n) := by
  have inside := stringAt_inside ends
  intro access member
  rcases mem_cons.mp member with rfl | last
  · show start + min (len + 1) n ≤ p.payload.length
    omega
  · rw [mem_singleton.mp last]
    exact room

theorem allInside_append : AllInside payload (xs ++ ys) ↔ AllInside payload xs ∧ AllInside payload ys :=
  forall_mem_append

theorem allInside_cons {x : Access} :
    AllInside payload (x :: xs) ↔ x.Inside payload ∧ AllInside payload xs := forall_mem_cons

theorem allInside_nil (payload : Bytes) : AllInside payload [] := forall_mem_nil _

theorem allInside_measured : AllInside payload [.fill size size, .strlen start] ↔ 0 ∈ payload.drop start := by
  rw [allInside_cons, allInside_cons]
  exact ⟨fun inside => inside.2.1, fun ends => ⟨Nat.le_refl _, ends, allInside_nil _⟩⟩

/-- A string is measured, and copied unless it is too long. -/
theorem string_inside {measured later : List Access} {Fits : Prop} (size : Nat)
    (opening : AllInside p.payload measured ↔ 0 ∈ p.payload.drop start)
    (behind : 0 ∈ p.payload.drop start → OpenHalo.strnlen p.data (size + 1) start = (stringAt p.payload start).length →
      (stringAt p.payload start).length ≤ size → (AllInside p.payload later ↔ Fits)) (a b : Parse) :
    AllInside p.payload (if size < OpenHalo.strnlen p.data (size + 1) start then (measured, a)
      else (measured ++ strncpy (size + 1) start (OpenHalo.strnlen p.data (size + 1) start) size ++ later, b)).1 ↔
        0 ∈ p.payload.drop start ∧ ((stringAt p.payload start).length ≤ size → Fits) := by
  by_cases ends : 0 ∈ p.payload.drop start
  · have length := LogonPacket.strnlen ends (size + 1)
    rw [and_iff_right ends]
    split
    next long => exact iff_of_true (opening.mpr ends) fun short => absurd short (by omega)
    next short =>
      have whole : OpenHalo.strnlen p.data (size + 1) start = (stringAt p.payload start).length := by omega
      have copied := allInside_append.mpr ⟨opening.mpr ends, strncpy_inside (Nat.le_succ size) ends whole⟩
      rw [allInside_append, and_iff_right copied, behind ends whole (by omega)]
      exact ⟨fun fits _ => fits, fun fits => fits (by omega)⟩
  · refine iff_of_false (fun inside => ends (opening.mp ?_)) fun fits => ends fits.1
    split at inside
    · exact inside
    · exact (allInside_append.mp (allInside_append.mp inside).1).1

theorem switch_inside (resp : HandshakeResp) {plugin : Bytes} (rest : List LogonPacket) (short : plugin.length ≤ 99)
    (other : plugin ≠ ascii "mysql_native_password") :
    AllInside p.payload (traceAuthSwitchResponse resp rest).1 ↔ SwitchFits plugin rest := by
  cases rest with
  | nil => exact iff_of_true (allInside_nil _) trivial
  | cons answer rest =>
    simp only [traceAuthSwitchResponse, allInside_cons, Access.Inside, SwitchFits]
    constructor
    · omega
    · intro fits
      have room := fits short other
      exact ⟨Nat.le_refl _, by omega, by omega, allInside_nil _⟩

theorem plugin_inside (start : Nat) (resp : HandshakeResp) :
    AllInside p.payload (tracePluginName p.data rest start resp).1 ↔
      PluginFits p.payload rest resp.clientFlag start := by
  unfold tracePluginName PluginFits
  split
  next named =>
    have behind (ends : 0 ∈ p.payload.drop start)
        (whole : OpenHalo.strnlen p.data 100 start = (stringAt p.payload start).length)
        (short : (stringAt p.payload start).length ≤ 99) :
        AllInside p.payload (if read p.data start (OpenHalo.strnlen p.data 100 start) =
          ascii "mysql_native_password" then []
          else (traceAuthSwitchResponse resp rest).1) ↔ SwitchFits (stringAt p.payload start) rest := by
      rw [whole, LogonPacket.read_string ends]
      split
      next native => exact iff_of_true (allInside_nil _) (by cases rest <;> simp [SwitchFits, native])
      next other => exact switch_inside resp rest short other
    have limited : ((stringAt p.payload start).length ≤ 99 → SwitchFits (stringAt p.payload start) rest) ↔
        SwitchFits (stringAt p.payload start) rest := by
      cases rest <;> simp +contextual [SwitchFits]
    have fits := string_inside 99 (@allInside_measured 100 start _) behind (.returned false resp) .gone
    rw [limited] at fits
    simp only [named, true_imp_iff, ← fits]
    split_ifs <;> simp only [append_nil]
  next unnamed =>
    exact iff_of_true (allInside_nil _) fun named => absurd named unnamed

theorem database_inside (start : Nat) (resp : HandshakeResp) :
    AllInside p.payload (traceDatabase p.data rest start resp).1 ↔
      DatabaseFits p.payload rest resp.clientFlag start := by
  unfold traceDatabase DatabaseFits
  split
  next =>
    refine string_inside 255 allInside_measured (fun _ whole _ => ?_) _ _
    rw [plugin_inside, whole]
  next => exact plugin_inside rest start resp

theorem authRespLenSize_pos (clientFlag : Nat) (first : UInt8) : 0 < (authRespLenSize clientFlag first).2 := by
  unfold authRespLenSize
  split_ifs <;> decide

/-- The token is exchanged and copied inside the packet exactly if it fits. -/
theorem authResp_inside (authRespBuf : Mem) (clientFlag : Nat) (userName : Bytes) (start : Nat) :
    AllInside p.payload (traceAuthResp p.data rest authRespBuf clientFlag userName start).1 ↔
      AuthRespFits p.payload rest clientFlag start := by
  -- the length is read first, whatever it is
  have measured (size : Nat × Nat) (index : Int) :
      AllInside p.payload ((if clientFlag.testBit MYS_CLT_PLUGIN_AUTH_LENENC_CLIENT_DATA then [.load start 1] else
        []) ++ [.load (start + size.1) size.2, .exchange index]) ↔
      ((clientFlag.testBit MYS_CLT_PLUGIN_AUTH_LENENC_CLIENT_DATA = true → start + 1 ≤ p.payload.length) ∧
        start + size.1 + size.2 ≤ p.payload.length) ∧ 0 ≤ index ∧ index < p.payload.length := by
    split <;> simp_all [AllInside, Access.Inside, and_assoc]
  unfold traceAuthResp AuthRespFits
  dsimp only
  by_cases begun : start < p.payload.length
  · rw [LogonPacket.data_inside begun]
    generalize sized : authRespLenSize clientFlag (p.payload.getD start 0) = size
    by_cases whole : start + size.1 + size.2 ≤ p.payload.length
    · rw [LogonPacket.read_inside (by omega)]
      have given : (clientFlag.testBit MYS_CLT_PLUGIN_AUTH_LENENC_CLIENT_DATA = true → start + 1 ≤ p.payload.length) ∧
          start + size.1 + size.2 ≤ p.payload.length := ⟨fun _ => begun, whole⟩
      split
      next huge =>
        rw [measured, and_iff_right given, and_iff_right whole]
        exact ⟨fun index => ⟨index.1, index.2, fun short => absurd short (by omega)⟩, fun fits => ⟨fits.1, fits.2.1⟩⟩
      next short =>
        have small := signed_small (Nat.not_lt.mp short)
        rw [allInside_append, allInside_append, measured, and_iff_right given, and_iff_right whole, database_inside]
        simp only [allInside_cons, Access.Inside]
        constructor
        · rintro ⟨⟨index, _⟩, fits⟩
          exact ⟨index.1, index.2, fun _ => fits⟩
        · rintro ⟨lower, upper, fits⟩
          exact ⟨⟨⟨lower, upper⟩, Nat.le_refl _, ⟨lower, upper⟩, by omega, by omega, allInside_nil _⟩, fits (by omega)⟩
    · refine iff_of_false (fun inside => ?_) fun fits => whole fits.1
      split at inside
      · exact whole ((measured _ _).mp inside).1.2
      · exact whole ((measured _ _).mp (allInside_append.mp (allInside_append.mp inside).1).1).1.2
  · refine iff_of_false (fun inside => ?_) fun fits => ?_
    · have positive := authRespLenSize_pos clientFlag (p.data start)
      have loaded :
          start + (authRespLenSize clientFlag (p.data start)).1 + (authRespLenSize clientFlag (p.data start)).2 ≤
          p.payload.length := by
        split at inside
        · exact ((measured _ _).mp inside).1.2
        · exact ((measured _ _).mp (allInside_append.mp (allInside_append.mp inside).1).1).1.2
      omega
    · have positive := authRespLenSize_pos clientFlag (p.payload.getD start 0)
      omega

theorem resp41_inside (authRespBuf : Mem) (flags : 9 ≤ p.payload.length) :
    AllInside p.payload (traceResp41 p.data rest authRespBuf).1 ↔ RespFits p.payload rest := by
  have clientFlag : read p.data 0 4 = p.payload.take 4 := LogonPacket.read_inside (by omega)
  have measured : AllInside p.payload [.strlen 32, .fill 256 256] ↔ 0 ∈ p.payload.drop 32 := by
    rw [allInside_cons, allInside_cons]
    exact ⟨fun inside => inside.1, fun ends => ⟨ends, Nat.le_refl _, allInside_nil _⟩⟩
  refine string_inside 255 measured (fun _ whole _ => ?_) _ _
  rw [authResp_inside, whole, clientFlag]

theorem fixedPart_inside : AllInside payload fixedPart ↔ 9 ≤ payload.length := by
  simp only [fixedPart, allInside_cons, Access.Inside]
  constructor
  · rintro ⟨_, _, last, _⟩
    exact last
  · intro enough
    exact ⟨by omega, by omega, enough, allInside_nil _⟩

end Packet

/-- All accesses are inside exactly if the handshake fits. -/
theorem trace_inside (sslOpens : Bool) (first : LogonPacket) (rest : List LogonPacket) (authRespBuf : Mem) :
    (∀ made ∈ (traceHandshakeResp41PacketPayload sslOpens first rest authRespBuf).1, made.2.Inside made.1) ↔
      HandshakeFits sslOpens first rest := by
  have mapped (p : LogonPacket) (accesses : List Access) :
      (∀ made ∈ accesses.map fun access => (p.payload, access), made.2.Inside made.1) ↔ AllInside p.payload accesses :=
    forall_mem_map
  unfold traceHandshakeResp41PacketPayload HandshakeFits
  by_cases flags : 9 ≤ first.payload.length
  · have clientFlag : read first.data 0 4 = first.payload.take 4 := LogonPacket.read_inside (by omega)
    rw [clientFlag, and_iff_right flags]
    split
    · cases sslOpens with
      | false => exact iff_of_true ((mapped _ _).mpr (fixedPart_inside.mpr flags)) trivial
      | true =>
        cases rest with
        | nil => exact iff_of_true ((mapped _ _).mpr (fixedPart_inside.mpr flags)) trivial
        | cons p rest =>
          rw [forall_mem_append, mapped, mapped, fixedPart_inside, and_iff_right flags, allInside_append,
            fixedPart_inside]
          exact and_congr_right fun enough => resp41_inside rest authRespBuf enough
    · rw [mapped, allInside_append, fixedPart_inside, and_iff_right flags]
      exact resp41_inside rest authRespBuf flags
  · refine iff_of_false (fun inside => flags ?_) fun fits => flags fits.1
    split at inside
    · cases sslOpens with
      | false => exact fixedPart_inside.mp ((mapped _ _).mp inside)
      | true =>
        cases rest with
        | nil => exact fixedPart_inside.mp ((mapped _ _).mp inside)
        | cons p rest => exact fixedPart_inside.mp ((mapped _ _).mp (forall_mem_append.mp inside).1)
    · exact fixedPart_inside.mp (allInside_append.mp ((mapped _ _).mp inside)).1

end OpenHalo
