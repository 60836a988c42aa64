import OpenHalo.Logon.NativePassword

namespace OpenHalo
open Octets Memory

/-- A packet read during the logon, with what lies behind it in its buffer. -/
structure LogonPacket where
  payload : Bytes
  junk : Mem

def LogonPacket.data (p : LogonPacket) : Mem := load (p.payload ++ [0]) 0 p.junk

/-- `strlen`, as far as a limit that the caller compares it with. -/
def strnlen (m : Mem) : Nat → Nat → Nat
  | 0, _ => 0
  | limit + 1, a => if m a = 0 then 0 else strnlen m limit (a + 1) + 1

/-- A buffer cleared with `memset` and then filled. -/
def padded (bs : Bytes) : Mem := load bs 0 fun _ => 0

theorem padded_apply (bs : Bytes) (i : Nat) : padded bs i = bs.getD i 0 := by
  simp only [padded, load, write, Nat.zero_le, if_true, Nat.sub_zero]

def MYS_CLT_CONNECT_WITH_DB : Nat := 3
def MYS_CLT_PROTOCOL_41 : Nat := 9
def MYS_CLT_SSL : Nat := 11
def MYS_CLT_PLUGIN_AUTH : Nat := 19
def MYS_CLT_PLUGIN_AUTH_LENENC_CLIENT_DATA : Nat := 21

/-- What the parsers of the handshake response leave in their output buffers. -/
structure HandshakeResp where
  clientFlag : Nat
  userName : Bytes
  authResp : Mem
  db : Bytes

/-- `gone`: the client left, or TLS could not be opened. `overrun`: the switch answer ran over its buffer. -/
inductive Parse
  | gone
  | overrun
  | returned (ok : Bool) (resp : HandshakeResp)

def readAuthSwitchResponse (resp : HandshakeResp) : List LogonPacket → Parse
  | [] => .gone
  | p :: _ =>
    if 511 < p.payload.length then .overrun
    else .returned true { resp with authResp := padded (cstr p.payload) }

def parsePluginName (m : Mem) (rest : List LogonPacket) (start : Nat) (resp : HandshakeResp) : Parse :=
  if resp.clientFlag.testBit MYS_CLT_PLUGIN_AUTH then
    let len := strnlen m 100 start
    if 99 < len then .returned false resp
    else if read m start len = ascii "mysql_native_password" then .returned true resp
    else readAuthSwitchResponse resp rest
  else .returned true resp

def parseDatabase (m : Mem) (rest : List LogonPacket) (start : Nat) (resp : HandshakeResp) : Parse :=
  if resp.clientFlag.testBit MYS_CLT_CONNECT_WITH_DB then
    let len := strnlen m 256 start
    if 255 < len then .returned false resp
    else parsePluginName m rest (start + len + 1) { resp with db := read m start len }
  else parsePluginName m rest start resp

def authRespLenSize (clientFlag : Nat) (first : UInt8) : Nat × Nat :=
  if clientFlag.testBit MYS_CLT_PLUGIN_AUTH_LENENC_CLIENT_DATA then
    if first = 252 then (1, 2) else if first = 253 then (1, 3) else if first = 254 then (1, 8) else (0, 1)
  else (0, 1)

def parseResp41 (m : Mem) (rest : List LogonPacket) (authRespBuf : Mem) : Parse :=
  let clientFlag := littleEndian (read m 0 4)
  let userName_len := strnlen m 256 32
  if 255 < userName_len then .returned false ⟨clientFlag, [], authRespBuf, []⟩
  else
    let userName := read m 32 userName_len
    let start := 32 + userName_len + 1
    let size := authRespLenSize clientFlag (m start)
    let auth_resp_len := littleEndian (read m (start + size.1) size.2)
    let auth_resp_start_index := start + size.1 + size.2
    if 511 < auth_resp_len then .returned false ⟨clientFlag, userName, authRespBuf, []⟩
    else
      parseDatabase m rest (auth_resp_start_index + auth_resp_len)
        ⟨clientFlag, userName, padded (read m auth_resp_start_index auth_resp_len), []⟩

def parseHandshakeResp41PacketPayload (sslOpens : Bool) (m : Mem) (rest : List LogonPacket) (authRespBuf : Mem) :
    Parse :=
  if (littleEndian (read m 0 4)).testBit MYS_CLT_SSL then
    match sslOpens, rest with
    | true, p :: rest => parseResp41 p.data rest authRespBuf
    | _, _ => .gone
  else parseResp41 m rest authRespBuf

/-- The parser for clients older than 4.1, which looks for the token at the end of the user name. -/
def parseHandshakeResp320PacketPayload (m : Mem) (payloadLen : Nat) (authRespBuf : Mem) : Parse :=
  let clientFlag := littleEndian (read m 0 2)
  let userName_len := strnlen m 256 5
  let auth_resp_start_index := 5 + userName_len
  let auth_resp_len := strnlen m 512 auth_resp_start_index
  let db_start_index := auth_resp_start_index + auth_resp_len
  let db_len := strnlen m 256 db_start_index
  if 255 < userName_len then .returned false ⟨clientFlag, [], authRespBuf, []⟩
  else
    let userName := read m 5 userName_len
    if clientFlag.testBit MYS_CLT_CONNECT_WITH_DB then
      if 511 < auth_resp_len then .returned false ⟨clientFlag, userName, padded [], []⟩
      else
        let authResp := padded (read m auth_resp_start_index auth_resp_len)
        if 255 < db_len then .returned false ⟨clientFlag, userName, authResp, []⟩
        else .returned true ⟨clientFlag, userName, authResp, read m db_start_index db_len⟩
    else if payloadLen < auth_resp_start_index ∨ 511 < payloadLen - auth_resp_start_index then
      .returned false ⟨clientFlag, userName, padded [], []⟩
    else
      .returned true
        ⟨clientFlag, userName, padded (read m auth_resp_start_index (payloadLen - auth_resp_start_index)), []⟩

def parseHandshakeRespPacketPayload (sslOpens : Bool) (first : LogonPacket) (rest : List LogonPacket)
    (authRespBuf : Mem) : Parse :=
  if (littleEndian (read first.data 0 2)).testBit MYS_CLT_PROTOCOL_41 then
    parseHandshakeResp41PacketPayload sslOpens first.data rest authRespBuf
  else parseHandshakeResp320PacketPayload first.data first.payload.length authRespBuf

end OpenHalo
