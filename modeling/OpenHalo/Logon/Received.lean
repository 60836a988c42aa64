import OpenHalo.Logon.Authenticate

namespace OpenHalo
open Octets Memory

/-- What a client sent, by the protocol: a response the parsers give up on, with what they noted, or a
complete one. -/
inductive Received
  | gone
  | overrun
  | failed (role : Bytes) (kept : Option Bytes)
  | direct (role token : Bytes)
  | switched (role token : Bytes)
  | old (role token : Bytes)
deriving Repr, DecidableEq

def roleName (m : Mem) (start : Nat) : Bytes := read m start (strnlen m 256 start)

def tokenSize41 (m : Mem) : Nat × Nat :=
  authRespLenSize (littleEndian (read m 0 4)) (m (32 + (roleName m 32).length + 1))

def tokenStart41 (m : Mem) : Nat := 32 + (roleName m 32).length + 1 + (tokenSize41 m).1 + (tokenSize41 m).2

def tokenLength41 (m : Mem) : Nat :=
  littleEndian (read m (32 + (roleName m 32).length + 1 + (tokenSize41 m).1) (tokenSize41 m).2)

def token41 (m : Mem) : Bytes := read m (tokenStart41 m) (tokenLength41 m)

def dbLength41 (m : Mem) : Nat :=
  if (littleEndian (read m 0 4)).testBit MYS_CLT_CONNECT_WITH_DB then
    strnlen m 256 (tokenStart41 m + tokenLength41 m) + 1
  else 0

def pluginName (m : Mem) (clientFlag start : Nat) : Option Bytes :=
  if clientFlag.testBit MYS_CLT_PLUGIN_AUTH then some (read m start (strnlen m 100 start)) else none

def receivedPlugin (role token : Bytes) (rest : List LogonPacket) : Option Bytes → Received
  | none => .direct role token
  | some plugin =>
    if 99 < plugin.length then .failed role (some token)
    else if plugin = ascii "mysql_native_password" then .direct role token
    else match rest with
      | [] => .gone
      | p :: _ => if 511 < p.payload.length then .overrun else .switched role p.payload

def received41 (m : Mem) (rest : List LogonPacket) : Received :=
  if 255 < (roleName m 32).length then .failed [] none
  else if 511 < tokenLength41 m then .failed (roleName m 32) none
  else if 256 < dbLength41 m then .failed (roleName m 32) (some (token41 m))
  else
    receivedPlugin (roleName m 32) (token41 m) rest
      (pluginName m (littleEndian (read m 0 4)) (tokenStart41 m + tokenLength41 m + dbLength41 m))

/-- Before 4.1 the token follows the user name: a C string before a database name, else the rest. -/
def received320 (m : Mem) (payloadLen : Nat) : Received :=
  let start := 6 + (roleName m 5).length
  if 255 < (roleName m 5).length then .failed [] none
  else if (littleEndian (read m 0 2)).testBit MYS_CLT_CONNECT_WITH_DB then
    .old (roleName m 5) (read m start (strnlen m 512 start))
  else if payloadLen + 1 < start ∨ 511 < payloadLen + 1 - start then .failed (roleName m 5) (some [])
  else .old (roleName m 5) (read m start (payloadLen - start))

def received (sslOpens : Bool) : List LogonPacket → Received
  | [] => .gone
  | first :: rest =>
    if (littleEndian (read first.data 0 2)).testBit MYS_CLT_PROTOCOL_41 then
      if (littleEndian (read first.data 0 4)).testBit MYS_CLT_SSL then
        match sslOpens, rest with
        | true, p :: rest => received41 p.data rest
        | _, _ => .gone
      else received41 first.data rest
    else received320 first.data first.payload.length

/-- The parsers follow the layout, leaving `stack` in the token buffer when they give up before they
clear it. -/
inductive Returned (stack : Mem) : Received → Parse → Prop
  | gone : Returned stack .gone .gone
  | overrun : Returned stack .overrun .overrun
  | failed {role : Bytes} {kept : Option Bytes} {resp : HandshakeResp} (user : resp.userName = role)
    (buffer : resp.authResp = (kept.map padded).getD stack) :
    Returned stack (.failed role kept) (.returned false resp)
  | direct {role token : Bytes} {resp : HandshakeResp} (user : resp.userName = role)
    (buffer : resp.authResp = padded token) : Returned stack (.direct role token) (.returned true resp)
  | switched {role token : Bytes} {resp : HandshakeResp} (user : resp.userName = role)
    (buffer : resp.authResp = padded (cstr token)) : Returned stack (.switched role token) (.returned true resp)
  | old {role token : Bytes} {resp : HandshakeResp} (user : resp.userName = role)
    (buffer : resp.authResp 0 = 0) : Returned stack (.old role token) (.returned true resp)

variable (stack m : Mem) (rest : List LogonPacket)

theorem parsePluginName_returned (start : Nat) (resp : HandshakeResp) {token : Bytes}
    (buffer : resp.authResp = padded token) :
    Returned stack (receivedPlugin resp.userName token rest (pluginName m resp.clientFlag start))
      (parsePluginName m rest start resp) := by
  unfold parsePluginName pluginName
  by_cases named : resp.clientFlag.testBit MYS_CLT_PLUGIN_AUTH = true
  · rw [if_pos named, if_pos named]
    dsimp only [receivedPlugin]
    rw [read_length]
    by_cases long : 99 < strnlen m 100 start
    · rw [if_pos long, if_pos long]
      exact .failed rfl buffer
    rw [if_neg long, if_neg long]
    by_cases native : read m start (strnlen m 100 start) = ascii "mysql_native_password"
    · rw [if_pos native, if_pos native]
      exact .direct rfl buffer
    rw [if_neg native, if_neg native]
    cases rest with
    | nil => exact .gone
    | cons p rest =>
      dsimp only [readAuthSwitchResponse]
      by_cases exceeds : 511 < p.payload.length
      · rw [if_pos exceeds, if_pos exceeds]
        exact .overrun
      · rw [if_neg exceeds, if_neg exceeds]
        exact .switched rfl rfl
  · rw [if_neg named, if_neg named]
    exact .direct rfl buffer

theorem parseDatabase_returned (stack : Mem) {m : Mem} {rest : List LogonPacket} {resp : HandshakeResp}
    (flags : resp.clientFlag = littleEndian (read m 0 4)) (user : resp.userName = roleName m 32)
    (buffer : resp.authResp = padded (token41 m)) :
    Returned stack
      (if 256 < dbLength41 m then .failed (roleName m 32) (some (token41 m))
      else
        receivedPlugin (roleName m 32) (token41 m) rest
          (pluginName m (littleEndian (read m 0 4)) (tokenStart41 m + tokenLength41 m + dbLength41 m)))
      (parseDatabase m rest (tokenStart41 m + tokenLength41 m) resp) := by
  unfold parseDatabase dbLength41
  rw [← flags, ← user]
  by_cases withDb : resp.clientFlag.testBit MYS_CLT_CONNECT_WITH_DB = true
  · rw [if_pos withDb, if_pos withDb]
    by_cases long : 255 < strnlen m 256 (tokenStart41 m + tokenLength41 m)
    · rw [if_pos long, if_pos (by omega)]
      exact .failed rfl buffer
    · rw [if_neg long, if_neg (by omega)]
      exact parsePluginName_returned stack m rest _
        { resp with db := read m _ (strnlen m 256 (tokenStart41 m + tokenLength41 m)) } buffer
  · rw [if_neg withDb, if_neg withDb, if_neg (by decide)]
    exact parsePluginName_returned stack m rest _ resp buffer

theorem parseResp41_returned : Returned stack (received41 m rest) (parseResp41 m rest stack) := by
  have length : strnlen m 256 32 = (roleName m 32).length := (read_length _ _ _).symm
  unfold parseResp41 received41
  rw [length]
  by_cases long : 255 < (roleName m 32).length
  · rw [if_pos long, if_pos long]
    exact .failed rfl rfl
  rw [if_neg long, if_neg long]
  have role : read m 32 (roleName m 32).length = roleName m 32 := by
    rw [← length]
    rfl
  show Returned stack _ (if 511 < tokenLength41 m then _ else
    parseDatabase m rest (tokenStart41 m + tokenLength41 m)
      ⟨littleEndian (read m 0 4), read m 32 (roleName m 32).length, padded (token41 m), []⟩)
  by_cases huge : 511 < tokenLength41 m
  · rw [if_pos huge, if_pos huge]
    exact .failed role rfl
  · rw [if_neg huge, if_neg huge]
    exact parseDatabase_returned stack rfl role rfl

theorem strnlen_stops {m : Mem} {limit start : Nat} (short : strnlen m limit start < limit) :
    m (start + strnlen m limit start) = 0 := by
  induction limit generalizing start with
  | zero => cases short
  | succ limit ih =>
    unfold strnlen at short ⊢
    by_cases zero : m start = 0
    · rw [if_pos zero] at short ⊢
      exact zero
    · rw [if_neg zero] at short ⊢
      have later := @ih (start + 1) (by omega)
      rwa [show start + (strnlen m limit (start + 1) + 1) = start + 1 + strnlen m limit (start + 1) by omega]

theorem parse320_returned (payloadLen : Nat) :
    Returned stack (received320 m payloadLen) (parseHandshakeResp320PacketPayload m payloadLen stack) := by
  have length : strnlen m 256 5 = (roleName m 5).length := (read_length _ _ _).symm
  unfold parseHandshakeResp320PacketPayload received320
  rw [← length]
  by_cases long : 255 < strnlen m 256 5
  · rw [if_pos long, if_pos long]
    exact .failed rfl rfl
  have terminator : m (5 + strnlen m 256 5) = 0 := strnlen_stops (by omega)
  have empty : ∀ limit, strnlen m limit (5 + strnlen m 256 5) = 0 := by
    intro limit
    cases limit with
    | zero => rfl
    | succ limit => exact if_pos terminator
  rw [if_neg long, if_neg long]
  by_cases withDb : (littleEndian (read m 0 2)).testBit MYS_CLT_CONNECT_WITH_DB = true
  · rw [if_pos withDb, if_pos withDb, empty, if_neg (by decide), Nat.add_zero, empty, if_neg (by decide)]
    exact .old rfl rfl
  rw [if_neg withDb, if_neg withDb]
  by_cases bad : payloadLen < 5 + strnlen m 256 5 ∨ 511 < payloadLen - (5 + strnlen m 256 5)
  · rw [if_pos bad, if_pos (by omega)]
    exact .failed rfl rfl
  rw [if_neg bad, if_neg (by omega)]
  refine .old rfl ?_
  generalize payloadLen - (5 + strnlen m 256 5) = n
  cases n with
  | zero => rfl
  | succ n =>
    show padded (read m (5 + strnlen m 256 5) (n + 1)) 0 = 0
    rw [read_succ, terminator]
    rfl

theorem parseHandshakeRespPacketPayload_returned (sslOpens : Bool) (stack : Mem) (first : LogonPacket)
    (rest : List LogonPacket) :
    Returned stack (received sslOpens (first :: rest))
      (parseHandshakeRespPacketPayload sslOpens first rest stack) := by
  unfold received parseHandshakeRespPacketPayload parseHandshakeResp41PacketPayload
  dsimp only
  by_cases modern : (littleEndian (read first.data 0 2)).testBit MYS_CLT_PROTOCOL_41 = true
  · rw [if_pos modern, if_pos modern]
    by_cases tls : (littleEndian (read first.data 0 4)).testBit MYS_CLT_SSL = true
    · rw [if_pos tls, if_pos tls]
      cases sslOpens with
      | false => exact .gone
      | true =>
        cases rest with
        | nil => exact .gone
        | cons p rest => exact parseResp41_returned stack p.data rest
    · rw [if_neg tls, if_neg tls]
      exact parseResp41_returned stack first.data rest
  · rw [if_neg modern, if_neg modern]
    exact parse320_returned stack first.data first.payload.length

end OpenHalo
