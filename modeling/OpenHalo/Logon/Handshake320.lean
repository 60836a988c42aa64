import OpenHalo.Logon.HandshakeLayout

namespace OpenHalo
open Octets Memory List

/-- A handshake response before 4.1. A database name and the token before it are C strings; without that
name the token is the rest. -/
structure Response320 where
  clientFlag : Nat
  maxPacketSize : Nat
  userName : Bytes
  authResp : Bytes
  db : Bytes

namespace Response320

variable (r : Response320)

def withDb : Bool := r.clientFlag.testBit MYS_CLT_CONNECT_WITH_DB

structure WellFormed : Prop where
  flags : r.clientFlag < 2 ^ 16
  old : r.clientFlag.testBit MYS_CLT_PROTOCOL_41 = false
  userName : 0 ∉ r.userName ∧ r.userName.length ≤ 255
  authResp : r.authResp.length ≤ 511
  db : r.db.length ≤ 255
  strings : if r.withDb then 0 ∉ r.authResp ∧ 0 ∉ r.db else r.db = []

def encodeAuth : Bytes := if r.withDb then r.authResp ++ 0 :: (r.db ++ [0]) else r.authResp

def encode : Bytes :=
  toLittleEndian 2 r.clientFlag ++ toLittleEndian 3 r.maxPacketSize ++ (r.userName ++ 0 :: r.encodeAuth)

def Recovered : Parse → Prop
  | .returned ok resp =>
    ok = true ∧ resp.userName = r.userName ∧ resp.authResp = padded r.authResp ∧ resp.db = r.db
  | _ => False

/-- Nothing is lost one byte too early: there is no token and no database name, or a token of zeros with
room for one more. -/
def Unharmed : Prop :=
  if r.withDb then r.authResp = [] ∧ r.db = [] else r.authResp.length < 511 ∧ ∀ c ∈ r.authResp, c = 0

variable {r} {p : LogonPacket}

theorem header_found (wellFormed : r.WellFormed) (encoded : p.payload = r.encode) :
    littleEndian (read p.data 0 2) = r.clientFlag ∧ p.payload.drop 5 = r.userName ++ 0 :: r.encodeAuth := by
  constructor
  · exact number_field (by rw [drop_zero, encoded, encode, append_assoc]) wellFormed.flags
  · rw [encoded, encode]
    apply drop_left'
    rw [length_append, toLittleEndian_length, toLittleEndian_length]

theorem dispatched (wellFormed : r.WellFormed) (encoded : p.payload = r.encode) (sslOpens : Bool)
    (rest : List LogonPacket) (authRespBuf : Mem) :
    parseHandshakeRespPacketPayload sslOpens p rest authRespBuf =
      parseHandshakeResp320PacketPayload p.data p.payload.length authRespBuf := by
  rw [parseHandshakeRespPacketPayload, (header_found wellFormed encoded).1, wellFormed.old, if_neg Bool.false_ne_true]

theorem recovered_withDb (wellFormed : r.WellFormed) (named : r.withDb = true) (encoded : p.payload = r.encode)
    (authRespBuf : Mem) :
    r.Recovered (parseHandshakeResp320PacketPayload p.data p.payload.length authRespBuf) ↔
      r.authResp = [] ∧ r.db = [] := by
  obtain ⟨flags, found⟩ := header_found wellFormed encoded
  obtain ⟨text, short⟩ := wellFormed.userName
  have set : r.clientFlag.testBit MYS_CLT_CONNECT_WITH_DB = true := named
  have strings := wellFormed.strings
  rw [named] at strings
  have length : strnlen p.data 256 5 = r.userName.length := strnlen_field found ⟨text, by omega⟩
  have nul : p.data (5 + r.userName.length) = 0 := byte_field (drop_behind found)
  have empty (limit : Nat) : strnlen p.data (limit + 1) (5 + r.userName.length) = 0 := by
    rw [strnlen, if_pos nul]
  unfold parseHandshakeResp320PacketPayload
  simp only [flags, length, empty 511, Nat.add_zero, empty 255, set, if_true]
  rw [if_neg (by omega), if_neg (by decide), if_neg (by decide), read_field found, Recovered]
  constructor
  · rintro ⟨_, _, token, db⟩
    have zeros := (padded_append_iff [] r.authResp).mp token
    refine ⟨?_, db.symm⟩
    rw [eq_nil_iff_forall_not_mem]
    intro c member
    exact strings.1 (zeros c member ▸ member)
  · rintro ⟨token, db⟩
    rw [token, db]
    exact ⟨rfl, rfl, rfl, rfl⟩

theorem recovered_withoutDb (wellFormed : r.WellFormed) (unnamed : r.withDb = false) (encoded : p.payload = r.encode)
    (authRespBuf : Mem) :
    r.Recovered (parseHandshakeResp320PacketPayload p.data p.payload.length authRespBuf) ↔
      r.authResp.length < 511 ∧ ∀ c ∈ r.authResp, c = 0 := by
  obtain ⟨flags, found⟩ := header_found wellFormed encoded
  obtain ⟨text, short⟩ := wellFormed.userName
  have unset : r.clientFlag.testBit MYS_CLT_CONNECT_WITH_DB = false := unnamed
  have none := wellFormed.strings
  rw [unnamed] at none
  have length : strnlen p.data 256 5 = r.userName.length := strnlen_field found ⟨text, by omega⟩
  have token : p.payload.drop (5 + r.userName.length) = (0 :: r.authResp) ++ [] := by
    rw [drop_behind found, encodeAuth, unnamed, if_neg Bool.false_ne_true, append_nil]
  have size : p.payload.length - (5 + r.userName.length) = (0 :: r.authResp).length := by
    have lengths := congrArg List.length token
    rwa [length_drop, append_nil] at lengths
  have behind : ¬p.payload.length < 5 + r.userName.length := by
    rw [length_cons] at size
    omega
  unfold parseHandshakeResp320PacketPayload
  simp only [flags, length, unset, Bool.false_eq_true, if_false, size, read_field found, read_field token]
  rw [if_neg (by omega)]
  split
  · rename_i long
    refine iff_of_false (fun recovered => Bool.false_ne_true recovered.1) fun unharmed => ?_
    rw [length_cons] at long
    omega
  · rename_i fits
    rw [length_cons] at fits
    rw [Recovered, none]
    constructor
    · rintro ⟨_, _, same, _⟩
      refine ⟨by omega, ?_⟩
      -- the bytes are those of the buffer that they are shifted against
      have apply_eq : ∀ i, (0 :: r.authResp).getD i 0 = r.authResp.getD i 0 := by
        intro i
        exact congrFun same i
      have shifted : ∀ i, r.authResp.getD i 0 = 0 := by
        intro i
        induction i with
        | zero => exact (apply_eq 0).symm
        | succ i ih => exact (apply_eq (i + 1)).symm.trans ih
      intro c member
      obtain ⟨i, bound, value⟩ := mem_iff_getElem.mp member
      rw [← value, ← getD_eq_getElem _ 0 bound]
      exact shifted i
    · rintro ⟨_, zeros⟩
      have blank := (padded_append_iff [] r.authResp).mpr zeros
      have shifted := (padded_append_iff [] (0 :: r.authResp)).mpr
        (fun c member => (mem_cons.mp member).elim id (zeros c))
      exact ⟨rfl, rfl, shifted.symm.trans blank, rfl⟩

end Response320

/-- A response from before 4.1 is recovered exactly if it is unharmed. -/
theorem handshake320_iff {r : Response320} (wellFormed : r.WellFormed) (sslOpens : Bool) (junk authRespBuf : Mem)
    (rest : List LogonPacket) :
    r.Recovered (parseHandshakeRespPacketPayload sslOpens ⟨r.encode, junk⟩ rest authRespBuf) ↔ r.Unharmed := by
  rw [Response320.dispatched wellFormed rfl, Response320.Unharmed]
  cases named : r.withDb with
  | true => exact Response320.recovered_withDb wellFormed named rfl authRespBuf
  | false => exact Response320.recovered_withoutDb wellFormed named rfl authRespBuf

def Response320.sample (authResp db : Bytes) : Response320 where
  clientFlag := 2 ^ MYS_CLT_CONNECT_WITH_DB
  maxPacketSize := 0
  userName := ascii "root"
  authResp := authResp
  db := db

theorem Response320.sample_withDb (authResp db : Bytes) : (Response320.sample authResp db).withDb = true :=
  show (2 ^ MYS_CLT_CONNECT_WITH_DB).testBit MYS_CLT_CONNECT_WITH_DB = true by decide

theorem Response320.sample_wellFormed {authResp db : Bytes} (token : 0 ∉ authResp ∧ authResp.length ≤ 511)
    (name : 0 ∉ db ∧ db.length ≤ 255) : (Response320.sample authResp db).WellFormed where
  flags := show 2 ^ MYS_CLT_CONNECT_WITH_DB < 2 ^ 16 by decide
  old := show (2 ^ MYS_CLT_CONNECT_WITH_DB).testBit MYS_CLT_PROTOCOL_41 = false by decide
  userName := show 0 ∉ ascii "root" ∧ (ascii "root").length ≤ 255 by decide
  authResp := token.2
  db := name.2
  strings := by
    rw [if_pos (Response320.sample_withDb authResp db)]
    exact ⟨token.1, name.1⟩

theorem handshake320_empty : (Response320.sample [] []).Recovered
      (parseHandshakeRespPacketPayload false ⟨(Response320.sample [] []).encode, fun _ => 0⟩ [] fun _ => 0) :=
  (handshake320_iff (Response320.sample_wellFormed (by decide) (by decide)) false (fun _ => 0) (fun _ => 0) []).mpr
    (by rw [Response320.Unharmed, if_pos (Response320.sample_withDb [] [])]; exact ⟨rfl, rfl⟩)

/-- A client with a password that asks for a database gets neither across. -/
theorem handshake320_lost :
    (Response320.sample (ascii "token") (ascii "test")).WellFormed ∧
      ¬(Response320.sample (ascii "token") (ascii "test")).Recovered (parseHandshakeRespPacketPayload false
        ⟨(Response320.sample (ascii "token") (ascii "test")).encode, fun _ => 0⟩ [] fun _ => 0) := by
  have wellFormed : (Response320.sample (ascii "token") (ascii "test")).WellFormed :=
    Response320.sample_wellFormed (by decide) (by decide)
  refine ⟨wellFormed, fun recovered => ?_⟩
  rw [Response320.dispatched wellFormed rfl] at recovered
  have empty := (Response320.recovered_withDb wellFormed (Response320.sample_withDb _ _) rfl fun _ => 0).mp recovered
  exact absurd empty.2 (by decide)

end OpenHalo
