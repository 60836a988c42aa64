import OpenHalo.Logon.HandshakeAccess

namespace OpenHalo
open Octets Memory List

/-- How the length of the token is written: in a byte, or behind a byte that says in how many. -/
inductive LengthForm
  | one | two | three | eight
deriving Repr, DecidableEq

def LengthForm.encode (n : Nat) : LengthForm → Bytes
  | .one => [UInt8.ofNat n]
  | .two => 252 :: toLittleEndian 2 n
  | .three => 253 :: toLittleEndian 3 n
  | .eight => 254 :: toLittleEndian 8 n

structure Response41 where
  clientFlag : Nat
  maxPacketSize : Nat
  characterSet : UInt8
  filler : Bytes
  userName : Bytes
  lengthForm : LengthForm
  authResp : Bytes
  db : Bytes
  plugin : Bytes
  /-- Connection attributes and whatever else later versions append. -/
  attributes : Bytes

namespace Response41

def withDb (r : Response41) : Bool := r.clientFlag.testBit MYS_CLT_CONNECT_WITH_DB
def withPlugin (r : Response41) : Bool := r.clientFlag.testBit MYS_CLT_PLUGIN_AUTH
def lenenc (r : Response41) : Bool := r.clientFlag.testBit MYS_CLT_PLUGIN_AUTH_LENENC_CLIENT_DATA

def encodePlugin (r : Response41) : Bytes := (if r.withPlugin then r.plugin ++ [0] else []) ++ r.attributes

def encodeDb (r : Response41) : Bytes := (if r.withDb then r.db ++ [0] else []) ++ r.encodePlugin

def encodeAuth (r : Response41) : Bytes := r.lengthForm.encode r.authResp.length ++ (r.authResp ++ r.encodeDb)

def encode (r : Response41) : Bytes :=
  toLittleEndian 4 r.clientFlag ++ toLittleEndian 4 r.maxPacketSize ++ [r.characterSet] ++ r.filler ++
    (r.userName ++ 0 :: r.encodeAuth)

structure WellFormed (r : Response41) : Prop where
  flags : r.clientFlag < 2 ^ 32
  modern : r.clientFlag.testBit MYS_CLT_PROTOCOL_41 = true
  plain : r.clientFlag.testBit MYS_CLT_SSL = false
  filler : r.filler.length = 23
  userName : 0 ∉ r.userName ∧ r.userName.length ≤ 255
  authResp : r.authResp.length ≤ 511
  lengthForm : match r.lengthForm with
    | .one => r.authResp.length < if r.lenenc then 251 else 256
    | .two | .three | .eight => r.lenenc = true
  db : 0 ∉ r.db ∧ r.db.length ≤ 255
  plugin : 0 ∉ r.plugin ∧ r.plugin.length ≤ 99

def switches (r : Response41) : Bool := r.withPlugin && r.plugin != ascii "mysql_native_password"

def authentication (r : Response41) (rest : List LogonPacket) : Bytes :=
  match rest with
  | p :: _ => if r.switches then p.payload else r.authResp
  | [] => r.authResp

/-- What the parser returns, if the client has not left, is what the response says. -/
def Recovered (r : Response41) (rest : List LogonPacket) : Parse → Prop
  | .gone => True
  | .overrun => False
  | .returned ok resp =>
    ok = true ∧ resp.userName = r.userName ∧ resp.authResp = padded (r.authentication rest) ∧
      (r.withDb = true → resp.db = r.db)

/-- A switch answer fits its buffer and has only zeros behind its first one. -/
def SwitchKept (r : Response41) : List LogonPacket → Prop
  | [] => True
  | p :: _ => r.switches = true → p.payload.length ≤ 511 ∧ ∀ c ∈ p.payload.dropWhile (· != 0), c = 0

end Response41

section Fields

variable {p : LogonPacket} {start : Nat} {s t : Bytes}

theorem drop_behind (found : p.payload.drop start = s ++ t) : p.payload.drop (start + s.length) = t := by
  rw [← drop_drop, found, drop_left]

theorem field_inside (found : p.payload.drop start = s ++ t) (nonempty : s ≠ []) :
    start + s.length ≤ p.payload.length := by
  have lengths := congrArg List.length found
  have positive := length_pos_iff.mpr nonempty
  rw [length_drop, length_append] at lengths
  omega

theorem read_field (found : p.payload.drop start = s ++ t) : read p.data start s.length = s := by
  by_cases empty : s = []
  · rw [empty]
    rfl
  · rw [LogonPacket.read_inside (field_inside found empty), found, take_left]

theorem strnlen_field {limit : Nat} (found : p.payload.drop start = s ++ 0 :: t) (text : 0 ∉ s ∧ s.length < limit) :
    strnlen p.data limit start = s.length := by
  have ends : 0 ∈ p.payload.drop start := by
    rw [found]
    exact mem_append_right _ mem_cons_self
  have string : stringAt p.payload start = s := by
    rw [stringAt, found, cstr_append text.1]
  rw [LogonPacket.strnlen ends, string, Nat.min_eq_right (Nat.le_of_lt text.2)]

theorem drop_string (found : p.payload.drop start = s ++ 0 :: t) : p.payload.drop (start + s.length + 1) = t := by
  rw [← drop_drop, drop_behind found]
  rfl

theorem byte_field {c : UInt8} (found : p.payload.drop start = c :: t) : p.data start = c := by
  have field := read_field (s := [c]) found
  exact head_eq_of_cons_eq field

theorem number_field {k n : Nat} (found : p.payload.drop start = toLittleEndian k n ++ t) (small : n < 256 ^ k) :
    littleEndian (read p.data start k) = n := by
  have field := read_field found
  rw [toLittleEndian_length] at field
  rw [field, littleEndian_toLittleEndian, Nat.mod_eq_of_lt small]

end Fields

theorem padded_append_iff (s t : Bytes) : padded s = padded (s ++ t) ↔ ∀ c ∈ t, c = 0 := by
  constructor
  · intro same c member
    obtain ⟨i, bound, value⟩ := mem_iff_getElem.mp member
    have at' := congrFun same (s.length + i)
    rw [padded_apply, padded_apply, getD_eq_default _ _ (Nat.le_add_right _ _),
      getD_append_right _ _ _ _ (Nat.le_add_right _ _), Nat.add_sub_cancel_left, getD_eq_getElem _ _ bound,
      value] at at'
    exact at'.symm
  · intro zeros
    funext i
    rw [padded_apply, padded_apply]
    by_cases front : i < s.length
    · rw [getD_append _ _ _ _ front]
    rw [getD_eq_default _ _ (Nat.not_lt.mp front), getD_append_right _ _ _ _ (Nat.not_lt.mp front)]
    by_cases inside : i - s.length < t.length
    · rw [getD_eq_getElem _ _ inside, zeros _ (getElem_mem inside)]
    · rw [getD_eq_default _ _ (Nat.not_lt.mp inside)]

theorem padded_cstr_iff (s : Bytes) : padded (cstr s) = padded s ↔ ∀ c ∈ s.dropWhile (· != 0), c = 0 := by
  have split : cstr s ++ s.dropWhile (· != 0) = s := takeWhile_append_dropWhile
  nth_rewrite 2 [← split]
  exact padded_append_iff _ _

namespace Response41

variable {p : LogonPacket} {start : Nat} {r : Response41} {rest : List LogonPacket} {resp : HandshakeResp}

theorem recovered_of_direct (direct : r.switches = false) (user : resp.userName = r.userName)
    (auth : resp.authResp = padded r.authResp) (db : r.withDb = true → resp.db = r.db) :
    r.Recovered rest (.returned true resp) ↔ r.SwitchKept rest := by
  have token : r.authentication rest = r.authResp := by
    cases rest with
    | nil => rfl
    | cons answer rest => rw [authentication, direct, if_neg Bool.false_ne_true]
  refine iff_of_true ⟨rfl, user, by rw [token]; exact auth, db⟩ ?_
  cases rest with
  | nil => trivial
  | cons answer rest =>
    intro switched
    rw [direct] at switched
    cases switched

theorem plugin_recovered (wellFormed : r.WellFormed) (found : p.payload.drop start = r.encodePlugin)
    (flags : resp.clientFlag = r.clientFlag) (user : resp.userName = r.userName)
    (auth : resp.authResp = padded r.authResp) (db : r.withDb = true → resp.db = r.db) :
    r.Recovered rest (parsePluginName p.data rest start resp) ↔ r.SwitchKept rest := by
  rw [parsePluginName, flags]
  cases named : r.withPlugin with
  | false =>
    have unset : r.clientFlag.testBit MYS_CLT_PLUGIN_AUTH = false := named
    rw [unset]
    exact recovered_of_direct (by rw [switches, named, Bool.false_and]) user auth db
  | true =>
    have set : r.clientFlag.testBit MYS_CLT_PLUGIN_AUTH = true := named
    have found' : p.payload.drop start = r.plugin ++ 0 :: r.attributes := by
      rw [found, encodePlugin, named, if_pos rfl, append_assoc]
      rfl
    obtain ⟨text, short⟩ := wellFormed.plugin
    rw [set, if_pos rfl, strnlen_field found' ⟨text, by omega⟩, if_neg (by omega), read_field found']
    by_cases native : r.plugin = ascii "mysql_native_password"
    · rw [if_pos native]
      exact recovered_of_direct (by rw [switches, native, bne_self_eq_false, Bool.and_false]) user auth db
    have switched : r.switches = true := by
      rw [switches, named]
      exact bne_iff_ne.mpr native
    rw [if_neg native]
    cases rest with
    | nil => exact Iff.rfl
    | cons answer rest =>
      rw [readAuthSwitchResponse, SwitchKept]
      simp only [switched, true_imp_iff]
      split
      next long => exact iff_of_false id fun kept => absurd kept.1 (by omega)
      next fits =>
        rw [← padded_cstr_iff, Recovered, authentication, switched]
        constructor
        · rintro ⟨_, _, same, _⟩
          exact ⟨by omega, same⟩
        · rintro ⟨_, same⟩
          exact ⟨rfl, user, same, db⟩

theorem database_recovered (wellFormed : r.WellFormed) (found : p.payload.drop start = r.encodeDb)
    (flags : resp.clientFlag = r.clientFlag) (user : resp.userName = r.userName)
    (auth : resp.authResp = padded r.authResp) :
    r.Recovered rest (parseDatabase p.data rest start resp) ↔ r.SwitchKept rest := by
  rw [parseDatabase, flags]
  cases named : r.withDb with
  | false =>
    have unset : r.clientFlag.testBit MYS_CLT_CONNECT_WITH_DB = false := named
    rw [unset]
    refine plugin_recovered wellFormed ?_ flags user auth fun set => ?_
    · rw [found, encodeDb, named, if_neg Bool.false_ne_true, nil_append]
    · rw [named] at set
      cases set
  | true =>
    have set : r.clientFlag.testBit MYS_CLT_CONNECT_WITH_DB = true := named
    have found' : p.payload.drop start = r.db ++ 0 :: r.encodePlugin := by
      rw [found, encodeDb, named, if_pos rfl, append_assoc]
      rfl
    obtain ⟨text, short⟩ := wellFormed.db
    rw [set, if_pos rfl, strnlen_field found' ⟨text, by omega⟩, if_neg (by omega), read_field found']
    exact plugin_recovered wellFormed (drop_string found') rfl user auth fun _ => rfl

theorem length_found (wellFormed : r.WellFormed) {t : Bytes}
    (found : p.payload.drop start = r.lengthForm.encode r.authResp.length ++ t) :
    ∃ a b, authRespLenSize r.clientFlag (p.data start) = (a, b) ∧
    start + a + b = start + (r.lengthForm.encode r.authResp.length).length ∧
      littleEndian (read p.data (start + a) b) = r.authResp.length := by
  have short := wellFormed.authResp
  have form := wellFormed.lengthForm
  have wide (k : Nat) (lead : UInt8) (enough : 511 < 256 ^ k)
      (found : p.payload.drop start = lead :: toLittleEndian k r.authResp.length ++ t)
      (size : authRespLenSize r.clientFlag lead = (1, k)) : ∃ a b,
      authRespLenSize r.clientFlag (p.data start) = (a, b) ∧
        start + a + b = start + (lead :: toLittleEndian k r.authResp.length).length ∧
        littleEndian (read p.data (start + a) b) = r.authResp.length := by
    have first : p.data start = lead := byte_field (by rw [found]; rfl)
    have found' : p.payload.drop start = [lead] ++ (toLittleEndian k r.authResp.length ++ t) := found
    exact ⟨1, k, by rw [first, size], by rw [length_cons, toLittleEndian_length]; omega,
      number_field (drop_behind found') (by omega)⟩
  have sized (lenenc : r.lenenc = true) (lead : UInt8) : authRespLenSize r.clientFlag lead =
      if lead = 252 then (1, 2) else if lead = 253 then (1, 3) else if lead = 254 then (1, 8) else (0, 1) :=
        if_pos lenenc
  cases shape : r.lengthForm with
  | one =>
    rw [shape] at found form
    have first : p.data start = UInt8.ofNat r.authResp.length := byte_field found
    have small : r.authResp.length < 256 := by
      cases lenenc : r.lenenc with
      | true =>
        rw [lenenc] at form
        have form : r.authResp.length < 251 := form
        omega
      | false =>
        rw [lenenc] at form
        exact form
    have value : (UInt8.ofNat r.authResp.length).toNat = r.authResp.length := by
      rw [UInt8.toNat_ofNat', Nat.mod_eq_of_lt small]
    refine ⟨0, 1, ?_, rfl, ?_⟩
    · rw [first]
      cases lenenc : r.lenenc with
      | false =>
        have unset : r.clientFlag.testBit MYS_CLT_PLUGIN_AUTH_LENENC_CLIENT_DATA = false := lenenc
        rw [authRespLenSize, unset, if_neg Bool.false_ne_true]
      | true =>
        rw [lenenc] at form
        have form : r.authResp.length < 251 := form
        have other (lead : UInt8) (large : 251 ≤ lead.toNat) : UInt8.ofNat r.authResp.length ≠ lead := by
          intro same
          rw [← same] at large
          omega
        rw [sized lenenc, if_neg (other 252 (by decide)), if_neg (other 253 (by decide)),
          if_neg (other 254 (by decide))]
    · have field : read p.data start 1 = [UInt8.ofNat r.authResp.length] := read_field found
      rw [Nat.add_zero, field, littleEndian, value]
      rfl
  | two =>
    rw [shape] at found form
    exact wide 2 252 (by decide) found (sized form _)
  | three =>
    rw [shape] at found form
    exact wide 3 253 (by decide) found (sized form _)
  | eight =>
    rw [shape] at found form
    exact wide 8 254 (by decide) found (sized form _)

theorem header_found (wellFormed : r.WellFormed) (encoded : p.payload = r.encode) :
    littleEndian (read p.data 0 4) = r.clientFlag ∧ p.payload.drop 32 = r.userName ++ 0 :: r.encodeAuth := by
  constructor
  · exact number_field (by rw [drop_zero, encoded, encode, append_assoc, append_assoc, append_assoc]) wellFormed.flags
  · rw [encoded, encode]
    apply drop_left'
    simp [toLittleEndian_length, wellFormed.filler]

theorem recovered_iff (wellFormed : r.WellFormed) (encoded : p.payload = r.encode) (sslOpens : Bool)
    (authRespBuf : Mem) :
    r.Recovered rest (parseHandshakeResp41PacketPayload sslOpens p.data rest authRespBuf) ↔ r.SwitchKept rest := by
  obtain ⟨flags, found⟩ := header_found wellFormed encoded
  obtain ⟨text, short⟩ := wellFormed.userName
  have behind : p.payload.drop (32 + r.userName.length + 1) = r.encodeAuth := drop_string found
  obtain ⟨a, b, size, place, value⟩ := length_found wellFormed behind
  have token := drop_behind behind
  rw [← place] at token
  unfold parseHandshakeResp41PacketPayload parseResp41
  rw [flags, wellFormed.plain, if_neg Bool.false_ne_true]
  dsimp only
  rw [strnlen_field found ⟨text, by omega⟩, if_neg (by omega), size, value,
    if_neg (by have := wellFormed.authResp; omega), read_field found, read_field token]
  exact database_recovered wellFormed (drop_behind token) rfl rfl rfl

end Response41

/-- A well-formed response is recovered inside the packet and the buffers exactly if every field ends in
the packet and a switch answer fits and has no zero inside. -/
theorem handshake_response_iff (sslOpens : Bool) (first : LogonPacket) (rest : List LogonPacket) (authRespBuf : Mem) :
    let run := traceHandshakeResp41PacketPayload sslOpens first rest authRespBuf
    ((∀ r : Response41, r.WellFormed → first.payload = r.encode → r.Recovered rest run.2) ∧
        ∀ made ∈ run.1, made.2.Inside made.1) ↔
      (∀ r : Response41, r.WellFormed → first.payload = r.encode → r.SwitchKept rest) ∧
        HandshakeFits sslOpens first rest := by
  dsimp only
  rw [trace_inside, traceHandshakeResp41PacketPayload_parses]
  refine and_congr_left fun _ => forall_congr' fun r => forall_congr' fun wellFormed => forall_congr' fun encoded => ?_
  exact r.recovered_iff wellFormed encoded sslOpens authRespBuf

def Response41.sample : Response41 where
  clientFlag := 2 ^ MYS_CLT_PROTOCOL_41
  maxPacketSize := 0
  characterSet := 33
  filler := List.replicate 23 0
  userName := ascii "root"
  lengthForm := .one
  authResp := [1, 2, 3]
  db := []
  plugin := []
  attributes := []

theorem Response41.sample_wellFormed : Response41.sample.WellFormed where
  flags := by decide
  modern := by decide
  plain := by decide
  filler := by decide
  userName := by decide
  authResp := by decide
  lengthForm := show 3 < 256 by decide
  db := by decide
  plugin := by decide

def Response41.switching : Response41 :=
  { Response41.sample with clientFlag := 2 ^ MYS_CLT_PROTOCOL_41 + 2 ^ MYS_CLT_PLUGIN_AUTH }

/-- The byte behind a response is read, and bytes an empty packet has not; an answer of 512 bytes
overruns its buffer. -/
theorem handshake_response_unchecked :
    Response41.sample.WellFormed ∧
    (∃ made ∈ (traceHandshakeResp41PacketPayload false ⟨Response41.sample.encode, fun _ => 0⟩ [] fun _ => 0).1,
      ¬ made.2.Inside made.1) ∧
    (∃ made ∈ (traceHandshakeResp41PacketPayload false ⟨[], fun _ => 0⟩ [] fun _ => 0).1, ¬ made.2.Inside made.1) ∧
    ∃ made ∈ (traceHandshakeResp41PacketPayload false ⟨Response41.switching.encode, fun _ => 0⟩
        [⟨List.replicate 512 1, fun _ => 0⟩] fun _ => 0).1,
      ¬ made.2.Inside made.1 := by
  have outside {first : LogonPacket} {rest : List LogonPacket} (unfit : ¬ HandshakeFits false first rest) :
      ∃ made ∈ (traceHandshakeResp41PacketPayload false first rest fun _ => 0).1, ¬ made.2.Inside made.1 := by
    by_contra none
    push Not at none
    exact unfit ((trace_inside false first rest _).mp none)
  refine ⟨Response41.sample_wellFormed, outside fun fits => ?_, outside fun fits => ?_, outside fun fits => ?_⟩
  · have resp := fits.2
    exact absurd (resp.2 (by decide)).2.2.1 (by decide)
  · exact absurd fits.1 (by decide)
  · have resp := fits.2
    have db := (resp.2 (by decide)).2.2.2 (by decide)
    have room : (List.replicate 512 (1 : UInt8)).length ≤ 511 := (db (by decide)).2 (by decide) (by decide)
    rw [length_replicate] at room
    omega

end OpenHalo
