import OpenHalo.Logon.Challenge
import OpenHalo.Logon.Soundness

namespace OpenHalo
open Octets Memory List

variable {bs hashed mask p role token : Bytes}

/-- What a client answers to the challenge `nonce` with password `p`. -/
def nativeToken (sha1 : Sha1) (nonce p : Bytes) : Bytes :=
  xorBytes (sha1.digest p) (sha1.digest (nonce ++ sha1.digest (sha1.digest p)))

inductive TokenPath
  | handshake | authSwitch
deriving Repr, DecidableEq

/-- The challenge as a client reads it in the packet it answers. -/
def TokenPath.nonce (path : TokenPath) (haloMysVersion : Bytes) (enableSSL : Bool) : Bytes :=
  match path with
  | .handshake => wireNonce haloMysVersion enableSSL
  | .authSwitch => switchNonce assembleAuthSwitchRequestPacketPayload

def TokenPath.delivers (path : TokenPath) (role token : Bytes) : Received :=
  match path with
  | .handshake => .direct role token
  | .authSwitch => .switched role token

def behindZero (token : Bytes) : Bytes :=
  List.replicate (cstr token).length 0 ++ token.drop (cstr token).length

/-- What the way of a token adds to the digest of the password: the difference of the masks if the
challenge is not the server's, and what a switch loses behind a zero byte. -/
def TokenPath.error (sha1 : Sha1) (p nonce : Bytes) : TokenPath → Bytes
  | .handshake =>
    let d := sha1.digest (sha1.digest p)
    xorBytes (sha1.digest (salt ++ d)) (sha1.digest (nonce ++ d))
  | .authSwitch => behindZero (nativeToken sha1 nonce p)

/-- The token does not start with a zero byte, and the greeting shows the challenge, the switch loses
nothing, or the hash function does not tell the difference. -/
def Survives (sha1 : Sha1) (p haloMysVersion nonce : Bytes) (path : TokenPath) : Prop :=
  (nativeToken sha1 nonce p).headD 0 ≠ 0 ∧
    (path = .handshake ∧ (haloMysVersion.length < 29 ∨ 53 < haloMysVersion.length) ∨
      sha1.digest (xorBytes (sha1.digest p) (path.error sha1 p nonce)) = sha1.digest (sha1.digest p))

variable (path : TokenPath) (sha1 : Sha1)

theorem xorBytes_length {xs ys : Bytes} (same : xs.length = ys.length) : (xorBytes xs ys).length = xs.length := by
  simp [xorBytes, same]

theorem padded_read {n : Nat} (fits : bs.length ≤ n) :
    read (padded bs) 0 n = bs ++ List.replicate (n - bs.length) 0 := by
  apply ext_getElem (by simp; omega)
  intro i bound _
  rw [getElem_read, padded_apply, Nat.zero_add]
  by_cases inside : i < bs.length
  · rw [getD_eq_getElem _ _ inside, getElem_append_left inside]
  rw [getD_eq_getElem?_getD, List.getElem?_eq_none (by omega), getElem_append_right (by omega),
    getElem_replicate]
  rfl

theorem isNativePassword_encrypt (p : Bytes) : isNativePassword (mysNativePwdEncrypt sha1 p) = true := by
  have size := hexBytes_length (sha1.digest (sha1.digest (cstr p)))
  rw [sha1.digest_length] at size
  simp only [isNativePassword, mysNativePwdEncrypt, Bool.and_eq_true, beq_iff_eq]
  refine ⟨⟨take_left' rfl, ?_⟩, ?_⟩
  · rw [length_append, size]
    rfl
  · have digits : ( mysql_native_password_prefix ++ hexBytes (sha1.digest (sha1.digest (cstr p)))).drop 22 =
        hexBytes (sha1.digest (sha1.digest (cstr p))) := drop_left' rfl
    rw [all_eq_true]
    intro c member
    obtain ⟨b, _, digit⟩ := mem_flatMap.mp member
    obtain ⟨high, low⟩ := nibble_hexDigit b
    rcases mem_cons.mp digit with same | rest
    · rw [same, high]
      rfl
    · rw [mem_singleton.mp rest, low]
      rfl

theorem shadowPass_encrypt (p : Bytes) (junk : Mem) :
    shadowPass junk (padded (mysNativePwdEncrypt sha1 p)) = sha1.digest (sha1.digest (cstr p)) := by
  apply shadowPass_hexBytes (sha1.digest_length _)
  intro i within
  have size := hexBytes_length (sha1.digest (sha1.digest (cstr p)))
  rw [sha1.digest_length] at size
  have start : mysql_native_password_prefix.length = 22 := rfl
  rw [padded_apply, mysNativePwdEncrypt, getD_append_right _ _ _ _ (by omega), start, Nat.add_sub_cancel_left,
    List.getElem?_eq_getElem (by omega), getD_eq_getElem _ _ (by omega)]

/-- The check of a buffer against the stored value for `p`. -/
theorem verifies_encrypt (text : 0 ∉ p) (buffer : Mem) :
    verifies sha1 (mysNativePwdEncrypt sha1 p) buffer = true ↔
      sha1.digest (xorBytes (sha1.digest (salt ++ sha1.digest (sha1.digest p))) (read buffer 0 20)) =
        sha1.digest (sha1.digest p) := by
  simp only [verifies, checkMysNativeAuth, shadowPass_encrypt, cstr_eq text, beq_iff_eq]

theorem xorBytes_zeros (xs : Bytes) : xorBytes xs (List.replicate xs.length 0) = xs := by
  induction xs with
  | nil => rfl
  | cons x xs ih =>
    simp only [xorBytes, length_cons, replicate_succ, zipWith_cons_cons, UInt8.xor_zero] at ih ⊢
    rw [ih]

theorem xorBytes_comm (xs ys : Bytes) : xorBytes xs ys = xorBytes ys xs :=
  zipWith_comm_of_comm UInt8.xor_comm

theorem xorBytes_left_comm (xs ys zs : Bytes) : xorBytes xs (xorBytes ys zs) = xorBytes ys (xorBytes xs zs) := by
  induction xs generalizing ys zs with
  | nil => cases ys <;> rfl
  | cons x xs ih =>
    cases ys with
    | nil => rfl
    | cons y ys =>
      cases zs with
      | nil => rfl
      | cons z zs =>
        have heads : x ^^^ (y ^^^ z) = y ^^^ (x ^^^ z) := by
          rw [← UInt8.xor_assoc, UInt8.xor_comm x y, UInt8.xor_assoc]
        exact congrArg₂ (· :: ·) heads (ih ys zs)

theorem xorBytes_cut (same : hashed.length = mask.length) :
    xorBytes mask (cstr (xorBytes hashed mask) ++
        List.replicate (mask.length - (cstr (xorBytes hashed mask)).length) 0) =
      xorBytes hashed (behindZero (xorBytes hashed mask)) := by
  induction hashed generalizing mask with
  | nil =>
    cases mask with
    | nil => rfl
    | cons m ms => cases same
  | cons h hs ih =>
    cases mask with
    | nil => cases same
    | cons m ms =>
      have token : xorBytes (h :: hs) (m :: ms) = (h ^^^ m) :: xorBytes hs ms := rfl
      by_cases zero : h ^^^ m = 0
      · have cut : cstr (xorBytes (h :: hs) (m :: ms)) = [] := by
          rw [token, zero]
          rfl
        have cancel : xorBytes (h :: hs) (xorBytes (h :: hs) (m :: ms)) = m :: ms := by
          rw [xorBytes_comm (h :: hs) (m :: ms)]
          exact xorBytes_cancel same.symm
        rw [behindZero, cut, length_nil, Nat.sub_zero, nil_append, xorBytes_zeros, replicate_zero,
          drop_zero, nil_append, cancel]
      · have kept : cstr (xorBytes (h :: hs) (m :: ms)) = (h ^^^ m) :: cstr (xorBytes hs ms) := by
          rw [token, cstr, takeWhile_cons, if_pos (bne_iff_ne.mpr zero)]
          rfl
        have cancel : m ^^^ (h ^^^ m) = h := by
          rw [UInt8.xor_comm h m, ← UInt8.xor_assoc, UInt8.xor_self, UInt8.zero_xor]
        have later := ih (Nat.succ.inj same)
        rw [behindZero, kept]
        simp only [length_cons, Nat.add_sub_add_right, cons_append, xorBytes, zipWith_cons_cons,
          replicate_succ, UInt8.xor_zero, cancel]
        exact congrArg (h :: ·) later

def TokenPath.buffer (path : TokenPath) (token : Bytes) : Mem :=
  match path with
  | .handshake => padded token
  | .authSwitch => padded (cstr token)

theorem authenticate_delivered {server : Server} (md5 : server.auth_method = .uaMD5) {r : Role}
    (found : server.roles role = some r) {path : TokenPath} {packets : List LogonPacket}
    (sent : received server.sslOpens packets = path.delivers role token) :
    authenticate server packets ≠ .exit ↔ mysCheckAuth server role (path.buffer token) = true := by
  cases packets with
  | nil => cases path <;> cases sent
  | cons first rest =>
    have returned := parseHandshakeRespPacketPayload_returned server.sslOpens server.authRespBuf first rest
    dsimp only [authenticate]
    rw [sent] at returned
    generalize parseHandshakeRespPacketPayload server.sslOpens first rest server.authRespBuf = parse at returned
    cases path with
    | handshake =>
      cases returned with
      | direct user buffer =>
        subst user
        simp [Server.admit_ne_exit, md5, found, buffer, TokenPath.buffer]
    | authSwitch =>
      cases returned with
      | switched user buffer =>
        subst user
        simp [Server.admit_ne_exit, md5, found, buffer, TokenPath.buffer]

theorem TokenPath.buffer_first (token : Bytes) : path.buffer token 0 = token.headD 0 := by
  cases path with
  | handshake =>
    cases token with
    | nil | cons => rfl
  | authSwitch =>
    rw [TokenPath.buffer]
    cases token with
    | nil => rfl
    | cons c token =>
      by_cases zero : c = 0
      · rw [zero]
        rfl
      · rw [cstr, takeWhile_cons, if_pos (bne_iff_ne.mpr zero)]
        rfl

/-- The server hashes the digest of the password with the error of the way. -/
theorem TokenPath.unmasked (p nonce : Bytes) (shown : path = .authSwitch → nonce = salt) :
    xorBytes (sha1.digest (salt ++ sha1.digest (sha1.digest p))) (read (path.buffer (nativeToken sha1 nonce p)) 0 20) =
      xorBytes (sha1.digest p) (path.error sha1 p nonce) := by
  have same (bs : Bytes) : (sha1.digest p).length = (sha1.digest bs).length := by
    rw [sha1.digest_length, sha1.digest_length]
  have whole : (nativeToken sha1 nonce p).length = 20 := (xorBytes_length (same _)).trans (sha1.digest_length p)
  cases path with
  | handshake =>
    dsimp only [TokenPath.buffer]
    rw [padded_read (Nat.le_of_eq whole), whole, replicate_zero, append_nil]
    exact xorBytes_left_comm _ _ _
  | authSwitch =>
    have short : (cstr (nativeToken sha1 nonce p)).length ≤ 20 := whole ▸ (List.takeWhile_prefix _).length_le
    dsimp only [TokenPath.buffer]
    rw [padded_read short, shown rfl]
    have cut := xorBytes_cut (same (salt ++ sha1.digest (sha1.digest p)))
    rw [sha1.digest_length] at cut
    exact cut

theorem TokenPath.error_handshake (p : Bytes) :
    xorBytes (sha1.digest p) (TokenPath.handshake.error sha1 p salt) = sha1.digest p := by
  dsimp only [TokenPath.error]
  rw [xorBytes_left_comm, xorBytes_cancel]
  rw [sha1.digest_length, sha1.digest_length]

/-- The token of a client with the right password opens a session exactly if it survives its way. -/
theorem nativeToken_accepted_iff (server : Server) (md5 : server.auth_method = .uaMD5) (role p : Bytes)
    (text : 0 ∉ p) (stored : server.roles role = some ⟨some (mysNativePwdEncrypt server.sha1 p), false⟩)
    (path : TokenPath) (haloMysVersion : Bytes) (version : 0 ∉ haloMysVersion) (fits : haloMysVersion.length ≤ 956)
    (enableSSL : Bool) (packets : List LogonPacket)
    (sent : received server.sslOpens packets =
      path.delivers role (nativeToken server.sha1 (path.nonce haloMysVersion enableSSL) p)) :
    authenticate server packets ≠ .exit ↔
      Survives server.sha1 p haloMysVersion (path.nonce haloMysVersion enableSSL) path := by
  have shown : path = .authSwitch → path.nonce haloMysVersion enableSSL = salt := by
    rintro rfl
    exact switchNonce_assemble
  rw [authenticate_delivered md5 stored sent, mysCheckAuth_iff stored]
  simp only [isNativePassword_encrypt, path.buffer_first]
  rw [verifies_encrypt server.sha1 text, path.unmasked server.sha1 p _ shown]
  refine and_congr_right fun _ => ⟨.inr, ?_⟩
  rintro (⟨rfl, clear⟩ | unseen)
  · show server.sha1.digest (xorBytes _ (TokenPath.error _ _ (wireNonce haloMysVersion enableSSL) _)) = _
    rw [wireNonce_clear version fits clear, TokenPath.error_handshake]
  · exact unseen

/-- A server that hashes to a length and has stored the password of its only role. -/
def Server.counting (p : String) : Server :=
  let sha1 : Sha1 := ⟨fun bs => List.replicate 20 (UInt8.ofNat bs.length), fun _ => length_replicate⟩
  { Server.sample .uaMD5 "root" ⟨some (mysNativePwdEncrypt sha1 (ascii p)), false⟩ with sha1 := sha1 }

theorem nonce_default : TokenPath.handshake.nonce (ascii "5.7.32-log") false = salt :=
  wireNonce_clear (by decide) (by decide) (.inl (by decide))

theorem nativeToken_accepted_counting :
    authenticate (.counting "secret") [.plain "root" (nativeToken (Server.counting "secret").sha1
      (TokenPath.handshake.nonce (ascii "5.7.32-log") false) (ascii "secret"))] ≠ .exit := by
  refine (nativeToken_accepted_iff (.counting "secret") rfl (ascii "root") (ascii "secret") (by decide) rfl .handshake
    (ascii "5.7.32-log") (by decide) (by decide) false _ ?_).mpr ⟨?_, .inl ⟨rfl, .inl (by decide)⟩⟩
  · decide +kernel
  · decide +kernel

/-- With a token that starts with a zero byte the right password is refused. -/
theorem nativeToken_zero_refused :
    let server := Server.sample .uaMD5 "root"
      ⟨some (mysNativePwdEncrypt (Server.sample .uaMD5 "root" ⟨none, false⟩).sha1 (ascii "secret")), false⟩
    let token := nativeToken server.sha1 (TokenPath.handshake.nonce (ascii "5.7.32-log") false) (ascii "secret")
    received server.sslOpens [.plain "root" token] = TokenPath.handshake.delivers (ascii "root") token ∧
      ¬authenticate server [.plain "root" token] ≠ .exit := by
  decide +kernel

end OpenHalo
