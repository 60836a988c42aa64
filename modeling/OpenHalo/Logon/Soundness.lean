import OpenHalo.Logon.Received

namespace OpenHalo
open Octets Memory List

variable {role stored token : Bytes} {r : Role} {resp : HandshakeResp}

def verifies (sha1 : Sha1) (stored : Bytes) (token : Mem) : Bool :=
  checkMysNativeAuth sha1 (fun _ => 0) token (padded stored)

def Verified (server : Server) (role token : Bytes) : Prop :=
  ∃ r stored, server.roles role = some r ∧ r.rolpassword = some stored ∧ r.expired = false ∧
    isNativePassword stored = true ∧ verifies server.sha1 stored (padded token) = true

def WithoutPassword (server : Server) (role : Bytes) : Prop :=
  ∃ r, server.roles role = some r ∧ r.rolpassword = none

def Entitled (server : Server) (role token : Bytes) : Prop :=
  server.auth_method = .uaTrust ∨
    server.auth_method = .uaMD5 ∧ (Verified server role token ∨ WithoutPassword server role ∧ token = [])

def Received.credentials : Received → Option (Bytes × Bytes)
  | .direct role token | .switched role token | .old role token => some (role, token)
  | .gone | .overrun | .failed _ _ => none

/-- Only a complete response of somebody entitled gets past `authenticate`. -/
def SoundLogon (server : Server) (packets : List LogonPacket) : Prop :=
  authenticate server packets ≠ .exit →
    ∃ role token, (received server.sslOpens packets).credentials = some (role, token) ∧ Entitled server role token

/-- Under MD5: what is left in the token buffer opens the door only if the token does. -/
def PasswordSound (server : Server) (r : Role) (token : Bytes) (buffer : Mem) : Prop :=
  match r.rolpassword with
  | none => buffer 0 = 0 → token = []
  | some stored =>
    if r.expired then buffer 0 ≠ 0
    else if isNativePassword stored then
      buffer 0 ≠ 0 → verifies server.sha1 stored buffer = true → verifies server.sha1 stored (padded token) = true
    else buffer 0 = 0 ∨ server.pwtype ≠ .mysNativePassword ∨ server.checkNative buffer stored = false

def MethodSound (server : Server) (role : Bytes) (trust : Prop) (md5 : Role → Prop) : Prop :=
  ∀ r, server.roles role = some r →
    match server.auth_method with
    | .uaImplicitReject => True
    | .uaTrust => trust
    | .uaMD5 => md5 r
    | _ => False

def AdmissionSound (server : Server) : Received → Prop
  | .gone => True
  | .overrun => False
  | .failed role kept =>
    MethodSound server role False fun _ =>
      mysCheckAuth server role ((kept.map padded).getD server.authRespBuf) = false
  | .direct role token => MethodSound server role True fun r => PasswordSound server r token (padded token)
  | .switched role token => MethodSound server role True fun r => PasswordSound server r token (padded (cstr token))
  | .old role token => MethodSound server role True fun r => PasswordSound server r token (padded [])

theorem isNativePassword_digits (native : isNativePassword stored = true) :
    stored.length = 62 ∧ ∀ i, 22 ≤ i → (within : i < 62) → (nibble (stored.getD i 0)).isSome = true := by
  simp only [isNativePassword, Bool.and_eq_true, beq_iff_eq] at native
  obtain ⟨⟨_, length⟩, digits⟩ := native
  refine ⟨length, fun i lower within => ?_⟩
  have member : stored.getD i 0 ∈ stored.drop 22 := by
    rw [mem_iff_getElem]
    refine ⟨i - 22, by simp only [length_drop]; omega, ?_⟩
    rw [getElem_drop, getD_eq_getElem _ _ (by omega)]
    congr 1
    omega
  exact all_eq_true.mp digits _ member

theorem shadowByte_digits {high : UInt8} (digit : (nibble high).isSome = true) (low junk junk' : UInt8) :
    shadowByte junk high low = shadowByte junk' high low := by
  obtain ⟨h, highDigit⟩ := Option.isSome_iff_exists.mp digit
  simp [shadowByte, highDigit]

theorem Server.checkNative_eq (server : Server) (native : isNativePassword stored = true)
    (buffer : Mem) : server.checkNative buffer stored = verifies server.sha1 stored buffer := by
  obtain ⟨length, digits⟩ := isNativePassword_digits native
  have loaded : ∀ i < 62, load (stored ++ [0]) 0 server.behindShadow i = stored.getD i 0 := by
    intro i within
    simp only [load, write, Nat.zero_le, if_true, Nat.sub_zero]
    rw [getD_append _ _ _ _ (by omega), getD_eq_getElem _ _ (by omega), getD_eq_getElem _ _ (by omega)]
  have same : shadowPass server.shadowBuf (load (stored ++ [0]) 0 server.behindShadow) =
      shadowPass (fun _ => 0) (padded stored) := by
    apply map_congr_left
    intro i member
    have bound := mem_range.mp member
    rw [loaded _ (by omega), loaded _ (by omega)]
    exact shadowByte_digits (digits _ (by omega) (by omega)) _ _ _
  simp only [Server.checkNative, verifies, checkMysNativeAuth, same]

variable {server : Server}

theorem mysCheckAuth_iff (found : server.roles role = some r) (buffer : Mem) :
    mysCheckAuth server role buffer = true ↔
      match r.rolpassword with
      | none => buffer 0 = 0
      | some stored =>
        if r.expired then buffer 0 = 0
        else buffer 0 ≠ 0 ∧
          if isNativePassword stored then verifies server.sha1 stored buffer = true
          else server.pwtype = .mysNativePassword ∧ server.checkNative buffer stored = true := by
  unfold mysCheckAuth get_role_password
  rw [found]
  dsimp only
  cases r.rolpassword with
  | none => exact beq_iff_eq
  | some stored =>
    cases r.expired with
    | true => exact beq_iff_eq
    | false =>
      by_cases empty : buffer 0 = 0
      · simp [empty]
      by_cases native : isNativePassword stored = true
      · simp [empty, native, server.checkNative_eq native]
      · simp only [empty, native, if_false, Bool.false_eq_true, ne_eq, not_false_eq_true, true_and]
        cases server.pwtype <;> simp

theorem passwordSound_iff (found : server.roles role = some r) (token : Bytes) (buffer : Mem) :
    PasswordSound server r token buffer ↔
      (mysCheckAuth server role buffer = true →
        Verified server role token ∨ WithoutPassword server role ∧ token = []) := by
  have verified : Verified server role token ↔ ∃ stored, r.rolpassword = some stored ∧ r.expired = false ∧
      isNativePassword stored = true ∧ verifies server.sha1 stored (padded token) = true := by
    constructor
    · rintro ⟨r', stored, found', rest⟩
      cases Option.some.inj (found.symm.trans found')
      exact ⟨stored, rest⟩
    · rintro ⟨stored, rest⟩
      exact ⟨r, stored, found, rest⟩
  have without : WithoutPassword server role ↔ r.rolpassword = none := by
    constructor
    · rintro ⟨r', found', none⟩
      cases Option.some.inj (found.symm.trans found')
      exact none
    · intro none
      exact ⟨r, found, none⟩
  rw [mysCheckAuth_iff found, verified, without]
  unfold PasswordSound
  cases r.rolpassword with
  | none => simp
  | some stored =>
    cases r.expired with
    | true => simp
    | false =>
      by_cases native : isNativePassword stored = true
      · simp [native]
      · by_cases empty : buffer 0 = 0 <;> cases server.pwtype <;> simp [empty, native]

theorem Server.admit_ne_exit (server : Server) (resp : HandshakeResp) :
    server.admit resp ≠ .exit ↔ ∃ r, server.roles resp.userName = some r ∧
      match server.auth_method with
      | .uaImplicitReject => False
      | .uaMD5 => mysCheckAuth server resp.userName resp.authResp = true
      | _ => True := by
  unfold Server.admit startSession
  cases found : server.roles resp.userName with
  | none => simp
  | some r =>
    cases server.auth_method <;> simp

theorem admit_failed_iff :
    ( server.admit resp ≠ .exit → False) ↔
      MethodSound server resp.userName False fun _ => mysCheckAuth server resp.userName resp.authResp = false := by
  rw [Server.admit_ne_exit]
  constructor
  · intro refused r found
    have shut := fun admitted => refused ⟨r, found, admitted⟩
    revert shut
    cases server.auth_method <;> simp
  · rintro sound ⟨r, found, admitted⟩
    have shut := sound r found
    revert shut admitted
    cases server.auth_method <;> simp

theorem admit_complete_iff (token : Bytes) :
    ( server.admit resp ≠ .exit → Entitled server resp.userName token) ↔
      MethodSound server resp.userName True fun r => PasswordSound server r token resp.authResp := by
  rw [Server.admit_ne_exit]
  unfold MethodSound Entitled
  constructor
  · intro entitled r found
    have sound := fun admitted => entitled ⟨r, found, admitted⟩
    revert sound
    cases server.auth_method <;> simp [passwordSound_iff found]
  · rintro sound ⟨r, found, admitted⟩
    have only := sound r found
    revert only admitted
    cases server.auth_method <;> simp +contextual [passwordSound_iff found]

theorem passwordSound_first {buffer buffer' : Mem} (empty : buffer 0 = 0) (empty' : buffer' 0 = 0) :
    PasswordSound server r token buffer ↔ PasswordSound server r token buffer' := by
  unfold PasswordSound
  cases r.rolpassword with
  | none => simp [empty, empty']
  | some stored =>
    cases r.expired <;> by_cases native : isNativePassword stored = true <;> simp [empty, empty', native]

/-- Whoever gets past `authenticate` is entitled to it exactly if method, role and password are prepared
for the response. -/
theorem authenticate_sound_iff (server : Server) (packets : List LogonPacket) :
    SoundLogon server packets ↔ AdmissionSound server (received server.sslOpens packets) := by
  unfold SoundLogon
  cases packets with
  | nil => exact iff_of_true (fun admitted => absurd rfl admitted) trivial
  | cons first rest =>
    have returned := parseHandshakeRespPacketPayload_returned server.sslOpens server.authRespBuf first rest
    dsimp only [authenticate]
    generalize received server.sslOpens (first :: rest) = view at returned
    generalize parseHandshakeRespPacketPayload server.sslOpens first rest server.authRespBuf = parse at returned
    cases returned with
    | gone => exact iff_of_true (fun admitted => absurd rfl admitted) trivial
    | overrun => simp [Received.credentials, AdmissionSound]
    | failed user buffer =>
      subst user
      simp only [Received.credentials, AdmissionSound, ← buffer, reduceCtorEq, false_and, exists_false]
      exact admit_failed_iff
    | @direct role token resp user buffer | @switched role token resp user buffer =>
      subst user
      simp only [Received.credentials, AdmissionSound, ← buffer]
      rw [← admit_complete_iff]
      simp
    | @old role token resp user buffer =>
      subst user
      have same : ∀ r, PasswordSound server r token (padded []) ↔ PasswordSound server r token resp.authResp :=
        fun r => passwordSound_first rfl buffer
      simp only [Received.credentials, AdmissionSound, same]
      rw [← admit_complete_iff]
      simp

def Server.sample (auth_method : UserAuth) (name : String) (r : Role) : Server where
  auth_method := auth_method
  roles role := if role = ascii name then some r else none
  sha1 := ⟨fun _ => List.replicate 20 0, fun _ => rfl⟩
  sslOpens := false
  authRespBuf := fun _ => 0
  pwtype := .plaintext
  shadowBuf := fun _ => 0
  behindShadow := fun _ => 0

def LogonPacket.plain (name : String) (token : Bytes) : LogonPacket where
  payload := [0, 2, 0, 0] ++ List.replicate 28 0 ++ ascii name ++ [0, UInt8.ofNat token.length] ++ token
  junk := fun _ => 0

/-- A client that pg_hba.conf rejects gets its error packet and then a session. -/
theorem authenticate_rejected_admitted :
    ¬ SoundLogon (.sample .uaReject "root" ⟨none, false⟩) [.plain "root" []] := by
  intro sound
  obtain ⟨role, token, _, trusted | ⟨md5, _⟩⟩ := sound (by decide +kernel)
  · cases trusted
  · cases md5

end OpenHalo
