import OpenHalo.Logon.Completeness

namespace OpenHalo
open Octets Memory List

/-- The check of a token against a stored value, in any memory around them. -/
structure Check where
  sha1 : Sha1
  p : Bytes
  text : 0 ∉ p
  junk : Mem
  beside : Mem
  behind : Mem

def Check.accepts (c : Check) (t : Bytes) : Bool :=
  checkMysNativeAuth c.sha1 c.junk (load t 0 c.beside) (load (mysNativePwdEncrypt c.sha1 c.p ++ [0]) 0 c.behind)

def PasswordEquation (nonce : Bytes) : Prop :=
  ∀ (c : Check) (t : Bytes), t.length = 20 →
    (c.accepts t = true ↔
      c.sha1.digest (xorBytes t (c.sha1.digest (nonce ++ c.sha1.digest (c.sha1.digest c.p)))) =
        c.sha1.digest (c.sha1.digest c.p))

def OneToken : Prop :=
  ∀ c : Check, (∀ xs ys : Bytes, xs.length = 20 → ys.length = 20 → c.sha1.digest xs = c.sha1.digest ys → xs = ys) →
    ∃! t : Bytes, t.length = 20 ∧ c.accepts t = true

theorem Check.shadowPass (c : Check) :
    shadowPass c.junk (load (mysNativePwdEncrypt c.sha1 c.p ++ [0]) 0 c.behind) =
      c.sha1.digest (c.sha1.digest c.p) := by
  apply shadowPass_hexBytes (c.sha1.digest_length _)
  intro i within
  have size := hexBytes_length (c.sha1.digest (c.sha1.digest c.p))
  rw [c.sha1.digest_length] at size
  have start : mysql_native_password_prefix.length = 22 := rfl
  have lower : 22 + i < ( mysql_native_password_prefix ++ hexBytes (c.sha1.digest (c.sha1.digest c.p))).length := by
    rw [length_append]
    omega
  rw [load, write, if_pos (Nat.zero_le _), Nat.sub_zero, mysNativePwdEncrypt, cstr_eq c.text, getD_append _ _ _ _ lower,
    getD_append_right _ _ _ _ (by omega), start, Nat.add_sub_cancel_left, List.getElem?_eq_getElem (by omega),
    getD_eq_getElem _ _ (by omega)]

theorem passwordEquation_salt : PasswordEquation salt := by
  intro c t length
  have token : read (load t 0 c.beside) 0 20 = t := by
    rw [← length]
    exact read_write_self _ _ _
  simp only [Check.accepts, checkMysNativeAuth, c.shadowPass, token, beq_iff_eq]
  rw [xorBytes_comm]

theorem oneToken : OneToken := by
  intro c injective
  generalize mask : c.sha1.digest (salt ++ c.sha1.digest (c.sha1.digest c.p)) = m
  have size : m.length = 20 := by rw [← mask, c.sha1.digest_length]
  have same : (c.sha1.digest c.p).length = m.length := by rw [c.sha1.digest_length, size]
  have holds (t : Bytes) (length : t.length = 20) :
      c.accepts t = true ↔ c.sha1.digest (xorBytes t m) = c.sha1.digest (c.sha1.digest c.p) := by
    rw [← mask]
    exact passwordEquation_salt c t length
  refine ⟨xorBytes (c.sha1.digest c.p) m, ⟨?_, ?_⟩, ?_⟩
  · rw [xorBytes_length same, c.sha1.digest_length]
  · rw [holds _ (by rw [xorBytes_length same, c.sha1.digest_length]), xorBytes_comm _ m, xorBytes_cancel same]
  · rintro t ⟨length, accepted⟩
    have unmasked := injective _ _ (by rw [xorBytes_length (by omega), length]) (c.sha1.digest_length c.p)
      ((holds t length).mp accepted)
    rw [← unmasked, xorBytes_comm _ m, xorBytes_comm t m, xorBytes_comm m t]
    exact (xorBytes_cancel (by omega)).symm

def plainDigest (bs : Bytes) : Bytes := (bs ++ List.replicate 20 0).take 20

theorem plainDigest_length (bs : Bytes) : (plainDigest bs).length = 20 := by simp [plainDigest]

def Sha1.plain : Sha1 := ⟨plainDigest, plainDigest_length⟩

theorem Sha1.plain_digest {bs rest : Bytes} (length : bs.length = 20) : Sha1.plain.digest (bs ++ rest) = bs := by
  show (bs ++ rest ++ List.replicate 20 0).take 20 = bs
  rw [append_assoc, ← length, take_left]

theorem xorBytes_self (xs : Bytes) : xorBytes xs xs = List.replicate xs.length 0 := by
  induction xs with
  | nil => rfl
  | cons x xs ih =>
    simp only [xorBytes, zipWith_cons_cons, UInt8.xor_self, length_cons, replicate_succ] at ih ⊢
    rw [ih]

theorem passwordEquation_iff {nonce : Bytes} (length : nonce.length = 20) : PasswordEquation nonce ↔ nonce = salt := by
  constructor
  · intro equation
    have whole (bs : Bytes) (size : bs.length = 20) : Sha1.plain.digest bs = bs := by
      have kept := @Sha1.plain_digest bs [] size
      rwa [append_nil] at kept
    have theirs := equation ⟨.plain, [], by decide, fun _ => 0, fun _ => 0, fun _ => 0⟩ salt rfl
    have size : (xorBytes salt nonce).length = 20 := xorBytes_length (show salt.length = nonce.length from length.symm)
    rw [Sha1.plain_digest length, whole _ size] at theirs
    have cancelled := theirs.mp rfl
    have undone := xorBytes_cancel (show nonce.length = salt.length from length)
    rw [xorBytes_comm nonce salt, cancelled] at undone
    exact undone.symm.trans (xorBytes_zeros salt)
  · rintro rfl
    exact passwordEquation_salt

/-- Tokens are checked by the challenge the server sent exactly when its version keeps clear of the mark. -/
theorem password_verification_iff {haloMysVersion : Bytes} (text : 0 ∉ haloMysVersion)
    (fits : haloMysVersion.length ≤ 956) (enableSSL : Bool) :
    (PasswordEquation (wireNonce haloMysVersion enableSSL) ∧
        PasswordEquation (switchNonce assembleAuthSwitchRequestPacketPayload) ∧ OneToken) ↔
      haloMysVersion.length < 29 ∨ 53 < haloMysVersion.length := by
  have size : (wireNonce haloMysVersion enableSSL).length = 20 := by
    simp [wireNonce, greetingNonce]
  rw [passwordEquation_iff size]
  constructor
  · rintro ⟨same, _⟩
    by_contra marked
    exact wireNonce_marked text (by omega) (by omega) same
  · intro clear
    exact ⟨wireNonce_clear text fits clear, passwordEquation_salt, oneToken⟩

theorem password_verification_default : PasswordEquation (wireNonce (ascii "5.7.32-log") true) ∧
      PasswordEquation (switchNonce assembleAuthSwitchRequestPacketPayload) ∧ OneToken :=
  (password_verification_iff (by decide) (by decide) true).mpr (by decide)

/-- With a version of 29 bytes the greeting carries another challenge. -/
theorem password_verification_long :
    wireNonce (ascii "8.0.36-0ubuntu0.22.04.1-patch") false ≠ salt ∧
      ¬PasswordEquation (wireNonce (ascii "8.0.36-0ubuntu0.22.04.1-patch") false) := by
  have other : wireNonce (ascii "8.0.36-0ubuntu0.22.04.1-patch") false ≠ salt :=
    wireNonce_marked (by decide) (by decide) (by decide)
  exact ⟨other, fun equation => other ((passwordEquation_iff (by simp [wireNonce, greetingNonce])).mp equation)⟩

end OpenHalo
