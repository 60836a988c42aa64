import OpenHalo.AdapterState

namespace OpenHalo
open Octets Memory List

structure Sha1 where
  digest : Bytes → Bytes
  digest_length : ∀ bs, (digest bs).length = 20

def mysql_native_password_prefix : Bytes := ascii "mysql_native_password:"

def salt : Bytes := [118, 17, 1, 31, 119, 103, 17, 2, 122, 16, 88, 125, 86, 78, 83, 67, 103, 99, 124, 17]

def hexDigit (n : UInt8) : UInt8 := if n < 10 then 48 + n else 87 + n

def hexBytes (bs : Bytes) : Bytes := bs.flatMap fun b : UInt8 => [hexDigit (b >>> 4), hexDigit (b &&& 15)]

def mysNativePwdEncrypt (sha1 : Sha1) (pwd : Bytes) : Bytes :=
  mysql_native_password_prefix ++ hexBytes (sha1.digest (sha1.digest (cstr pwd)))

def nibble (c : UInt8) : Option UInt8 :=
  if 48 ≤ c ∧ c ≤ 57 then some (c - 48) else if 97 ≤ c ∧ c ≤ 102 then some (c - 87) else none

/-- A byte from its two digits; what is no digit leaves its half as it was. -/
def shadowByte (junk high low : UInt8) : UInt8 :=
  let upper := match nibble high with
    | some n => n <<< 4 &&& 240
    | none => junk
  match nibble low with
  | some n => upper + (n &&& 15)
  | none => upper

def shadowPass (junk stored : Mem) : Bytes :=
  (List.range 20).map fun i => shadowByte (junk i) (stored (22 + 2 * i)) (stored (23 + 2 * i))

def xorBytes (xs ys : Bytes) : Bytes := List.zipWith (· ^^^ ·) xs ys

def checkMysNativeAuth (sha1 : Sha1) (junk clientPwd shadowPassTemp : Mem) : Bool :=
  let shadow_pass := shadowPass junk shadowPassTemp
  sha1.digest (xorBytes (sha1.digest (salt ++ shadow_pass)) (read clientPwd 0 20)) == shadow_pass

/-- The test of `mysCheckAuth` for the native format. -/
def isNativePassword (shadow_pass : Bytes) : Bool :=
  shadow_pass.take 22 == mysql_native_password_prefix && shadow_pass.length == 62 &&
    (shadow_pass.drop 22).all fun c => (nibble c).isSome

theorem hexBytes_length (bs : Bytes) : (hexBytes bs).length = 2 * bs.length := by
  induction bs with
  | nil => rfl
  | cons b bs ih =>
    simp only [hexBytes, flatMap_cons, length_append, length_cons] at ih ⊢
    simp only [length_nil] at ih ⊢
    omega

theorem nibble_hexDigit (b : UInt8) :
    nibble (hexDigit (b >>> 4)) = some (b >>> 4) ∧ nibble (hexDigit (b &&& 15)) = some (b &&& 15) := by
  revert b
  apply forall_byte
  decide +kernel

theorem shadowByte_hexDigit (junk b : UInt8) : shadowByte junk (hexDigit (b >>> 4)) (hexDigit (b &&& 15)) = b := by
  have joined : ((b >>> 4) <<< 4 &&& 240) + (b &&& 15 &&& 15) = b := by
    revert b
    apply forall_byte
    decide +kernel
  obtain ⟨high, low⟩ := nibble_hexDigit b
  simp only [shadowByte, high, low, joined]

theorem hexBytes_digits (bs : Bytes) (i : Nat) (within : i < bs.length) :
    (hexBytes bs)[2 * i]? = some (hexDigit (bs[i] >>> 4)) ∧
      (hexBytes bs)[2 * i + 1]? = some (hexDigit (bs[i] &&& 15)) := by
  induction bs generalizing i with
  | nil => cases within
  | cons b bs ih =>
    cases i with
    | zero => exact ⟨rfl, rfl⟩
    | succ i => exact ih i (by simpa using within)

/-- What `mysNativePwdEncrypt` stored is read back. -/
theorem shadowPass_hexBytes {junk stored : Mem} {digest : Bytes} (length : digest.length = 20)
    (same : ∀ i < 40, some (stored (22 + i)) = (hexBytes digest)[i]?) : shadowPass junk stored = digest := by
  apply ext_getElem
  · simp [shadowPass, length]
  · intro i _ within
    obtain ⟨high, low⟩ := hexBytes_digits digest i within
    have upper := (same (2 * i) (by omega)).trans high
    have lower := (same (2 * i + 1) (by omega)).trans low
    simp only [Option.some.injEq] at upper lower
    have next : 22 + (2 * i + 1) = 23 + 2 * i := by omega
    rw [next] at lower
    simp only [shadowPass, getElem_map, getElem_range, upper, lower]
    exact shadowByte_hexDigit _ _

theorem xorBytes_cancel {xs ys : Bytes} (length : xs.length = ys.length) : xorBytes ys (xorBytes xs ys) = xs := by
  induction xs generalizing ys with
  | nil =>
    cases ys with
    | nil => rfl
    | cons y ys => cases length
  | cons x xs ih =>
    cases ys with
    | nil => cases length
    | cons y ys =>
      have cancel : y ^^^ (x ^^^ y) = x := by
        rw [UInt8.xor_comm x y, ← UInt8.xor_assoc, UInt8.xor_self, UInt8.zero_xor]
      simp only [xorBytes, zipWith_cons_cons, List.cons.injEq] at ih ⊢
      exact ⟨cancel, ih (Nat.succ.inj length)⟩

end OpenHalo
