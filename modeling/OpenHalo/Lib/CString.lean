import Mathlib.Data.List.TakeWhile
import OpenHalo.Lib.Memory

namespace Memory
open Octets List

/-- The C string at address `a` has length `n`. -/
structure StrLen (m : Mem) (a n : Nat) : Prop where
  nonzero : ∀ i, i < n → m (a + i) ≠ 0
  ended : m (a + n) = 0

theorem cstr_nonzero (s : Bytes) : 0 ∉ cstr s := by
  intro zero
  have kept := mem_takeWhile_imp zero
  cases kept

theorem cstr_split {s : Bytes} (ends : 0 ∈ s) : ∃ rest, s = cstr s ++ 0 :: rest := by
  induction s with
  | nil => cases ends
  | cons c s ih =>
    by_cases zero : c = 0
    · subst zero
      exact ⟨s, rfl⟩
    obtain ⟨rest, split⟩ := ih ((mem_cons.mp ends).resolve_left (Ne.symm zero))
    refine ⟨rest, ?_⟩
    rw [cstr, takeWhile_cons, if_pos (bne_iff_ne.mpr zero)]
    exact congrArg (c :: ·) split

variable {m : Mem} {a n : Nat}

theorem StrLen.unique {k : Nat} (string : StrLen m a n) (other : StrLen m a k) : n = k := by
  rcases Nat.lt_trichotomy n k with shorter | same | longer
  · exact absurd string.ended (other.nonzero n shorter)
  · exact same
  · exact absurd other.ended (string.nonzero k longer)

theorem StrLen.tail (string : StrLen m a (n + 1)) : StrLen m (a + 1) n := by
  constructor
  · intro i before
    rw [Nat.add_assoc, Nat.add_comm 1]
    exact string.nonzero (i + 1) (by omega)
  · rw [Nat.add_assoc, Nat.add_comm 1]
    exact string.ended

theorem write_mem {bs : Bytes} {p i : Nat} (lower : p ≤ i) (upper : i < p + bs.length) : write m p bs i ∈ bs := by
  have within : i - p < bs.length := by omega
  rw [write, if_pos lower, getD_eq_getElem _ _ within]
  exact getElem_mem within

theorem StrLen.write (string : StrLen m a n) {p : Nat} {bs : Bytes} (text : 0 ∉ bs) (within : p + bs.length ≤ a + n) :
    StrLen (write m p bs) a n := by
  constructor
  · intro i before
    by_cases inside : p ≤ a + i ∧ a + i < p + bs.length
    · intro zero
      have member : Memory.write m p bs (a + i) ∈ bs := write_mem inside.1 inside.2
      rw [zero] at member
      exact text member
    · have same : Memory.write m p bs (a + i) = m (a + i) := by
        rcases Nat.lt_or_ge (a + i) p with front | behind
        · exact write_before front
        · exact write_after (by omega)
      rw [same]
      exact string.nonzero i before
  · rw [write_after (by omega)]
    exact string.ended

theorem strLen_write (m : Mem) (a : Nat) {text : Bytes} (nonzero : 0 ∉ text) :
    StrLen (write m a (text ++ [0])) a text.length := by
  rw [write_append]
  constructor
  · intro i before zero
    rw [write_before (by omega)] at zero
    have member : write m a text (a + i) ∈ text := write_mem (by omega) (by omega)
    rw [zero] at member
    exact nonzero member
  · rw [Memory.write, if_pos (Nat.le_refl _), Nat.sub_self]
    rfl

theorem strLen_prepend {front : Bytes} (text : 0 ∉ front) (room : front.length ≤ a) :
    StrLen (write m (a - front.length) front) (a - front.length) (n + front.length) ↔ StrLen m a n := by
  have behind (i : Nat) : write m (a - front.length) front (a - front.length + (i + front.length)) = m (a + i) := by
    rw [write_after (by omega)]
    congr 1
    omega
  constructor
  · intro string
    refine ⟨fun i before => ?_, ?_⟩
    · rw [← behind i]
      exact string.nonzero _ (by omega)
    · rw [← behind n]
      exact string.ended
  · intro string
    refine ⟨fun i before => ?_, ?_⟩
    · by_cases inside : i < front.length
      · intro zero
        have member : write m (a - front.length) front (a - front.length + i) ∈ front := write_mem (by omega) (by omega)
        rw [zero] at member
        exact text member
      · obtain ⟨k, rfl⟩ := Nat.exists_eq_add_of_le' (Nat.not_lt.mp inside)
        rw [behind k]
        exact string.nonzero k (by omega)
    · rw [behind n]
      exact string.ended

end Memory
