import Mathlib.Data.List.DropRight
import OpenHalo.Lib.Memory

namespace Memory
open Octets Function

/-- A string without the blanks behind it. -/
def trimBlanks (s : Bytes) : Bytes := s.rdropWhile (· == 32)

/-- What is left of a string if blanks are only taken away behind some text. -/
def behindText (s : Bytes) : Bytes := if trimBlanks s = [] then s else trimBlanks s

section Trim

variable {s : Bytes}

theorem trimBlanks_front (s : Bytes) : trimBlanks s <+: s := List.rdropWhile_prefix (· == 32) s

theorem trimBlanks_concat (s : Bytes) (b : UInt8) :
    trimBlanks (s ++ [b]) = if b = 32 then trimBlanks s else s ++ [b] := by
  rw [trimBlanks, List.rdropWhile_concat]
  by_cases blank : b = 32
  · rw [if_pos blank, if_pos (beq_iff_eq.mpr blank)]
    rfl
  · rw [if_neg blank, if_neg fun isBlank => blank (beq_iff_eq.mp isBlank)]

theorem trimBlanks_take (s : Bytes) : s.take (trimBlanks s).length = trimBlanks s :=
  (List.prefix_iff_eq_take.mp (trimBlanks_front s)).symm

theorem trimBlanks_length_lt (blanks : trimBlanks s ≠ s) : (trimBlanks s).length < s.length := by
  have upTo := (trimBlanks_front s).length_le
  have apart : (trimBlanks s).length ≠ s.length := fun length => blanks ((trimBlanks_front s).eq_of_length length)
  omega

theorem trimBlanks_split (s : Bytes) : ∃ m, s = trimBlanks s ++ List.replicate m 32 := by
  induction s using List.reverseRecOn with
  | nil => exact ⟨0, rfl⟩
  | append_singleton s b ih =>
    rw [trimBlanks_concat]
    split
    next blank =>
      obtain ⟨m, split⟩ := ih
      exact ⟨m + 1, by rw [List.replicate_succ', ← List.append_assoc, ← split, blank]⟩
    next => exact ⟨0, (List.append_nil _).symm⟩

theorem trimBlanks_blanks (s : Bytes) (m : Nat) : trimBlanks (s ++ List.replicate m 32) = trimBlanks s := by
  induction m with
  | zero => rw [List.replicate_zero, List.append_nil]
  | succ m ih => rw [List.replicate_succ', ← List.append_assoc, trimBlanks_concat, if_pos rfl, ih]

theorem trimBlanks_text (text : 0 ∉ s) : 0 ∉ trimBlanks s := fun zero => text ((trimBlanks_front s).subset zero)

end Trim

/-- Where a loop back to the last byte that is no blank stops: one more than its index. -/
def stop (m : Mem) (a : Nat) : Nat → Nat
  | 0 => 0
  | n + 1 => if m (a + n) ≠ 32 then n + 1 else stop m a n

section Stop

variable {m m' : Mem} {a n k : Nat}

theorem stop_le (m : Mem) (a n : Nat) : stop m a n ≤ n := by
  induction n with
  | zero => exact Nat.le_refl 0
  | succ n ih =>
    rw [stop]
    split
    · exact Nat.le_refl _
    · omega

theorem stop_blank {i : Nat} (behind : stop m a n ≤ i) (inside : i < n) : m (a + i) = 32 := by
  induction n with
  | zero => cases inside
  | succ n ih =>
    rw [stop] at behind
    split at behind
    · omega
    next blank =>
      rcases Nat.lt_succ_iff_lt_or_eq.mp inside with before | last
      · exact ih behind before
      · rw [last]
        exact of_not_not blank

theorem update_stop_ne (blanks : stop m a n < n) : update m (a + stop m a n) 0 ≠ m := by
  intro same
  have byte := congrFun same (a + stop m a n)
  rw [update_self, stop_blank (Nat.le_refl _) blanks] at byte
  cases byte

theorem stop_congr (same : ∀ i, i < n → m' (a + i) = m (a + i)) : stop m' a n = stop m a n := by
  induction n with
  | zero => rfl
  | succ n ih => rw [stop, stop, same n (Nat.lt_succ_self n), ih fun i inside => same i (by omega)]

theorem stop_eq (blanks : ∀ i, k ≤ i → i < n → m (a + i) = 32) (upTo : k ≤ n) (text : 0 < k → m (a + (k - 1)) ≠ 32) :
    stop m a n = k := by
  induction n with
  | zero => exact (Nat.le_zero.mp upTo).symm
  | succ n ih =>
    rw [stop]
    rcases Nat.lt_or_eq_of_le upTo with before | last
    · rw [if_neg (by rw [blanks n (by omega) (by omega)]; decide)]
      exact ih (fun i lower upper => blanks i lower (by omega)) (by omega)
    · subst last
      exact if_pos (text (Nat.succ_pos n))

theorem read_concat (m : Mem) (a n : Nat) : read m a (n + 1) = read m a n ++ [m (a + n)] := by
  rw [read_append]
  rfl

theorem trimBlanks_read (m : Mem) (a n : Nat) : trimBlanks (read m a n) = read m a (stop m a n) := by
  induction n with
  | zero => rfl
  | succ n ih =>
    rw [read_concat, trimBlanks_concat, stop]
    by_cases blank : m (a + n) = 32
    · rw [if_pos blank, if_neg (not_not.mpr blank)]
      exact ih
    · rw [if_neg blank, if_pos blank, read_concat]

theorem trimBlanks_length (m : Mem) (a n : Nat) : (trimBlanks (read m a n)).length = stop m a n := by
  rw [trimBlanks_read, read_length]

end Stop

/-- Two values in memory: the same one, or two with a header between them. -/
structure ArgPair where
  mem : Mem
  str1 : Nat
  len1 : Nat
  str2 : Nat
  len2 : Nat
  apart : str1 = str2 ∧ len1 = len2 ∨ str1 + len1 < str2 ∨ str2 + len2 < str1

namespace ArgPair

variable (c : ArgPair)

def first : Bytes := read c.mem c.str1 c.len1

def second : Bytes := read c.mem c.str2 c.len2

/-- The bytes of both values and the byte behind each of them are as they were. -/
def Unchanged (m : Mem) : Prop :=
  (∀ i, i ≤ c.len1 → m (c.str1 + i) = c.mem (c.str1 + i)) ∧ ∀ i, i ≤ c.len2 → m (c.str2 + i) = c.mem (c.str2 + i)

theorem unchanged_rfl : c.Unchanged c.mem := ⟨fun _ _ => rfl, fun _ _ => rfl⟩

theorem same_length (itself : c.str1 = c.str2) : c.len1 = c.len2 := by
  have apart := c.apart
  omega

end ArgPair

end Memory
