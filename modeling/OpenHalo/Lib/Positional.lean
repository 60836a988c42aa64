import Mathlib.Data.Nat.Digits.Defs

namespace Positional
open List

variable {b : Nat}

/-- The number with the digits `ds` in base `b`, the highest first. -/
def value (b : Nat) (ds : List Nat) : Nat := Nat.ofDigits b ds.reverse

@[simp] theorem value_nil : value b [] = 0 := rfl

theorem value_append (xs ys : List Nat) : value b (xs ++ ys) = value b xs * b ^ ys.length + value b ys := by
  rw [value, reverse_append, Nat.ofDigits_append, length_reverse, Nat.add_comm, Nat.mul_comm]
  rfl

theorem value_cons (d : Nat) (ds : List Nat) : value b (d :: ds) = d * b ^ ds.length + value b ds := by
  have single : value b [d] = d := Nat.ofDigits_singleton
  rw [← singleton_append, value_append, single]

theorem value_lt_pow {ds : List Nat} (base : 1 < b) (small : ∀ d ∈ ds, d < b) : value b ds < b ^ ds.length := by
  rw [← length_reverse]
  exact Nat.ofDigits_lt_base_pow_length base fun d member => small d (mem_reverse.mp member)

/-- Rows of digits of one length that denote one number are the same. -/
theorem value_inj {xs ys : List Nat} (base : 1 < b) (length : xs.length = ys.length) (small : ∀ d ∈ xs, d < b)
    (small' : ∀ d ∈ ys, d < b) (same : value b xs = value b ys) : xs = ys := by
  apply reverse_inj.mp
  apply Nat.ofDigits_inj_of_len_eq base (by rw [length_reverse, length_reverse, length]) _ _ same
  · exact fun d member => small d (mem_reverse.mp member)
  · exact fun d member => small' d (mem_reverse.mp member)

theorem value_replicate_zero (n : Nat) : value b (List.replicate n 0) = 0 := by
  induction n with
  | zero => rfl
  | succ n ih => rw [replicate_succ, value_cons, ih, Nat.zero_mul]

theorem value_set_add {ds : List Nat} {i : Nat} (within : i < ds.length) (x : Nat) :
    value b (ds.set i (ds[i] + x)) = value b ds + x * b ^ (ds.length - 1 - i) := by
  induction ds generalizing i with
  | nil => cases within
  | cons d ds ih =>
    cases i with
    | zero =>
      rw [set_cons_zero, value_cons, value_cons, length_cons, Nat.add_sub_cancel, Nat.sub_zero,
        getElem_cons_zero, Nat.add_mul]
      omega
    | succ i =>
      have inside : i < ds.length := by simpa using within
      have place : ds.length + 1 - 1 - (i + 1) = ds.length - 1 - i := by omega
      rw [set_cons_succ, value_cons, value_cons, getElem_cons_succ, ih inside, length_set, length_cons,
        place, Nat.add_assoc]

end Positional
