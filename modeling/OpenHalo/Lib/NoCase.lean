import OpenHalo.Lib.Octets

namespace Octets
open List

theorem lower_eq_zero (c : UInt8) : lower c = 0 ↔ c = 0 := by
  revert c
  apply forall_byte
  decide +kernel

theorem cstr_cons (c : UInt8) (s : Bytes) : cstr (c :: s) = if c = 0 then [] else c :: cstr s := by
  by_cases zero : c = 0
  · rw [if_pos zero, zero]
    rfl
  · rw [if_neg zero, cstr, takeWhile_cons, if_pos (bne_iff_ne.mpr zero)]
    rfl

/-- `strncasecmp` compares what stands in front of the terminators. -/
theorem eqNoCase_iff (n : Nat) (s t : Bytes) :
    eqNoCase n s t = true ↔ ((cstr s).map lower).take n = ((cstr t).map lower).take n := by
  induction n generalizing s t with
  | zero => simp [eqNoCase]
  | succ n ih =>
    have zero : lower 0 = 0 := rfl
    rw [eqNoCase]
    cases s with
    | nil =>
      cases t with
      | nil => simp [cstr, zero]
      | cons d t =>
        by_cases ends : d = 0
        · simp [ends, cstr, zero]
        · have apart : ¬ 0 = lower d := fun same => ends ((lower_eq_zero d).mp same.symm)
          simp [ends, cstr, zero, apart]
    | cons c s =>
      rw [cstr_cons]
      cases t with
      | nil =>
        by_cases ends : c = 0
        · simp [ends, cstr, zero]
        · simp [ends, cstr, zero, lower_eq_zero]
      | cons d t =>
        rw [cstr_cons]
        by_cases ends : c = 0 <;> by_cases ends' : d = 0
        · simp [ends, ends', zero]
        · have apart : ¬ 0 = lower d := fun same => ends' ((lower_eq_zero d).mp same.symm)
          simp [ends, ends', zero, apart]
        · simp [ends, ends', zero, lower_eq_zero]
        · simp [ends, ends', lower_eq_zero, ih]

/-- A C string without case. -/
def folded (s : Bytes) : Bytes := (cstr s).map lower

/-- `strncasecmp(s, t, strlen(s)) == 0`. -/
theorem eqNoCase_cstr_iff (s t : Bytes) : eqNoCase (cstr s).length s t = true ↔ folded s <+: folded t := by
  have length : (cstr s).length = (folded s).length := (length_map lower).symm
  rw [eqNoCase_iff, length, prefix_iff_eq_take]
  change (folded s).take (folded s).length = _ ↔ _
  rw [take_length]
  rfl

/-- `strcasecmp(s, t) == 0`: the terminator of `s` is compared, too. -/
def strcasecmpEq (s t : Bytes) : Bool := eqNoCase (s.length + 1) s t

theorem strcasecmpEq_iff (s t : Bytes) : strcasecmpEq s t = true ↔ folded s = folded t := by
  have short : (folded s).length ≤ s.length := by
    rw [folded, length_map]
    exact (takeWhile_sublist _).length_le
  rw [strcasecmpEq, eqNoCase_iff]
  change (folded s).take (s.length + 1) = (folded t).take (s.length + 1) ↔ _
  rw [take_of_length_le (by omega)]
  constructor
  · intro same
    have length := congrArg List.length same
    rw [length_take] at length
    rw [same, take_of_length_le (by omega)]
  · intro same
    rw [← same, take_of_length_le (by omega)]

end Octets
