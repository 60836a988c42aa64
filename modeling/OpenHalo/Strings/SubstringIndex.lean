import Mathlib.Order.Bounds.Basic
import OpenHalo.Lib.Octets

namespace OpenHalo
open Octets List

/-- The place `p` has `n` others between `start` and it, each of `len` positions. -/
def NthPlace (occurs : Nat → Prop) (len p : Nat) : Nat → Nat → Prop
  | 0, start => IsLeast {q | start ≤ q ∧ occurs q} p
  | n + 1, start => ∃ q, IsLeast {q | start ≤ q ∧ occurs q} q ∧ NthPlace occurs len p n (q + len)

/-- The loop that counts `index` down to 0. -/
def search (found : Nat → Bool) (len bound : Nat) : Nat → Nat → Nat → Option Nat
  | 0, _, _ => none
  | fuel + 1, i, index =>
    if i < bound then
      if found i then
        if index - 1 = 0 then some i else search found len bound fuel (i + len) (index - 1)
      else search found len bound fuel (i + 1) index
    else none

section Search

variable {occurs : Nat → Prop} {found : Nat → Bool} {len bound fuel start n p : Nat}

theorem isLeast_found (here : occurs start) : IsLeast {q | start ≤ q ∧ occurs q} p ↔ p = start := by
  have least : IsLeast {q | start ≤ q ∧ occurs q} start := ⟨⟨Nat.le_refl _, here⟩, fun _ member => member.1⟩
  exact ⟨fun other => other.unique least, fun same => same ▸ least⟩

theorem nthPlace_missed (missed : ¬ occurs start) :
    NthPlace occurs len p n start ↔ NthPlace occurs len p n (start + 1) := by
  have same : {q | start ≤ q ∧ occurs q} = {q | start + 1 ≤ q ∧ occurs q} := by
    ext q
    refine ⟨fun ⟨after, here⟩ => ⟨Nat.lt_of_le_of_ne after fun same => missed (same ▸ here), here⟩,
      fun ⟨after, here⟩ => ⟨by omega, here⟩⟩
  cases n <;> simp only [NthPlace, same]

theorem nthPlace_lt (inside : ∀ q, occurs q → q < bound) (place : NthPlace occurs len p n start) : start < bound := by
  cases n with
  | zero => exact place.1.1.trans_lt (inside p place.1.2)
  | succ n =>
    obtain ⟨q, least, _⟩ := place
    exact least.1.1.trans_lt (inside q least.1.2)

theorem nthPlace_occurs (place : NthPlace occurs len p n start) : occurs p := by
  induction n generalizing start with
  | zero => exact place.1.2
  | succ n ih =>
    obtain ⟨q, _, later⟩ := place
    exact ih later

theorem search_iff (places : ∀ q, found q = true ↔ occurs q) (inside : ∀ q, occurs q → q < bound) (apart : 0 < len)
    (enough : bound ≤ start + fuel) : search found len bound fuel start (n + 1) = some p ↔
      NthPlace occurs len p n start := by
  induction fuel generalizing start n with
  | zero => exact iff_of_false (by simp [search]) fun place => absurd (nthPlace_lt inside place) (by omega)
  | succ fuel ih =>
    rw [search]
    split_ifs with more here last
    · obtain rfl : n = 0 := last
      rw [NthPlace, isLeast_found ((places start).mp here), Option.some_inj, eq_comm]
    · obtain ⟨n, rfl⟩ := Nat.exists_eq_succ_of_ne_zero last
      rw [Nat.add_sub_cancel, ih (by omega)]
      simp [NthPlace, isLeast_found ((places start).mp here)]
    · rw [ih (by omega), nthPlace_missed fun occurs => here ((places start).mpr occurs)]
    · exact iff_of_false (by simp) fun place => more (nthPlace_lt inside place)

end Search

/-- `strncmp((str + i), separator, separatorLen) == 0`. -/
def separatorAt (str separator : Bytes) (i : Nat) : Bool := (str.drop i).take separator.length = separator

/-- The loop from the right, where `i` is one less than the number given. -/
def searchBack (str separator : Bytes) : Nat → Nat → Nat → Option Nat
  | fuel + 1, i + 1, index =>
    if separatorAt str separator i then
      if index - 1 = 0 then some (i + 1) else searchBack str separator fuel (i + 1 - separator.length) (index - 1)
    else searchBack str separator fuel i index
  | _, _, _ => none

def substringIndex (str separator : Bytes) (index : Int) : Bytes :=
  if 0 < index then
    let found := fun i => separator.length ≤ str.length - i && separatorAt str separator i
    (search found separator.length str.length str.length 0 index.natAbs).elim str str.take
  else if index = 0 then []
  else (searchBack str separator str.length (str.length + 1 - separator.length) index.natAbs).elim str str.drop

/-- An occurrence with `p` bytes in front of it. -/
def OccursBehind (s d : Bytes) (p : Nat) : Prop := ∃ x y, s = x ++ d ++ y ∧ x.length = p

/-- An occurrence with `p` bytes behind it. -/
def OccursBefore (s d : Bytes) (p : Nat) : Prop := ∃ x y, s = x ++ d ++ y ∧ y.length = p

/-- The string is cut at an occurrence, or left whole when there is none. -/
def CutAt (occurrence : Nat → Prop) (cut : Nat → Bytes) (whole r : Bytes) : Prop :=
  (∃ p, occurrence p ∧ r = cut p) ∨ (∀ p, ¬ occurrence p) ∧ r = whole

theorem cutAt_iff {occurrence : Nat → Prop} {cut : Nat → Bytes} {whole r : Bytes} {result : Option Nat}
    (spec : ∀ p, result = some p ↔ occurrence p) : CutAt occurrence cut whole r ↔ r = result.elim whole cut := by
  simp only [CutAt, ← spec]
  cases result <;> simp

variable {s d : Bytes} (nonempty : d ≠ [])

/-- From the right the loop counts the bytes behind. -/
theorem searchBack_eq (fuel j n : Nat) : searchBack s d fuel (s.length + 1 - d.length - j) n =
    (search (fun j => j + d.length ≤ s.length && separatorAt s d (s.length - d.length - j)) d.length
      (s.length + 1 - d.length) fuel j n).map fun j => s.length - d.length - j + 1 := by
  induction fuel generalizing j n with
  | zero =>
    cases s.length + 1 - d.length - j <;> rfl
  | succ fuel ih =>
    rw [search]
    split
    next more =>
      have position : s.length + 1 - d.length - j = s.length - d.length - j + 1 := by omega
      have step : s.length - d.length - j = s.length + 1 - d.length - (j + 1) := by omega
      have jump : s.length - d.length - j + 1 - d.length = s.length + 1 - d.length - (j + d.length) := by omega
      rw [position, searchBack, jump, ih, step, ih, ← step]
      simp only [show j + d.length ≤ s.length by omega, decide_true, Bool.true_and]
      split_ifs <;> rfl
    next done =>
      rw [show s.length + 1 - d.length - j = 0 by omega]
      rfl

include nonempty

theorem separatorAt_iff (i : Nat) : separatorAt s d i = true ↔ OccursBehind s d i := by
  rw [separatorAt, decide_eq_true_iff]
  constructor
  · intro same
    have inside : i ≤ s.length := by
      by_contra outside
      rw [drop_eq_nil_of_le (by omega)] at same
      exact nonempty (same.symm.trans take_nil)
    have rest := take_append_drop d.length (s.drop i)
    rw [same] at rest
    exact ⟨s.take i, _, by rw [append_assoc, rest, take_append_drop], length_take_of_le inside⟩
  · rintro ⟨x, y, rfl, rfl⟩
    rw [append_assoc, drop_left, take_left]

theorem search_left (n p : Nat) :
    search (fun i => d.length ≤ s.length - i && separatorAt s d i) d.length s.length s.length 0 (n + 1) = some p ↔
      NthPlace (OccursBehind s d) d.length p n 0 := by
  have positive := length_pos_iff.mpr nonempty
  have room : ∀ q, OccursBehind s d q → d.length ≤ s.length - q := by
    rintro _ ⟨x, y, rfl, rfl⟩
    simp only [length_append]
    omega
  apply search_iff _ _ positive (Nat.le_add_left ..)
  · intro q
    rw [Bool.and_eq_true, separatorAt_iff nonempty, decide_eq_true_iff]
    exact and_iff_right_of_imp (room q)
  · intro q occurs
    have := room q occurs
    omega

theorem search_right (n p : Nat) :
    search (fun j => j + d.length ≤ s.length && separatorAt s d (s.length - d.length - j)) d.length
    (s.length + 1 - d.length) s.length 0 (n + 1) = some p ↔ NthPlace (OccursBefore s d) d.length p n 0 := by
  have positive := length_pos_iff.mpr nonempty
  have behind : ∀ q, OccursBefore s d q ↔ q + d.length ≤ s.length ∧ OccursBehind s d (s.length - d.length - q) := by
    intro q
    constructor
    · rintro ⟨x, y, rfl, rfl⟩
      simp only [length_append]
      exact ⟨by omega, x, y, rfl, by omega⟩
    · rintro ⟨room, x, y, rfl, front⟩
      simp only [length_append] at room front
      exact ⟨x, y, rfl, by omega⟩
  apply search_iff _ _ positive (by omega)
  · intro q
    rw [Bool.and_eq_true, separatorAt_iff nonempty, decide_eq_true_iff, behind]
  · intro q occurs
    have := ((behind q).mp occurs).1
    omega

omit nonempty

/-- From the right, the cut is one byte behind the start of the separator. -/
theorem substringIndex_cuts_iff (s d : Bytes) (c : Int) (nonempty : d ≠ []) :
    ((0 < c → CutAt (NthPlace (OccursBehind s d) d.length · (c.natAbs - 1) 0) s.take s (substringIndex s d c)) ∧
      (c = 0 → substringIndex s d c = []) ∧
      (c < 0 → CutAt (NthPlace (OccursBefore s d) d.length · (c.natAbs - 1) 0) (fun p => s.drop (s.length - p)) s
        (substringIndex s d c))) ↔
    0 ≤ c ∨ d.length = 1 ∨ ∀ p, ¬ NthPlace (OccursBefore s d) d.length p (c.natAbs - 1) 0 := by
  have count (nonzero : c ≠ 0) : c.natAbs - 1 + 1 = c.natAbs := by omega
  have left := @search_left s d nonempty (c.natAbs - 1)
  have right := @search_right s d nonempty (c.natAbs - 1)
  obtain positive | rfl | negative : 0 < c ∨ c = 0 ∨ c < 0 := by omega
  · refine iff_of_true ⟨fun _ => (cutAt_iff left).mpr ?_, by omega, by omega⟩ (.inl (by omega))
    rw [substringIndex, if_pos positive, count (by omega)]
  · exact iff_of_true ⟨by omega, fun _ => rfl, by omega⟩ (.inl (Int.le_refl 0))
  have backwards := @searchBack_eq s d s.length 0 c.natAbs
  rw [count (by omega)] at right
  rw [Nat.sub_zero] at backwards
  rw [and_iff_right (by omega), and_iff_right (by omega), imp_iff_right negative, or_iff_right (by omega),
    cutAt_iff right, substringIndex, if_neg (by omega), if_neg (by omega), backwards]
  cases result : search _ _ _ _ _ _ with
  | none =>
    refine iff_of_true rfl (.inr fun p place => ?_)
    cases result.symm.trans ((right p).mpr place)
  | some j =>
    obtain ⟨x, y, whole, behind⟩ := nthPlace_occurs ((right j).mp result)
    have length := congrArg List.length whole
    rw [length_append, length_append] at length
    show s.drop (s.length - d.length - j + 1) = s.drop (s.length - j) ↔ _
    rw [or_iff_left fun none => none j ((right j).mp result)]
    constructor
    · intro same
      have cut := congrArg List.length same
      rw [length_drop, length_drop] at cut
      have := length_pos_iff.mpr nonempty
      omega
    · intro one
      congr 1
      omega

/-- A separator of two bytes leaves one of them behind. -/
theorem substringIndex_two_bytes :
    ¬CutAt (NthPlace (OccursBefore (ascii "a::b") (ascii "::")) 2 · 0 0) (fun p => (ascii "a::b").drop (4 - p))
    (ascii "a::b")
      (substringIndex (ascii "a::b") (ascii "::") (-1)) := by
  intro cut
  have found := (cutAt_iff (@search_right (ascii "a::b") (ascii "::") (by decide) 0)).mp cut
  exact absurd found (by decide)

theorem substringIndex_cuts_first : CutAt (NthPlace (OccursBehind (ascii "a::b") (ascii "::")) 2 · 0 0)
    (ascii "a::b").take (ascii "a::b") (ascii "a") :=
  ((substringIndex_cuts_iff (ascii "a::b") (ascii "::") 1 (by decide)).mpr (.inl (by decide))).1 (by decide)

end OpenHalo
