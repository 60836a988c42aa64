import Mathlib.Data.List.Basic
import Mathlib.Tactic.Common

/-- A comparison function of a C library: its signs come from a total preorder. -/
structure ThreeWay {α : Type} (cmp : α → α → Int) : Prop where
  swap : ∀ a b, cmp a b < 0 ↔ 0 < cmp b a
  trans : ∀ a b c, cmp a b ≤ 0 → cmp b c ≤ 0 → cmp a c ≤ 0

namespace ThreeWay
open List

variable {α β : Type} {cmp other : α → α → Int}

theorem le_iff (order : ThreeWay cmp) (a b : α) : cmp a b ≤ 0 ↔ 0 ≤ cmp b a := by
  have swapped := order.swap b a
  omega

theorem zero_iff (order : ThreeWay cmp) (a b : α) : cmp a b = 0 ↔ cmp b a = 0 := by
  have one := order.le_iff a b
  have two := order.le_iff b a
  omega

theorem lt_of_le_of_lt (order : ThreeWay cmp) {a b c : α} (first : cmp a b ≤ 0) (second : cmp b c < 0) :
    cmp a c < 0 := by
  by_contra after
  have back := (order.le_iff c a).mpr (by omega)
  have cycle := (order.le_iff c b).mp (order.trans c a b back first)
  omega

theorem lt_of_lt_of_le (order : ThreeWay cmp) {a b c : α} (first : cmp a b < 0) (second : cmp b c ≤ 0) :
    cmp a c < 0 := by
  by_contra after
  have back := (order.le_iff c a).mpr (by omega)
  have cycle := (order.le_iff b a).mp (order.trans b c a second back)
  omega

theorem comap (order : ThreeWay cmp) (f : β → α) : ThreeWay fun a b => cmp (f a) (f b) :=
  ⟨fun a b => order.swap (f a) (f b), fun a b c => order.trans (f a) (f b) (f c)⟩

theorem of_signs (order : ThreeWay cmp) (below : ∀ a b, other a b < 0 ↔ cmp a b < 0)
    (above : ∀ a b, 0 < other a b ↔ 0 < cmp a b) : ThreeWay other := by
  refine ⟨fun a b => ?_, fun a b c first second => ?_⟩
  · rw [below, above]
    exact order.swap a b
  · have first' : cmp a b ≤ 0 := by
      have sign := above a b
      omega
    have second' : cmp b c ≤ 0 := by
      have sign := above b c
      omega
    have both := order.trans a b c first' second'
    have sign := above a c
    omega

/-- A second comparison decides where the first finds no difference. -/
def tieBreak (first second : α → α → Int) (a b : α) : Int :=
  if first a b = 0 then second a b else first a b

theorem tieBreak_order (first : ThreeWay cmp) (second : ThreeWay other) : ThreeWay (tieBreak cmp other) := by
  refine ⟨fun a b => ?_, fun a b c before after => ?_⟩
  · have same := first.zero_iff a b
    have swapped := first.swap a b
    have swapped' := second.swap a b
    unfold tieBreak
    split <;> split <;> omega
  · have ab : cmp a b ≤ 0 := by
      unfold tieBreak at before
      split at before <;> omega
    have bc : cmp b c ≤ 0 := by
      unfold tieBreak at after
      split at after <;> omega
    have ac := first.trans a b c ab bc
    unfold tieBreak at before after ⊢
    split
    · have left : cmp a b = 0 := by
        by_contra differ
        have strict : cmp a b < 0 := by omega
        have whole := first.lt_of_lt_of_le strict bc
        omega
      have right : cmp b c = 0 := by
        by_contra differ
        have strict : cmp b c < 0 := by omega
        have whole := first.lt_of_le_of_lt ab strict
        omega
      rw [if_pos left] at before
      rw [if_pos right] at after
      exact second.trans a b c before after
    · exact ac

/-- In a sorted list the elements equal to a key stand together behind the smaller ones. -/
theorem search_eq_filter (order : ThreeWay cmp) (key : α) {rows : List α}
    (sorted : rows.Pairwise fun a b => cmp a b ≤ 0) :
    (rows.dropWhile fun row => cmp row key < 0).takeWhile (fun row => cmp row key = 0) =
      rows.filter fun row => cmp row key = 0 := by
  induction rows with
  | nil => rfl
  | cons row rows ih =>
    obtain ⟨first, rest⟩ := pairwise_cons.mp sorted
    rcases Int.lt_trichotomy (cmp row key) 0 with smaller | equal | larger
    · rw [dropWhile_cons_of_pos (by simpa using smaller), ih rest, filter_cons_of_neg (by simp; omega)]
    · rw [dropWhile_cons_of_neg (by simp; omega), takeWhile_cons_of_pos (by simpa using equal),
        filter_cons_of_pos (by simpa using equal), ← ih rest]
      -- none of the later rows is smaller than the key
      have none : ∀ later ∈ rows, ¬ cmp later key < 0 := by
        intro later member below
        have reached := order.lt_of_le_of_lt (first later member) below
        omega
      cases rows with
      | nil => rfl
      | cons next rows =>
        rw [dropWhile_cons_of_neg]
        simpa using none next mem_cons_self
    · have none : ∀ later ∈ row :: rows, ¬ cmp later key = 0 := by
        intro later member equal
        rcases mem_cons.mp member with same | member
        · rw [same] at equal
          omega
        · have reached := order.trans row later key (first later member) (by omega)
          omega
      rw [dropWhile_cons_of_neg (by simp; omega), takeWhile_cons_of_neg (by simp; omega)]
      exact (filter_eq_nil_iff.mpr fun later member => by simpa using none later member).symm

end ThreeWay
