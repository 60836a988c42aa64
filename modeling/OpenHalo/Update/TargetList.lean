import OpenHalo.Lib.NoCase

namespace OpenHalo
open Octets List

structure TargetEntry (E : Type) where
  resname : Option Bytes
  expr : E
deriving DecidableEq

variable {E : Type}

def TargetEntry.sameColumn (tle1 tle2 : TargetEntry E) : Bool :=
  match tle1.resname, tle2.resname with
  | some resname1, some resname2 => strcasecmpEq resname1 resname2
  | _, _ => false

/-- The loop over `lc2`. Each match deletes the cell at `lc1`, another one after the first match; cells
behind it move up while `lc2` moves on. -/
def deleteLoop (tle1 : TargetEntry E) (index1 : Nat) :
    Nat → Nat → List (TargetEntry E) → Bool → List (TargetEntry E) × Bool
  | 0, _, targetList, deleted => (targetList, deleted)
  | cells + 1, index2, targetList, deleted =>
    match targetList[index2]? with
    | none => (targetList, deleted)
    | some tle2 =>
      if index1 < index2 && tle1.sameColumn tle2 then
        deleteLoop tle1 index1 cells (index2 + 1) (targetList.eraseIdx index1) true
      else deleteLoop tle1 index1 cells (index2 + 1) targetList deleted

/-- How the loop over `lc1` ends. -/
inductive Pass (E : Type)
  | finish (targetList : List (TargetEntry E))
  | again (targetList : List (TargetEntry E))

/-- The loop over `lc1`. -/
def passLoop (targetListLen : Nat) : Nat → Nat → List (TargetEntry E) → Pass E
  | 0, _, targetList => .again targetList
  | cells + 1, index1, targetList =>
    match targetList[index1]? with
    | none => .again targetList
    | some tle1 =>
      match deleteLoop tle1 index1 targetList.length 0 targetList false with
      | (targetList, true) => .again targetList
      | (targetList, false) =>
        if targetListLen - 1 ≤ index1 + 1 then .finish targetList
        else passLoop targetListLen cells (index1 + 1) targetList

/-- `while (true)`; `none` if it has not ended after `rounds` rounds. -/
def passes : Nat → List (TargetEntry E) → Option (List (TargetEntry E))
  | 0, _ => none
  | rounds + 1, targetList =>
    if targetList.length ≤ 1 then some targetList
    else
      match passLoop targetList.length targetList.length 0 targetList with
      | .finish targetList => some targetList
      | .again targetList => passes rounds targetList

def removeRepeatedColumns (targetList : List (TargetEntry E)) : Option (List (TargetEntry E)) :=
  passes (targetList.length + 1) targetList

/-- Of every column the last assignment, in order; an entry without a name is none. -/
def lastAssignments : List (TargetEntry E) → List (TargetEntry E)
  | [] => []
  | tle :: rest => if rest.any tle.sameColumn then lastAssignments rest else tle :: lastAssignments rest

/-- The matches the loop over `lc2` meets: the entry behind a match is skipped. -/
def strides (tle1 : TargetEntry E) : List (TargetEntry E) → Nat
  | [] => 0
  | [tle2] => if tle1.sameColumn tle2 then 1 else 0
  | tle2 :: next :: rest => if tle1.sameColumn tle2 then strides tle1 rest + 1 else strides tle1 (next :: rest)

/-- What is left behind `skipped` cells: a repeated entry takes as many entries behind it along as
further matches were met. -/
def leftover : Nat → List (TargetEntry E) → List (TargetEntry E)
  | _, [] => []
  | skipped + 1, _ :: rest => leftover skipped rest
  | 0, tle :: rest =>
    if strides tle rest = 0 then tle :: leftover 0 rest else leftover (strides tle rest - 1) rest

/-- Every column of the entries taken along is assigned again behind them. -/
def spares : Nat → List (TargetEntry E) → Bool
  | _, [] => true
  | skipped + 1, _ :: rest => spares skipped rest
  | 0, tle :: rest =>
    ((rest.take (strides tle rest - 1)).all fun gone => (rest.drop (strides tle rest - 1)).any gone.sameColumn) &&
      spares (strides tle rest - 1) rest

def TargetEntry.column (tle : TargetEntry E) : Option Bytes := tle.resname.map folded

theorem TargetEntry.sameColumn_iff (tle1 tle2 : TargetEntry E) :
    tle1.sameColumn tle2 = true ↔ tle1.column ≠ none ∧ tle1.column = tle2.column := by
  unfold sameColumn column
  cases tle1.resname with
  | none => simp
  | some resname1 =>
    cases tle2.resname with
    | none => simp
    | some resname2 => simp [strcasecmpEq_iff]

theorem strides_cons (tle1 tle2 : TargetEntry E) (rest : List (TargetEntry E)) :
    strides tle1 (tle2 :: rest) = if tle1.sameColumn tle2 then strides tle1 (rest.drop 1) + 1
      else strides tle1 rest := by
  cases rest with
  | nil | cons => rfl

theorem strides_eq_zero {tle1 : TargetEntry E} {rest : List (TargetEntry E)} :
    strides tle1 rest = 0 ↔ rest.any tle1.sameColumn = false := by
  induction rest with
  | nil => simp [strides]
  | cons tle2 rest ih =>
    rw [strides_cons, any_cons, Bool.or_eq_false_iff, ← ih]
    cases tle1.sameColumn tle2 <;> simp

section Loops

variable {tle1 : TargetEntry E} {front : List (TargetEntry E)}

/-- Behind `lc1` the loop takes a cell off for each match. -/
theorem deleteLoop_behind (cells index2 : Nat) (rest : List (TargetEntry E)) (deleted : Bool)
    (behind : front.length < index2) (enough : (front ++ rest).length ≤ index2 + cells) :
    deleteLoop tle1 front.length cells index2 (front ++ rest) deleted =
      (front ++ rest.drop (strides tle1 (rest.drop (index2 - front.length))),
        deleted || decide (0 < strides tle1 (rest.drop (index2 - front.length)))) := by
  induction cells generalizing index2 rest deleted with
  | zero =>
    have past : rest.drop (index2 - front.length) = [] := by
      rw [length_append] at enough
      exact drop_eq_nil_of_le (by omega)
    simp [deleteLoop, past, strides]
  | succ cells ih =>
    have position : (front ++ rest)[index2]? = rest[index2 - front.length]? := List.getElem?_append_right behind.le
    rw [deleteLoop, position]
    cases found : rest[index2 - front.length]? with
    | none =>
      have past : rest.drop (index2 - front.length) = [] := drop_eq_nil_of_le (List.getElem?_eq_none_iff.mp found)
      simp [past, strides]
    | some tle2 =>
      obtain ⟨inside, value⟩ := List.getElem?_eq_some_iff.mp found
      have split : rest.drop (index2 - front.length) = tle2 :: rest.drop (index2 + 1 - front.length) := by
        rw [drop_eq_getElem_cons inside]
        congr 2
        omega
      rw [split, strides_cons]
      dsimp only
      by_cases same : tle1.sameColumn tle2 = true
      · obtain ⟨gone, later, rfl⟩ : ∃ gone later, rest = gone :: later := by
          cases rest with
          | nil => cases inside
          | cons gone later => exact ⟨gone, later, rfl⟩
        have erased : (front ++ gone :: later).eraseIdx front.length = front ++ later := by
          rw [eraseIdx_append_of_length_le (Nat.le_refl _), Nat.sub_self, eraseIdx_zero, tail_cons]
        have moved : (List.drop (index2 + 1 - front.length) (gone :: later)).drop 1 =
            later.drop (index2 + 1 - front.length) := by
          rw [drop_drop, drop_succ_cons]
        rw [if_pos (by simp [behind, same]), erased, if_pos same, moved,
          ih (index2 + 1) later true (by omega) (by simp at enough ⊢; omega)]
        simp
      · rw [if_neg (by simp [same]), if_neg same,
          ih (index2 + 1) rest deleted (by omega) (by omega)]

/-- Up to `lc1` nothing is compared. -/
theorem deleteLoop_upTo (ahead cells index2 : Nat) {rest : List (TargetEntry E)} (deleted : Bool) (nonempty : rest ≠ [])
    (upTo : index2 + ahead = front.length + 1) :
    deleteLoop tle1 front.length (ahead + cells) index2 (front ++ rest) deleted =
      deleteLoop tle1 front.length cells (front.length + 1) (front ++ rest) deleted := by
  induction ahead generalizing index2 with
  | zero =>
    rw [Nat.zero_add, ← upTo]
    rfl
  | succ ahead ih =>
    have positive := length_pos_iff.mpr nonempty
    have inside : index2 < (front ++ rest).length := by
      rw [length_append]
      omega
    rw [Nat.add_right_comm, deleteLoop, List.getElem?_eq_getElem inside]
    simp only
    rw [if_neg (by simp; omega), ih (index2 + 1) (by omega)]

/-- The whole loop over `lc2`. -/
theorem deleteLoop_eq (rest : List (TargetEntry E)) :
    deleteLoop tle1 front.length (front ++ tle1 :: rest).length 0 (front ++ tle1 :: rest) false =
      (front ++ (tle1 :: rest).drop (strides tle1 rest), decide (0 < strides tle1 rest)) := by
  have cells : (front ++ tle1 :: rest).length = front.length + 1 + rest.length := by
    rw [length_append, length_cons]
    omega
  rw [cells, deleteLoop_upTo (front.length + 1) rest.length 0 false (cons_ne_nil _ _) (by omega),
    deleteLoop_behind rest.length (front.length + 1) (tle1 :: rest) false (by omega) (by omega)]
  simp

end Loops

theorem leftover_skip (skipped : Nat) (targetList : List (TargetEntry E)) :
    leftover skipped targetList = leftover 0 (targetList.drop skipped) := by
  induction targetList generalizing skipped with
  | nil => rw [drop_nil, leftover, leftover]
  | cons tle rest ih =>
    cases skipped with
    | zero => rfl
    | succ skipped => rw [leftover, drop_succ_cons, ih]

theorem spares_skip (skipped : Nat) (targetList : List (TargetEntry E)) :
    spares skipped targetList = spares 0 (targetList.drop skipped) := by
  induction targetList generalizing skipped with
  | nil => rw [drop_nil, spares, spares]
  | cons tle rest ih =>
    cases skipped with
    | zero => rfl
    | succ skipped => rw [spares, drop_succ_cons, ih]

theorem leftover_cons_of_pos {tle : TargetEntry E} {rest : List (TargetEntry E)} (repeated : strides tle rest ≠ 0) :
    leftover 0 (tle :: rest) = leftover 0 ((tle :: rest).drop (strides tle rest)) := by
  obtain ⟨further, count⟩ := Nat.exists_eq_succ_of_ne_zero repeated
  rw [leftover, if_neg repeated, count, Nat.succ_sub_one, leftover_skip, drop_succ_cons]

theorem leftover_append {front rest : List (TargetEntry E)}
    (settled : ∀ tle ∈ front, ∀ later ∈ rest, tle.sameColumn later = false)
    (distinct : front.Pairwise fun tle later => tle.sameColumn later = false) :
    leftover 0 (front ++ rest) = front ++ leftover 0 rest := by
  induction front with
  | nil => rfl
  | cons tle front ih =>
    obtain ⟨first, others⟩ := pairwise_cons.mp distinct
    have unmatched : strides tle (front ++ rest) = 0 := by
      simp only [strides_eq_zero, any_eq_false, Bool.not_eq_true]
      exact forall_mem_append.mpr ⟨first, settled tle mem_cons_self⟩
    rw [cons_append, leftover, if_pos unmatched, ih (forall_mem_cons.mp settled).2 others,
      cons_append]

theorem leftover_short {targetList : List (TargetEntry E)} (short : targetList.length ≤ 1) :
    leftover 0 targetList = targetList := by
  cases targetList with
  | nil => rfl
  | cons tle rest =>
    have empty : rest = [] := by
      rw [length_cons] at short
      exact length_eq_zero_iff.mp (by omega)
    subst empty
    rfl

theorem passLoop_eq (cells : Nat) (front rest : List (TargetEntry E))
    (settled : ∀ tle ∈ front, ∀ later ∈ rest, tle.sameColumn later = false)
    (distinct : front.Pairwise fun tle later => tle.sameColumn later = false) (nonempty : rest ≠ [])
    (enough : rest.length ≤ cells) :
    (passLoop (front ++ rest).length cells front.length (front ++ rest) = .finish (front ++ rest) ∧
      leftover 0 rest = rest) ∨
      ∃ targetList, passLoop (front ++ rest).length cells front.length (front ++ rest) = .again targetList ∧
        targetList.length < (front ++ rest).length ∧ leftover 0 targetList = front ++ leftover 0 rest := by
  induction rest generalizing front cells with
  | nil => exact absurd rfl nonempty
  | cons tle rest ih =>
    obtain ⟨cells, rfl⟩ : ∃ fewer, cells = fewer + 1 := Nat.exists_eq_succ_of_ne_zero (by simp at enough; omega)
    have here : (front ++ tle :: rest)[front.length]? = some tle := by
      rw [List.getElem?_append_right (Nat.le_refl _), Nat.sub_self]
      rfl
    have round : passLoop (front ++ tle :: rest).length (cells + 1) front.length (front ++ tle :: rest) =
        if 0 < strides tle rest then .again (front ++ (tle :: rest).drop (strides tle rest))
        else if (front ++ tle :: rest).length - 1 ≤ front.length + 1 then .finish (front ++ tle :: rest)
        else passLoop (front ++ tle :: rest).length cells (front.length + 1) (front ++ tle :: rest) := by
      rw [passLoop, here]
      simp only [deleteLoop_eq]
      by_cases repeated : 0 < strides tle rest
      · simp [repeated]
      · have zero : strides tle rest = 0 := by omega
        simp [zero]
    rw [round]
    by_cases repeated : 0 < strides tle rest
    · refine .inr ⟨_, if_pos repeated, ?_, ?_⟩
      · simp only [length_append, length_drop, length_cons]
        omega
      · rw [leftover_cons_of_pos (by omega)]
        exact leftover_append (fun first member later inRest => settled first member later (mem_of_mem_drop inRest))
          distinct
    · have zero : strides tle rest = 0 := by omega
      rw [if_neg repeated]
      by_cases last : (front ++ tle :: rest).length - 1 ≤ front.length + 1
      · refine .inl ⟨if_pos last, ?_⟩
        rw [leftover, if_pos zero, leftover_short]
        simp only [length_append, length_cons] at last
        omega
      · rw [if_neg last]
        have unmatched : ∀ later ∈ rest, tle.sameColumn later = false := by
          have none := strides_eq_zero.mp zero
          rw [any_eq_false] at none
          exact fun later member => Bool.not_eq_true _ ▸ none later member
        have more := ih cells (front ++ [tle]) (fun first member later inRest => ?_) ?_ ?_ ?_
        · have one : (front ++ [tle]).length = front.length + 1 := length_append
          rw [append_assoc, one] at more
          rw [leftover, if_pos zero]
          rcases more with ⟨finished, same⟩ | ⟨targetList, again, shorter, same⟩
          · exact .inl ⟨finished, by rw [same]⟩
          · refine .inr ⟨targetList, again, shorter, ?_⟩
            rw [same, append_assoc, singleton_append]
        · rcases mem_append.mp member with inFront | isTle
          · exact settled first inFront later (mem_cons_of_mem _ inRest)
          · rw [mem_singleton.mp isTle]
            exact unmatched later inRest
        · refine pairwise_append.mpr ⟨distinct, pairwise_singleton _ _, fun first inFront later isTle => ?_⟩
          rw [mem_singleton.mp isTle]
          exact settled first inFront tle mem_cons_self
        · intro empty
          rw [empty] at last
          simp only [length_append, length_cons, length_nil] at last
          omega
        · simp only [length_cons] at enough
          omega

theorem passes_eq (rounds : Nat) (targetList : List (TargetEntry E)) (enough : targetList.length < rounds) :
    passes rounds targetList = some (leftover 0 targetList) := by
  induction rounds generalizing targetList with
  | zero => cases enough
  | succ rounds ih =>
    rw [passes]
    by_cases short : targetList.length ≤ 1
    · rw [if_pos short, leftover_short short]
    rw [if_neg short]
    have nonempty : targetList ≠ [] := fun empty => short (by rw [empty]; exact Nat.zero_le 1)
    have round :=
      passLoop_eq targetList.length [] targetList (fun _ none => by cases none) .nil nonempty (Nat.le_refl _)
    rw [nil_append] at round
    rcases round with ⟨finished, same⟩ | ⟨next, again, shorter, same⟩
    · rw [length_nil] at finished
      rw [finished, same]
    rw [length_nil] at again
    rw [again]
    simp only
    rw [ih next (by omega), same, nil_append]

variable {gone rest : List (TargetEntry E)} (targetList : List (TargetEntry E))

theorem removeRepeatedColumns_eq : removeRepeatedColumns targetList = some (leftover 0 targetList) :=
  passes_eq _ _ (Nat.lt_succ_self _)

theorem leftover_sublist (skipped : Nat) : (leftover skipped targetList).Sublist targetList := by
  induction targetList generalizing skipped with
  | nil =>
    rw [leftover]
  | cons tle rest ih =>
    cases skipped with
    | succ skipped => exact (ih skipped).cons tle
    | zero =>
      rw [leftover]
      split
      · exact (ih 0).cons_cons tle
      · exact (ih _).cons tle

theorem lastAssignments_covers {targetList : List (TargetEntry E)} {column : Bytes}
    (assigned : ∃ tle ∈ targetList, tle.column = some column) : ∃ kept ∈ lastAssignments targetList,
    kept.column = some column := by
  induction targetList with
  | nil =>
    obtain ⟨_, none, _⟩ := assigned
    cases none
  | cons tle rest ih =>
    obtain ⟨first, member, named⟩ := assigned
    rw [lastAssignments]
    split
    next again =>
      apply ih
      rcases mem_cons.mp member with isFirst | inRest
      · obtain ⟨later, inside, same⟩ := any_eq_true.mp again
        exact ⟨later, inside, by rw [← ((tle.sameColumn_iff later).mp same).2, ← isFirst, named]⟩
      · exact ⟨first, inRest, named⟩
    next =>
      rcases mem_cons.mp member with isFirst | inRest
      · exact ⟨tle, mem_cons_self, isFirst ▸ named⟩
      · obtain ⟨kept, inside, same⟩ := ih ⟨first, inRest, named⟩
        exact ⟨kept, mem_cons_of_mem _ inside, same⟩

theorem lastAssignments_unnamed :
    (lastAssignments targetList).countP (·.column.isNone) = targetList.countP (·.column.isNone) := by
  induction targetList with
  | nil => rfl
  | cons tle rest ih =>
    rw [lastAssignments]
    split
    next again =>
      obtain ⟨later, _, same⟩ := any_eq_true.mp again
      have named : ¬ tle.column.isNone = true := fun none =>
        ((tle.sameColumn_iff later).mp same).1 (Option.isNone_iff_eq_none.mp none)
      rw [countP_cons, if_neg named, ih, Nat.add_zero]
    next => rw [countP_cons, countP_cons, ih]

theorem lastAssignments_append (again : ∀ tle ∈ gone, rest.any tle.sameColumn = true) :
    lastAssignments (gone ++ rest) = lastAssignments rest := by
  induction gone with
  | nil => rfl
  | cons tle gone ih =>
    have later : (gone ++ rest).any tle.sameColumn = true := by
      rw [any_append, again tle mem_cons_self, Bool.or_true]
    rw [cons_append, lastAssignments, if_pos later, ih (forall_mem_cons.mp again).2]

theorem leftover_ne {tle : TargetEntry E} (member : tle ∈ gone) (lost : rest.any tle.sameColumn = false) :
    leftover 0 rest ≠ lastAssignments (gone ++ rest) := by
  intro same
  have sublist := leftover_sublist rest 0
  rw [same] at sublist
  cases named : tle.column with
  | some column =>
    obtain ⟨kept, inside, column'⟩ := lastAssignments_covers ⟨tle, mem_append_left rest member, named⟩
    rw [any_eq_false] at lost
    refine lost kept (sublist.subset inside) ((tle.sameColumn_iff kept).mpr ⟨?_, named.trans column'.symm⟩)
    rw [named]
    exact Option.some_ne_none column
  | none =>
    have fewer := sublist.countP_le (p := fun other => other.column.isNone)
    have some : 0 < gone.countP (·.column.isNone) := countP_pos_iff.mpr ⟨tle, member, by rw [named]; rfl⟩
    rw [lastAssignments_unnamed, countP_append] at fewer
    omega

theorem leftover_eq_iff : leftover 0 targetList = lastAssignments targetList ↔ spares 0 targetList = true := by
  generalize length : targetList.length = n
  induction n using Nat.strong_induction_on generalizing targetList with
  | h n ih =>
    cases targetList with
    | nil => exact ⟨fun _ => rfl, fun _ => rfl⟩
    | cons tle rest =>
      rw [length_cons] at length
      by_cases last : strides tle rest = 0
      · have none := strides_eq_zero.mp last
        rw [leftover, if_pos last, lastAssignments, if_neg (by simp [none]), spares, last]
        simp only [List.cons.injEq, true_and]
        exact ih rest.length (by omega) rest rfl
      · have again : rest.any tle.sameColumn = true := by
          rw [← Bool.not_eq_false]
          exact fun none => last (strides_eq_zero.mpr none)
        have split := take_append_drop (strides tle rest - 1) rest
        rw [leftover, if_neg last, lastAssignments, if_pos again, spares, leftover_skip, spares_skip]
        have next := ih _ (by rw [length_drop]; omega) (rest.drop (strides tle rest - 1)) rfl
        generalize rest.take (strides tle rest - 1) = gone at split ⊢
        generalize rest.drop (strides tle rest - 1) = kept at split next ⊢
        rw [← split]
        by_cases all : (gone.all fun other => kept.any other.sameColumn) = true
        · rw [all, Bool.true_and, lastAssignments_append (all_eq_true.mp all)]
          exact next
        rw [Bool.eq_false_iff.mpr all]
        rw [Bool.not_eq_true, all_eq_false] at all
        obtain ⟨other, member, lost⟩ := all
        exact ⟨fun same => absurd same (leftover_ne member (Bool.eq_false_iff.mpr lost)), fun never => by cases never⟩

/-- The last assignments are left exactly if a column assigned thrice takes no other one along. -/
theorem last_assignments_kept_iff (targetList : List (TargetEntry E)) :
    removeRepeatedColumns targetList = some (lastAssignments targetList) ↔ spares 0 targetList = true := by
  rw [removeRepeatedColumns_eq, Option.some.injEq, leftover_eq_iff]

/-- `SET a = 1, b = 2, a = 3, c = 4, a = 5`. -/
def assignedThrice : List (TargetEntry Nat) :=
  [⟨some (ascii "a"), 1⟩, ⟨some (ascii "b"), 2⟩, ⟨some (ascii "a"), 3⟩, ⟨some (ascii "c"), 4⟩, ⟨some (ascii "a"), 5⟩]

/-- The assignment to `b` is deleted. -/
theorem last_assignments_lose_column :
    removeRepeatedColumns assignedThrice = some [⟨some (ascii "c"), 4⟩, ⟨some (ascii "a"), 5⟩] ∧
      lastAssignments assignedThrice = [⟨some (ascii "b"), 2⟩, ⟨some (ascii "c"), 4⟩, ⟨some (ascii "a"), 5⟩] := by
  decide

end OpenHalo
