import Mathlib.Data.List.Forall2

namespace UpdateFrom
open List

variable {R S : Type}

/-- What may happen to a target row. -/
inductive Outcome (selects : R → S → Prop) (assign : R → S → R) (sources : List S) (r : R) : Option R → Prop
  | kept : (∀ s ∈ sources, ¬ selects r s) → Outcome selects assign sources r none
  | updated (s : S) : s ∈ sources → selects r s → Outcome selects assign sources r (some (assign r s))

/-- A run over the target: the new row, where there is one. -/
abbrev Executes (selects : R → S → Prop) (assign : R → S → R) (rows : List R) (sources : List S)
    (result : List (Option R)) : Prop :=
  List.Forall₂ (Outcome selects assign sources) rows result

section One

variable {selects : R → S → Prop} {assign : R → S → R} {rows : List R} {sources : List S} {result : List (Option R)}

theorem Outcome.isSome_iff {r : R} {new : Option R} (outcome : Outcome selects assign sources r new) :
    new.isSome = true ↔ ∃ s ∈ sources, selects r s := by
  cases outcome with
  | kept none => exact ⟨fun some => Bool.noConfusion some, fun ⟨s, member, selected⟩ => absurd selected (none s member)⟩
  | updated s member selected => exact ⟨fun _ => ⟨s, member, selected⟩, fun _ => rfl⟩

theorem Executes.changed (run : Executes selects assign rows sources result) :
    List.Forall₂ (fun r (b : Bool) => b = true ↔ ∃ s ∈ sources, selects r s) rows (result.map Option.isSome) :=
  forall₂_map_right_iff.mpr (run.imp fun _ _ outcome => outcome.isSome_iff)

/-- What RETURNING gives. -/
def returned (result : List (Option R)) : List R := result.filterMap id

theorem Executes.of_returned (run : Executes selects assign rows sources result) {new : R}
    (member : new ∈ returned result) :
    ∃ r ∈ rows, ∃ s ∈ sources, selects r s ∧ new = assign r s := by
  induction run with
  | nil => cases member
  | @cons r outcome rows result first rest ih =>
    have later : new ∈ returned result → ∃ r' ∈ r :: rows, ∃ s ∈ sources, selects r' s ∧ new = assign r' s := by
      intro member
      obtain ⟨r', inside, found⟩ := ih member
      exact ⟨r', mem_cons_of_mem r inside, found⟩
    cases first with
    | kept none => exact later member
    | updated s inside selected =>
      rcases mem_cons.mp member with same | member
      · exact ⟨r, mem_cons_self, s, inside, selected, same⟩
      · exact later member

theorem Executes.to_returned (run : Executes selects assign rows sources result) {r : R} {s : S} (row : r ∈ rows)
    (source : s ∈ sources) (selected : selects r s) :
    ∃ s' ∈ sources, selects r s' ∧ assign r s' ∈ returned result := by
  induction run with
  | nil => cases row
  | @cons first outcome rows result fate rest ih =>
    rcases mem_cons.mp row with same | later
    · subst same
      cases fate with
      | kept none => exact absurd selected (none s source)
      | updated s' inside chosen => exact ⟨s', inside, chosen, mem_cons_self⟩
    · obtain ⟨s', inside, chosen, member⟩ := ih later
      refine ⟨s', inside, chosen, ?_⟩
      cases outcome with
      | none => exact member
      | some new => exact mem_cons_of_mem new member

open Classical in
theorem Executes.exists (selects : R → S → Prop) (assign : R → S → R) (rows : List R) (sources : List S) :
    ∃ result, Executes selects assign rows sources result := by
  induction rows with
  | nil => exact ⟨[], .nil⟩
  | cons r rows ih =>
    obtain ⟨result, run⟩ := ih
    by_cases found : ∃ s ∈ sources, selects r s
    · obtain ⟨s, member, selected⟩ := found
      exact ⟨_, .cons (.updated s member selected) run⟩
    · exact ⟨_, .cons (.kept fun s member selected => found ⟨s, member, selected⟩) run⟩

end One

variable (paired on : R → S → Prop) (new : R → S → R) (assign : S → R → S)

/-- Exactly the rows of some pair are updated, in both tables. -/
def Exact (rows : List R) (sources : List S) (left right : List Bool) : Prop :=
  List.Forall₂ (fun r (b : Bool) => b = true ↔ ∃ s ∈ sources, paired r s) rows left ∧
    List.Forall₂ (fun s (b : Bool) => b = true ↔ ∃ r ∈ rows, paired r s) sources right

/-- A run of both updates. -/
inductive TwoStage (rows : List R) (sources : List S) : List Bool → List Bool → Prop
  | run {result : List (Option R)} {result' : List (Option S)} : Executes paired new rows sources result →
      Executes (fun s r => on r s) assign sources (returned result) result' →
      TwoStage rows sources (result.map Option.isSome) (result'.map Option.isSome)

/-- The updates are exact if and only if a new row joins exactly what its old row was paired with. -/
theorem twoStage_exact_iff :
    (∀ rows sources left right, TwoStage paired on new assign rows sources left right →
      Exact paired rows sources left right) ↔ ∀ r s s', paired r s → (on (new r s) s' ↔ paired r s') := by
  constructor
  · intro exact' r s s' pair
    -- the first row is updated with `s`, and `s'` is a second row of the other table
    have first : Executes paired new [r] [s, s'] [some (new r s)] :=
      .cons (.updated s mem_cons_self pair) .nil
    obtain ⟨result, second⟩ := Executes.exists (fun s r => on r s) assign [s, s'] (returned [some (new r s)])
    obtain ⟨_, right⟩ := exact' _ _ _ _ (.run first second)
    have changed := second.changed
    generalize result.map Option.isSome = flags at right changed
    cases right with
    | cons _ right =>
      cases right with
      | cons wanted _ =>
        cases changed with
        | cons _ changed =>
          cases changed with
          | cons happened _ =>
            have both := happened.symm.trans wanted
            simpa [returned] using both
  · rintro kept rows sources _ _ ⟨first, second⟩
    have inside := (forall₂_and_left sources _).mpr ⟨fun s member => member, second.changed⟩
    refine ⟨first.changed, inside.imp ?_⟩
    rintro s b ⟨source, happened⟩
    refine happened.trans ?_
    constructor
    · rintro ⟨row, member, joined⟩
      obtain ⟨r, old, s', _, pair, made⟩ := first.of_returned member
      rw [made] at joined
      exact ⟨r, old, (kept r s' s pair).mp joined⟩
    · rintro ⟨r, row, pair⟩
      obtain ⟨s', _, pair', member⟩ := first.to_returned row source pair
      exact ⟨_, member, (kept r s' s pair').mpr pair⟩

end UpdateFrom
