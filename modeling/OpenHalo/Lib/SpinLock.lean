import Mathlib.Logic.Function.Basic
import Mathlib.Data.List.Nodup

namespace SpinLock
open Function

variable {ι α : Type} {mutex : Option Bool} {holds : ι → Bool} {p : ι}

/-- At most one process is in the critical section, and then the lock is held. -/
structure Exclusive (mutex : Option Bool) (holds : ι → Bool) : Prop where
  held : ∀ p, holds p = true → mutex = some true
  alone : ∀ p q, holds p = true → holds q = true → p = q

theorem Exclusive.nobody (free : ∀ p, holds p = false) (mutex : Option Bool) : Exclusive mutex holds := by
  constructor
  · intro p inside
    rw [free p] at inside
    cases inside
  · intro p _ inside
    rw [free p] at inside
    cases inside

theorem Exclusive.free (exclusive : Exclusive mutex holds) (free : mutex ≠ some true) (p : ι) : holds p = false := by
  rw [← Bool.not_eq_true]
  exact fun inside => free (exclusive.held p inside)

variable [DecidableEq ι]

/-- A process that stands elsewhere is another one, and it has not moved. -/
theorem of_update {β : Type} {f : ι → β} {x y : β} {q : ι} (stands : update f p x q = y) (apart : x ≠ y) :
    q ≠ p ∧ f q = y := by
  by_cases same : q = p
  · rw [same, update_self] at stands
    exact absurd stands apart
  · rw [update_of_ne same] at stands
    exact ⟨same, stands⟩

theorem Exclusive.stay (exclusive : Exclusive mutex holds) {inside : Bool} (same : holds p = inside) :
    Exclusive mutex (update holds p inside) := by
  rw [← same, update_eq_self]
  exact exclusive

theorem Exclusive.outside (exclusive : Exclusive mutex holds) (free : mutex ≠ some true) (mutex' : Option Bool) :
    Exclusive mutex' (update holds p false) := by
  rw [update_eq_self_iff.mpr (exclusive.free free p).symm]
  exact .nobody (exclusive.free free) mutex'

theorem Exclusive.acquire (exclusive : Exclusive (some false) holds) : Exclusive (some true) (update holds p true) := by
  have free := exclusive.free (by decide)
  have only (q : ι) (inside : update holds p true q = true) : q = p := by
    by_contra other
    rw [update_of_ne other, free q] at inside
    cases inside
  exact ⟨fun _ _ => rfl, fun q q' inside inside' => (only q inside).trans (only q' inside').symm⟩

theorem Exclusive.release (exclusive : Exclusive mutex holds) (inside : holds p = true) (mutex' : Option Bool) :
    Exclusive mutex' (update holds p false) := by
  refine .nobody (fun q => ?_) mutex'
  by_cases same : q = p
  · rw [same, update_self]
  · rw [update_of_ne same, ← Bool.not_eq_true]
    exact fun also => same (exclusive.alone q p also inside)

variable {held : ι → Option α} {returned : List α} {a : α}

/-- The value is in the hands of a process or was returned. -/
def Taken (held : ι → Option α) (returned : List α) (a : α) : Prop := a ∈ returned ∨ ∃ p, held p = some a

/-- No value is taken twice. -/
structure Tickets (held : ι → Option α) (returned : List α) : Prop where
  distinct : returned.Nodup
  kept : ∀ p a, held p = some a → a ∉ returned
  apart : ∀ p q a, held p = some a → held q = some a → p = q

theorem Taken.of_issue {new : α} (taken : Taken (update held p (some new)) returned a) :
    Taken held returned a ∨ a = new := by
  rcases taken with given | ⟨q, has⟩
  · exact .inl (.inl given)
  by_cases isNew : new = a
  · exact .inr isNew.symm
  · exact .inl (.inr ⟨q, (of_update has (by simpa using isNew)).2⟩)

theorem Taken.of_hand {new : α} (has : held p = some new) (taken : Taken (update held p none) (new :: returned) a) :
    Taken held returned a := by
  rcases taken with given | ⟨q, still⟩
  · rcases List.mem_cons.mp given with last | given
    · exact .inr ⟨p, last ▸ has⟩
    · exact .inl given
  · exact .inr ⟨q, (of_update still (by simp)).2⟩

theorem Tickets.issue (tickets : Tickets held returned) {new : α} (fresh : ¬ Taken held returned new) :
    Tickets (update held p (some new)) returned := by
  have other {q : ι} (has : update held p (some new) q = some new) : q = p := by
    by_contra different
    rw [update_of_ne different] at has
    exact fresh (.inr ⟨q, has⟩)
  refine ⟨tickets.distinct, fun q a has => ?_, fun q q' a has has' => ?_⟩
  · by_cases same : q = p
    · rw [same, update_self] at has
      cases has
      exact fun given => fresh (.inl given)
    · rw [update_of_ne same] at has
      exact tickets.kept q a has
  · by_cases isNew : some new = some a
    · cases isNew
      exact (other has).trans (other has').symm
    · exact tickets.apart q q' a (of_update has isNew).2 (of_update has' isNew).2

theorem Tickets.hand (tickets : Tickets held returned) {new : α} (has : held p = some new) :
    Tickets (update held p none) (new :: returned) := by
  refine ⟨List.nodup_cons.mpr ⟨tickets.kept p new has, tickets.distinct⟩, fun q a still => ?_,
    fun q q' a still still' => ?_⟩
  · obtain ⟨different, before⟩ := of_update still (by simp)
    rw [List.mem_cons, not_or]
    refine ⟨fun same => different (tickets.apart q p new ?_ has), tickets.kept q a before⟩
    rw [← same]
    exact before
  · exact tickets.apart q q' a (of_update still (by simp)).2 (of_update still' (by simp)).2

end SpinLock
