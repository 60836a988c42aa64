import Mathlib.Data.List.Basic

namespace Machine

universe u v w
variable {σ : Type u} {ι : Type v} {ο : Type w} {step : σ → ι → σ × ο}

/-- The state a deterministic machine reaches on a finite list of inputs. -/
def exec (step : σ → ι → σ × ο) : σ → List ι → σ
  | s, [] => s
  | s, i :: is => exec step (step s i).1 is

/-- What it puts out on the way. -/
def outputs (step : σ → ι → σ × ο) : σ → List ι → List ο
  | _, [] => []
  | s, i :: is => (step s i).2 :: outputs step (step s i).1 is

/-- Every step of the run satisfies `good`, read at the state the earlier
steps left. -/
def Along (step : σ → ι → σ × ο) (good : σ → ι → Prop) : σ → List ι → Prop
  | _, [] => True
  | s, i :: is => good s i ∧ Along step good (step s i).1 is

instance Along.decidable (good : σ → ι → Prop) [∀ s i, Decidable (good s i)] : ∀ s is, Decidable (Along step good s is)
  | _, [] => inferInstanceAs (Decidable True)
  | s, i :: is => @instDecidableAnd _ _ _ (Along.decidable good (step s i).1 is)

theorem exec_invariant {inv : σ → Prop} (keep : ∀ s i, inv s → inv (step s i).1) (is : List ι) {s : σ}
    (start : inv s) : inv (exec step s is) := by
  induction is generalizing s with
  | nil => exact start
  | cons i is ih => exact ih (keep s i start)

/-- The invariant rule: what a good step preserves holds at the end of a good run. -/
theorem Along.invariant {good : σ → ι → Prop} {inv : σ → Prop}
    (keep : ∀ s i, inv s → good s i → inv (step s i).1) {s : σ} {is : List ι}
    (run : Along step good s is) (start : inv s) : inv (exec step s is) := by
  induction is generalizing s with
  | nil => exact start
  | cons i is ih => exact ih run.2 (keep s i start run.1)

theorem Along.of_invariant {good proper : σ → ι → Prop} {inv : σ → Prop}
    (keep : ∀ s i, inv s → good s i → proper s i ∧ inv (step s i).1) {s : σ} {is : List ι}
    (run : Along step good s is) (start : inv s) : Along step proper s is := by
  induction is generalizing s with
  | nil => trivial
  | cons i is ih =>
    obtain ⟨answered, kept⟩ := keep s i start run.1
    exact ⟨answered, ih run.2 kept⟩

end Machine
