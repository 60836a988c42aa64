import Mathlib.Tactic.Common

namespace Process

universe u
variable {ε σ α β : Type u} {x : EStateM ε σ α} {f : α → EStateM ε σ β} {s s' : σ}

theorem bind_ok {a : α} (returned : x s = .ok a s') : (x >>= f) s = f a s' := by
  simp only [bind, EStateM.bind, returned]

theorem bind_error {e : ε} (raised : x s = .error e s') : (x >>= f) s = .error e s' := by
  simp only [bind, EStateM.bind, raised]

theorem get_bind {ε σ β : Type} (f : σ → EStateM ε σ β) (s : σ) : (get >>= f) s = f s s := rfl

theorem modify_bind {ε σ β : Type} (g : σ → σ) (f : PUnit → EStateM ε σ β) (s : σ) : (modify g >>= f) s = f ⟨⟩ (g s) :=
  rfl

/-- The first program raises, or the second one runs in the state that the first one left. -/
theorem bind_cases (x : EStateM ε σ α) (f : α → EStateM ε σ β) (s : σ) :
    (∃ e s', x s = .error e s' ∧ (x >>= f) s = .error e s') ∨ ∃ a s', x s = .ok a s' ∧ (x >>= f) s = f a s' := by
  cases result : x s with
  | ok a s' => exact .inr ⟨a, s', rfl, bind_ok result⟩
  | error e s' => exact .inl ⟨e, s', rfl, bind_error result⟩

theorem bind_eq_ok {b : β} {t : σ} (returned : (x >>= f) s = .ok b t) : ∃ a s', x s = .ok a s' ∧ f a s' = .ok b t := by
  rcases bind_cases x f s with ⟨e, s', _, result⟩ | ⟨a, s', first, result⟩
  · rw [result] at returned
    cases returned
  · exact ⟨a, s', first, result.symm.trans returned⟩

/-- The state that a program leaves, whichever way it ends. -/
def left : EStateM.Result ε σ α → σ
  | .ok _ s => s
  | .error _ s => s

/-- A property of the state that a program keeps. -/
def Keeps (inv : σ → Prop) (x : EStateM ε σ α) : Prop := ∀ s, inv s → inv (left (x s))

section Keeps

variable {inv : σ → Prop}

theorem Keeps.ok {a : α} (keeps : Keeps inv x) (holds : inv s) (returned : x s = .ok a s') : inv s' := by
  have kept := keeps s holds
  rwa [returned] at kept

theorem Keeps.error {e : ε} (keeps : Keeps inv x) (holds : inv s) (raised : x s = .error e s') : inv s' := by
  have kept := keeps s holds
  rwa [raised] at kept

theorem Keeps.bind (first : Keeps inv x) (second : ∀ a, Keeps inv (f a)) : Keeps inv (x >>= f) := by
  intro s holds
  rcases bind_cases x f s with ⟨e, s', raised, result⟩ | ⟨a, s', returned, result⟩
  · rw [result]
    exact first.error holds raised
  · rw [result]
    exact second a s' (first.ok holds returned)

theorem Keeps.pure (a : α) : Keeps inv (pure a : EStateM ε σ α) := fun _ holds => holds

theorem Keeps.throw (e : ε) : Keeps inv (throw e : EStateM ε σ α) := fun _ holds => holds

end Keeps

theorem Keeps.get {ε σ : Type} {inv : σ → Prop} : Keeps inv (get : EStateM ε σ σ) := fun _ holds => holds

theorem Keeps.modify {ε σ : Type} {inv : σ → Prop} {g : σ → σ} (keeps : ∀ s, inv s → inv (g s)) :
    Keeps inv (modify g : EStateM ε σ PUnit) := keeps

end Process
