import HeartbeatSpec.Base.Runs

/-!
# Reaching a goal

Library `Base`. Where every state short of a goal has a step that lowers a rank, some sequence
of labels leads to the goal. Where every step is one of a kind or lowers a rank, a run that is
longer than the rank has a step of the kind. The invariant says which states the steps stay in.
-/

namespace HeartbeatSpec.Base

universe u v

variable {σ : Type u} {ℓ : Type v} {step : σ → ℓ → Option σ} {s t : σ}

/-- The goal can be reached along steps that keep an invariant and lower a rank. -/
theorem exec_of_rank {I F : σ → Prop} (rank : σ → Nat)
    (hstep : ∀ s, I s → ¬F s → ∃ l t, step s l = some t ∧ I t ∧ rank t < rank s)
    (hI : I s) : ∃ ls t, exec step s ls = some t ∧ I t ∧ F t := by
  induction hrank : rank s using Nat.strongRecOn generalizing s with
  | ind n ih =>
    by_cases hF : F s
    · exact ⟨[], s, rfl, hI, hF⟩
    · obtain ⟨l, t, hst, hIt, hlt⟩ := hstep s hI hF
      obtain ⟨ls, u, hex, hIu, hFu⟩ := ih (rank t) (hrank ▸ hlt) hIt rfl
      refine ⟨l :: ls, u, ?_, hIu, hFu⟩
      rw [exec, hst]
      exact hex

/-- A run in which every step has property `P` or lowers a rank has a step with the property, once
it is longer than the rank at its start. -/
theorem Runs.exists_of_rank {I : σ → Prop} {C P : σ → ℓ → σ → Prop} (rank : σ → Nat)
    (hstep : ∀ s l t, I s → step s l = some t → C s l t → P s l t ∨ I t ∧ rank t < rank s)
    {tr : List (Transition σ ℓ)} (h : Runs step s tr t) (hI : I s)
    (hC : ∀ e ∈ tr, C e.source e.label e.target) (hlength : rank s < tr.length) :
    ∃ e ∈ tr, P e.source e.label e.target := by
  have hall : (∃ e ∈ tr, P e.source e.label e.target) ∨ I t ∧ rank t + tr.length ≤ rank s := by
    clear hlength
    induction h with
    | nil => exact Or.inr ⟨hI, Nat.le_refl _⟩
    | snoc h hs ih =>
      rcases ih fun e he ↦ hC e (List.mem_append_left _ he) with ⟨e, he, hP⟩ | ⟨hIt, hrank⟩
      · exact Or.inl ⟨e, List.mem_append_left _ he, hP⟩
      · rcases hstep _ _ _ hIt hs (hC ⟨_, _, _⟩ (by simp)) with hP | ⟨hIu, hlt⟩
        · exact Or.inl ⟨_, List.mem_append_right _ (List.mem_singleton_self _), hP⟩
        · right
          rw [List.length_append, List.length_singleton]
          exact ⟨hIu, by omega⟩
  rcases hall with hP | ⟨-, hrank⟩
  · exact hP
  · omega

end HeartbeatSpec.Base
