import Mathlib.Data.List.Induction

/-!
# Runs of labelled partial transitions

Library `Base`. A system is a partial step function; its labels carry every choice the
environment makes. A run is recorded as the list of its transitions, so that a property of
runs is a property of the transitions in it.
-/

namespace HeartbeatSpec.Base

universe u v

variable {σ : Type u} {ℓ : Type v}

/-- One transition of a run. -/
structure Transition (σ : Type u) (ℓ : Type v) where
  source : σ
  label : ℓ
  target : σ

/-- The transitions lead from `s` to the last state, one step after another. -/
inductive Runs (step : σ → ℓ → Option σ) (s : σ) : List (Transition σ ℓ) → σ → Prop where
  | nil : Runs step s [] s
  | snoc {t u : σ} {l : ℓ} {tr : List (Transition σ ℓ)} (h : Runs step s tr t)
      (hstep : step t l = some u) : Runs step s (tr ++ [⟨t, l, u⟩]) u

/-- A place in a list with one member more is the last one, or is a place in the list. -/
theorem snoc_eq_append_cons {α : Type u} {xs pre post : List α} {x y : α}
    (h : xs ++ [x] = pre ++ y :: post) :
    y = x ∧ post = [] ∨ ∃ rest, post = rest ++ [x] ∧ xs = pre ++ y :: rest := by
  induction post using List.reverseRecOn with
  | nil =>
    left
    have hlast := List.append_inj_right' h rfl
    exact ⟨(List.singleton_inj.mp hlast).symm, rfl⟩
  | append_singleton rest z _ =>
    right
    rw [← List.cons_append, ← List.append_assoc] at h
    have hlast := List.singleton_inj.mp (List.append_inj_right' h rfl)
    exact ⟨rest, by rw [hlast], List.append_inj_left' h rfl⟩

namespace Runs

variable {step : σ → ℓ → Option σ} {s t : σ} {tr : List (Transition σ ℓ)}

/-- The run rule: if under condition `C` every step keeps `I` and has property `P`, then in
a run whose steps all meet `C` every step has property `P`. -/
theorem rule {I : σ → Prop} {C P : σ → ℓ → σ → Prop}
    (hstep : ∀ s l t, I s → step s l = some t → C s l t → I t ∧ P s l t)
    (h : Runs step s tr t) (hI : I s) (hC : ∀ e ∈ tr, C e.source e.label e.target) :
    I t ∧ ∀ e ∈ tr, P e.source e.label e.target := by
  induction h with
  | nil => exact ⟨hI, by simp⟩
  | snoc h hs ih =>
    obtain ⟨hIt, hP⟩ := ih fun e he ↦ hC e (List.mem_append_left _ he)
    obtain ⟨hIu, hPe⟩ := hstep _ _ _ hIt hs (hC ⟨_, _, _⟩ (by simp))
    refine ⟨hIu, fun e he ↦ ?_⟩
    rcases List.mem_append.mp he with he | he
    · exact hP e he
    · rw [List.mem_singleton] at he
      subst he
      exact hPe

/-- A property kept by every step holds at the end of a run and at the source of each of
its transitions, which are steps. -/
theorem invariant {I : σ → Prop} (hstep : ∀ s l t, I s → step s l = some t → I t)
    (h : Runs step s tr t) (hI : I s) :
    I t ∧ ∀ e ∈ tr, I e.source ∧ step e.source e.label = some e.target := by
  have hr := h.rule (I := I) (C := fun _ _ _ ↦ True)
    (P := fun s l t ↦ I s ∧ step s l = some t)
    (fun s l t hs hst _ ↦ ⟨hstep s l t hs hst, hs, hst⟩) hI (by simp)
  exact hr

/-- If under an invariant a step has property `P` exactly when it meets condition `C`, and
keeps the invariant then, all steps of a run have the property exactly when they all meet the
condition. -/
theorem forall_iff_of_kept {I : σ → Prop} {C P : σ → ℓ → σ → Prop}
    (hkeep : ∀ s l t, I s → step s l = some t → C s l t → I t)
    (hiff : ∀ s l t, I s → step s l = some t → (P s l t ↔ C s l t))
    (h : Runs step s tr t) (hI : I s) :
    (∀ e ∈ tr, P e.source e.label e.target) ↔ ∀ e ∈ tr, C e.source e.label e.target := by
  constructor
  · intro hP
    refine (h.rule (I := I) (C := P) (P := C) (fun s l t hs hst hp ↦ ?_) hI hP).2
    have hc := (hiff s l t hs hst).mp hp
    exact ⟨hkeep s l t hs hst hc, hc⟩
  · intro hC
    refine (h.rule (I := I) (C := C) (P := P) (fun s l t hs hst hc ↦ ?_) hI hC).2
    exact ⟨hkeep s l t hs hst hc, (hiff s l t hs hst).mpr hc⟩

/-- The same where every step keeps the invariant. -/
theorem forall_iff {I : σ → Prop} {C P : σ → ℓ → σ → Prop}
    (hstep : ∀ s l t, I s → step s l = some t → I t)
    (hiff : ∀ s l t, I s → step s l = some t → (P s l t ↔ C s l t))
    (h : Runs step s tr t) (hI : I s) :
    (∀ e ∈ tr, P e.source e.label e.target) ↔ ∀ e ∈ tr, C e.source e.label e.target :=
  h.forall_iff_of_kept (fun s l t hs hst _ ↦ hstep s l t hs hst) hiff hI

end Runs

/-- The state after a sequence of labels, if each step can be made. -/
def exec (step : σ → ℓ → Option σ) : σ → List ℓ → Option σ
  | s, [] => some s
  | s, l :: ls => (step s l).bind fun t ↦ exec step t ls

/-- One sequence of labels after another. -/
theorem exec_append (step : σ → ℓ → Option σ) (s : σ) (ls ls' : List ℓ) :
    exec step s (ls ++ ls') = (exec step s ls).bind fun t ↦ exec step t ls' := by
  induction ls generalizing s with
  | nil => rfl
  | cons l ls ih =>
    simp only [List.cons_append, exec, Option.bind_assoc]
    exact congrArg _ (funext fun t ↦ ih t)

/-- The transitions of a sequence of labels, up to the first that cannot be made. -/
def trace (step : σ → ℓ → Option σ) : σ → List ℓ → List (Transition σ ℓ)
  | _, [] => []
  | s, l :: ls =>
    match step s l with
    | some t => ⟨s, l, t⟩ :: trace step t ls
    | none => []

/-- The transitions of a sequence of labels have labels of that sequence. -/
theorem label_mem_of_mem_trace {step : σ → ℓ → Option σ} {s : σ} {ls : List ℓ}
    {e : Transition σ ℓ} (h : e ∈ trace step s ls) : e.label ∈ ls := by
  induction ls generalizing s with
  | nil => cases h
  | cons l ls ih =>
    simp only [trace] at h
    split at h
    · rcases List.mem_cons.mp h with rfl | h
      · exact List.mem_cons_self
      · exact List.mem_cons_of_mem l (ih h)
    · cases h

/-- A run goes on along any sequence of labels that can be executed. -/
theorem Runs.append_exec {step : σ → ℓ → Option σ} {s t u : σ} {tr : List (Transition σ ℓ)}
    (h : Runs step s tr t) {ls : List ℓ} (hex : exec step t ls = some u) :
    Runs step s (tr ++ trace step t ls) u := by
  induction ls generalizing t tr with
  | nil =>
    cases hex
    rw [trace, List.append_nil]
    exact h
  | cons l ls ih =>
    rw [exec, Option.bind_eq_some_iff] at hex
    obtain ⟨t', hstep, hrest⟩ := hex
    have hr := ih (h.snoc hstep) hrest
    rw [List.append_assoc, List.singleton_append] at hr
    simpa only [trace, hstep] using hr

/-- An executable sequence of labels is a run. -/
theorem Runs.of_exec {step : σ → ℓ → Option σ} {s t : σ} {ls : List ℓ}
    (hex : exec step s ls = some t) : Runs step s (trace step s ls) t := by
  have hr := (@Runs.nil _ _ step s).append_exec hex
  rwa [List.nil_append] at hr

end HeartbeatSpec.Base
