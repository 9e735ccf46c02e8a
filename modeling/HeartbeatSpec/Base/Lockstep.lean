import Mathlib.Data.List.Basic

/-!
# Programs in lockstep

Library `Base`. Two programs with state and exceptions, possibly on different state types, are
alike under a relation if from related states they return the same or are left by the same
exception, in related states. One rule for each way to build a program.
-/

namespace HeartbeatSpec.Base

universe u

variable {ε σ τ α β : Type u}

/-- From related states both programs return the same or are left by the same exception, in
related states. -/
def Alike (R : σ → τ → Prop) (x : EStateM ε σ α) (y : EStateM ε τ α) : Prop :=
  ∀ s t, R s t →
    match x.run s with
    | .ok a s' => ∃ t', y.run t = .ok a t' ∧ R s' t'
    | .error e s' => ∃ t', y.run t = .error e t' ∧ R s' t'

namespace Alike

variable {R : σ → τ → Prop} {x : EStateM ε σ α} {y : EStateM ε τ α} {f : α → EStateM ε σ β}
  {g : α → EStateM ε τ β}

/-- What the second program does when the first returns. -/
theorem of_ok (h : Alike R x y) {s s' : σ} {t : τ} {a : α} (hst : R s t)
    (hx : x.run s = .ok a s') : ∃ t', y.run t = .ok a t' ∧ R s' t' := by
  have hr := h s t hst
  rwa [hx] at hr

/-- What the second program does when the first is left by an exception. -/
theorem of_error (h : Alike R x y) {s s' : σ} {t : τ} {e : ε} (hst : R s t)
    (hx : x.run s = .error e s') : ∃ t', y.run t = .error e t' ∧ R s' t' := by
  have hr := h s t hst
  rwa [hx] at hr

/-- One program after another. -/
protected theorem bind (hx : Alike R x y) (hf : ∀ a, Alike R (f a) (g a)) :
    Alike R (x >>= f) (y >>= g) := by
  intro s t hst
  rw [EStateM.run_bind, EStateM.run_bind]
  cases hr : x.run s with
  | ok a s' =>
    obtain ⟨t', hy, hst'⟩ := hx.of_ok hst hr
    rw [hy]
    exact hf a s' t' hst'
  | error e s' =>
    obtain ⟨t', hy, hst'⟩ := hx.of_error hst hr
    rw [hy]
    exact ⟨t', rfl, hst'⟩

/-- A result that is computed only. -/
protected theorem pure (a : α) : Alike R (pure a : EStateM ε σ α) (pure a : EStateM ε τ α) :=
  fun _ t hst ↦ ⟨t, rfl, hst⟩

/-- Leaving by an exception. -/
protected theorem throw (e : ε) : Alike R (throw e : EStateM ε σ α) (throw e : EStateM ε τ α) :=
  fun _ t hst ↦ ⟨t, rfl, hst⟩

/-- Reading the states. -/
theorem get_bind {f : σ → EStateM ε σ β} {g : τ → EStateM ε τ β}
    (h : ∀ s t, R s t → Alike R (f s) (g t)) : Alike R (get >>= f) (get >>= g) :=
  fun s t hst ↦ h s t hst s t hst

/-- Changing the states. -/
theorem modify {f : σ → σ} {g : τ → τ} (h : ∀ s t, R s t → R (f s) (g t)) :
    Alike R (modify f : EStateM ε σ PUnit) (modify g : EStateM ε τ PUnit) :=
  fun s t hst ↦ ⟨g t, rfl, h s t hst⟩

/-- Changing the states with a result. -/
theorem modifyGet {f : σ → α × σ} {g : τ → α × τ}
    (h : ∀ s t, R s t → (f s).1 = (g t).1 ∧ R (f s).2 (g t).2) :
    Alike R (modifyGet f : EStateM ε σ α) (modifyGet g : EStateM ε τ α) :=
  fun s t hst ↦ ⟨(g t).2, congrArg (EStateM.Result.ok · (g t).2) (h s t hst).1.symm, (h s t hst).2⟩

/-- The same choice in both. -/
protected theorem ite {c : Prop} [Decidable c] {x' : EStateM ε σ α} {y' : EStateM ε τ α}
    (hx : c → Alike R x y) (hy : ¬c → Alike R x' y') :
    Alike R (if c then x else x') (if c then y else y') := by
  split
  · next h => exact hx h
  · next h => exact hy h

/-- A program for each member of a list. -/
theorem forM {f : β → EStateM ε σ PUnit} {g : β → EStateM ε τ PUnit}
    (h : ∀ b, Alike R (f b) (g b)) (bs : List β) : Alike R (bs.forM f) (bs.forM g) := by
  induction bs with
  | nil => exact Alike.pure _
  | cons b bs ih => exact (h b).bind fun _ ↦ ih

end Alike

/-- From these two states both programs return the same or are left by the same exception, in
related states. -/
def AlikeAt (R : σ → τ → Prop) (x : EStateM ε σ α) (y : EStateM ε τ α) (s : σ) (t : τ) : Prop :=
  match x.run s with
  | .ok a s' => ∃ t', y.run t = .ok a t' ∧ R s' t'
  | .error e s' => ∃ t', y.run t = .error e t' ∧ R s' t'

namespace AlikeAt

variable {R : σ → τ → Prop} {x : EStateM ε σ α} {y : EStateM ε τ α} {f : α → EStateM ε σ β}
  {g : α → EStateM ε τ β} {s : σ} {t : τ}

/-- One program after another. -/
protected theorem bind (hx : AlikeAt R x y s t) (hf : ∀ a, Alike R (f a) (g a)) :
    AlikeAt R (x >>= f) (y >>= g) s t := by
  unfold AlikeAt at hx ⊢
  rw [EStateM.run_bind, EStateM.run_bind]
  cases hr : x.run s with
  | ok a s' =>
    rw [hr] at hx
    obtain ⟨t', hy, hst'⟩ := hx
    rw [hy]
    exact hf a s' t' hst'
  | error e s' =>
    rw [hr] at hx
    obtain ⟨t', hy, hst'⟩ := hx
    rw [hy]
    exact ⟨t', rfl, hst'⟩

/-- The same choice in both. -/
protected theorem ite {c : Prop} [Decidable c] {x' : EStateM ε σ α} {y' : EStateM ε τ α}
    (hx : c → AlikeAt R x y s t) (hy : ¬c → AlikeAt R x' y' s t) :
    AlikeAt R (if c then x else x') (if c then y else y') s t := by
  split
  · next h => exact hx h
  · next h => exact hy h

end AlikeAt
end HeartbeatSpec.Base
