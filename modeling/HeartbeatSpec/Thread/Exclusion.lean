import HeartbeatSpec.Thread.Interleaving

/-!
# The exit semaphore as a token

Library `Thread`. `m_semExit` starts at one and is a token: it is at the semaphore, or one
party holds it. A start takes it in `PrepareRunning` and hands it to the worker, which
gives it back in `NotifyExit`; a failed creation and a waiter give it back themselves.
-/

namespace HeartbeatSpec.Thread
open HeartbeatSpec.Base

/-- The party holds the token. -/
def Pc.holds : Pc → Bool
  | .create _ | .failExit | .failHandle | .failPost | .loop .. | .notifyExit .. => true
  | .waitClear _ | .waitPost _ => true
  | _ => false

/-- The run a party is in, from the step in which it passes the wait until `NotifyExit`. -/
def Pc.run? : Pc → Option Nat
  | .create run | .loop run _ _ _ _ | .notifyExit run _ _ _ => some run
  | _ => none

/-- Party `t` is in run `run`. -/
def Sys.Active (s : Sys) (t : Tid) (run : Nat) : Prop := (s.pc t).run? = some run

/-- A party that goes to a place outside all runs leaves the other parties where they are. -/
theorem Sys.Active.of_update {s : Sys} {sh : Shared} {t u : Tid} {p : Pc} {run : Nat}
    (h : Sys.Active ⟨sh, Function.update s.pc t p⟩ u run) (hp : p.run? = none) :
    s.Active u run := by
  unfold Sys.Active at h ⊢
  by_cases hu : u = t
  · subst hu
    simp [hp] at h
  · simpa only [Function.update_of_ne hu] using h

/-- The party that moves is the only one whose place changes. -/
theorem Sys.Active.update_of_ne {s : Sys} {t u : Tid} {run : Nat} (h : s.Active u run)
    (hu : u ≠ t) (sh : Shared) (p : Pc) :
    Sys.Active ⟨sh, Function.update s.pc t p⟩ u run := by
  unfold Sys.Active at h ⊢
  simpa only [Function.update_of_ne hu] using h

/-- A party in a run holds the token. -/
theorem Pc.holds_of_run? {p : Pc} {run : Nat} (h : p.run? = some run) : p.holds = true := by
  cases p <;> simp_all [Pc.run?, Pc.holds]

/-- The token is with at most one party, and at the semaphore when with none. -/
def TokenHeldBy (s : Sys) (o : Option Tid) : Prop :=
  (∀ t, (s.pc t).holds = true ↔ o = some t) ∧
    s.shared.semExit = if o.isSome then 0 else 1

/-- The token invariant. -/
def Exclusive (s : Sys) : Prop := ∃ o, TokenHeldBy s o

/-- Two holders of the token are the same party. -/
theorem Exclusive.unique {s : Sys} (h : Exclusive s) {t u : Tid}
    (ht : (s.pc t).holds = true) (hu : (s.pc u).holds = true) : t = u := by
  obtain ⟨o, ho, -⟩ := h
  exact Option.some.inj (((ho t).mp ht).symm.trans ((ho u).mp hu))

/-- Two parties in runs are the same party. -/
theorem Exclusive.active_unique {s : Sys} (h : Exclusive s) {t u : Tid} {r q : Nat}
    (ht : s.Active t r) (hu : s.Active u q) : t = u :=
  h.unique (Pc.holds_of_run? ht) (Pc.holds_of_run? hu)

/-- The constructed object has the token at the semaphore. -/
theorem exclusive_initial : Exclusive Sys.initial :=
  ⟨none, by simp [Sys.initial, Pc.holds], rfl⟩

/-! ### What one step does to the token -/

private theorem loopStep_semExit (result : Bool) (sh : Shared) (pc : LoopPc) :
    (loopStep result sh pc).1.semExit = sh.semExit := by
  cases pc <;> rfl

/-- The loop goes on in its own run. -/
theorem run?_afterLoop (run : Nat) (worker : Bool) (inits exits : Nat) (o : Option LoopPc) :
    (afterLoop run worker inits exits o).run? = some run := by
  cases o <;> rfl

/-- A party's own step leaves the token where it is, takes it from the semaphore, or gives
it back. -/
theorem localStep_token {ch : Choice} {sh sh' : Shared} {p p' : Pc}
    (h : localStep ch sh p = some (sh', p')) :
    (sh'.semExit = sh.semExit ∧ p'.holds = p.holds) ∨
    (sh.semExit = sh'.semExit + 1 ∧ p.holds = false ∧ p'.holds = true) ∨
    (sh'.semExit = sh.semExit + 1 ∧ p.holds = true ∧ p'.holds = false) := by
  cases p with
  | idle =>
    cases hc : ch.call <;> simp only [localStep, hc, Option.some.injEq, Prod.mk.injEq] at h <;>
      obtain ⟨rfl, rfl⟩ := h <;> exact Or.inl ⟨rfl, rfl⟩
  | prepareWait k =>
    simp only [localStep] at h
    split at h
    · cases h
      exact Or.inr (Or.inl ⟨by simp; omega, rfl, by cases k <;> rfl⟩)
    · cases h
  | waitWait bound =>
    simp only [localStep] at h
    split at h
    · cases h
      exact Or.inr (Or.inl ⟨by simp; omega, rfl, rfl⟩)
    · cases h
  | loop run worker inits exits pc =>
    cases h
    exact Or.inl ⟨loopStep_semExit _ _ _, Pc.holds_of_run? (run?_afterLoop _ _ _ _ _)⟩
  | failPost =>
    cases h
    exact Or.inr (Or.inr ⟨rfl, rfl, rfl⟩)
  | notifyExit run worker inits exits =>
    cases h
    exact Or.inr (Or.inr ⟨rfl, rfl, rfl⟩)
  | waitPost bound =>
    cases h
    exact Or.inr (Or.inr ⟨rfl, rfl, rfl⟩)
  | create run =>
    simp only [localStep] at h
    split at h
    · cases h
    · cases h
      exact Or.inl ⟨rfl, rfl⟩
  | createStore run =>
    simp only [localStep] at h
    split at h
    · cases h
      exact Or.inl ⟨rfl, rfl⟩
    · cases h
  | startGuard k =>
    cases h
    exact Or.inl ⟨rfl, by split <;> rfl⟩
  | waitTest bound =>
    cases h
    exact Or.inl ⟨rfl, by split <;> rfl⟩
  | prepareExit k =>
    cases h
    exact Or.inl ⟨rfl, rfl⟩
  | prepareState k =>
    cases h
    exact Or.inl ⟨rfl, rfl⟩
  | failExit =>
    cases h
    exact Or.inl ⟨rfl, rfl⟩
  | failHandle =>
    cases h
    exact Or.inl ⟨rfl, rfl⟩
  | waitClear bound =>
    cases h
    exact Or.inl ⟨rfl, rfl⟩
  | endThread =>
    cases h
    exact Or.inl ⟨rfl, rfl⟩

/-- Every step keeps the token invariant. -/
theorem exclusive_step {s s' : Sys} {l : Tid × Choice} (hs : Exclusive s)
    (h : step s l = some s') : Exclusive s' := by
  obtain ⟨t, ch⟩ := l
  obtain ⟨o, ho, hsem⟩ := hs
  rcases step_cases h with ⟨sh, p, hl, rfl⟩ | ⟨run, ht, -, hu, -, rfl⟩
  · rcases localStep_token hl with ⟨he, hp⟩ | ⟨he, hp, hp'⟩ | ⟨he, hp, hp'⟩
    · refine ⟨o, fun v ↦ ?_, he.trans hsem⟩
      by_cases hv : v = t
      · subst hv
        simp only [Function.update_self, hp]
        exact ho v
      · simp only [Function.update_of_ne hv]
        exact ho v
    · -- The token was at the semaphore, so nobody else holds it.
      have hnone : o = none := by
        cases o with
        | none => rfl
        | some v =>
          simp only [Option.isSome_some, if_true] at hsem
          omega
      subst hnone
      refine ⟨some t, fun v ↦ ?_, by simp at hsem ⊢; omega⟩
      by_cases hv : v = t
      · subst hv
        simp [hp']
      · have hne : some t ≠ some v := fun he ↦ hv (Option.some.inj he).symm
        simp only [Function.update_of_ne hv, hne, iff_false]
        intro hh
        cases (ho v).mp hh
    · have hsome : o = some t := (ho t).mp hp
      subst hsome
      refine ⟨none, fun v ↦ ?_, by simp at hsem ⊢; omega⟩
      by_cases hv : v = t
      · subst hv
        simp [hp']
      · simp only [Function.update_of_ne hv, reduceCtorEq, iff_false]
        intro hh
        exact hv (Option.some.inj ((ho v).mp hh)).symm
  · -- The caller hands the token to the worker.
    have hsome : o = some t := (ho t).mp (by rw [ht]; rfl)
    subst hsome
    refine ⟨some ch.worker, fun v ↦ ?_, hsem⟩
    simp only [spawn]
    by_cases hv : v = ch.worker
    · rw [hv]
      simp [Pc.holds]
    · rw [Function.update_of_ne hv]
      have hne : some ch.worker ≠ some v := fun he ↦ hv (Option.some.inj he).symm
      simp only [hne, iff_false]
      by_cases hvt : v = t
      · subst hvt
        simp [Pc.holds]
      · rw [Function.update_of_ne hvt]
        intro hh
        exact hvt (Option.some.inj ((ho v).mp hh)).symm

end HeartbeatSpec.Thread
