import HeartbeatSpec.Thread.CiThread2

/-!
# How a run ends

Library `Thread`. The loop around `ThreadProc` reaches a done state only through
`ExitInstance`. What `ExitInstance` establishes, and what is left alone from there on, holds of
every run that has ended.
-/

namespace HeartbeatSpec.Thread
open HeartbeatSpec.Base

/-- `ExitInstance` has been called. -/
def CiThread2State.hasExited : CiThread2State → Bool
  | .doneExitInstance | .doneExitInstanceError | .done | .doneError => true
  | _ => false

/-- A done state comes after `ExitInstance`. -/
theorem CiThread2State.hasExited_of_isThreadDone {st : CiThread2State}
    (h : st.isThreadDone = true) : st.hasExited = true := by
  cases st <;> first | rfl | cases h

namespace CiThread2Class

variable {ε σ : Type} {c : CiThread2Class ε σ} {I X : σ → Prop} {E : ε → σ → Prop}

/-- A loop that ends does so in a done state. -/
theorem isThreadDone_of_runLoop {n : Nat} {s t : σ} (h : (c.runLoop n).run s = .ok true t) :
    (c.state t).isThreadDone = true := by
  induction n generalizing s with
  | zero =>
    injection h with hdone hst
    rw [← hst]
    exact hdone
  | succ n ih =>
    cases hd : (c.state s).isThreadDone with
    | true =>
      rw [c.runLoop_of_done hd] at h
      cases h
      exact hd
    | false =>
      rw [c.runLoop_succ hd, EStateM.run_bind] at h
      cases ht : c.turn.run s with
      | ok u s' =>
        rw [ht] at h
        exact ih h
      | error e s' =>
        rw [ht] at h
        cases h

variable (c I X) in
/-- The thread has been started: `I` holds, and `X` too as soon as `ExitInstance` has been
called. -/
structure Going (s : σ) : Prop where
  inv : I s
  not_ready : c.state s ≠ .ready
  exited : (c.state s).hasExited = true → X s

variable (c I X E) in
/-- Running keeps `I`, and `ExitInstance` establishes `X`. -/
structure Exits : Prop where
  run : Base.Keeps (fun s ↦ I s ∧ c.state s = .doneInitInstance) E c.run
  beforeTest : Base.Keeps (fun s ↦ I s ∧ c.state s = .doneInitInstance) E c.beforeTest
  betweenProcs : Base.Keeps (Going c I X) E c.betweenProcs
  exitInstance : Contract I c.exitInstance (fun _ s ↦ I s ∧ X s) E
  inv_setState : ∀ st s, I s → I (c.setState st s)
  exited_setState : ∀ st s, X s → X (c.setState st s)
  state_setState : ∀ st s, c.state (c.setState st s) = st

namespace Exits

/-- After `ExitInstance` every state is one to go on in. -/
private theorem going_setState (h : c.Exits I X E) {st : CiThread2State} (hst : st ≠ .ready)
    {s : σ} (hs : I s ∧ X s) : Going c I X (c.setState st s) where
  inv := h.inv_setState st s hs.1
  not_ready := by
    rw [h.state_setState]
    exact hst
  exited _ := h.exited_setState st s hs.2

/-- Before `ExitInstance` it is any state that does not promise it. -/
theorem going_of_inv (h : c.Exits I X E) {st : CiThread2State} (hst : st ≠ .ready)
    (hexited : st.hasExited = false) {s : σ} (hs : I s) : Going c I X (c.setState st s) where
  inv := h.inv_setState st s hs
  not_ready := by
    rw [h.state_setState]
    exact hst
  exited he := by
    rw [h.state_setState, hexited] at he
    cases he

private theorem procDoneExitInstance (h : c.Exits I X E) :
    Contract (fun s ↦ I s ∧ X s) c.procDoneExitInstance (fun _ ↦ Going c I X) E := by
  refine Contract.get_bind fun s hs ↦ Contract.ite (fun _ ↦ ?_) fun _ ↦ ?_
  · exact Contract.modify fun t ht ↦ ht ▸ h.going_setState (by decide) hs
  · exact Contract.modify fun t ht ↦ ht ▸ h.going_setState (by decide) hs

private theorem procDoneRun (h : c.Exits I X E) :
    Contract I c.procDoneRun (fun _ ↦ Going c I X) E := by
  have hset (st : CiThread2State) : Contract (fun s ↦ I s ∧ X s)
      (modify (c.setState st) : EStateM ε σ PUnit) (fun _ s ↦ I s ∧ X s) E :=
    Contract.modify fun s hs ↦ ⟨h.inv_setState st s hs.1, h.exited_setState st s hs.2⟩
  refine h.exitInstance.bind fun _ ↦ Contract.get_bind fun s hs ↦ ?_
  refine Contract.ite (fun _ ↦ ?_) fun _ ↦ ?_
  · exact ((hset _).at_state hs).bind fun _ ↦ h.procDoneExitInstance
  · exact ((hset _).at_state hs).bind fun _ ↦ h.procDoneExitInstance

/-- From `DONE_INITINSTANCE` the thread runs, or exits. -/
theorem procDoneInitInstance (h : c.Exits I X E) :
    Contract (fun s ↦ I s ∧ c.state s = .doneInitInstance) c.procDoneInitInstance
      (fun _ ↦ Going c I X) E := by
  refine Contract.bind h.beforeTest fun _ ↦ Contract.get_bind fun s hs ↦ ?_
  refine Contract.ite (fun _ ↦ ?_) fun _ ↦ ?_
  · refine (Contract.at_state h.run hs).bind fun b ↦ Contract.ite (fun _ ↦ ?_) fun _ ↦ ?_
    · exact Contract.modify fun t ht ↦ h.going_of_inv (by decide) rfl ht.1
    · refine Contract.pure fun t ht ↦ ⟨ht.1, ?_, fun he ↦ ?_⟩
      · rw [ht.2]
        decide
      · rw [ht.2] at he
        cases he
  · refine Contract.bind (Q := fun _ ↦ I) ?_ fun _ ↦ h.procDoneRun
    exact Contract.modify fun t ht ↦ ht ▸ h.inv_setState _ s hs.1

/-- A turn keeps a started thread going. -/
theorem turn (h : c.Exits I X E) : Base.Keeps (Going c I X) E c.turn := by
  refine Contract.bind h.betweenProcs fun _ ↦ Contract.get_bind fun s hs ↦ ?_
  cases hstate : c.state s with
  | ready => exact absurd hstate hs.not_ready
  | doneInitInstance => exact h.procDoneInitInstance.at_state ⟨hs.inv, hstate⟩
  | doneExitInstance | doneExitInstanceError =>
    exact h.procDoneExitInstance.at_state ⟨hs.inv, hs.exited (by rw [hstate]; rfl)⟩
  | done | doneError => exact Contract.pure fun t ht ↦ ht ▸ hs
  | doneRun | error | inactive => exact h.procDoneRun.at_state hs.inv

/-- So does any number of turns. -/
theorem runLoop (h : c.Exits I X E) (n : Nat) : Base.Keeps (Going c I X) E (c.runLoop n) := by
  induction n with
  | zero => exact Base.Keeps.get_bind fun _ ↦ Base.Keeps.pure _
  | succ n ih =>
    refine Base.Keeps.get_bind fun s ↦ Base.Keeps.ite (Base.Keeps.pure _) ?_
    exact Base.Keeps.bind h.turn fun _ ↦ ih

/-- A run that has ended, and whose `InitInstance` has left `I`, has left `I` and `X`. -/
theorem of_runLoop (h : c.Exits I X E) {s s₁ s₂ t : σ} {b : Bool} {n : Nat}
    (hready : c.state s = .ready) (hbetween : c.betweenProcs.run s = .ok () s₁)
    (hstate : c.state s₁ = .ready) (hinit : c.initInstance.run s₁ = .ok b s₂) (hI : I s₂)
    (hrun : (c.runLoop n).run s = .ok true t) : I t ∧ X t := by
  have hstart : (c.state s).isThreadDone = false := by
    rw [hready]
    rfl
  cases n with
  | zero =>
    injection hrun with hdone _
    rw [hstart] at hdone
    cases hdone
  | succ n =>
    have hdone := isThreadDone_of_runLoop hrun
    rw [c.runLoop_succ hstart, EStateM.run_bind] at hrun
    have hgoing : ∀ s₃, c.turn.run s = .ok () s₃ → Going c I X s₃ := by
      intro s₃ hturn
      cases b with
      | false =>
        rw [c.run_turn_of_init_failed hbetween hstate hinit] at hturn
        cases hturn
        exact h.going_of_inv (by decide) rfl hI
      | true =>
        rw [c.run_turn_of_init hbetween hstate hinit] at hturn
        exact h.procDoneInitInstance.of_ok ⟨h.inv_setState _ _ hI, h.state_setState _ _⟩ hturn
    cases hturn : c.turn.run s with
    | error f s₃ =>
      rw [hturn] at hrun
      cases hrun
    | ok u s₃ =>
      rw [hturn] at hrun
      have ht := Contract.of_ok (h.runLoop n) (hgoing s₃ hturn) hrun
      exact ⟨ht.inv, ht.exited (CiThread2State.hasExited_of_isThreadDone hdone)⟩

end Exits
end CiThread2Class
end HeartbeatSpec.Thread
