import HeartbeatSpec.Base.Lockstep
import HeartbeatSpec.Thread.CiThread2

/-!
# Thread classes in lockstep

Library `Thread`. Two thread classes whose callbacks are alike, and which show `ThreadProc` the
same state and exit flag, are alike in `ThreadProc`.
-/

namespace HeartbeatSpec.Thread.CiThread2Class
open HeartbeatSpec.Base

variable {ε σ τ : Type}

/-- The callbacks, what other threads do, and every change of the state are alike in both
classes. No call of `ThreadProc` makes a thread inactive. -/
structure Alike (c : CiThread2Class ε σ) (c' : CiThread2Class ε τ) (R : σ → τ → Prop) : Prop where
  state : ∀ s t, R s t → c.state s = c'.state t
  bExit : ∀ s t, R s t → c.bExit s = c'.bExit t
  setState : ∀ st s t, st ≠ .inactive → R s t → R (c.setState st s) (c'.setState st t)
  initInstance : Base.Alike R c.initInstance c'.initInstance
  run : Base.Alike R c.run c'.run
  exitInstance : Base.Alike R c.exitInstance c'.exitInstance
  betweenProcs : Base.Alike R c.betweenProcs c'.betweenProcs
  beforeTest : Base.Alike R c.beforeTest c'.beforeTest

namespace Alike

variable {c : CiThread2Class ε σ} {c' : CiThread2Class ε τ} {R : σ → τ → Prop}

private theorem modifyState (h : Alike c c' R) {st : CiThread2State} (hst : st ≠ .inactive) :
    Base.Alike R (modify (c.setState st) : EStateM ε σ PUnit)
      (modify (c'.setState st) : EStateM ε τ PUnit) :=
  Base.Alike.modify fun s t ↦ h.setState st s t hst

private theorem procDoneExitInstance (h : Alike c c' R) :
    Base.Alike R c.procDoneExitInstance c'.procDoneExitInstance := by
  refine Base.Alike.get_bind fun s t hst ↦ ?_
  rw [h.state s t hst]
  exact Base.Alike.ite (fun _ ↦ h.modifyState (by decide)) fun _ ↦ h.modifyState (by decide)

private theorem procDoneRun (h : Alike c c' R) : Base.Alike R c.procDoneRun c'.procDoneRun := by
  refine h.exitInstance.bind fun _ ↦ Base.Alike.get_bind fun s t hst ↦ ?_
  rw [h.state s t hst]
  apply Base.Alike.ite
  · intro _
    exact (h.modifyState (by decide)).bind fun _ ↦ h.procDoneExitInstance
  · intro _
    exact (h.modifyState (by decide)).bind fun _ ↦ h.procDoneExitInstance

private theorem procDoneInitInstance (h : Alike c c' R) :
    Base.Alike R c.procDoneInitInstance c'.procDoneInitInstance := by
  refine h.beforeTest.bind fun _ ↦ Base.Alike.get_bind fun s t hst ↦ ?_
  rw [h.bExit s t hst]
  apply Base.Alike.ite
  · intro _
    refine h.run.bind fun _ ↦ Base.Alike.ite (fun _ ↦ ?_) fun _ ↦ Base.Alike.pure _
    exact h.modifyState (by decide)
  · intro _
    exact (h.modifyState (by decide)).bind fun _ ↦ h.procDoneRun

private theorem procReady (h : Alike c c' R) : Base.Alike R c.procReady c'.procReady := by
  refine h.initInstance.bind fun b ↦ ?_
  apply Base.Alike.ite
  · intro _
    exact h.modifyState (by decide)
  · intro _
    exact (h.modifyState (by decide)).bind fun _ ↦ h.procDoneInitInstance

/-- `ThreadProc` is alike. -/
theorem threadProc (h : Alike c c' R) : Base.Alike R c.threadProc c'.threadProc := by
  refine Base.Alike.get_bind fun s t hst ↦ ?_
  rw [h.state s t hst]
  cases c'.state t with
  | ready => exact h.procReady
  | doneInitInstance => exact h.procDoneInitInstance
  | doneExitInstance | doneExitInstanceError => exact h.procDoneExitInstance
  | done | doneError => exact Base.Alike.pure _
  | doneRun | error | inactive => exact h.procDoneRun

/-- A turn of the loop is alike. -/
theorem turn (h : Alike c c' R) : Base.Alike R c.turn c'.turn :=
  h.betweenProcs.bind fun _ ↦ h.threadProc

/-- So is any number of turns. -/
theorem runLoop (h : Alike c c' R) (n : Nat) : Base.Alike R (c.runLoop n) (c'.runLoop n) := by
  induction n with
  | zero =>
    apply Base.Alike.get_bind
    intro s t hst
    rw [h.state s t hst]
    exact Base.Alike.pure _
  | succ n ih =>
    apply Base.Alike.get_bind
    intro s t hst
    rw [h.state s t hst]
    exact Base.Alike.ite (fun _ ↦ Base.Alike.pure _) fun _ ↦ h.turn.bind fun _ ↦ ih

end Alike
end HeartbeatSpec.Thread.CiThread2Class
