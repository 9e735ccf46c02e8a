import HeartbeatSpec.ThreadComplex.CiThreadComplex

/-!
# The threads of a complex

Library `ThreadComplex`. What one call of `ThreadProc` does to a thread of the complex, and that
`ExitInstance` brings every thread to its end in two calls, whatever state it was put into,
`examples/Externals/CiUtils/Src/CiThreadComplex.cpp:72–79,93–101`.
-/

namespace HeartbeatSpec.ThreadComplex
open HeartbeatSpec.Base HeartbeatSpec.Thread

variable {th th' : Lifecycle}

/-- What cannot fail returns. -/
theorem returns_of_empty {σ α : Type} (x : EStateM Empty σ α) (s : σ) :
    ∃ a t, x.run s = .ok a t := by
  cases h : x.run s with
  | ok a t => exact ⟨a, t, rfl⟩
  | error f _ => exact nomatch f

/-- A thread after one call of `ThreadProc`. -/
def afterTurn (sc : Script) (th : Lifecycle) : Lifecycle :=
  match (Lifecycle.threadClass sc).turn.run th with
  | .ok _ th' => th'
  | .error f _ => nomatch f

theorem run_turn (sc : Script) (th : Lifecycle) :
    (Lifecycle.threadClass sc).turn.run th = .ok () (afterTurn sc th) := by
  obtain ⟨a, th', h⟩ := returns_of_empty (Lifecycle.threadClass sc).turn th
  rw [afterTurn, h]

/-! ### Any state -/

/-- A callback leaves the state, and an exit flag that is set. -/
theorem callback_kept (sc : Script) (cb : Callback) (th : Lifecycle) :
    (Lifecycle.callback sc cb th).2.state = th.state ∧
      (th.bExit = true → (Lifecycle.callback sc cb th).2.bExit = true) := by
  obtain ⟨before, inside, -, -, hx⟩ := Lifecycle.extends_callback sc cb th
  exact ⟨hx.state_eq, hx.bExit_mono⟩

theorem procDoneRun_ends (sc : Script) (th : Lifecycle) :
    ∃ th', (Lifecycle.threadClass sc).procDoneRun.run th = .ok () th' ∧
      th'.state.isThreadDone = true := by
  obtain ⟨hstate, -⟩ := callback_kept sc .exitInstance th
  by_cases h : th.state = .doneRun
  · refine ⟨{ (Lifecycle.callback sc .exitInstance th).2 with state := .done }, ?_, rfl⟩
    simp [CiThread2Class.procDoneRun, CiThread2Class.procDoneExitInstance, Lifecycle.threadClass,
      hstate, h]
  · refine ⟨{ (Lifecycle.callback sc .exitInstance th).2 with state := .doneError }, ?_, rfl⟩
    simp [CiThread2Class.procDoneRun, CiThread2Class.procDoneExitInstance, Lifecycle.threadClass,
      hstate, h]

/-- A thread that has been called: it is not inactive, and ended if its exit flag has been set
before. -/
def Called (th th' : Lifecycle) : Prop :=
  th'.state ≠ .inactive ∧ (th.bExit = true → th'.state.isThreadDone = true)

theorem called_of_done (h : th'.state.isThreadDone = true) : Called th th' := by
  refine ⟨fun hstate ↦ ?_, fun _ ↦ h⟩
  rw [hstate] at h
  cases h

theorem procDoneInitInstance_called (sc : Script) (hstate : th.state = .doneInitInstance) :
    ∃ th', (Lifecycle.threadClass sc).procDoneInitInstance.run th = .ok () th' ∧
      Called th th' := by
  obtain ⟨es, hx, -⟩ := Lifecycle.extends_point sc th
  cases hpoint : (th.point sc).bExit with
  | true =>
    obtain ⟨th', hrun, hdone⟩ := procDoneRun_ends sc
      { (th.point sc).record (.test true) with state := .doneRun }
    refine ⟨th', ?_, called_of_done hdone⟩
    simpa [CiThread2Class.procDoneInitInstance, Lifecycle.threadClass, hpoint] using hrun
  | false =>
    have hclear : th.bExit ≠ true := by
      intro hexit
      rw [hx.bExit_mono hexit] at hpoint
      cases hpoint
    obtain ⟨hkept, -⟩ := callback_kept sc .run ((th.point sc).record (.test false))
    have hactive : (Lifecycle.callback sc .run ((th.point sc).record (.test false))).2.state ≠
        .inactive := by
      rw [hkept]
      show (th.point sc).state ≠ _
      rw [hx.state_eq, hstate]
      decide
    cases hret : (Lifecycle.callback sc .run ((th.point sc).record (.test false))).1 with
    | true =>
      refine ⟨(Lifecycle.callback sc .run ((th.point sc).record (.test false))).2, ?_, hactive,
        fun hexit ↦ absurd hexit hclear⟩
      simp [CiThread2Class.procDoneInitInstance, Lifecycle.threadClass, hpoint, hret]
    | false =>
      refine ⟨{ (Lifecycle.callback sc .run ((th.point sc).record (.test false))).2 with
        state := .error }, ?_, CiThread2State.noConfusion, fun hexit ↦ absurd hexit hclear⟩
      simp [CiThread2Class.procDoneInitInstance, Lifecycle.threadClass, hpoint, hret]

/-- One call of `ThreadProc` from whatever state: only a failing `InitInstance` keeps a thread with
its exit flag set from its end, until the next call. -/
theorem threadProc_called (sc : Script) (th : Lifecycle) :
    ∃ th', (Lifecycle.threadClass sc).threadProc.run th = .ok () th' ∧
      (Called th th' ∨ th.state = .ready ∧ th'.state = .error ∧
        (th.bExit = true → th'.bExit = true)) := by
  have hends (hprocs : (Lifecycle.threadClass sc).threadProc.run th =
      (Lifecycle.threadClass sc).procDoneRun.run th) :
      ∃ th', (Lifecycle.threadClass sc).threadProc.run th = .ok () th' ∧ Called th th' := by
    obtain ⟨th', hrun, hdone⟩ := procDoneRun_ends sc th
    exact ⟨th', hprocs.trans hrun, called_of_done hdone⟩
  cases hstate : th.state with
  | ready =>
    obtain ⟨-, hexit⟩ := callback_kept sc .initInstance th
    cases hret : (Lifecycle.callback sc .initInstance th).1 with
    | true =>
      obtain ⟨th', hrun, hactive, hdone⟩ := @procDoneInitInstance_called
        { (Lifecycle.callback sc .initInstance th).2 with state := .doneInitInstance } sc rfl
      refine ⟨th', ?_, Or.inl ⟨hactive, fun h ↦ hdone (hexit h)⟩⟩
      simpa [CiThread2Class.threadProc, CiThread2Class.procReady, Lifecycle.threadClass, hstate,
        hret] using hrun
    | false =>
      refine ⟨{ (Lifecycle.callback sc .initInstance th).2 with state := .error }, ?_,
        Or.inr ⟨rfl, rfl, hexit⟩⟩
      simp [CiThread2Class.threadProc, CiThread2Class.procReady, Lifecycle.threadClass, hstate,
        hret]
  | doneInitInstance =>
    obtain ⟨th', hrun, hcalled⟩ := procDoneInitInstance_called sc hstate
    refine ⟨th', ?_, Or.inl hcalled⟩
    simpa [CiThread2Class.threadProc, Lifecycle.threadClass, hstate] using hrun
  | doneExitInstance =>
    refine ⟨{ th with state := .done }, ?_, Or.inl (called_of_done rfl)⟩
    simp [CiThread2Class.threadProc, CiThread2Class.procDoneExitInstance, Lifecycle.threadClass,
      hstate]
  | doneExitInstanceError =>
    refine ⟨{ th with state := .doneError }, ?_, Or.inl (called_of_done rfl)⟩
    simp [CiThread2Class.threadProc, CiThread2Class.procDoneExitInstance, Lifecycle.threadClass,
      hstate]
  | done | doneError =>
    refine ⟨th, ?_, Or.inl (called_of_done (by rw [hstate]; rfl))⟩
    exact (Lifecycle.threadClass sc).threadProc_of_done (by
      show th.state.isThreadDone = true
      rw [hstate]
      rfl)
  | doneRun | error | inactive =>
    obtain ⟨th', hrun, hcalled⟩ := hends (by
      simp [CiThread2Class.threadProc, Lifecycle.threadClass, hstate])
    exact ⟨th', hrun, Or.inl hcalled⟩

/-- The same with what other threads do before it. -/
theorem afterTurn_called (sc : Script) (th : Lifecycle) : Called th (afterTurn sc th) ∨
    th.state = .ready ∧ (afterTurn sc th).state = .error ∧
      (th.bExit = true → (afterTurn sc th).bExit = true) := by
  obtain ⟨es, hx, -⟩ := Lifecycle.extends_point sc th
  obtain ⟨th', hrun, hcalled⟩ := threadProc_called sc (th.point sc)
  have hturn : (Lifecycle.threadClass sc).turn.run th =
      (Lifecycle.threadClass sc).threadProc.run (th.point sc) := rfl
  rw [run_turn, hrun] at hturn
  obtain rfl : afterTurn sc th = th' := by injection hturn
  rcases hcalled with ⟨hactive, hdone⟩ | ⟨hready, herror, hkept⟩
  · exact Or.inl ⟨hactive, fun h ↦ hdone (hx.bExit_mono h)⟩
  · exact Or.inr ⟨hx.state_eq.symm.trans hready, herror, fun h ↦ hkept (hx.bExit_mono h)⟩

theorem afterTurn_active (sc : Script) (th : Lifecycle) : (afterTurn sc th).state ≠ .inactive := by
  rcases afterTurn_called sc th with hcalled | ⟨-, herror, -⟩
  · exact hcalled.1
  · rw [herror]
    decide

/-- Two calls end a thread whose exit flag is set. -/
theorem runLoop_two (sc : Script) (hexit : th.bExit = true) :
    ∃ th', ((Lifecycle.threadClass sc).runLoop 2).run th = .ok true th' ∧
      th'.state.isThreadDone = true := by
  cases hdone : th.state.isThreadDone with
  | true => exact ⟨th, (Lifecycle.threadClass sc).runLoop_of_done hdone 2, hdone⟩
  | false =>
    rw [(Lifecycle.threadClass sc).runLoop_succ hdone, EStateM.run_bind, run_turn]
    cases hdone' : (afterTurn sc th).state.isThreadDone with
    | true => exact ⟨_, (Lifecycle.threadClass sc).runLoop_of_done hdone' 1, hdone'⟩
    | false =>
      rcases afterTurn_called sc th with ⟨-, hended⟩ | ⟨-, herror, hkept⟩
      · rw [hended hexit] at hdone'
        cases hdone'
      · have hended : (afterTurn sc (afterTurn sc th)).state.isThreadDone = true := by
          rcases afterTurn_called sc (afterTurn sc th) with ⟨-, hended⟩ | ⟨hready, -⟩
          · exact hended (hkept hexit)
          · rw [hready] at herror
            cases herror
        refine ⟨afterTurn sc (afterTurn sc th), ?_, hended⟩
        show ((Lifecycle.threadClass sc).runLoop 1).run (afterTurn sc th) = _
        rw [(Lifecycle.threadClass sc).runLoop_succ hdone', EStateM.run_bind, run_turn]
        exact (Lifecycle.threadClass sc).runLoop_of_done hended 0

/-- A thread after `EndThread` and the loop behind it. -/
def afterEnd (sc : Script) (th : Lifecycle) : Lifecycle :=
  match ((Lifecycle.threadClass sc).runLoop 2).run (endThread th) with
  | .ok _ th' => th'
  | .error f _ => nomatch f

theorem run_afterEnd (sc : Script) (th : Lifecycle) :
    ((Lifecycle.threadClass sc).runLoop 2).run (endThread th) = .ok true (afterEnd sc th) ∧
      (afterEnd sc th).state.isThreadDone = true := by
  obtain ⟨th', hrun, hdone⟩ := @runLoop_two (endThread th) sc rfl
  rw [afterEnd, hrun]
  exact ⟨rfl, hdone⟩

/-! ### Lifecycles -/

theorem inv_of_quiet {es : List LifecycleEvent} (h : th.Inv)
    (hx : Lifecycle.Extends th es th') (hq : Lifecycle.Quiet es) : th'.Inv where
  toSound := h.toSound.extends hx fun hm ↦ by cases hq _ hm
  shape := by
    rw [hx.state_eq, hx.log_eq, Lifecycle.callbacks_append, Lifecycle.callbacks_of_quiet hq,
      List.append_nil]
    exact h.shape

/-- A thread that nobody has put into another state goes on with its lifecycle. -/
theorem inv_afterTurn (sc : Script) (h : th.Inv) : (afterTurn sc th).Inv := by
  cases hdone : th.state.isThreadDone with
  | false =>
    obtain ⟨th', hrun, hinv, -⟩ := Lifecycle.turn_spec sc h hdone
    rw [run_turn] at hrun
    injection hrun with _ heq
    rwa [heq]
  | true =>
    obtain ⟨es, hx, hq⟩ := Lifecycle.extends_point sc th
    have hnone : (Lifecycle.threadClass sc).turn.run th = .ok () (th.point sc) := by
      apply (Lifecycle.threadClass sc).threadProc_of_done
      show (th.point sc).state.isThreadDone = true
      rw [hx.state_eq, hdone]
    rw [run_turn] at hnone
    injection hnone with _ heq
    rw [heq]
    exact inv_of_quiet h hx hq

theorem inv_afterEnd (sc : Script) (h : th.Inv) : (afterEnd sc th).Inv := by
  have hx : Lifecycle.Extends th [.endThread] (endThread th) := ⟨rfl, rfl, by simp [endThread]⟩
  have hq : Lifecycle.Quiet [.endThread] := by simp [Lifecycle.Quiet]
  obtain ⟨b, th', hrun, hinv, -⟩ := Lifecycle.runLoop_inv sc 2 (inv_of_quiet h hx hq)
  rw [(run_afterEnd sc th).1] at hrun
  injection hrun with _ heq
  rwa [heq]

end HeartbeatSpec.ThreadComplex
