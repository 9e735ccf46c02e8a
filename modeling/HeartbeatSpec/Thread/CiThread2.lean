import HeartbeatSpec.Base.Contract

/-!
# The thread state machine

Library `Thread`. `cihb::CCiThread2`, `legacy_compatible/legacy_support.cpp:222–406`; the
vendored `::CCiThread2`, `examples/Externals/CiUtils/Src/CiThread2.cpp:26–232`, has the same
text. The virtual callbacks and the place where an object keeps its state and exit flag are
parameters, so that one `threadProc` serves every class and an object with two such parts.
-/

namespace HeartbeatSpec.Thread
open HeartbeatSpec.Base

/-- `CiThread2State_t`, `legacy_compatible/legacy_support.h:64–74`. -/
inductive CiThread2State where
  | ready
  | doneInitInstance
  | doneRun
  | doneExitInstance
  | doneExitInstanceError
  | done
  | doneError
  | error
  | inactive
  deriving DecidableEq, Repr

/-- `IsThreadDone` on a state, `legacy_compatible/legacy_support.h:121–124`. -/
def CiThread2State.isThreadDone (s : CiThread2State) : Bool :=
  s == .done || s == .doneError

/-- What `ThreadProc` uses of an object of type `σ`: its exit flag and state, its three
callbacks, and what other threads do to it between two calls of `ThreadProc` and just
before the exit flag is tested. A callback may end in an exception of type `ε`. -/
structure CiThread2Class (ε σ : Type) where
  bExit : σ → Bool
  state : σ → CiThread2State
  setState : CiThread2State → σ → σ
  initInstance : EStateM ε σ Bool
  run : EStateM ε σ Bool
  exitInstance : EStateM ε σ Bool
  betweenProcs : EStateM ε σ Unit
  beforeTest : EStateM ε σ Unit

namespace CiThread2Class

variable {ε σ : Type} (c : CiThread2Class ε σ)

/-- The labels `DONE_EXITINSTANCE` and `DONE_EXITINSTANCE_ERROR`,
`legacy_compatible/legacy_support.cpp:389–399`. -/
def procDoneExitInstance : EStateM ε σ Unit := do
  if c.state (← get) == .doneExitInstance then
    modify (c.setState .done)
  else
    modify (c.setState .doneError)

/-- The labels `DONE_RUN`, `ERROR` and `default`, running through to the exit labels,
`legacy_compatible/legacy_support.cpp:379–387`. -/
def procDoneRun : EStateM ε σ Unit := do
  let _ ← c.exitInstance
  if c.state (← get) == .doneRun then
    modify (c.setState .doneExitInstance)
  else
    modify (c.setState .doneExitInstanceError)
  c.procDoneExitInstance

/-- The label `DONE_INITINSTANCE`, running through to `DONE_RUN` once the exit flag is set,
`legacy_compatible/legacy_support.cpp:368–377`. -/
def procDoneInitInstance : EStateM ε σ Unit := do
  c.beforeTest
  if !c.bExit (← get) then
    if (← c.run) != true then
      modify (c.setState .error)
  else
    modify (c.setState .doneRun)
    c.procDoneRun

/-- The label `READY`, running through to `DONE_INITINSTANCE`,
`legacy_compatible/legacy_support.cpp:359–366`. -/
def procReady : EStateM ε σ Unit := do
  if (← c.initInstance) != true then
    modify (c.setState .error)
  else
    modify (c.setState .doneInitInstance)
    c.procDoneInitInstance

/-- `CCiThread2::ThreadProc`, `legacy_compatible/legacy_support.cpp:356–406`. -/
def threadProc : EStateM ε σ Unit := do
  match c.state (← get) with
  | .ready => c.procReady
  | .doneInitInstance => c.procDoneInitInstance
  | .doneExitInstance | .doneExitInstanceError => c.procDoneExitInstance
  | .done | .doneError => pure ()
  | .doneRun | .error | .inactive => c.procDoneRun

/-- One turn of the loop around `ThreadProc`: what other threads did since the last one,
then the call. -/
def turn : EStateM ε σ Unit := do
  c.betweenProcs
  c.threadProc

/-- At most `n` turns of the loop in `RunThreadHere` and `_CiThread2Entry`,
`legacy_compatible/legacy_support.cpp:232–234,304–306`; the result tells whether the loop
has ended. -/
def runLoop : Nat → EStateM ε σ Bool
  | 0 => do return (c.state (← get)).isThreadDone
  | n + 1 => do
    if (c.state (← get)).isThreadDone then
      return true
    else
      c.turn
      runLoop n

/-- In a done state nothing is called and nothing changes. -/
theorem threadProc_of_done {s : σ} (h : (c.state s).isThreadDone = true) :
    c.threadProc.run s = .ok () s := by
  cases hs : c.state s <;> simp_all [CiThread2State.isThreadDone, threadProc]

/-- The loop ends as soon as a done state is reached, whatever turns are left. -/
theorem runLoop_of_done {s : σ} (h : (c.state s).isThreadDone = true) (n : Nat) :
    (c.runLoop n).run s = .ok true s := by
  cases n with
  | zero =>
    change EStateM.Result.ok (c.state s).isThreadDone s = _
    rw [h]
  | succ n => simp [runLoop, h]

/-- A turn from a state that is not done. -/
theorem runLoop_succ {s : σ} (h : (c.state s).isThreadDone = false) (n : Nat) :
    (c.runLoop (n + 1)).run s = (c.turn >>= fun _ ↦ c.runLoop n).run s := by
  rw [runLoop, EStateM.run_bind, EStateM.run_get]
  show EStateM.run (if (c.state s).isThreadDone then pure true else _) s = _
  rw [h]
  rfl

/-- A turn in which `InitInstance` succeeds goes on at `DONE_INITINSTANCE`. -/
theorem run_turn_of_init {s s₁ s₂ : σ} (hbetween : c.betweenProcs.run s = .ok () s₁)
    (hstate : c.state s₁ = .ready) (hinit : c.initInstance.run s₁ = .ok true s₂) :
    c.turn.run s = c.procDoneInitInstance.run (c.setState .doneInitInstance s₂) := by
  rw [turn, EStateM.run_bind, hbetween]
  show c.threadProc.run s₁ = _
  rw [threadProc, EStateM.run_bind, EStateM.run_get]
  simp only [hstate]
  rw [procReady, EStateM.run_bind, hinit]
  rfl

/-- A turn in which `InitInstance` fails ends in `ERROR`. -/
theorem run_turn_of_init_failed {s s₁ s₂ : σ} (hbetween : c.betweenProcs.run s = .ok () s₁)
    (hstate : c.state s₁ = .ready) (hinit : c.initInstance.run s₁ = .ok false s₂) :
    c.turn.run s = .ok () (c.setState .error s₂) := by
  rw [turn, EStateM.run_bind, hbetween]
  show c.threadProc.run s₁ = _
  rw [threadProc, EStateM.run_bind, EStateM.run_get]
  simp only [hstate]
  rw [procReady, EStateM.run_bind, hinit]
  rfl

/-- An exception that leaves `Run` leaves `ThreadProc`. -/
theorem run_procDoneInitInstance_error {s s₁ s₂ : σ} {f : ε}
    (hbefore : c.beforeTest.run s = .ok () s₁) (hexit : c.bExit s₁ = false)
    (hrun : c.run.run s₁ = .error f s₂) : c.procDoneInitInstance.run s = .error f s₂ := by
  simp only [procDoneInitInstance, EStateM.run_bind, hbefore, EStateM.run_get, hexit,
    Bool.not_false, if_true, hrun]

/-- What a turn preserves, the whole loop preserves. -/
theorem runLoop_induct {P : σ → Prop}
    (hturn : ∀ s, P s → (c.state s).isThreadDone = false →
      ∃ s', c.turn.run s = .ok () s' ∧ P s')
    (n : Nat) {s : σ} (hs : P s) :
    ∃ b s', (c.runLoop n).run s = .ok b s' ∧ P s' ∧ b = (c.state s').isThreadDone := by
  induction n generalizing s with
  | zero => exact ⟨_, s, rfl, hs, rfl⟩
  | succ n ih =>
    cases hd : (c.state s).isThreadDone with
    | true => exact ⟨true, s, c.runLoop_of_done hd _, hs, hd.symm⟩
    | false =>
      obtain ⟨t, ht, hP⟩ := hturn s hs hd
      obtain ⟨b, s', hr, hP', hb⟩ := ih hP
      refine ⟨b, s', ?_, hP', hb⟩
      rw [c.runLoop_succ hd, EStateM.run_bind, ht]
      exact hr

/-- The loop can be cut into two parts at any turn. -/
theorem runLoop_add (m n : Nat) {s s' : σ} {b : Bool}
    (h : (c.runLoop m).run s = .ok b s') :
    (c.runLoop (m + n)).run s = (c.runLoop n).run s' := by
  induction m generalizing s with
  | zero =>
    cases h
    rw [Nat.zero_add]
  | succ m ih =>
    cases hd : (c.state s).isThreadDone with
    | true =>
      rw [c.runLoop_of_done hd] at h
      cases h
      rw [c.runLoop_of_done hd, c.runLoop_of_done hd]
    | false =>
      rw [Nat.succ_add, c.runLoop_succ hd, EStateM.run_bind]
      rw [c.runLoop_succ hd, EStateM.run_bind] at h
      cases ht : c.turn.run s with
      | ok u t =>
        rw [ht] at h
        exact ih h
      | error e t =>
        rw [ht] at h
        cases h

/-- The callbacks, what other threads do, and every change of the state keep an invariant. -/
structure Keeps (I : σ → Prop) (E : ε → σ → Prop) : Prop where
  initInstance : Base.Keeps I E c.initInstance
  run : Base.Keeps I E c.run
  exitInstance : Base.Keeps I E c.exitInstance
  betweenProcs : Base.Keeps I E c.betweenProcs
  beforeTest : Base.Keeps I E c.beforeTest
  setState : ∀ st s, I s → I (c.setState st s)

namespace Keeps

variable {c} {I : σ → Prop} {E : ε → σ → Prop}

private theorem procDoneExitInstance (h : c.Keeps I E) : Base.Keeps I E c.procDoneExitInstance :=
  Base.Keeps.get_bind fun _ ↦
    Base.Keeps.ite (Base.Keeps.modify (h.setState _)) (Base.Keeps.modify (h.setState _))

private theorem procDoneRun (h : c.Keeps I E) : Base.Keeps I E c.procDoneRun := by
  refine h.exitInstance.bind fun _ ↦ Base.Keeps.get_bind fun s ↦ Base.Keeps.ite ?_ ?_
  · exact (Base.Keeps.modify (h.setState _)).bind fun _ ↦ h.procDoneExitInstance
  · exact (Base.Keeps.modify (h.setState _)).bind fun _ ↦ h.procDoneExitInstance

private theorem procDoneInitInstance (h : c.Keeps I E) :
    Base.Keeps I E c.procDoneInitInstance := by
  refine h.beforeTest.bind fun _ ↦ Base.Keeps.get_bind fun s ↦ Base.Keeps.ite ?_ ?_
  · exact h.run.bind fun _ ↦ Base.Keeps.ite (Base.Keeps.modify (h.setState _)) (Base.Keeps.pure _)
  · exact (Base.Keeps.modify (h.setState _)).bind fun _ ↦ h.procDoneRun

private theorem procReady (h : c.Keeps I E) : Base.Keeps I E c.procReady := by
  refine h.initInstance.bind fun _ ↦ Base.Keeps.ite ?_ ?_
  · exact Base.Keeps.modify (h.setState _)
  · exact (Base.Keeps.modify (h.setState _)).bind fun _ ↦ h.procDoneInitInstance

/-- `ThreadProc` keeps what the callbacks keep. -/
theorem threadProc (h : c.Keeps I E) : Base.Keeps I E c.threadProc := by
  refine Base.Keeps.get_bind fun s ↦ ?_
  split
  · exact h.procReady
  · exact h.procDoneInitInstance
  · exact h.procDoneExitInstance
  · exact h.procDoneExitInstance
  · exact Base.Keeps.pure _
  · exact Base.Keeps.pure _
  · exact h.procDoneRun
  · exact h.procDoneRun
  · exact h.procDoneRun

/-- So does the loop around it, over any number of turns. -/
theorem runLoop (h : c.Keeps I E) (n : Nat) : Base.Keeps I E (c.runLoop n) := by
  induction n with
  | zero => exact Base.Keeps.get_bind fun _ ↦ Base.Keeps.pure _
  | succ n ih =>
    refine Base.Keeps.get_bind fun s ↦ Base.Keeps.ite (Base.Keeps.pure _) ?_
    exact (h.betweenProcs.bind fun _ ↦ h.threadProc).bind fun _ ↦ ih

end Keeps

/-! ### A thread that has stopped -/

section Stopped

variable {c} {J : σ → Prop} {E : ε → σ → Prop}
  (hstopped : ∀ s, J s → c.state s ≠ .ready ∧ c.state s ≠ .doneInitInstance)
  (hset : ∀ st s, st ≠ .ready → st ≠ .doneInitInstance → J s → J (c.setState st s))
  (hexit : Base.Keeps J E c.exitInstance) (hbetween : Base.Keeps J E c.betweenProcs)

include hset in
private theorem keeps_procDoneExitInstance : Base.Keeps J E c.procDoneExitInstance := by
  refine Base.Keeps.get_bind fun s ↦ Base.Keeps.ite ?_ ?_
  · exact Base.Keeps.modify fun s ↦ hset _ s (by decide) (by decide)
  · exact Base.Keeps.modify fun s ↦ hset _ s (by decide) (by decide)

include hset hexit in
private theorem keeps_procDoneRun : Base.Keeps J E c.procDoneRun := by
  refine hexit.bind fun _ ↦ Base.Keeps.get_bind fun s ↦ Base.Keeps.ite ?_ ?_
  · exact (Base.Keeps.modify fun s ↦ hset _ s (by decide) (by decide)).bind
      fun _ ↦ keeps_procDoneExitInstance hset
  · exact (Base.Keeps.modify fun s ↦ hset _ s (by decide) (by decide)).bind
      fun _ ↦ keeps_procDoneExitInstance hset

include hstopped hset hexit hbetween

/-- Once a thread has left `READY` and `DONE_INITINSTANCE`, a turn keeps what `ExitInstance` and
the other threads keep. -/
theorem keeps_turn_of_stopped : Base.Keeps J E c.turn := by
  refine hbetween.bind fun _ ↦ Contract.get_bind fun s hs ↦ ?_
  obtain ⟨hready, hinit⟩ := hstopped s hs
  cases hstate : c.state s with
  | ready => exact absurd hstate hready
  | doneInitInstance => exact absurd hstate hinit
  | doneExitInstance | doneExitInstanceError =>
    exact Contract.at_state (keeps_procDoneExitInstance hset) hs
  | done | doneError => exact Contract.at_state (Base.Keeps.pure _) hs
  | doneRun | error | inactive => exact Contract.at_state (keeps_procDoneRun hset hexit) hs

/-- So does any number of turns. -/
theorem keeps_runLoop_of_stopped (n : Nat) : Base.Keeps J E (c.runLoop n) := by
  induction n with
  | zero => exact Base.Keeps.get_bind fun _ ↦ Base.Keeps.pure _
  | succ n ih =>
    refine Base.Keeps.get_bind fun s ↦ Base.Keeps.ite (Base.Keeps.pure _) ?_
    exact (keeps_turn_of_stopped hstopped hset hexit hbetween).bind fun _ ↦ ih

end Stopped
end CiThread2Class
end HeartbeatSpec.Thread
