import HeartbeatSpec.Legacy.Callbacks
import HeartbeatSpec.Legacy.Descriptors
import HeartbeatSpec.Thread.Ending

/-!
# What a run leaves behind

Library `Legacy`. A run that has ended has called `ExitInstance`, which leaves no read socket and
an empty poll table. Whatever survives the event loop and the handlers survives the run.
-/

namespace HeartbeatSpec.Legacy
open HeartbeatSpec.Base HeartbeatSpec.Thread

variable {δ : Type}

/-- No socket is registered. -/
structure Closed (w : World δ) : Prop where
  readSockets : w.thread.readSockets = ∅
  pollFds : w.thread.pollFds = .empty
  eventsCount : w.thread.eventsCount = 0

/-- `ExitInstance` unregisters every socket. -/
theorem closed_exited (w : World δ) : Closed (exited w) := ⟨rfl, rfl, rfl⟩

/-- The state of the thread is not part of it. -/
theorem Closed.withState {w : World δ} (h : Closed w) (st : CiThread2State) :
    Closed (w.withThread fun th ↦ { th with state := st }) :=
  ⟨h.readSockets, h.pollFds, h.eventsCount⟩

/-- Nor is what other threads change. -/
theorem Closed.clientCalls {w : World δ} (h : Closed w) (set : Message.CiHBState → δ → δ)
    (calls : List ClientCall) : Closed (clientCalls set calls w) := by
  obtain ⟨b, hb⟩ := thread_clientCalls set calls w
  refine ⟨?_, ?_, ?_⟩
  · rw [hb]
    exact h.readSockets
  · rw [hb]
    exact h.pollFds
  · rw [hb]
    exact h.eventsCount

namespace Responser

variable {I : World Responser → Prop}

/-- Other threads leave the state of the thread. -/
theorem state_afterOthers (w : World Responser) :
    (afterOthers w).thread.state = w.thread.state :=
  state_clientCalls setProcessState (w.env 0).clients w.next

/-- An invariant of the loop and of the handlers is one beside the state of the thread. -/
theorem keeps_run_of_state (hloop : LoopInvariant I) (hhandlers : HandlerInvariant I)
    (e : Endian) (st : CiThread2State) :
    Keeps (fun w ↦ I w ∧ w.thread.state = st) (fun _ _ ↦ True) (Legacy.run (overrides e)) := by
  have hloop' : LoopInvariant fun w : World Responser ↦ I w ∧ w.thread.state = st :=
    { next := fun w hw ↦ ⟨hloop.next w hw.1, hw.2⟩
      record := fun ev w hev hw ↦ ⟨hloop.record ev w hev hw.1, hw.2⟩
      eventsCount := fun count w hw ↦ ⟨hloop.eventsCount count w hw.1, hw.2⟩
      report := fun revents count w hw ↦ ⟨hloop.report revents count w hw.1, hw.2⟩ }
  have hhandlers' : HandlerInvariant fun w : World Responser ↦ I w ∧ w.thread.state = st :=
    { cleared := fun i w hw ↦ ⟨hhandlers.cleared i w hw.1, hw.2⟩
      received := fun sockfd w hw ↦ ⟨hhandlers.received sockfd w hw.1, hw.2⟩
      afterOthers := fun w hw ↦ ⟨hhandlers.afterOthers w hw.1, (state_afterOthers w).trans hw.2⟩
      sentTo := fun sockfd bytes w hw ↦ ⟨hhandlers.sentTo sockfd bytes w hw.1, hw.2⟩ }
  exact Contract.mono (hloop'.run (hhandlers'.handlersKeep e)) (fun _ hw ↦ hw) (fun _ _ hw ↦ hw)
    fun _ _ _ ↦ trivial

/-- What the loop, the handlers and `ExitInstance` keep is left by every run that ends, and so
is an object without sockets. -/
theorem exits (hloop : LoopInvariant I) (hhandlers : HandlerInvariant I)
    (hexited : ∀ w, I w → I (exited w))
    (hstate : ∀ st w, I w → I (w.withThread fun th ↦ { th with state := st })) (e : Endian) :
    (threadClass e).Exits I Closed (fun _ _ ↦ True) where
  run := keeps_run_of_state hloop hhandlers e .doneInitInstance
  beforeTest w hw := ⟨hhandlers.afterOthers w hw.1, (state_afterOthers w).trans hw.2⟩
  betweenProcs := by
    refine Contract.of_run fun w hw ↦ ⟨(), afterOthers w, rfl, ?_, ?_, ?_⟩
    · exact hhandlers.afterOthers w hw.inv
    · exact fun h ↦ hw.not_ready ((state_afterOthers w).symm.trans h)
    · intro he
      have hclosed : Closed w := hw.exited ((congrArg _ (state_afterOthers w)).symm.trans he)
      have hnext : Closed w.next := ⟨hclosed.1, hclosed.2, hclosed.3⟩
      exact hnext.clientCalls _ _
  exitInstance :=
    Contract.of_run fun w hw ↦ ⟨true, exited w, run_exitInstance w, hexited w hw, closed_exited w⟩
  inv_setState := hstate
  exited_setState st _ hw := hw.withState st
  state_setState _ _ := rfl

end Responser
end HeartbeatSpec.Legacy
