import HeartbeatSpec.Complex.Adapter
import HeartbeatSpec.Legacy.Endurance
import HeartbeatSpec.Legacy.ResponserLockstep

/-!
# The state is only for `ThreadProc`

Library `Complex`. No function of the responder reads or writes the state of its thread, so
that two responders that differ in it, and whose exit flags are both clear, stay in lockstep.
-/

namespace HeartbeatSpec.Complex
open HeartbeatSpec.Base HeartbeatSpec.Legacy HeartbeatSpec.Thread

/-- The second responder is the first with state `st`; the exit flags are clear, and nobody
sets them. -/
structure Twin (st : CiThread2State) (v u : World Responser) : Prop where
  bExit : v.thread.bExit = false
  quiet : v.Quiet
  eq : u = v.withThread fun th ↦ { th with state := st }

variable {st : CiThread2State} {α : Type}

/-- Calls of other threads leave the state, and as long as none is `EndThread` the exit flag. -/
theorem clientCalls_twin {calls : List ClientCall} (hcalls : .endThread ∉ calls)
    {v u : World Responser} (h : Twin st v u) :
    Twin st (clientCalls Responser.setProcessState calls v)
      (clientCalls Responser.setProcessState calls u) := by
  induction calls generalizing v u with
  | nil => exact h
  | cons call rest ih =>
    rw [List.mem_cons, not_or] at hcalls
    cases call with
    | endThread => exact absurd rfl hcalls.1
    | setProcess s =>
      obtain ⟨hexit, hquiet, rfl⟩ := h
      exact ih hcalls.2 ⟨hexit, hquiet, rfl⟩

/-- What other threads do is alike. -/
theorem alike_others : Alike (Twin st) Responser.others Responser.others := by
  rintro v _ ⟨hexit, hquiet, rfl⟩
  refine ⟨_, rfl, clientCalls_twin (hquiet 0) ⟨hexit, fun k ↦ hquiet (k + 1), rfl⟩⟩

/-- The event loop and the replies do not look at the state. -/
theorem lockstep_twin (st : CiThread2State) : ResponserLockstep (Twin st) where
  thread := by
    rintro v _ ⟨-, -, rfl⟩
    rfl
  env := by
    rintro v _ ⟨-, -, rfl⟩
    rfl
  next := by
    rintro v _ ⟨hexit, hquiet, rfl⟩
    exact ⟨hexit, fun k ↦ hquiet (k + 1), rfl⟩
  record := by
    rintro ev v _ ⟨hexit, hquiet, rfl⟩
    exact ⟨hexit, hquiet, rfl⟩
  sockets := by
    rintro _ _ _ v _ ⟨hexit, hquiet, rfl⟩
    exact ⟨hexit, hquiet, rfl⟩
  identity := by
    rintro v _ ⟨-, -, rfl⟩
    rfl
  portNumber := by
    rintro v _ ⟨-, -, rfl⟩
    rfl
  processState := by
    rintro v _ ⟨-, -, rfl⟩
    rfl
  others := alike_others

/-! ### Functions of the responder -/

private theorem alike_receiveIntMessage (e : Endian) (sockfd : Int) :
    Alike (Twin st) (Responser.receiveIntMessage e sockfd)
      (Responser.receiveIntMessage e sockfd) := by
  refine Alike.ite (fun _ ↦ Alike.pure _) fun _ ↦ (lockstep_twin st).consult.bind fun o ↦ ?_
  refine ((lockstep_twin st).emit _).bind fun _ ↦ Alike.bind (Alike.modify ?_) fun _ ↦ ?_
  · rintro v _ ⟨hexit, hquiet, rfl⟩
    exact ⟨hexit, hquiet, rfl⟩
  · refine Alike.ite (fun _ ↦ Alike.pure _) fun _ ↦ ?_
    refine Alike.ite (fun _ ↦ Alike.pure _) fun _ ↦ Alike.get_bind ?_
    rintro v _ ⟨-, -, rfl⟩
    exact Alike.pure _

private theorem alike_onMessage (e : Endian) (sockfd : Int) (iMessage : Int32) :
    Alike (Twin st) (Responser.onMessage e sockfd iMessage)
      (Responser.onMessage e sockfd iMessage) := by
  have hsaRecv : ∀ v u, Twin st v u → u.own.saRecv = v.own.saRecv := by
    rintro v _ ⟨-, -, rfl⟩
    rfl
  refine Alike.ite (fun _ ↦ Alike.pure _) fun _ ↦ Alike.ite (fun _ ↦ ?_) fun _ ↦ Alike.pure _
  refine Alike.bind ?_ fun _ ↦ Alike.pure _
  apply Alike.get_bind
  rintro v _ ⟨-, -, rfl⟩
  exact (lockstep_twin st).sendHeartbeatResponse hsaRecv e sockfd _

/-- The handling of a readable entry is alike. -/
theorem alike_processEntry (e : Endian) (i : Nat) :
    Alike (Twin st) (processEntry (Responser.overrides e) i)
      (processEntry (Responser.overrides e) i) := by
  have hfd (i : Nat) := (lockstep_twin st).fdAt i
  refine (lockstep_twin st).modifyThread.bind fun _ ↦ ?_
  refine (hfd i).bind fun fd ↦ (alike_receiveIntMessage e fd).bind fun msg ↦ ?_
  cases msg with
  | none => exact (hfd i).bind fun fd' ↦ (Alike.pure _).bind fun _ ↦ Alike.pure _
  | some iMessage =>
    refine (hfd i).bind fun fd' ↦ (alike_onMessage e fd' iMessage).bind fun b ↦ ?_
    refine Alike.ite (fun _ ↦ ?_) fun _ ↦ Alike.pure _
    exact (hfd i).bind fun fd'' ↦ (Alike.pure _).bind fun _ ↦ Alike.pure _

/-- `Run` is alike. -/
theorem alike_run (e : Endian) :
    Alike (Twin st) (Legacy.run (Responser.overrides e)) (Legacy.run (Responser.overrides e)) :=
  (lockstep_twin st).run alike_others fun i v u h _ ↦ alike_processEntry e i v u h

/-! ### The adapter and its responder alone -/

/-- The responder alone is the responder of the adapter with the state of the second base. -/
structure Twins (a : Adapter) (u : World Responser) : Prop
    extends Twin a.state a.responser u where
  running : a.bExit = false
  active : a.state ≠ .inactive

private theorem alike_onResponser {x : Call Responser α} (h : ∀ st, Alike (Twin st) x x) :
    Alike Twins (Adapter.onResponser x) x := by
  rintro a u ⟨htwin, hrunning, hactive⟩
  have hr := h a.state a.responser u htwin
  rw [Adapter.run_onResponser]
  cases hx : x.run a.responser with
  | ok r w =>
    rw [hx] at hr
    obtain ⟨u', hu, htwin'⟩ := hr
    exact ⟨u', hu, htwin', hrunning, hactive⟩
  | error f w =>
    rw [hx] at hr
    obtain ⟨u', hu, htwin'⟩ := hr
    exact ⟨u', hu, htwin', hrunning, hactive⟩

/-- The adapter and the responder alone are alike as thread classes. -/
theorem threadClass_alike (e : Endian) :
    (Adapter.threadClass e).Alike (Responser.threadClass e) Twins where
  state := by
    rintro a _ ⟨⟨-, -, rfl⟩, -, -⟩
    rfl
  bExit := by
    rintro a _ ⟨⟨hexit, -, rfl⟩, hrunning, -⟩
    exact hrunning.trans hexit.symm
  setState := by
    rintro st a _ hst ⟨⟨hexit, hquiet, rfl⟩, hrunning, -⟩
    exact ⟨⟨hexit, hquiet, rfl⟩, hrunning, hst⟩
  initInstance := alike_onResponser fun st ↦ (lockstep_twin st).initInstance
  run := alike_onResponser fun _ ↦ alike_run e
  exitInstance := alike_onResponser fun st ↦ (lockstep_twin st).exitInstance
  betweenProcs := alike_onResponser fun _ ↦ alike_others
  beforeTest := alike_onResponser fun _ ↦ alike_others

/-- A tick of the adapter is alike to a turn of the responder alone. -/
theorem alike_tick (e : Endian) :
    Alike Twins (Adapter.tick e) (Responser.threadClass e).turn := by
  intro a u h
  rw [Adapter.run_tick e h.active]
  have halike := threadClass_alike e
  exact halike.turn a u h

end HeartbeatSpec.Complex
