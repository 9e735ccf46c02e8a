import HeartbeatSpec.Legacy.Lockstep

/-!
# Recording the handlers

Library `Legacy`. What passes between the event loop and the handlers of a subclass is recorded
beside the subclass's own members. The record changes nothing: stripped of it, the loop does what
it does with the handlers alone.
-/

namespace HeartbeatSpec.Legacy
open HeartbeatSpec.Base

variable {δ α : Type}

/-- A call of a handler, or what it returned. -/
inductive HandlerEvent where
  | receive (sockfd : Int)
  | received (sockfd : Int) (iMessage : Option Int32)
  | message (sockfd : Int) (iMessage : Int32)
  | handled (sockfd : Int) (iMessage : Int32) (ret : Bool)
  | error (sockfd : Int)
  deriving DecidableEq, Repr

/-- The members of a subclass with the record of its handlers. -/
structure Recorded (δ : Type) where
  own : δ
  calls : List HandlerEvent

/-- The object without its record. -/
def World.plain (w : World (Recorded δ)) : World δ := ⟨w.thread, w.own.own, w.env, w.trace⟩

/-- The object with a record. -/
def World.recorded (calls : List HandlerEvent) (w : World δ) : World (Recorded δ) :=
  ⟨w.thread, ⟨w.own, calls⟩, w.env, w.trace⟩

/-- Run a member function, with what is recorded before it and after it returns. -/
def recording (before : List HandlerEvent) (after : α → List HandlerEvent) (x : Call δ α) :
    Call (Recorded δ) α := fun w ↦
  match x.run w.plain with
  | .ok a v => .ok a (v.recorded (w.own.calls ++ before ++ after a))
  | .error f v => .error f (v.recorded (w.own.calls ++ before))

/-- The handlers of a subclass, recorded. -/
def recorded (ov : Overrides δ) : Overrides (Recorded δ) where
  receiveIntMessage sockfd :=
    recording [.receive sockfd] (fun iMessage ↦ [.received sockfd iMessage])
      (ov.receiveIntMessage sockfd)
  onMessage sockfd iMessage :=
    recording [.message sockfd iMessage] (fun ret ↦ [.handled sockfd iMessage ret])
      (ov.onMessage sockfd iMessage)
  onReadSocketError sockfd :=
    recording [.error sockfd] (fun _ ↦ []) (ov.onReadSocketError sockfd)
  others := recording [] (fun _ ↦ []) ov.others

@[simp] theorem plain_recorded (calls : List HandlerEvent) (w : World δ) :
    (w.recorded calls).plain = w := rfl

theorem run_recording (before : List HandlerEvent) (after : α → List HandlerEvent)
    (x : Call δ α) (w : World (Recorded δ)) :
    (recording before after x).run w =
      match x.run w.plain with
      | .ok a v => .ok a (v.recorded (w.own.calls ++ before ++ after a))
      | .error f v => .error f (v.recorded (w.own.calls ++ before)) := rfl

/-! ### The record changes nothing -/

/-- The second object is the first without its record. -/
def Stripped (w : World (Recorded δ)) (u : World δ) : Prop := u = w.plain

theorem lockstep_stripped : LoopLockstep (Stripped (δ := δ)) where
  thread := by
    rintro v _ rfl
    rfl
  env := by
    rintro v _ rfl
    rfl
  next := by
    rintro v _ rfl
    rfl
  record := by
    rintro ev v _ rfl
    rfl
  sockets := by
    rintro _ _ _ v _ rfl
    rfl

theorem alike_recording (before : List HandlerEvent) (after : α → List HandlerEvent)
    (x : Call δ α) : Alike Stripped (recording before after x) x := by
  rintro w _ rfl
  rw [run_recording]
  cases hx : x.run w.plain with
  | ok a v => exact ⟨v, rfl, rfl⟩
  | error f v => exact ⟨v, rfl, rfl⟩

theorem alike_recorded_processEntry (ov : Overrides δ) (i : Nat) :
    Alike Stripped (processEntry (recorded ov) i) (processEntry ov i) := by
  refine lockstep_stripped.modifyThread.bind fun _ ↦ ?_
  refine (lockstep_stripped.fdAt i).bind fun fd ↦ (alike_recording _ _ _).bind fun msg ↦ ?_
  cases msg with
  | none =>
    refine (lockstep_stripped.fdAt i).bind fun fd' ↦ (alike_recording _ _ _).bind fun _ ↦ ?_
    exact Alike.pure _
  | some iMessage =>
    refine (lockstep_stripped.fdAt i).bind fun fd' ↦ (alike_recording _ _ _).bind fun b ↦ ?_
    refine Alike.ite (fun _ ↦ ?_) fun _ ↦ Alike.pure _
    refine (lockstep_stripped.fdAt i).bind fun fd'' ↦ (alike_recording _ _ _).bind fun _ ↦ ?_
    exact Alike.pure _

/-- `ProcessReadEvent` with recorded handlers is alike to that with the handlers alone. -/
theorem alike_recorded_processReadEvent (ov : Overrides δ) :
    Alike Stripped (processReadEvent (recorded ov)) (processReadEvent ov) :=
  lockstep_stripped.processReadEvent fun i v u hvu _ ↦ alike_recorded_processEntry ov i v u hvu

/-- So is `Run`. -/
theorem alike_recorded_run (ov : Overrides δ) : Alike Stripped (run (recorded ov)) (run ov) :=
  lockstep_stripped.run (alike_recording _ _ _) fun i v u hvu _ ↦
    alike_recorded_processEntry ov i v u hvu

end HeartbeatSpec.Legacy
