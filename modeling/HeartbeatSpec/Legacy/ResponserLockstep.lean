import HeartbeatSpec.Legacy.Calls
import HeartbeatSpec.Legacy.Lockstep
import HeartbeatSpec.Thread.Lockstep

/-!
# Responders in lockstep

Library `Legacy`. Two responders with the same addresses, port and process state, which other
threads call alike. What they do before a datagram has come, and the reply to one, is alike.
-/

namespace HeartbeatSpec.Legacy
open HeartbeatSpec.Base HeartbeatSpec.Message HeartbeatSpec.Thread

/-- A relation of two responders survives what the event loop changes, and relates only responders
that reply alike. -/
structure ResponserLockstep (R : World Responser → World Responser → Prop) : Prop
    extends LoopLockstep R where
  identity : ∀ v u, R v u → u.own.identity = v.own.identity
  portNumber : ∀ v u, R v u → u.own.portNumber = v.own.portNumber
  processState : ∀ v u, R v u → u.own.processState = v.own.processState
  others : Alike R Responser.others Responser.others

namespace ResponserLockstep
open Responser

variable {R : World Responser → World Responser → Prop}

/-- `InitInstance` is alike. -/
theorem initInstance (h : ResponserLockstep R) :
    Alike R Responser.initInstance Responser.initInstance := by
  refine h.consult.bind fun o ↦ (h.emit _).bind fun _ ↦ ?_
  refine Alike.ite (fun _ ↦ Alike.pure _) fun _ ↦ h.consult.bind fun o' ↦ ?_
  refine (h.emit _).bind fun _ ↦ Alike.ite (fun _ ↦ Alike.pure _) fun _ ↦ ?_
  refine h.consult.bind fun o'' ↦ Alike.get_bind fun v u hvu ↦ ?_
  rw [h.portNumber v u hvu]
  refine (h.emit _).bind fun _ ↦ Alike.ite (fun _ ↦ Alike.pure _) fun _ ↦ ?_
  refine (h.addReadSocket _).bind fun b ↦ Alike.ite (fun _ ↦ ?_) fun _ ↦ ?_
  · exact (h.emit _).bind fun _ ↦ Alike.pure _
  · refine (h.onTable _).bind fun b' ↦ ?_
    exact Alike.ite (fun _ ↦ Alike.pure _) fun _ ↦ Alike.pure _

/-- A reply to the same address is alike. -/
theorem sendHeartbeatResponse (h : ResponserLockstep R)
    (hsaRecv : ∀ v u, R v u → u.own.saRecv = v.own.saRecv) (e : Endian) (sockfd : Int)
    (iSeqNum : Int32) :
    Alike R (Responser.sendHeartbeatResponse e sockfd iSeqNum)
      (Responser.sendHeartbeatResponse e sockfd iSeqNum) := by
  refine h.others.bind fun _ ↦ Alike.get_bind fun v u hvu ↦ ?_
  dsimp only
  rw [h.identity v u hvu, h.processState v u hvu, hsaRecv v u hvu]
  cases buildResponse e v.own.identity v.own.processState iSeqNum with
  | error f => exact Alike.throw f
  | ok bytes =>
    refine h.consult.bind fun o ↦ (h.emit _).bind fun _ ↦ ?_
    refine Alike.ite (fun _ ↦ Alike.pure _) fun _ ↦ ?_
    exact Alike.ite (fun _ ↦ Alike.pure _) fun _ ↦ Alike.pure _

/-- Responders that also show `ThreadProc` the same state are alike as thread classes, if the
handling of a readable entry is alike. -/
theorem threadClass (h : ResponserLockstep R)
    (hstate : ∀ v u, R v u → v.thread.state = u.thread.state)
    (hset : ∀ st v u, R v u → R (v.withThread fun th ↦ { th with state := st })
      (u.withThread fun th ↦ { th with state := st })) {e : Endian}
    (hentry : ∀ i v u, R v u → v.thread.pollFds.Readable i →
      AlikeAt R (processEntry (overrides e) i) (processEntry (overrides e) i) v u) :
    (Responser.threadClass e).Alike (Responser.threadClass e) R where
  state := hstate
  bExit v u hvu := by
    change v.thread.bExit = u.thread.bExit
    rw [h.thread v u hvu]
  setState st v u _ := hset st v u
  initInstance := h.initInstance
  run := h.run h.others hentry
  exitInstance := h.exitInstance
  betweenProcs := h.others
  beforeTest := h.others

end ResponserLockstep
end HeartbeatSpec.Legacy
