import HeartbeatSpec.Legacy.Calls
import HeartbeatSpec.Legacy.EventLoop

/-!
# Invariants of the responder's callbacks

Library `Legacy`. What an invariant has to survive to hold through `InitInstance`,
`ExitInstance` and the handling of a readable entry of `CCiHBResponser`.
-/

namespace HeartbeatSpec.Legacy
open HeartbeatSpec.Base HeartbeatSpec.Thread

/-- The events that starting up and closing down record. -/
def SysEvent.IsSetup : SysEvent → Prop
  | .socket _ | .setsockopt _ _ | .bind _ _ _ | .close _ => True
  | _ => False

/-- An invariant survives what starting up and closing down change. -/
structure SetupInvariant {δ : Type} (I : World δ → Prop) : Prop where
  next : ∀ w, I w → I w.next
  record : ∀ ev w, ev.IsSetup → I w → I (w.record ev)
  sockets : ∀ (readSockets : NetworkThread → Finset Int) (pollFds : NetworkThread → PollTable)
    (count : NetworkThread → Int) w, I w →
    I (w.withThread fun th ↦
      { th with readSockets := readSockets th, pollFds := pollFds th, eventsCount := count th })

namespace SetupInvariant

private theorem emit {δ : Type} {I : World δ → Prop} {E : Fault → World δ → Prop}
    (h : SetupInvariant I) {ev : SysEvent} (hev : ev.IsSetup := by exact trivial) :
    Keeps I E (emit ev : Call δ Unit) :=
  keeps_emit fun w ↦ h.record ev w hev

/-- `ExitInstance` keeps the invariant. -/
theorem exitInstance {δ : Type} {I : World δ → Prop} {E : Fault → World δ → Prop}
    (h : SetupInvariant I) : Keeps I E (exitInstance : Call δ Bool) := by
  refine Keeps.get_bind fun w ↦ (Keeps.forM (fun sock ↦ ?_) _).bind fun _ ↦ ?_
  · exact h.emit
  · exact (keeps_modifyThread (h.sockets _ _ _)).bind fun _ ↦ Keeps.pure _

variable {I : World Responser → Prop} {E : Fault → World Responser → Prop}

/-- `InitInstance` keeps the invariant. -/
theorem initInstance (h : SetupInvariant I) : Keeps I E Responser.initInstance := by
  refine (keeps_consult h.next).bind fun o ↦ ?_
  refine h.emit.bind fun _ ↦ ?_
  refine Keeps.ite (Keeps.pure _) ((keeps_consult h.next).bind fun o' ↦ ?_)
  refine h.emit.bind fun _ ↦ ?_
  refine Keeps.ite (Keeps.pure _) ((keeps_consult h.next).bind fun o'' ↦ ?_)
  refine Keeps.get_bind fun v ↦ ?_
  refine h.emit.bind fun _ ↦ ?_
  refine Keeps.ite (Keeps.pure _) (Keeps.bind ?_ fun b ↦ Keeps.ite ?_ ?_)
  · refine Keeps.ite (Keeps.pure _) (Keeps.bind ?_ fun _ ↦ Keeps.pure _)
    exact keeps_modifyThread (h.sockets _ NetworkThread.pollFds NetworkThread.eventsCount)
  · exact h.emit.bind fun _ ↦ Keeps.pure _
  · refine Keeps.bind ?_ fun b' ↦ Keeps.ite (Keeps.pure _) (Keeps.pure _)
    exact keeps_onTable (h.sockets NetworkThread.readSockets _ NetworkThread.eventsCount)

end SetupInvariant

namespace Responser

variable {I : World Responser → Prop}

/-- An invariant survives what the handling of a datagram changes. -/
structure HandlerInvariant (I : World Responser → Prop) : Prop where
  cleared : ∀ i w, I w → I (cleared i w)
  received : ∀ sockfd w, I w → I (received sockfd w)
  afterOthers : ∀ w, I w → I (afterOthers w)
  sentTo : ∀ sockfd bytes w, I w → I (sentTo sockfd bytes w)

/-- The handlers keep the invariant, however they are left. -/
theorem HandlerInvariant.handlersKeep (h : HandlerInvariant I) (e : Endian) :
    HandlersKeep I (fun _ ↦ I) (overrides e) where
  others w hw := h.afterOthers w hw
  entry i := by
    rintro w ⟨hw, -, hvalid, -⟩
    have hreceived := h.received (w.thread.pollFds.fds i).fd _ (h.cleared i w hw)
    rw [run_processEntry e i rfl hvalid]
    by_cases hreq : (w.env 0).recvfrom.ret = 8 ∧
        bufferedMessage e (Responser.received (w.thread.pollFds.fds i).fd (Responser.cleared i w)) =
          Message.CiHBMessageType.heartbeatRequest.code
    · rw [if_pos hreq]
      generalize Responser.received (w.thread.pollFds.fds i).fd (Responser.cleared i w) = v
        at hreceived
      have hafter := h.afterOthers v hreceived
      cases hb : buildResponse e (Responser.afterOthers v).own.identity
          (Responser.afterOthers v).own.processState (bufferedSeqNum e v) with
      | error f =>
        rw [run_sendHeartbeatResponse_error hb]
        exact hafter
      | ok bytes =>
        obtain ⟨b, hr⟩ := run_sendHeartbeatResponse_ok (w.thread.pollFds.fds i).fd hb
        rw [hr]
        exact h.sentTo _ _ _ hafter
    · rw [if_neg hreq]
      exact hreceived

end Responser
end HeartbeatSpec.Legacy
