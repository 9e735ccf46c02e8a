import HeartbeatSpec.Legacy.Ending
import HeartbeatSpec.Legacy.History
import HeartbeatSpec.Legacy.ResponserLockstep

/-!
# Running again

Library `Legacy`. What an earlier run leaves is reset by `ExitInstance` and `PrepareRunning`
(`legacy_compatible/legacy_support.cpp:332–339,595–622`), or is not looked at: the receive buffer
and the sender's address are overwritten by every `recvfrom` that returns eight. A responder that
has run before therefore goes on like a new one.
-/

namespace HeartbeatSpec.Legacy
open HeartbeatSpec.Base HeartbeatSpec.Message HeartbeatSpec.Thread

/-- A `recvfrom` that returns eight has stored eight bytes and the sender. -/
def RecvOutcome.Whole (o : RecvOutcome) : Prop :=
  o.ret = 8 → o.stored.length = 8 ∧ o.sender ≠ none

/-- Every datagram is received whole. -/
theorem RecvOutcome.whole_of_isUdp {o : RecvOutcome} (h : o.IsUdp) : o.Whole := by
  intro h8
  cases o with
  | datagram d =>
    constructor
    · have hmin : ((min d.bytes.length 8 : Nat) : Int) = 8 := h8
      change (d.bytes.take 8).length = 8
      rw [List.length_take]
      omega
    · simp [sender]
  | other ret stored sender =>
    have hneg : ret < 0 := h
    have hret : ret = 8 := h8
    omega

namespace Responser

/-- The second responder does what the first does after `before`; they may differ in what they have
received. -/
structure Rerun (before : List SysEvent) (v u : World Responser) : Prop where
  thread : u.thread = v.thread
  identity : u.own.identity = v.own.identity
  portNumber : u.own.portNumber = v.own.portNumber
  processState : u.own.processState = v.own.processState
  env : u.env = v.env
  whole : ∀ k, (v.env k).recvfrom.Whole
  trace : v.trace = before ++ u.trace

namespace Rerun

variable {before : List SysEvent} {v u : World Responser}

theorem next (h : Rerun before v u) : Rerun before v.next u.next where
  thread := h.thread
  identity := h.identity
  portNumber := h.portNumber
  processState := h.processState
  env := congrArg (fun env k ↦ env (k + 1)) h.env
  whole k := h.whole (k + 1)
  trace := h.trace

theorem record (h : Rerun before v u) (ev : SysEvent) :
    Rerun before (v.record ev) (u.record ev) where
  thread := h.thread
  identity := h.identity
  portNumber := h.portNumber
  processState := h.processState
  env := h.env
  whole := h.whole
  trace := by
    change v.trace ++ [ev] = before ++ (u.trace ++ [ev])
    rw [h.trace, List.append_assoc]

theorem withThread (h : Rerun before v u) (f : NetworkThread → NetworkThread) :
    Rerun before (v.withThread f) (u.withThread f) where
  thread := congrArg f h.thread
  identity := h.identity
  portNumber := h.portNumber
  processState := h.processState
  env := h.env
  whole := h.whole
  trace := h.trace

theorem setProcessState (h : Rerun before v u) (st : CiHBState) :
    Rerun before { v with own := Responser.setProcessState st v.own }
      { u with own := Responser.setProcessState st u.own } where
  thread := h.thread
  identity := h.identity
  portNumber := h.portNumber
  processState := rfl
  env := h.env
  whole := h.whole
  trace := h.trace

theorem clientCalls (h : Rerun before v u) (calls : List ClientCall) :
    Rerun before (clientCalls Responser.setProcessState calls v)
      (clientCalls Responser.setProcessState calls u) := by
  induction calls generalizing v u with
  | nil => exact h
  | cons call rest ih =>
    cases call with
    | endThread =>
      apply ih
      exact (h.withThread _).record _
    | setProcess st =>
      apply ih
      exact (h.setProcessState st).record _

theorem afterOthers (h : Rerun before v u) :
    Rerun before (Responser.afterOthers v) (Responser.afterOthers u) := by
  have hclients : (u.env 0).clients = (v.env 0).clients := by rw [h.env]
  rw [Responser.afterOthers, Responser.afterOthers, hclients]
  exact h.next.clientCalls _

/-- After a `recvfrom` the responders still differ at most in what they have received. -/
theorem received (h : Rerun before v u) (sockfd : Int) :
    Rerun before (Responser.received sockfd v) (Responser.received sockfd u) := by
  have hrecv : (u.env 0).recvfrom = (v.env 0).recvfrom := by rw [h.env]
  have hnext := h.next.record (.recvfrom sockfd (v.env 0).recvfrom)
  rw [Responser.received, Responser.received, hrecv]
  exact ⟨hnext.thread, h.identity, h.portNumber, h.processState, hnext.env, hnext.whole,
    hnext.trace⟩

end Rerun

/-- The responders would also reply to the same address. -/
structure SameSender (before : List SysEvent) (v u : World Responser) : Prop
    extends Rerun before v u where
  saRecv : u.own.saRecv = v.own.saRecv

section Lockstep

variable {before : List SysEvent} {v u : World Responser}

theorem lockstep_rerun (before : List SysEvent) : ResponserLockstep (Rerun before) where
  thread v u h := by rw [h.thread]
  env _ _ h := h.env
  next _ _ h := h.next
  record ev _ _ h := h.record ev
  sockets _ _ _ _ _ h := h.withThread _
  identity _ _ h := h.identity
  portNumber _ _ h := h.portNumber
  processState _ _ h := h.processState
  others v u h := ⟨_, run_others u, h.afterOthers⟩

/-- Other threads leave the sender's address alone. -/
theorem SameSender.afterOthers (h : SameSender before v u) :
    SameSender before (afterOthers v) (afterOthers u) where
  toRerun := h.toRerun.afterOthers
  saRecv := by
    obtain ⟨st, hv⟩ := own_clientCalls (v.env 0).clients v.next
    obtain ⟨st', hu⟩ := own_clientCalls (u.env 0).clients u.next
    rw [Responser.afterOthers, Responser.afterOthers, hv, hu]
    exact h.saRecv

theorem lockstep_sameSender (before : List SysEvent) : ResponserLockstep (SameSender before) where
  thread v u h := by rw [h.thread]
  env _ _ h := h.env
  next _ _ h := ⟨h.next, h.saRecv⟩
  record ev _ _ h := ⟨h.record ev, h.saRecv⟩
  sockets _ _ _ _ _ h := ⟨h.withThread _, h.saRecv⟩
  identity _ _ h := h.identity
  portNumber _ _ h := h.portNumber
  processState _ _ h := h.processState
  others v u h := ⟨_, run_others u, h.afterOthers⟩

/-! ### The handling of a datagram -/

/-- Eight stored bytes are the first of the buffer. -/
theorem take_store {stored : List UInt8} (h : stored.length = 8) (b : RecvBuf) :
    (b.store stored).bytes.take 8 = stored := by
  have htake : stored.take 8 = stored := List.take_of_length_le (by omega)
  change (stored.take 8 ++ b.bytes.drop (stored.take 8).length).take 8 = stored
  rw [htake]
  exact List.take_left' h

/-- What a handler reads is among the first eight bytes. -/
theorem buffered_eq (e : Endian)
    (h : u.own.recvBuf.bytes.take 8 = v.own.recvBuf.bytes.take 8) :
    bufferedMessage e u = bufferedMessage e v ∧ bufferedSeqNum e u = bufferedSeqNum e v := by
  have htype := congrArg (List.take 4) h
  have hseq := congrArg (List.drop 4) h
  rw [List.take_take, List.take_take] at htype
  rw [List.drop_take, List.drop_take] at hseq
  have htype' : u.own.recvBuf.bytes.take 4 = v.own.recvBuf.bytes.take 4 := htype
  have hseq' : (u.own.recvBuf.bytes.drop 4).take 4 = (v.own.recvBuf.bytes.drop 4).take 4 := hseq
  unfold bufferedMessage bufferedSeqNum
  rw [htype', hseq']
  exact ⟨rfl, rfl⟩

/-- A `recvfrom` that returns eight leaves the same message and the same sender with both. -/
theorem Rerun.received_eight (h : Rerun before v u) (sockfd : Int)
    (h8 : (v.env 0).recvfrom.ret = 8) :
    SameSender before (Responser.received sockfd v) (Responser.received sockfd u) ∧
      (Responser.received sockfd u).own.recvBuf.bytes.take 8 =
        (Responser.received sockfd v).own.recvBuf.bytes.take 8 := by
  obtain ⟨hstored, hsender⟩ := h.whole 0 h8
  have hrecv : (u.env 0).recvfrom = (v.env 0).recvfrom := by rw [h.env]
  constructor
  · refine ⟨h.received sockfd, ?_⟩
    obtain ⟨sa, hsa⟩ := Option.ne_none_iff_exists'.mp hsender
    change (u.env 0).recvfrom.sender.getD _ = (v.env 0).recvfrom.sender.getD _
    rw [hrecv, hsa]
    rfl
  · change (u.own.recvBuf.store (u.env 0).recvfrom.stored).bytes.take 8 =
      (v.own.recvBuf.store (v.env 0).recvfrom.stored).bytes.take 8
    rw [hrecv, take_store hstored, take_store hstored]

/-- The handling of a readable entry is alike. -/
theorem alikeAt_processEntry (e : Endian) (i : Nat) (h : Rerun before v u)
    (hread : v.thread.pollFds.Readable i) :
    AlikeAt (Rerun before) (processEntry (overrides e) i) (processEntry (overrides e) i) v u := by
  have hfd : (u.thread.pollFds.fds i).fd = (v.thread.pollFds.fds i).fd := by rw [h.thread]
  have hret : (u.env 0).recvfrom.ret = (v.env 0).recvfrom.ret := by rw [h.env]
  have hcleared : Rerun before (cleared i v) (cleared i u) := h.withThread _
  unfold AlikeAt
  rw [run_processEntry e i rfl hread.1, run_processEntry e i hfd hread.1, hret]
  by_cases h8 : (v.env 0).recvfrom.ret = 8
  · obtain ⟨hsender, hbuffer⟩ := hcleared.received_eight (v.thread.pollFds.fds i).fd h8
    obtain ⟨hmessage, hseq⟩ := buffered_eq e hbuffer
    rw [hmessage, hseq]
    by_cases hrequest : bufferedMessage e
        (Responser.received (v.thread.pollFds.fds i).fd (cleared i v)) =
          CiHBMessageType.heartbeatRequest.code
    · have halike := (lockstep_sameSender before).sendHeartbeatResponse (fun _ _ h ↦ h.saRecv) e
        (v.thread.pollFds.fds i).fd
        (bufferedSeqNum e (Responser.received (v.thread.pollFds.fds i).fd (cleared i v))) _ _
        hsender
      rw [if_pos ⟨h8, hrequest⟩, if_pos ⟨h8, hrequest⟩]
      cases hr : (sendHeartbeatResponse e (v.thread.pollFds.fds i).fd (bufferedSeqNum e
          (Responser.received (v.thread.pollFds.fds i).fd (cleared i v)))).run
            (Responser.received (v.thread.pollFds.fds i).fd (cleared i v)) with
      | ok b v' =>
        rw [hr] at halike
        obtain ⟨u', hu, hrel⟩ := halike
        rw [hu]
        exact ⟨u', rfl, hrel.toRerun⟩
      | error f v' =>
        rw [hr] at halike
        obtain ⟨u', hu, hrel⟩ := halike
        rw [hu]
        exact ⟨u', rfl, hrel.toRerun⟩
    · rw [if_neg fun hc ↦ hrequest hc.2, if_neg fun hc ↦ hrequest hc.2]
      exact ⟨_, rfl, hsender.toRerun⟩
  · rw [if_neg fun hc ↦ h8 hc.1, if_neg fun hc ↦ h8 hc.1]
    exact ⟨_, rfl, hcleared.received _⟩

/-- As thread classes the two responders are alike. -/
theorem threadClass_rerun (e : Endian) (before : List SysEvent) :
    (threadClass e).Alike (threadClass e) (Rerun before) := by
  apply (lockstep_rerun before).threadClass
  · intro v u h
    rw [h.thread]
  · intro st v u h
    exact h.withThread _
  · intro i v u h hread
    exact alikeAt_processEntry e i h hread

end Lockstep

end Responser
end HeartbeatSpec.Legacy
