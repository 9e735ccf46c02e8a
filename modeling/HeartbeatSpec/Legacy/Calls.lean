import HeartbeatSpec.Legacy.Reply

/-!
# What the handlers of the responder do

Library `Legacy`. The result of each member function that `ProcessReadEvent` reaches, as a
function of the object and the environment's next answers. Everything said later about the
responder's handlers follows from the last lemma, on one readable entry.
-/

namespace HeartbeatSpec.Legacy
open HeartbeatSpec.Base HeartbeatSpec.Message

variable {δ : Type}

/-- The environment's answer is returned. -/
@[simp] theorem run_consult (w : World δ) : consult.run w = .ok (w.env 0) w.next := rfl

/-- An event is recorded. -/
@[simp] theorem run_emit (ev : SysEvent) (w : World δ) : (emit ev).run w = .ok () (w.record ev) :=
  rfl

/-- Members of the thread are changed. -/
@[simp] theorem run_modifyThread (f : NetworkThread → NetworkThread) (w : World δ) :
    (modifyThread f).run w = .ok () (w.withThread f) := rfl

/-- The descriptor of an entry is read. -/
@[simp] theorem run_fdAt (i : Nat) (w : World δ) :
    (fdAt i).run w = .ok (w.thread.pollFds.fds i).fd w := rfl

/-- Other threads change no member of the thread but its exit flag. -/
theorem thread_clientCalls (set : CiHBState → δ → δ) (calls : List ClientCall) (w : World δ) :
    ∃ b, (clientCalls set calls w).thread = { w.thread with bExit := b } := by
  induction calls generalizing w with
  | nil => exact ⟨w.thread.bExit, rfl⟩
  | cons call rest ih => cases call <;> exact ih _

/-- In particular they leave its state. -/
theorem state_clientCalls (set : CiHBState → δ → δ) (calls : List ClientCall) (w : World δ) :
    (clientCalls set calls w).thread.state = w.thread.state := by
  obtain ⟨b, hb⟩ := thread_clientCalls set calls w
  rw [hb]

/-- Their calls are recorded in order. -/
theorem trace_clientCalls (set : CiHBState → δ → δ) (calls : List ClientCall) (w : World δ) :
    (clientCalls set calls w).trace = w.trace ++ calls.map .client := by
  induction calls generalizing w with
  | nil => exact (List.append_nil _).symm
  | cons call rest ih =>
    rw [List.map_cons, List.append_cons]
    cases call <;> exact ih _

/-- The environment's answers are used up by the point alone, not by the calls. -/
theorem env_clientCalls (set : CiHBState → δ → δ) (calls : List ClientCall) (w : World δ) :
    (clientCalls set calls w).env = w.env := by
  induction calls generalizing w with
  | nil => rfl
  | cons call rest ih => cases call <;> exact ih _

namespace Responser

variable {e : Endian} {w : World Responser}

/-- Members of the responder are changed. -/
@[simp] theorem run_modifyOwn (f : Responser → Responser) (w : World Responser) :
    (modifyOwn f).run w = .ok () { w with own := f w.own } := rfl

/-- Other threads change no member of the responder but its process state. -/
theorem own_clientCalls (calls : List ClientCall) (w : World Responser) :
    ∃ st, (clientCalls setProcessState calls w).own = setProcessState st w.own := by
  induction calls generalizing w with
  | nil => exact ⟨w.own.processState, rfl⟩
  | cons call rest ih => cases call <;> exact ih _

/-- The responder after the calls that other threads make at the next point. -/
def afterOthers (w : World Responser) : World Responser :=
  clientCalls setProcessState (w.env 0).clients w.next

/-- Other threads call the responder. -/
@[simp] theorem run_others (w : World Responser) : others.run w = .ok () (afterOthers w) := rfl

/-- The answers that come after the point. -/
theorem env_afterOthers (w : World Responser) : (afterOthers w).env = fun k ↦ w.env (k + 1) :=
  env_clientCalls setProcessState (w.env 0).clients w.next

/-- The responder after `recvfrom`. -/
def received (sockfd : Int) (w : World Responser) : World Responser :=
  { w.next.record (.recvfrom sockfd (w.env 0).recvfrom) with
    own :=
      { w.own with
        recvBuf := w.own.recvBuf.store (w.env 0).recvfrom.stored
        saRecv := (w.env 0).recvfrom.sender.getD w.own.saRecv } }

/-- The message type in the receive buffer. -/
def bufferedMessage (e : Endian) (w : World Responser) : Int32 :=
  (ntohl e (loadInt e (w.own.recvBuf.bytes.take 4)).toUInt32).toInt32

/-- The sequence number in the receive buffer. -/
def bufferedSeqNum (e : Endian) (w : World Responser) : Int32 :=
  (ntohl e (loadInt e ((w.own.recvBuf.bytes.drop 4).take 4)).toUInt32).toInt32

/-- `ReceiveIntMessage` gives a message exactly if eight bytes are received. -/
theorem run_receiveIntMessage {sockfd : Int} (h : sockfd ≠ invalidSocket) (e : Endian)
    (w : World Responser) :
    (receiveIntMessage e sockfd).run w =
      .ok
        (if (w.env 0).recvfrom.ret = 8 then some (bufferedMessage e (received sockfd w)) else none)
        (received sockfd w) := by
  rw [receiveIntMessage, if_neg h]
  simp only [EStateM.run_bind, run_consult, run_emit, run_modifyOwn]
  by_cases hneg : (w.env 0).recvfrom.ret < 0
  · rw [if_pos hneg, if_neg (by omega)]
    rfl
  · rw [if_neg hneg]
    by_cases h8 : (w.env 0).recvfrom.ret = 8
    · rw [if_neg (not_not.mpr h8), if_pos h8]
      rfl
    · rw [if_pos h8, if_neg h8]
      rfl

/-- The responder after its reply has been given to `sendto`. -/
def sentTo (sockfd : Int) (bytes : List UInt8) (w : World Responser) : World Responser :=
  w.next.record (.sendto sockfd bytes w.own.saRecv (w.env 0).sendto)

/-- A reply that cannot be built is not sent. -/
theorem run_sendHeartbeatResponse_error {sockfd : Int} {iSeqNum : Int32} {f : Fault}
    (h : buildResponse e (afterOthers w).own.identity (afterOthers w).own.processState iSeqNum =
      .error f) :
    (sendHeartbeatResponse e sockfd iSeqNum).run w = .error f (afterOthers w) := by
  simp only [sendHeartbeatResponse, EStateM.run_bind, run_others, EStateM.run_get, h]
  rfl

/-- A reply that is built is sent once, whatever comes of it. -/
theorem run_sendHeartbeatResponse_ok (sockfd : Int) {iSeqNum : Int32} {bytes : List UInt8}
    (h : buildResponse e (afterOthers w).own.identity (afterOthers w).own.processState iSeqNum =
      .ok bytes) :
    ∃ b, (sendHeartbeatResponse e sockfd iSeqNum).run w =
      .ok b (sentTo sockfd bytes (afterOthers w)) := by
  simp only [sendHeartbeatResponse, EStateM.run_bind, run_others, EStateM.run_get, h, run_consult,
    run_emit]
  split
  · exact ⟨false, rfl⟩
  · split
    · exact ⟨false, rfl⟩
    · exact ⟨true, rfl⟩

/-- `OnMessage` on anything but a request reports it. -/
theorem run_onMessage_other {sockfd : Int} {iMessage : Int32}
    (h : iMessage ≠ CiHBMessageType.heartbeatRequest.code) (e : Endian) (w : World Responser) :
    (onMessage e sockfd iMessage).run w = .ok false w := by
  rw [onMessage, if_neg h]
  split <;> rfl

/-- `OnMessage` on a request sends a reply and succeeds, whatever comes of the reply. -/
theorem run_onMessage_request {sockfd : Int} (h : sockfd ≠ invalidSocket) (e : Endian)
    (w : World Responser) :
    (onMessage e sockfd CiHBMessageType.heartbeatRequest.code).run w =
      match (sendHeartbeatResponse e sockfd (bufferedSeqNum e w)).run w with
      | .ok _ w' => .ok true w'
      | .error f w' => .error f w' := by
  rw [onMessage, if_neg h, if_pos rfl]
  simp only [onHeartbeatRequest, EStateM.run_bind, EStateM.run_get]
  cases hr : (sendHeartbeatResponse e sockfd (bufferedSeqNum e w)).run w with
  | ok b w' =>
    rw [bufferedSeqNum] at hr
    rw [hr]
    rfl
  | error f w' =>
    rw [bufferedSeqNum] at hr
    rw [hr]

/-- The responder when an entry has been found readable and its events have been cleared. -/
def cleared (i : Nat) (w : World Responser) : World Responser :=
  w.withThread fun th ↦ { th with pollFds := th.pollFds.clearRevents i }

/-- The entry of a readable descriptor is handled: a message is received, and if it is a
request, a reply is sent to it. The descriptor keeps its entry. -/
theorem run_processEntry (e : Endian) (i : Nat) {sockfd : Int}
    (hfd : (w.thread.pollFds.fds i).fd = sockfd) (h : sockfd ≠ invalidSocket) :
    (processEntry (overrides e) i).run w =
      if (w.env 0).recvfrom.ret = 8 ∧
          bufferedMessage e (received sockfd (cleared i w)) =
            CiHBMessageType.heartbeatRequest.code then
        match (sendHeartbeatResponse e sockfd
            (bufferedSeqNum e (received sockfd (cleared i w)))).run
              (received sockfd (cleared i w)) with
        | .ok _ w' => .ok () w'
        | .error f w' => .error f w'
      else .ok () (received sockfd (cleared i w)) := by
  have hfd' : ((cleared i w).thread.pollFds.fds i).fd = sockfd := by
    simp [cleared, World.withThread, PollTable.clearRevents, PollTable.setEntry, hfd]
  have hrec := run_receiveIntMessage h e (cleared i w)
  have hclear : (modifyThread fun th ↦
      { th with pollFds := th.pollFds.clearRevents i }).run w = .ok () (cleared i w) := rfl
  rw [processEntry, EStateM.run_bind, hclear]
  simp only [EStateM.run_bind, run_fdAt, hfd', overrides, hrec]
  have hfd'' : ((received sockfd (cleared i w)).thread.pollFds.fds i).fd = sockfd := hfd'
  generalize received sockfd (cleared i w) = v at hfd''
  by_cases h8 : (w.env 0).recvfrom.ret = 8
  · have h8' : ((cleared i w).env 0).recvfrom.ret = 8 := h8
    rw [if_pos h8']
    simp only [EStateM.run_bind, run_fdAt, hfd'']
    by_cases hmsg : bufferedMessage e v = CiHBMessageType.heartbeatRequest.code
    · rw [if_pos ⟨h8, hmsg⟩, hmsg, run_onMessage_request h]
      cases (sendHeartbeatResponse e sockfd (bufferedSeqNum e v)).run v <;> rfl
    · rw [if_neg fun hc ↦ hmsg hc.2, run_onMessage_other hmsg]
      rfl
  · have h8' : ¬((cleared i w).env 0).recvfrom.ret = 8 := h8
    rw [if_neg h8', if_neg fun hc ↦ h8 hc.1]
    rfl

end Responser
end HeartbeatSpec.Legacy
