import HeartbeatSpec.Legacy.Delivery
import HeartbeatSpec.Legacy.EventLoop

/-!
# The responder keeps serving

Library `Legacy`. Once `InitInstance` has succeeded the responder keeps its socket open and
registered and its thread in the running state, whatever the system calls answer, until
`EndThread` is called. A message that does not fit an `int` is the one way out of `ThreadProc`.
-/

namespace HeartbeatSpec.Legacy
open HeartbeatSpec.Base HeartbeatSpec.Message HeartbeatSpec.Thread

/-- Nobody calls `EndThread`. -/
def World.Quiet {δ : Type} (w : World δ) : Prop := ∀ k, .endThread ∉ (w.env k).clients

namespace Responser

/-- The responder before a socket is in its poll table; `sockets` are those it will close. -/
structure Starting (i : Identity) (sockets : Finset Int) (w : World Responser) : Prop where
  identity : w.own.identity = i
  bExit : w.thread.bExit = false
  state : w.thread.state = .ready
  pollFds : w.thread.pollFds = .empty
  readSockets : w.thread.readSockets = sockets
  notClosed : ∀ sockfd, .close sockfd ∉ w.trace
  quiet : w.Quiet

/-- The responder listens at its socket: it is bound, open, and the only one registered. -/
structure Listening (i : Identity) (sockfd : Int) (w : World Responser) : Prop where
  valid : sockfd ≠ invalidSocket
  identity : w.own.identity = i
  bExit : w.thread.bExit = false
  sole : w.thread.pollFds.Sole sockfd
  readSockets : w.thread.readSockets = {sockfd}
  bound : ∃ port ret, .bind sockfd port ret ∈ w.trace ∧ 0 ≤ ret
  notClosed : .close sockfd ∉ w.trace
  quiet : w.Quiet

/-- The responder listens, and `ThreadProc` runs it. -/
structure Serving (i : Identity) (sockfd : Int) (w : World Responser) : Prop
    extends Listening i sockfd w where
  state : w.thread.state = .doneInitInstance

/-- How `ThreadProc` can be left while the responder serves: a datagram of eight bytes or more
has been received, under addresses whose replies do not have `int` size. -/
structure LeftServing (i : Identity) (sockfd : Int) (w : World Responser) : Prop
    extends Serving i sockfd w where
  oversized : ¬i.Fits
  request : ∃ o, .recvfrom sockfd o ∈ w.trace ∧ o.ret = 8

variable {i : Identity} {sockfd : Int} {sockets : Finset Int} {w : World Responser}

namespace Starting

/-- An answer of the environment is no event. -/
theorem next (h : Starting i sockets w) : Starting i sockets w.next :=
  { h with quiet := fun k ↦ h.quiet (k + 1) }

/-- Any event but a close. -/
theorem record (h : Starting i sockets w) {ev : SysEvent} (hev : ∀ sockfd, .close sockfd ≠ ev) :
    Starting i sockets (w.record ev) where
  __ := h
  notClosed sockfd := by
    simp only [World.record, List.mem_append, List.mem_singleton, not_or]
    exact ⟨h.notClosed sockfd, hev sockfd⟩

/-- `SetProcess` calls of other threads. -/
theorem clientCalls (h : Starting i sockets w) {calls : List ClientCall}
    (hquiet : .endThread ∉ calls) :
    Starting i sockets (clientCalls setProcessState calls w) := by
  induction calls generalizing w with
  | nil => exact h
  | cons call rest ih =>
    rw [List.mem_cons, not_or] at hquiet
    cases call with
    | endThread => exact absurd rfl hquiet.1
    | setProcess st =>
      apply ih _ hquiet.2
      exact record (w := { w with own := setProcessState st w.own }) { h with } (by simp)

/-- What other threads do at a point. -/
theorem afterOthers (h : Starting i sockets w) : Starting i sockets (afterOthers w) :=
  h.next.clientCalls (h.quiet 0)

end Starting

namespace Serving

/-- An answer of the environment is no event. -/
theorem next (h : Serving i sockfd w) : Serving i sockfd w.next where
  __ := h
  quiet k := h.quiet (k + 1)

/-- Any event but the close of the socket. -/
theorem record (h : Serving i sockfd w) {ev : SysEvent} (hev : .close sockfd ≠ ev) :
    Serving i sockfd (w.record ev) where
  __ := h
  bound := by
    obtain ⟨port, ret, hmem, hret⟩ := h.bound
    exact ⟨port, ret, List.mem_append_left _ hmem, hret⟩
  notClosed := by
    simp only [World.record, List.mem_append, List.mem_singleton, not_or]
    exact ⟨h.notClosed, hev⟩

/-- A change of the thread that keeps exit flag, state, table and sockets. -/
theorem withThread (h : Serving i sockfd w) {f : NetworkThread → NetworkThread}
    (hexit : (f w.thread).bExit = w.thread.bExit) (hstate : (f w.thread).state = w.thread.state)
    (hsole : (f w.thread).pollFds.Sole sockfd)
    (hsockets : (f w.thread).readSockets = w.thread.readSockets) :
    Serving i sockfd (w.withThread f) where
  __ := h
  bExit := hexit.trans h.bExit
  state := hstate.trans h.state
  sole := hsole
  readSockets := hsockets.trans h.readSockets

/-- A change of the subclass's members that keeps the addresses. -/
theorem withOwn (h : Serving i sockfd w) {r : Responser} (hr : r.identity = w.own.identity) :
    Serving i sockfd { w with own := r } where
  __ := h
  identity := hr.trans h.identity

/-- `SetProcess` calls of other threads. -/
theorem clientCalls (h : Serving i sockfd w) {calls : List ClientCall}
    (hquiet : .endThread ∉ calls) :
    Serving i sockfd (clientCalls setProcessState calls w) := by
  induction calls generalizing w with
  | nil => exact h
  | cons call rest ih =>
    rw [List.mem_cons, not_or] at hquiet
    cases call with
    | endThread => exact absurd rfl hquiet.1
    | setProcess st =>
      apply ih _ hquiet.2
      exact (h.withOwn (r := setProcessState st w.own) rfl).record (by simp)

/-- What other threads do at a point. -/
theorem afterOthers (h : Serving i sockfd w) : Serving i sockfd (afterOthers w) :=
  h.next.clientCalls (h.quiet 0)

/-- A receive, whatever it gives. -/
theorem received (h : Serving i sockfd w) (sock : Int) : Serving i sockfd (received sock w) := by
  have hrecv : Serving i sockfd (w.next.record (.recvfrom sock (w.env 0).recvfrom)) :=
    h.next.record (by simp)
  exact hrecv.withOwn rfl

/-- A reply, whatever comes of it. -/
theorem sentTo (h : Serving i sockfd w) (sock : Int) (bytes : List UInt8) :
    Serving i sockfd (sentTo sock bytes w) :=
  h.next.record (by simp)

end Serving

/-! ### Starting up -/

/-- `AddReadSocket` notes a socket that is one. -/
theorem starting_addReadSocket (hvalid : sockfd ≠ invalidSocket)
    {bound : List SysEvent → Prop} {E : Fault → World Responser → Prop} :
    Contract (fun w ↦ Starting i ∅ w ∧ bound w.trace) (addReadSocket sockfd)
      (fun b w ↦ b = true ∧ Starting i {sockfd} w ∧ bound w.trace) E := by
  refine Contract.ite (fun h ↦ absurd h hvalid) fun _ ↦ ?_
  refine Contract.bind (Q := fun _ w ↦ Starting i {sockfd} w ∧ bound w.trace) ?_ fun _ ↦ ?_
  · refine Contract.modify fun w hw ↦ ⟨?_, hw.2⟩
    exact { hw.1 with readSockets := by simp only [World.withThread, hw.1.readSockets]; rfl }
  · exact Contract.pure fun _ hw ↦ ⟨rfl, hw⟩

/-- `PollFDAdd` registers the first socket. -/
theorem listening_pollFDAdd (hvalid : sockfd ≠ invalidSocket)
    {E : Fault → World Responser → Prop} :
    Contract
      (fun w ↦ Starting i {sockfd} w ∧ ∃ port ret, .bind sockfd port ret ∈ w.trace ∧ 0 ≤ ret)
      (onTable (PollTable.pollFDAdd sockfd)) (fun _ w ↦ Listening i sockfd w) E := by
  refine Contract.modifyGet fun w hw ↦ ?_
  have hsole := (PollTable.pollFDAdd_empty hvalid).2
  rw [← hw.1.pollFds] at hsole
  exact ⟨hvalid, hw.1.identity, hw.1.bExit, hsole, hw.1.readSockets, hw.2, hw.1.notClosed _,
    hw.1.quiet⟩

/-- `InitInstance` succeeds only with a socket that is bound and registered. -/
theorem listening_initInstance (i : Identity) :
    Contract (Starting i ∅) initInstance
      (fun b w ↦ b = true → ∃ sockfd, Listening i sockfd w)
      fun _ _ ↦ True := by
  have hconsult : Contract (Starting i ∅) (consult : Call Responser Outcome)
      (fun _ ↦ Starting i ∅) fun _ _ ↦ True := Contract.modifyGet fun _ hw ↦ hw.next
  have hemit (ev : SysEvent) (hev : ∀ sockfd, .close sockfd ≠ ev) :
      Contract (Starting i ∅) (emit ev : Call Responser Unit) (fun _ ↦ Starting i ∅)
        fun _ _ ↦ True := Contract.modify fun _ hw ↦ hw.record hev
  have hfalse {P : World Responser → Prop} : Contract P (pure false : Call Responser Bool)
      (fun b w ↦ b = true → ∃ sockfd, Listening i sockfd w)
      fun _ _ ↦ True := Contract.pure fun _ _ hb ↦ absurd hb Bool.false_ne_true
  refine hconsult.bind fun o ↦ (hemit (.socket o.socket) (by simp)).bind fun _ ↦ ?_
  refine Contract.ite (fun _ ↦ hfalse) fun hsock ↦ hconsult.bind fun o' ↦ ?_
  refine (hemit (.setsockopt o.socket o'.setsockopt) (by simp)).bind fun _ ↦ ?_
  refine Contract.ite (fun _ ↦ hfalse) fun _ ↦ ?_
  refine hconsult.bind fun o'' ↦ Contract.get_bind fun v hv ↦ ?_
  have hvalid : o.socket ≠ invalidSocket := by
    unfold invalidSocket
    omega
  -- the event of `bind` stays in the trace from here on
  refine Contract.bind (Q := fun _ w ↦ Starting i ∅ w ∧
    .bind o.socket v.own.portNumber o''.bind ∈ w.trace) ?_ fun _ ↦ ?_
  · refine Contract.modify fun w hw ↦ ?_
    subst hw
    exact ⟨hv.record (by simp), List.mem_append_right _ (List.mem_singleton.mpr rfl)⟩
  refine Contract.ite (fun _ ↦ hfalse) fun hbind ↦ ?_
  refine (starting_addReadSocket hvalid).bind fun b ↦ Contract.ite (fun hb ↦ ?_) fun _ ↦ ?_
  · exact fun w hw ↦ absurd (hb.symm.trans hw.1) Bool.false_ne_true
  · refine Contract.bind (Q := fun _ ↦ Listening i o.socket) ?_ fun b' ↦ ?_
    · refine (listening_pollFDAdd hvalid).mono (fun w hw ↦ ?_) (fun _ _ hw ↦ hw) fun _ _ hE ↦ hE
      exact ⟨hw.2.1, _, _, hw.2.2, by omega⟩
    · exact Contract.ite (fun _ ↦ hfalse) fun _ ↦ Contract.pure fun w hw _ ↦ ⟨_, hw⟩

/-! ### Serving -/

/-- What happened before stays in the record when other threads call. -/
theorem mem_trace_clientCalls {ev : SysEvent} (calls : List ClientCall) (hev : ev ∈ w.trace) :
    ev ∈ (clientCalls setProcessState calls w).trace := by
  rw [trace_clientCalls]
  exact List.mem_append_left _ hev

/-- A request is answered or, if no reply can be built, leaves `ThreadProc`. -/
theorem serving_sendHeartbeatResponse (e : Endian) (sock : Int) (iSeqNum : Int32) :
    Contract
      (fun w ↦ Serving i sockfd w ∧ ∃ o, .recvfrom sockfd o ∈ w.trace ∧ o.ret = 8)
      (sendHeartbeatResponse e sock iSeqNum) (fun _ ↦ Serving i sockfd)
      (fun _ ↦ LeftServing i sockfd) := by
  rintro w ⟨hw, o, hmem, ho⟩
  have hafter := hw.afterOthers
  by_cases hfits : i.Fits
  · have hfits' : (afterOthers w).own.identity.Fits := hafter.identity ▸ hfits
    obtain ⟨b, hr⟩ := run_sendHeartbeatResponse_ok sock
      (buildResponse_of_fits e (afterOthers w).own.processState iSeqNum hfits')
    rw [hr]
    exact hafter.sentTo sock _
  · have hfits' : ¬(afterOthers w).own.identity.Fits := hafter.identity ▸ hfits
    obtain ⟨f, hf⟩ := buildResponse_of_not_fits e (afterOthers w).own.processState iSeqNum hfits'
    rw [run_sendHeartbeatResponse_error hf]
    exact ⟨hafter, hfits, o, mem_trace_clientCalls _ hmem, ho⟩

/-- The handling of the entry keeps the responder serving. -/
theorem serving_processEntry (e : Endian) (k : Nat) :
    Contract (fun w ↦ Serving i sockfd w ∧ k < w.thread.pollFds.count ∧
        w.thread.pollFds.Readable k)
      (processEntry (overrides e) k) (fun _ ↦ Serving i sockfd)
      (fun _ ↦ LeftServing i sockfd) := by
  rintro w ⟨hw, hk, -⟩
  rw [hw.sole.count_eq, Nat.lt_one_iff] at hk
  subst hk
  rw [run_processEntry e 0 hw.sole.fd_eq hw.valid]
  have hcleared : Serving i sockfd (cleared 0 w) :=
    hw.withThread rfl rfl hw.sole.clearRevents rfl
  have hreceived := hcleared.received sockfd
  by_cases hrequest : (w.env 0).recvfrom.ret = 8 ∧
      bufferedMessage e (received sockfd (cleared 0 w)) = CiHBMessageType.heartbeatRequest.code
  · rw [if_pos hrequest]
    have hsend := serving_sendHeartbeatResponse e sockfd
      (bufferedSeqNum e (received sockfd (cleared 0 w))) (received sockfd (cleared 0 w))
      ⟨hreceived, _, List.mem_append_right _ (List.mem_singleton.mpr rfl), hrequest.1⟩
    cases hr : (sendHeartbeatResponse e sockfd
        (bufferedSeqNum e (received sockfd (cleared 0 w)))).run (received sockfd (cleared 0 w)) with
    | ok b w' =>
      rw [hr] at hsend
      exact hsend
    | error f w' =>
      rw [hr] at hsend
      exact hsend
  · rw [if_neg hrequest]
    exact hreceived

/-- Waiting for the network keeps the responder serving. -/
theorem serving_loopInvariant : LoopInvariant (Serving i sockfd) where
  next _ hw := hw.next
  record ev w hev hw := by
    apply hw.record
    rintro rfl
    exact hev
  eventsCount _ _ hw := hw.withThread rfl rfl hw.sole rfl
  report revents _ _ hw := hw.withThread rfl rfl (hw.sole.report revents) rfl

/-- `Run` keeps the responder serving, and returns true. -/
theorem serving_run (e : Endian) :
    Contract (Serving i sockfd) (Legacy.run (overrides e))
      (fun b w ↦ b = true ∧ Serving i sockfd w) (fun _ ↦ LeftServing i sockfd) := by
  have hothers : Keeps (Serving i sockfd) (fun _ ↦ LeftServing i sockfd) others :=
    fun _ hw ↦ hw.afterOthers
  have hrun : Keeps (Serving i sockfd) (fun _ ↦ LeftServing i sockfd)
      (Legacy.run (overrides e)) :=
    serving_loopInvariant.run ⟨hothers, serving_processEntry e⟩
  exact ((run_returns_true (overrides e)).and hrun).mono (fun _ hw ↦ ⟨trivial, hw⟩)
    (fun _ _ hw ↦ hw) fun _ _ hw ↦ hw.2

/-- From `DONE_INITINSTANCE` on, `ThreadProc` runs the responder. -/
theorem serving_procDoneInitInstance (e : Endian) :
    Keeps (Serving i sockfd) (fun _ ↦ LeftServing i sockfd)
      (threadClass e).procDoneInitInstance := by
  have hothers : Keeps (Serving i sockfd) (fun _ ↦ LeftServing i sockfd) others :=
    fun _ hw ↦ hw.afterOthers
  refine hothers.bind fun _ ↦ Contract.get_bind fun w hw ↦ Contract.ite (fun _ ↦ ?_) fun h ↦ ?_
  · refine ((serving_run e).at_state hw).bind fun b ↦ ?_
    refine Contract.ite (fun hb v hv ↦ ?_) fun _ ↦ Contract.pure fun _ hv ↦ hv.2
    rw [hv.1] at hb
    exact absurd hb (by decide)
  · have hexit : (threadClass e).bExit w = false := hw.bExit
    rw [hexit] at h
    exact absurd h (by decide)

/-- A call of `ThreadProc`, with what other threads do before it, keeps the responder
serving. -/
theorem serving_turn (e : Endian) :
    Keeps (Serving i sockfd) (fun _ ↦ LeftServing i sockfd) (threadClass e).turn := by
  have hothers : Keeps (Serving i sockfd) (fun _ ↦ LeftServing i sockfd) others :=
    fun _ hw ↦ hw.afterOthers
  refine hothers.bind fun _ ↦ Contract.get_bind fun w hw ↦ ?_
  have hstate : (threadClass e).state w = .doneInitInstance := hw.state
  rw [hstate]
  exact (serving_procDoneInitInstance e).at_state hw

/-- So does any number of turns, and the loop never ends by itself. -/
theorem serving_runLoop (e : Endian) (n : Nat) :
    Contract (Serving i sockfd) ((threadClass e).runLoop n)
      (fun ended w ↦ ended = false ∧ Serving i sockfd w) (fun _ ↦ LeftServing i sockfd) := by
  have hdone {w : World Responser} (hw : Serving i sockfd w) :
      ((threadClass e).state w).isThreadDone = false := by
    have hstate : (threadClass e).state w = .doneInitInstance := hw.state
    rw [hstate]
    rfl
  induction n with
  | zero => exact Contract.get_bind fun w hw ↦ Contract.pure fun v hv ↦ ⟨hdone hw, hv ▸ hw⟩
  | succ n ih =>
    refine Contract.get_bind fun w hw ↦ Contract.ite (fun h ↦ ?_) fun _ ↦ ?_
    · rw [hdone hw] at h
      exact absurd h (by decide)
    · exact ((serving_turn e).at_state hw).bind fun _ ↦ ih

/-! ### Runs of a fresh object -/

/-- A fresh object at the start of its run. -/
theorem starting_fresh {i : Identity} {portNumber : UInt16} {timeoutMillisec : Int}
    {saRecv : Endpoint} {recvBuf : RecvBuf} {env : Nat → Outcome}
    (hquiet : ∀ k, .endThread ∉ (env k).clients) :
    Starting i ∅ (fresh i portNumber timeoutMillisec saRecv recvBuf env).prepareRunning :=
  ⟨rfl, rfl, rfl, rfl, rfl, fun _ ↦ List.not_mem_nil, hquiet⟩

/-- A responder serves as soon as `InitInstance` has returned true. -/
theorem serving_of_firstInit (e : Endian) {w w₀ : World Responser} (hw : Starting i ∅ w)
    (hinit : firstInit.run w = .ok true w₀) :
    ∃ sockfd, Serving i sockfd ((threadClass e).setState .doneInitInstance w₀) := by
  obtain ⟨sockfd, hlisten⟩ := (listening_initInstance i).of_ok hw.afterOthers hinit rfl
  exact ⟨sockfd, { hlisten with }, rfl⟩

/-- Nobody stops a responder but its owner: if in the first turn of a fresh object
`InitInstance` returns true, then after every further number of turns, in which nobody calls
`EndThread`, the loop has not ended and the responder serves at the socket that it bound. The
one way out is an exception on a request under addresses whose replies have no `int` size. -/
theorem keeps_serving (e : Endian) (i : Identity) (portNumber : UInt16) (timeoutMillisec : Int)
    (saRecv : Endpoint) (recvBuf : RecvBuf) (env : Nat → Outcome) {w₀ : World Responser}
    (hquiet : ∀ k, .endThread ∉ (env k).clients)
    (hinit : firstInit.run
      (fresh i portNumber timeoutMillisec saRecv recvBuf env).prepareRunning = .ok true w₀) :
    ∃ sockfd, ∀ n,
      match runThreadHere e (n + 1) (fresh i portNumber timeoutMillisec saRecv recvBuf env) with
      | .ok ended w => ended = false ∧ Serving i sockfd w
      | .error _ w => LeftServing i sockfd w := by
  have hw : Starting i ∅
      (fresh i portNumber timeoutMillisec saRecv recvBuf env).prepareRunning :=
    starting_fresh hquiet
  have hturn := run_turn_of_firstInit e hw.afterOthers.state hinit
  obtain ⟨sockfd, hserving⟩ := serving_of_firstInit e hw hinit
  refine ⟨sockfd, fun n ↦ ?_⟩
  have hrun := Contract.bind (serving_procDoneInitInstance e) (fun _ ↦ serving_runLoop e n) _
    hserving
  rw [EStateM.run_bind, ← hturn, ← EStateM.run_bind] at hrun
  rw [runThreadHere, CiThread2Class.runLoop_succ _ rfl]
  split
  · next hr =>
    rw [hr] at hrun
    exact hrun
  · next hr =>
    rw [hr] at hrun
    exact hrun

/-- A responder that is sent requests again and again serves for ever. -/
theorem keeps_serving_requested :
    ∃ sockfd, ∀ n,
      match runThreadHere .little (n + 1) (requested ⟨[], []⟩) with
      | .ok ended w => ended = false ∧ Serving ⟨[], []⟩ sockfd w
      | .error _ w => LeftServing ⟨[], []⟩ sockfd w :=
  keeps_serving .little ⟨[], []⟩ 8090 1000 ⟨0, 0⟩ zeros
    (fun _ ↦ .delivering ⟨⟨1, 2⟩, [0, 0, 0, 0, 0, 0, 0, 7]⟩ 20) (fun _ ↦ List.not_mem_nil) rfl

/-- Not every responder stays: at addresses of `2 ^ 31` bytes the first request leaves
`ThreadProc`. -/
theorem stops_oversized :
    ¬∀ (i : Identity) (portNumber : UInt16) (timeoutMillisec : Int) (saRecv : Endpoint)
        (recvBuf : RecvBuf) (env : Nat → Outcome) (w₀ : World Responser),
      (∀ k, .endThread ∉ (env k).clients) →
      firstInit.run (fresh i portNumber timeoutMillisec saRecv recvBuf env).prepareRunning =
        .ok true w₀ →
      ∃ sockfd, ∀ n, ∃ w,
        runThreadHere .little (n + 1) (fresh i portNumber timeoutMillisec saRecv recvBuf env) =
          .ok false w ∧ Serving i sockfd w := by
  intro hall
  obtain ⟨w₀, hinit, -⟩ := run_firstInit_requested (addresses (2 ^ 31))
  obtain ⟨sockfd, hserving⟩ := hall _ _ _ _ _ _ w₀
    (fun _ ↦ List.not_mem_nil) hinit
  obtain ⟨w, hok, -⟩ := hserving 0
  obtain ⟨f, w', herror, -⟩ := runThreadHere_requested_of_not_fits .little
    (not_fits_addresses (Nat.le_refl (2 ^ 31)))
  change runThreadHere .little 1 (requested (addresses (2 ^ 31))) = _ at hok
  rw [herror] at hok
  cases hok

end Responser
end HeartbeatSpec.Legacy
