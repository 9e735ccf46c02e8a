import HeartbeatSpec.Legacy.EventLoop
import HeartbeatSpec.Legacy.Startup

/-!
# What one datagram does

Library `Legacy`. A datagram received at a readable entry is answered if it is a request that
can be answered, leaves the handler if its reply cannot be built, and does nothing otherwise;
and so does a whole call of `Run` in an environment that delivers it.
-/

namespace HeartbeatSpec.Legacy
open HeartbeatSpec.Base HeartbeatSpec.Message HeartbeatSpec.Thread

/-- The datagrams given to `sendto`, in order. -/
def sends (trace : List SysEvent) : List Reply :=
  trace.filterMap fun
    | .sendto _ bytes dest _ => some ⟨dest, bytes⟩
    | _ => none

/-- Sends of consecutive events are consecutive. -/
@[simp] theorem sends_append (es fs : List SysEvent) : sends (es ++ fs) = sends es ++ sends fs :=
  List.filterMap_append

namespace Responser

variable {e : Endian} {w : World Responser} {d : Datagram}

/-! ### What the handlers find in the receive buffer -/

/-- The first eight bytes of the receive buffer are those of the datagram just received. -/
theorem take_recvBuf_received (hrecv : (w.env 0).recvfrom = .datagram d)
    (hlen : 8 ≤ d.bytes.length) (sockfd : Int) :
    (received sockfd w).own.recvBuf.bytes.take 8 = d.bytes.take 8 := by
  have h8 : (d.bytes.take 8).length = 8 := by
    rw [List.length_take]
    omega
  simp only [received, hrecv, RecvOutcome.stored, RecvBuf.store, List.take_take, Nat.min_self]
  exact List.take_left' h8

/-- Eight bytes with the message type of a request are in the receive buffer exactly if the
datagram just received is a request. -/
theorem request_received_iff (hrecv : (w.env 0).recvfrom = .datagram d) (sockfd : Int) :
    (w.env 0).recvfrom.ret = 8 ∧
        bufferedMessage e (received sockfd w) = CiHBMessageType.heartbeatRequest.code ↔
      IsRequest d.bytes := by
  have hret : (w.env 0).recvfrom.ret = 8 ↔ 8 ≤ d.bytes.length := by
    rw [hrecv, RecvOutcome.ret]
    omega
  rw [hret, isRequest_iff]
  refine and_congr_right fun hlen ↦ ?_
  have htake : (received sockfd w).own.recvBuf.bytes.take 4 = d.bytes.take 4 := by
    have h := congrArg (List.take 4) (take_recvBuf_received hrecv hlen sockfd)
    rwa [List.take_take, List.take_take] at h
  have h4 : (d.bytes.take 4).length = 4 := by
    rw [List.length_take]
    omega
  rw [bufferedMessage, htake, ntohl_loadInt e h4]
  exact ofNat_networkValue_eq_zero_iff h4

/-- The sequence number in the receive buffer is that of the datagram just received. -/
theorem bufferedSeqNum_received (hrecv : (w.env 0).recvfrom = .datagram d)
    (hlen : 8 ≤ d.bytes.length) (sockfd : Int) :
    (bufferedSeqNum e (received sockfd w)).toUInt32 = requestSeq d.bytes := by
  have htake : ((received sockfd w).own.recvBuf.bytes.drop 4).take 4 =
      (d.bytes.drop 4).take 4 := by
    have h := congrArg (List.drop 4) (take_recvBuf_received hrecv hlen sockfd)
    rwa [List.drop_take, List.drop_take] at h
  have h4 : ((d.bytes.drop 4).take 4).length = 4 := by
    rw [List.length_take, List.length_drop]
    omega
  rw [bufferedSeqNum, htake, ntohl_loadInt e h4]
  rfl

/-! ### The handling of a datagram -/

section Entry

variable {k : Nat} {sockfd : Int} (hfd : (w.thread.pollFds.fds k).fd = sockfd)
  (hvalid : sockfd ≠ invalidSocket) (hrecv : (w.env 0).recvfrom = .datagram d)

/-- The responder when it starts to build a reply at entry `k`. -/
def replying (k : Nat) (sockfd : Int) (w : World Responser) : World Responser :=
  afterOthers (received sockfd (cleared k w))

/-- The reply is for the address that the datagram came from, under the same identity. -/
theorem own_replying (hrecv : (w.env 0).recvfrom = .datagram d) (k : Nat) (sockfd : Int) :
    (replying k sockfd w).own.identity = w.own.identity ∧
      (replying k sockfd w).own.saRecv = d.sender := by
  have hrecv' : ((cleared k w).env 0).recvfrom = .datagram d := hrecv
  obtain ⟨st, hown⟩ := own_clientCalls ((received sockfd (cleared k w)).env 0).clients
    (received sockfd (cleared k w)).next
  have hsa : (replying k sockfd w).own.saRecv = (received sockfd (cleared k w)).own.saRecv :=
    (congrArg Responser.saRecv hown : _)
  refine ⟨(congrArg Responser.identity hown : _), hsa.trans ?_⟩
  change ((cleared k w).env 0).recvfrom.sender.getD _ = d.sender
  rw [hrecv']
  rfl

/-- The datagram is handled as a request exactly if it is one. -/
theorem request_cleared_iff (hrecv : (w.env 0).recvfrom = .datagram d) (k : Nat) (sockfd : Int) :
    (w.env 0).recvfrom.ret = 8 ∧ bufferedMessage e (received sockfd (cleared k w)) =
        CiHBMessageType.heartbeatRequest.code ↔ IsRequest d.bytes :=
  request_received_iff (w := cleared k w) hrecv sockfd

include hfd hvalid hrecv

/-- Anything but a request is ignored. -/
theorem run_processEntry_of_not_request (hreq : ¬IsRequest d.bytes) :
    (processEntry (overrides e) k).run w = .ok () (received sockfd (cleared k w)) := by
  rw [run_processEntry e k hfd hvalid,
    if_neg fun hc ↦ hreq ((request_cleared_iff hrecv k sockfd).mp hc)]

/-- A request is answered to its sender, with its sequence number. -/
theorem run_processEntry_of_request (hreq : IsRequest d.bytes) (hfits : w.own.identity.Fits) :
    (processEntry (overrides e) k).run w =
      .ok () (sentTo sockfd (encodeMessage (w.own.identity.response
        (replying k sockfd w).own.processState (requestSeq d.bytes))) (replying k sockfd w)) := by
  have hrecv' : ((cleared k w).env 0).recvfrom = .datagram d := hrecv
  obtain ⟨hi, -⟩ := own_replying hrecv k sockfd
  have hseq := bufferedSeqNum_received (e := e) hrecv' hreq.1 sockfd
  have hbuild := buildResponse_of_fits e (replying k sockfd w).own.processState
    (bufferedSeqNum e (received sockfd (cleared k w))) (hi ▸ hfits)
  obtain ⟨b, hr⟩ := run_sendHeartbeatResponse_ok sockfd hbuild
  rw [run_processEntry e k hfd hvalid, if_pos ((request_cleared_iff hrecv k sockfd).mpr hreq), hr,
    hseq, hi]
  rfl

/-- A request whose reply cannot be built leaves the handler. -/
theorem run_processEntry_of_not_fits (hreq : IsRequest d.bytes) (hfits : ¬w.own.identity.Fits) :
    ∃ f, (processEntry (overrides e) k).run w = .error f (replying k sockfd w) := by
  obtain ⟨hi, -⟩ := own_replying hrecv k sockfd
  obtain ⟨f, hf⟩ := buildResponse_of_not_fits e (replying k sockfd w).own.processState
    (bufferedSeqNum e (received sockfd (cleared k w))) (hi ▸ hfits)
  refine ⟨f, ?_⟩
  rw [run_processEntry e k hfd hvalid, if_pos ((request_cleared_iff hrecv k sockfd).mpr hreq),
    run_sendHeartbeatResponse_error hf]
  rfl

end Entry

end Responser

/-! ### A whole call of `Run` -/

section Run

variable {δ : Type} {ov : Overrides δ} {v : World δ}

/-- The object after a `poll` that found some descriptors ready or none. -/
def polled (w : World δ) : World δ :=
  (w.next.record (.poll ((List.range w.thread.pollFds.count).map fun i ↦
      ((w.thread.pollFds.fds i).fd, (w.thread.pollFds.fds i).events))
    w.thread.timeoutMillisec (w.env 0).poll.ret)).withThread fun th ↦
      { th with
        pollFds := th.pollFds.report (w.env 0).poll.revents
        eventsCount := (w.env 0).poll.ret }

/-- Waiting succeeds unless `poll` fails. -/
theorem run_waitNetworkEvent (h : 0 ≤ (v.env 0).poll.ret) :
    waitNetworkEvent.run v = .ok true (polled v) := by
  simp only [waitNetworkEvent, EStateM.run_bind, EStateM.run_get, run_consult, run_emit]
  rw [if_neg (by omega)]
  rfl

/-- Behind the last entry the loop ends. -/
theorem run_processFrom_of_count_le {i : Nat} (h : v.thread.pollFds.count ≤ i) (turns : Nat) :
    (processFrom ov turns i).run v = .ok () v := by
  cases turns with
  | zero => rfl
  | succ turns =>
    rw [processFrom, EStateM.run_bind, EStateM.run_get]
    dsimp only
    rw [if_neg (by omega)]
    rfl

/-- `ProcessReadEvent` on a single readable entry, whose handling adds no other, handles it. -/
theorem run_processReadEvent_single (hcount : v.thread.pollFds.count = 1)
    (hread : v.thread.pollFds.Readable 0)
    (hkeep : ∀ v', (processEntry ov 0).run v = .ok () v' → v'.thread.pollFds.count = 1) :
    (processReadEvent ov).run v =
      match (processEntry ov 0).run v with
      | .ok _ v' => .ok true (handled v')
      | .error f v' => .error f v' := by
  have hloop : (processFrom ov maxFDSize 0).run v =
      match (processEntry ov 0).run v with
      | .ok _ v' => .ok () (handled v')
      | .error f v' => .error f v' := by
    rw [show maxFDSize = 1023 + 1 from rfl, processFrom, EStateM.run_bind, EStateM.run_get]
    dsimp only
    rw [if_pos (by omega), if_pos hread, EStateM.run_bind]
    cases hr : (processEntry ov 0).run v with
    | error f v' => rfl
    | ok u v' =>
      have hdone : (processFrom ov 1023 1).run (handled v') = .ok () (handled v') :=
        run_processFrom_of_count_le (v := handled v') (hkeep v' hr).le _
      simp only [EStateM.run_bind, run_modifyThread, EStateM.run_get]
      split
      · rfl
      · exact hdone
  rw [processReadEvent, EStateM.run_bind, hloop]
  cases (processEntry ov 0).run v <;> rfl

end Run

/-- Every call succeeds, every wait finds the first descriptor ready, every receive gives `d`,
and no other thread calls. -/
def Outcome.delivering (d : Datagram) (nSend : Int) : Outcome where
  clients := []
  socket := 3
  setsockopt := 0
  bind := 0
  poll := ⟨1, false, fun _ ↦ readMask⟩
  recvfrom := .datagram d
  sendto := nSend

namespace Responser

variable {e : Endian} {w : World Responser} {d : Datagram} {nSend : Int} {sockfd : Int}

/-- Where no other thread calls, nothing happens. -/
theorem afterOthers_delivering (henv : w.env = fun _ ↦ .delivering d nSend) :
    afterOthers w = w := by
  obtain ⟨thread, own, env, trace⟩ := w
  cases henv
  rfl

/-- The responder after `d` has been received in a call of `Run`. -/
def delivered (sockfd : Int) (w : World Responser) : World Responser :=
  received sockfd (cleared 0 (polled w))

/-- The registration survives. -/
theorem sole_delivered (hsole : w.thread.pollFds.Sole sockfd) :
    (delivered sockfd w).thread.pollFds.Sole sockfd :=
  (hsole.report (w.env 0).poll.revents).clearRevents

section

variable (henv : w.env = fun _ ↦ .delivering d nSend) (hexit : w.thread.bExit = false)
  (hsole : w.thread.pollFds.Sole sockfd) (hvalid : sockfd ≠ invalidSocket)

include henv in
private theorem replying_polled : replying 0 sockfd (polled w) = delivered sockfd w := by
  apply afterOthers_delivering
  change (fun k ↦ w.env (k + 1 + 1)) = _
  rw [henv]

include henv in
private theorem recvfrom_polled : ((polled w).env 0).recvfrom = .datagram d := by
  change (w.env 1).recvfrom = _
  rw [henv]
  rfl

include henv in
/-- The sender of the datagram is stored. -/
theorem saRecv_delivered (sockfd : Int) : (delivered sockfd w).own.saRecv = d.sender := by
  have hrecv := recvfrom_polled henv
  change ((polled w).env 0).recvfrom.sender.getD _ = _
  rw [hrecv]
  rfl

include hexit hsole hvalid henv

/-- `Run` handles the entry at which `d` is delivered. -/
theorem run_run_delivering
    (hkeep : ∀ w', (processEntry (overrides e) 0).run (polled w) = .ok () w' →
      w'.thread.pollFds.count = 1) :
    (Legacy.run (overrides e)).run w =
      match (processEntry (overrides e) 0).run (polled w) with
      | .ok _ w' => .ok true (handled w')
      | .error f w' => .error f w' := by
  have hothers : others.run w = .ok () w := by
    rw [run_others, afterOthers_delivering henv]
  have henv' : (polled w).env = fun _ ↦ .delivering d nSend := by
    change (fun k ↦ w.env (k + 1)) = _
    rw [henv]
  have hothers' : others.run (polled w) = .ok () (polled w) := by
    rw [run_others, afterOthers_delivering henv']
  have hwait : waitNetworkEvent.run w = .ok true (polled w) := by
    apply run_waitNetworkEvent
    rw [henv]
    exact Int.one_nonneg
  have hcond : (polled w).thread.bExit = false ∧ 0 < (polled w).thread.eventsCount := by
    refine ⟨hexit, ?_⟩
    change 0 < (w.env 0).poll.ret
    rw [henv]
    exact Int.one_pos
  have hread : (polled w).thread.pollFds.Readable 0 := by
    apply hsole.readable_report hvalid
    rw [henv]
    show readMask &&& readMask ≠ 0
    decide
  have hcount : (polled w).thread.pollFds.count = 1 := (hsole.report _).count_eq
  have hprocess := run_processReadEvent_single hcount hread hkeep
  have hov : (overrides e).others = others := rfl
  simp only [Legacy.run, hov, EStateM.run_bind, hothers, EStateM.run_get, if_pos hexit, hwait,
    if_true, hothers', if_pos hcond, hprocess]
  cases (processEntry (overrides e) 0).run (polled w) <;> rfl

/-- Anything but a request is received and ignored. -/
theorem run_delivering_of_not_request (hreq : ¬IsRequest d.bytes) :
    (Legacy.run (overrides e)).run w = .ok true (handled (delivered sockfd w)) := by
  have hrecv := recvfrom_polled henv
  have hentry := run_processEntry_of_not_request (e := e) (k := 0) (hsole.report _).fd_eq hvalid
    hrecv hreq
  have hrun := run_run_delivering (e := e) henv hexit hsole hvalid fun w' hw' ↦ by
    rw [hentry] at hw'
    cases hw'
    exact (sole_delivered hsole).count_eq
  rw [hrun, hentry]
  rfl

/-- A request is received and answered to its sender, in the current state. -/
theorem run_delivering_of_request (hreq : IsRequest d.bytes) (hfits : w.own.identity.Fits) :
    (Legacy.run (overrides e)).run w =
      .ok true (handled (sentTo sockfd
        (encodeMessage (w.own.identity.response w.own.processState (requestSeq d.bytes)))
        (delivered sockfd w))) := by
  have hrecv := recvfrom_polled henv
  have hentry := run_processEntry_of_request (e := e) (k := 0) (hsole.report _).fd_eq hvalid
    hrecv hreq hfits
  rw [replying_polled henv] at hentry
  have hrun := run_run_delivering (e := e) henv hexit hsole hvalid fun w' hw' ↦ by
    rw [hentry] at hw'
    cases hw'
    exact (sole_delivered hsole).count_eq
  rw [hrun, hentry]
  rfl

/-- A request whose reply cannot be built leaves `Run`. -/
theorem run_delivering_of_not_fits (hreq : IsRequest d.bytes) (hfits : ¬w.own.identity.Fits) :
    ∃ f, (Legacy.run (overrides e)).run w = .error f (delivered sockfd w) := by
  have hrecv := recvfrom_polled henv
  obtain ⟨f, hentry⟩ := run_processEntry_of_not_fits (e := e) (k := 0) (hsole.report _).fd_eq
    hvalid hrecv hreq hfits
  rw [replying_polled henv] at hentry
  have hrun := run_run_delivering (e := e) henv hexit hsole hvalid fun w' hw' ↦ by
    rw [hentry] at hw'
    cases hw'
  refine ⟨f, ?_⟩
  rw [hrun, hentry]

end

/-! ### A responder from its first turn on -/

/-- A fresh responder to which a request is delivered again and again, for runs on fixed
inputs. -/
def requested (i : Identity) : World Responser :=
  fresh i 8090 1000 ⟨0, 0⟩ zeros fun _ ↦ .delivering ⟨⟨1, 2⟩, [0, 0, 0, 0, 0, 0, 0, 7]⟩ 20

/-- Its `InitInstance` succeeds. -/
theorem run_firstInit_requested (i : Identity) :
    ∃ w₀, firstInit.run (requested i).prepareRunning = .ok true w₀ ∧
      w₀.env = (requested i).env ∧ w₀.own = (requested i).own ∧ w₀.thread.bExit = false ∧
      w₀.thread.pollFds.Sole 3 ∧ sends w₀.trace = [] :=
  ⟨_, rfl, rfl, rfl, rfl, (PollTable.pollFDAdd_empty (by decide)).2, rfl⟩

/-- A representative address of `n` bytes, and an empty local one. -/
def addresses (n : Nat) : Identity := ⟨List.replicate n 0, []⟩

/-- From `2 ^ 31` bytes on, replies have no `int` size. -/
theorem not_fits_addresses {n : Nat} (h : 2 ^ 31 ≤ n) : ¬(addresses n).Fits := by
  intro hfits
  unfold Identity.Fits Identity.replySize addresses at hfits
  rw [List.length_replicate] at hfits
  omega

/-- If its reply cannot be built, the first request leaves `ThreadProc`, unanswered. -/
theorem runThreadHere_requested_of_not_fits (e : Endian) {i : Identity} (hfits : ¬i.Fits) :
    ∃ f w, runThreadHere e 1 (requested i) = .error f w ∧ sends w.trace = [] ∧
      .recvfrom 3 (.datagram ⟨⟨1, 2⟩, [0, 0, 0, 0, 0, 0, 0, 7]⟩) ∈ w.trace := by
  obtain ⟨w₀, hinit, henv, hown, hexit, hsole, hsends⟩ := run_firstInit_requested i
  have hturn := run_turn_of_firstInit e (w := (requested i).prepareRunning) rfl hinit
  have hfits' : ¬w₀.own.identity.Fits := hown ▸ hfits
  generalize hv : (threadClass e).setState .doneInitInstance w₀ = v at hturn
  replace henv : v.env = (requested i).env := hv ▸ henv
  replace hexit : v.thread.bExit = false := hv ▸ hexit
  replace hsole : v.thread.pollFds.Sole 3 := hv ▸ hsole
  replace hsends : sends v.trace = [] := hv ▸ hsends
  replace hfits' : ¬v.own.identity.Fits := hv ▸ hfits'
  have hafter := afterOthers_delivering henv
  obtain ⟨f, hrun⟩ := run_delivering_of_not_fits (e := e) henv hexit hsole (by decide) (by decide)
    hfits'
  have hbefore : (threadClass e).beforeTest.run v = .ok () v := by
    show EStateM.Result.ok () (afterOthers v) = _
    rw [hafter]
  have hproc : (threadClass e).procDoneInitInstance.run v = .error f (delivered 3 v) :=
    (threadClass e).run_procDoneInitInstance_error hbefore hexit hrun
  have hloop :=
    CiThread2Class.runLoop_succ (threadClass e) (s := (requested i).prepareRunning) rfl 0
  rw [EStateM.run_bind, hturn, hproc] at hloop
  refine ⟨f, delivered 3 v, hloop, ?_, ?_⟩
  · change sends (v.trace ++ [_] ++ [_]) = []
    rw [sends_append, sends_append, hsends]
    rfl
  · apply List.mem_append_right
    change _ ∈ [SysEvent.recvfrom 3 (v.env 1).recvfrom]
    rw [henv]
    exact List.mem_singleton_self _

end Responser
end HeartbeatSpec.Legacy
