import HeartbeatSpec.Legacy.Ending
import HeartbeatSpec.Legacy.History

/-!
# Descriptors that are never closed

Library `Legacy`. `InitInstance` hands its socket to `m_ReadSockets` only after `setsockopt` and
`bind`; where one of the two fails it returns without closing the socket, and `ExitInstance` does
not know of it. Every other descriptor is closed by the end of its run.
-/

namespace HeartbeatSpec.Legacy
open HeartbeatSpec.Base HeartbeatSpec.Message HeartbeatSpec.Thread

/-- The open descriptors are the registered ones and those in `lost`. -/
structure Owes (lost : Finset Int) (w : World Responser) : Prop where
  open_eq : openDescriptors w.trace = w.thread.readSockets ∪ lost
  disjoint : Disjoint w.thread.readSockets lost

namespace Owes

variable {lost : Finset Int} {w : World Responser}

/-- Neither the environment's answers nor the subclass's members matter, nor a change of the
thread that leaves its read sockets. -/
theorem of_eq (h : Owes lost w) {v : World Responser} (htrace : v.trace = w.trace)
    (hsockets : v.thread.readSockets = w.thread.readSockets) : Owes lost v where
  open_eq := by
    rw [htrace, hsockets]
    exact h.open_eq
  disjoint := by
    rw [hsockets]
    exact h.disjoint

/-- Nor does an event that is neither `socket` nor `nu_disconnect`. -/
theorem record (h : Owes lost w) {ev : SysEvent} (hev : ev.ledgerEntry = none) :
    Owes lost (w.record ev) where
  open_eq := (openDescriptors_snoc_of_none w.trace hev).trans h.open_eq
  disjoint := h.disjoint

/-- Nor do calls of other threads. -/
theorem afterOthers (h : Owes lost w) : Owes lost (Responser.afterOthers w) := by
  obtain ⟨b, hb⟩ := thread_clientCalls Responser.setProcessState (w.env 0).clients w.next
  have htrace := trace_clientCalls Responser.setProcessState (w.env 0).clients w.next
  refine ⟨?_, ?_⟩
  · rw [Responser.afterOthers, hb, htrace, openDescriptors, ledger_append, ledger_clients,
      List.append_nil]
    exact h.open_eq
  · rw [Responser.afterOthers, hb]
    exact h.disjoint

/-- `ExitInstance` closes all but what is lost. -/
theorem exited (h : Owes lost w) : Owes lost (exited w) where
  open_eq := by
    rw [openDescriptors_exited, h.open_eq, Finset.union_sdiff_left,
      Finset.sdiff_eq_self_of_disjoint h.disjoint.symm]
    exact (Finset.empty_union lost).symm
  disjoint := Finset.disjoint_empty_left lost

/-- The event loop keeps what is owed. -/
theorem loopInvariant : LoopInvariant (Owes lost) where
  next _ h := h.of_eq rfl rfl
  record ev w hev h := by
    apply h.record
    cases ev <;> first | exact hev.elim | rfl
  eventsCount _ _ h := h.of_eq rfl rfl
  report _ _ _ h := h.of_eq rfl rfl

/-- So do the handlers. -/
theorem handlerInvariant : Responser.HandlerInvariant (Owes lost) where
  cleared _ _ h := h.of_eq rfl rfl
  received sockfd w h := by
    have hnext : Owes lost w.next := h.of_eq rfl rfl
    have hrecord : Owes lost (w.next.record (.recvfrom sockfd (w.env 0).recvfrom)) :=
      hnext.record rfl
    exact hrecord.of_eq rfl rfl
  afterOthers _ h := h.afterOthers
  sentTo sockfd bytes w h := by
    have hnext : Owes lost w.next := h.of_eq rfl rfl
    exact hnext.record rfl

end Owes

namespace Responser

/-- `socket` succeeds, and `setsockopt` or `bind` fails, at the next three answers. -/
def OpensInVain (w : World Responser) : Prop :=
  0 ≤ (w.env 0).socket ∧ ((w.env 1).setsockopt = -1 ∨ (w.env 2).bind < 0)

instance (w : World Responser) : Decidable (OpensInVain w) :=
  inferInstanceAs (Decidable (_ ∧ _))

/-- The socket that `InitInstance` loses. -/
def lostSocket (w : World Responser) : Finset Int :=
  if OpensInVain w then {(w.env 0).socket} else ∅

/-- It depends on the answers alone. -/
theorem lostSocket_of_env {v w : World Responser} (h : v.env = w.env) :
    lostSocket v = lostSocket w := by
  have hvain : OpensInVain v ↔ OpensInVain w := by
    unfold OpensInVain
    rw [h]
  exact if_congr hvain (by rw [h]) rfl

/-- A socket that has just been opened is not registered yet. -/
theorem owes_socket {w : World Responser} (hopen : openDescriptors w.trace = ∅)
    (hsockets : w.thread.readSockets = ∅) {sockfd : Int} (hsock : ¬sockfd < 0) :
    Owes {sockfd} (w.record (.socket sockfd)) where
  open_eq := by
    show openDescriptors (w.trace ++ [_]) = w.thread.readSockets ∪ _
    rw [openDescriptors_snoc, SysEvent.ledgerEntry, if_neg hsock, hopen, hsockets]
    rfl
  disjoint := by
    show Disjoint w.thread.readSockets _
    rw [hsockets]
    exact Finset.disjoint_empty_left _

/-- Registering it settles the debt. -/
theorem Owes.registered {w : World Responser} {sockfd : Int} (h : Owes {sockfd} w)
    (hsockets : w.thread.readSockets = ∅) :
    Owes ∅ (w.withThread fun th ↦ { th with readSockets := insert sockfd th.readSockets }) where
  open_eq := by
    show openDescriptors w.trace = insert sockfd w.thread.readSockets ∪ ∅
    rw [h.open_eq, hsockets]
    rfl
  disjoint := Finset.disjoint_empty_right _

/-- `InitInstance` loses its socket exactly if `setsockopt` or `bind` fails. -/
theorem owes_initInstance {v : World Responser} (hopen : openDescriptors v.trace = ∅)
    (hsockets : v.thread.readSockets = ∅) :
    ∃ b v', initInstance.run v = .ok b v' ∧ Owes (lostSocket v) v' := by
  simp only [initInstance, EStateM.run_bind, run_consult, run_emit]
  split
  · next hsock =>
    have hlost : lostSocket v = ∅ := if_neg fun h ↦ absurd h.1 (by omega)
    rw [hlost]
    refine ⟨false, _, rfl, ⟨?_, Finset.disjoint_empty_right _⟩⟩
    show openDescriptors (v.trace ++ [_]) = v.thread.readSockets ∪ ∅
    rw [openDescriptors_snoc, SysEvent.ledgerEntry, if_pos hsock, hopen, hsockets]
    rfl
  next hsock =>
  have hsocket : Owes {(v.env 0).socket} (v.next.record (.socket (v.env 0).socket)) :=
    owes_socket (w := v.next) hopen hsockets hsock
  simp only [EStateM.run_bind, run_consult, run_emit]
  have hopt : Owes {(v.env 0).socket}
      (((v.next.record (.socket (v.env 0).socket)).next).record
        (.setsockopt (v.env 0).socket (v.env 1).setsockopt)) :=
    (hsocket.of_eq (v := (v.next.record _).next) rfl rfl).record rfl
  split
  · next hfail =>
    have hlost : lostSocket v = {(v.env 0).socket} := if_pos ⟨by omega, Or.inl hfail⟩
    rw [hlost]
    exact ⟨false, _, rfl, hopt⟩
  next hset =>
  simp only [EStateM.run_bind, run_consult, run_emit, EStateM.run_get]
  have hbound : ∀ port, Owes {(v.env 0).socket}
      (((((v.next.record (.socket (v.env 0).socket)).next).record
        (.setsockopt (v.env 0).socket (v.env 1).setsockopt)).next).record
          (.bind (v.env 0).socket port (v.env 2).bind)) := by
    intro port
    exact (hopt.of_eq (v := ((v.next.record _).next.record _).next) rfl rfl).record rfl
  split
  · next hfail =>
    have hlost : lostSocket v = {(v.env 0).socket} := if_pos ⟨by omega, Or.inr hfail⟩
    rw [hlost]
    exact ⟨false, _, rfl, hbound _⟩
  next hbind =>
  have hlost : lostSocket v = ∅ := if_neg fun h ↦ h.2.elim hset hbind
  have hvalid : (v.env 0).socket ≠ invalidSocket := by
    unfold invalidSocket
    omega
  have hadd (u : World Responser) : (addReadSocket (v.env 0).socket).run u =
      .ok true (u.withThread fun th ↦
        { th with readSockets := insert (v.env 0).socket th.readSockets }) := by
    rw [addReadSocket, if_neg hvalid]
    rfl
  rw [hlost]
  simp only [EStateM.run_bind, hadd, Bool.true_eq_false, if_false]
  have hregistered := Owes.registered (hbound v.own.portNumber) hsockets
  show ∃ b v', EStateM.run (if (PollTable.pollFDAdd (v.env 0).socket v.thread.pollFds).1 = false
    then pure false else pure true) _ = _ ∧ _
  cases (PollTable.pollFDAdd (v.env 0).socket v.thread.pollFds).1 with
  | false => exact ⟨false, _, rfl, hregistered.of_eq rfl rfl⟩
  | true => exact ⟨true, _, rfl, hregistered.of_eq rfl rfl⟩

/-- A socket is lost exactly if it is opened in vain. -/
theorem lostSocket_eq_empty_iff (w : World Responser) : lostSocket w = ∅ ↔ ¬OpensInVain w := by
  unfold lostSocket
  split
  · next h => exact iff_of_false (Finset.singleton_ne_empty _) (not_not.mpr h)
  · next h => exact iff_of_true rfl h

/-- After a run that has ended, the socket is open that its `InitInstance` has lost. -/
theorem openDescriptors_run {e : Endian} {n : Nat} {w t : World Responser}
    (hopen : openDescriptors w.trace = ∅) (hclosed : Closed w)
    (hrun : runThreadHere e n w = .ok true t) :
    openDescriptors t.trace = lostSocket w.next ∧ Closed t := by
  have hstart : Owes ∅ w.prepareRunning := by
    refine ⟨?_, Finset.disjoint_empty_right _⟩
    show openDescriptors w.trace = w.thread.readSockets ∪ ∅
    rw [hopen, hclosed.readSockets]
    rfl
  have hsockets : (afterOthers w.prepareRunning).thread.readSockets = ∅ := by
    obtain ⟨b, hb⟩ := thread_clientCalls setProcessState (w.env 0).clients w.prepareRunning.next
    exact (congrArg NetworkThread.readSockets hb).trans hclosed.readSockets
  have hnone : openDescriptors (afterOthers w.prepareRunning).trace = ∅ := by
    rw [hstart.afterOthers.open_eq, hsockets]
    rfl
  obtain ⟨b, v, hinit, hv⟩ := owes_initInstance hnone hsockets
  have hlost : lostSocket (afterOthers w.prepareRunning) = lostSocket w.next :=
    lostSocket_of_env (env_afterOthers w.prepareRunning)
  rw [hlost] at hv
  have hexits := exits (I := Owes (lostSocket w.next)) Owes.loopInvariant Owes.handlerInvariant
    (fun _ hw ↦ hw.exited) (fun _ _ hw ↦ hw.of_eq rfl rfl) e
  obtain ⟨ht, hclosed'⟩ := hexits.of_runLoop rfl (run_others w.prepareRunning)
    (state_afterOthers w.prepareRunning) hinit hv hrun
  refine ⟨?_, hclosed'⟩
  rw [ht.open_eq, hclosed'.readSockets, Finset.empty_union]

/-! ### Histories -/

/-- Nobody runs the object, nothing is registered, and no descriptor is open. -/
structure Tidy (r : Runner) : Prop extends r.Idle where
  closed : Closed r.world
  open_eq : openDescriptors r.world.trace = ∅

/-- A constructed object is tidy. -/
theorem tidy_new (i : Identity) (portNumber : UInt16) (timeoutMillisec : Int) (saRecv : Endpoint)
    (recvBuf : RecvBuf) (env : Nat → Outcome) :
    Tidy (.new (fresh i portNumber timeoutMillisec saRecv recvBuf env)) where
  toIdle := Runner.idle_new _
  closed := ⟨rfl, rfl, rfl⟩
  open_eq := rfl

/-- A run leaves open what its `InitInstance` loses, and anything else leaves nothing open. -/
theorem tidy_step {e : Endian} {r r' : Runner} {l : HistoryStep} (hr : Tidy r)
    (h : historyStep e r l = some r') :
    openDescriptors r'.world.trace =
        (if l.turns.isSome then lostSocket r.world.next else ∅) ∧
      Closed r'.world ∧ r'.Idle := by
  cases hl : l.turns with
  | some n =>
    obtain ⟨hrun, hidle⟩ := historyStep_run hr.toIdle hl h
    obtain ⟨hopen, hclosed⟩ := openDescriptors_run hr.open_eq hr.closed hrun
    exact ⟨hopen, hclosed, hidle⟩
  | none =>
    obtain ⟨⟨calls, hcalls⟩ | hprepared, hidle⟩ := historyStep_other hr.toIdle hl h
    · rw [hcalls]
      refine ⟨?_, hr.closed.clientCalls _ calls, hidle⟩
      rw [trace_clientCalls, openDescriptors, ledger_append, ledger_clients, List.append_nil]
      exact hr.open_eq
    · rw [hprepared]
      exact ⟨hr.open_eq, ⟨hr.closed.1, hr.closed.2, hr.closed.3⟩, hidle⟩

/-- No descriptor leaks: in every history of a responder, nothing is open after each of its runs
if and only if no `InitInstance` in it opens a socket on which `setsockopt` or `bind` fails. -/
theorem no_leak_iff (e : Endian) {i : Identity} {portNumber : UInt16} {timeoutMillisec : Int}
    {saRecv : Endpoint} {recvBuf : RecvBuf} {env : Nat → Outcome}
    {tr : List (Transition Runner HistoryStep)} {r : Runner}
    (h : Runs (historyStep e) (.new (fresh i portNumber timeoutMillisec saRecv recvBuf env)) tr r) :
    (∀ x ∈ tr, x.label.turns.isSome → openDescriptors x.target.world.trace = ∅) ↔
      ∀ x ∈ tr, x.label.turns.isSome → ¬OpensInVain x.source.world.next := by
  refine h.forall_iff_of_kept (I := Tidy)
    (C := fun s l _ ↦ l.turns.isSome → ¬OpensInVain s.world.next)
    (P := fun _ l t ↦ l.turns.isSome → openDescriptors t.world.trace = ∅) ?_ ?_
    (tidy_new i portNumber timeoutMillisec saRecv recvBuf env)
  · intro s l t hs hst hc
    obtain ⟨hopen, hclosed, hidle⟩ := tidy_step hs hst
    refine ⟨hidle, hclosed, hopen.trans ?_⟩
    split
    · next hl => exact (lostSocket_eq_empty_iff _).mpr (hc hl)
    · rfl
  · intro s l t hs hst
    obtain ⟨hopen, -, -⟩ := tidy_step hs hst
    refine forall_congr' fun hl ↦ ?_
    rw [hopen, if_pos hl, lostSocket_eq_empty_iff]

/-- A request arrives and is answered, and then `EndThread` is called. -/
private def oneAnswer (k : Nat) : Outcome where
  clients := if k = 11 then [.endThread] else []
  socket := 3
  setsockopt := 0
  bind := 0
  poll := ⟨1, false, fun _ ↦ 1⟩
  recvfrom := .datagram ⟨⟨1, 2⟩, [0, 0, 0, 0, 0, 0, 0, 7]⟩
  sendto := 20

private def oneAnswerTrace : List SysEvent :=
  [.socket 3, .setsockopt 3 0, .bind 3 8090 0, .poll [(3, readMask)] 1000 1,
    .recvfrom 3 (.datagram ⟨⟨1, 2⟩, [0, 0, 0, 0, 0, 0, 0, 7]⟩),
    .sendto 3 [0, 0, 0, 1, 0, 0, 0, 7, 0, 0, 0, 0, 0, 0, 0, 0, 0, 0, 0, 0] ⟨1, 2⟩ 20,
    .client .endThread, .close 3]

/-- A run that opens a descriptor, answers a request on it and closes it. -/
theorem no_leak_iff_answered :
    ∃ tr r, Runs (historyStep .little)
        (.new (fresh ⟨[], []⟩ 8090 1000 ⟨0, 0⟩ zeros oneAnswer)) tr r ∧
      r.world.trace = oneAnswerTrace ∧
      ((∀ x ∈ tr, x.label.turns.isSome → openDescriptors x.target.world.trace = ∅) ↔
        ∀ x ∈ tr, x.label.turns.isSome → ¬OpensInVain x.source.world.next) := by
  have hrun : (exec (historyStep .little)
      (.new (fresh ⟨[], []⟩ 8090 1000 ⟨0, 0⟩ zeros oneAnswer)) [.runThreadHere 3]).map
        (fun r ↦ r.world.trace) = some oneAnswerTrace := by
    decide +kernel
  obtain ⟨r, hr, htrace⟩ := Option.map_eq_some_iff.mp hrun
  have hruns := Runs.of_exec hr
  exact ⟨_, r, hruns, htrace, no_leak_iff .little hruns⟩

/-- Every call succeeds but `bind`: the port is taken. -/
def portTaken : Outcome where
  clients := []
  socket := 3
  setsockopt := 0
  bind := -1
  poll := ⟨0, false, fun _ ↦ 0⟩
  recvfrom := .other (-1) [] none
  sendto := -1

/-- A run that finds its port taken leaves its socket open. -/
theorem leaks_if_port_taken :
    ¬∀ tr r, Runs (historyStep .little)
        (.new (fresh ⟨[], []⟩ 8090 1000 ⟨0, 0⟩ zeros fun _ ↦ portTaken)) tr r →
      ∀ x ∈ tr, x.label.turns.isSome → openDescriptors x.target.world.trace = ∅ := by
  intro hall
  have hopen : (historyStep .little
      (.new (fresh ⟨[], []⟩ 8090 1000 ⟨0, 0⟩ zeros fun _ ↦ portTaken)) (.runThreadHere 2)).map
        (fun r ↦ openDescriptors r.world.trace) = some {3} := by
    decide +kernel
  obtain ⟨r, hr, hthree⟩ := Option.map_eq_some_iff.mp hopen
  have hempty := hall _ r (Runs.nil.snoc hr) _ (List.mem_singleton_self _) rfl
  rw [hthree] at hempty
  exact Finset.singleton_ne_empty 3 hempty

end Responser
end HeartbeatSpec.Legacy
