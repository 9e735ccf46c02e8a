import HeartbeatSpec.Base.Runs
import HeartbeatSpec.Legacy.Responser
import HeartbeatSpec.Legacy.Scripted

/-!
# Reading only what was reported

Library `Legacy`. `Run` calls `ReceiveIntMessage` only for descriptors that the `poll` it has just
made reported readable, each once, `legacy_compatible/legacy_support.cpp:624–737`. Returned events
that earlier passes have left in the table are overwritten by the next `poll` that succeeds, and
not looked at after one that fails.
-/

namespace HeartbeatSpec.Legacy
open HeartbeatSpec.Base HeartbeatSpec.Message

variable {δ : Type}

/-- The handlers leave the poll table alone, and `OnReadSocketError` is that of `CNetworkThread` or
that of `CCiHBResponser`. -/
structure LeavesTable (ov : Overrides δ) : Prop where
  receiveIntMessage : ∀ (sockfd : Int) (t : PollTable), Keeps (fun w ↦ w.thread.pollFds = t)
    (fun _ w ↦ w.thread.pollFds = t) (ov.receiveIntMessage sockfd)
  onMessage : ∀ (sockfd : Int) (iMessage : Int32) (t : PollTable),
    Keeps (fun w ↦ w.thread.pollFds = t) (fun _ w ↦ w.thread.pollFds = t)
      (ov.onMessage sockfd iMessage)
  onReadSocketError : ov.onReadSocketError = onReadSocketError ∨
    ov.onReadSocketError = fun _ ↦ pure true
  others : ∃ set, ov.others = othersCall set

section Entry

variable {ov : Overrides δ} {t : PollTable} {i : Nat}

private theorem contract_recording {α : Type} {P Q E : PollTable → Prop} {x : Call δ α}
    (h : Contract (fun w ↦ P w.thread.pollFds) x (fun _ w ↦ Q w.thread.pollFds)
      fun _ w ↦ E w.thread.pollFds) (before : List HandlerEvent) (after : α → List HandlerEvent) :
    Contract (fun w ↦ P w.thread.pollFds) (recording before after x)
      (fun _ w ↦ Q w.thread.pollFds) fun _ w ↦ E w.thread.pollFds := by
  intro w hw
  have hx := h w.plain hw
  rw [run_recording]
  cases hr : x.run w.plain with
  | ok a v =>
    rw [hr] at hx
    exact hx
  | error f v =>
    rw [hr] at hx
    exact hx

private theorem keeps_table_recording {α : Type} {t : PollTable} {x : Call δ α}
    (h : Keeps (fun w ↦ w.thread.pollFds = t) (fun _ w ↦ w.thread.pollFds = t) x)
    (before : List HandlerEvent) (after : α → List HandlerEvent) :
    Keeps (fun w ↦ w.thread.pollFds = t) (fun _ w ↦ w.thread.pollFds = t)
      (recording before after x) :=
  contract_recording (P := (· = t)) (Q := (· = t)) (E := (· = t)) h before after

private theorem contract_fdAt {t : PollTable} {E : Fault → World δ → Prop} (i : Nat) :
    Contract (fun w ↦ w.thread.pollFds = t) (fdAt i)
      (fun fd w ↦ w.thread.pollFds = t ∧ fd = (t.fds i).fd) E := by
  intro w hw
  exact ⟨hw, congrArg (fun t ↦ (t.fds i).fd) hw⟩

/-- Reporting the descriptor of a cleared entry drops the entry, or does nothing. -/
private theorem settled_onReadSocketError (hov : LeavesTable ov) (hnodup : t.descriptors.Nodup)
    (hi : i < t.count) (hvalid : (t.fds i).fd ≠ invalidSocket) :
    Contract (fun w ↦ w.thread.pollFds = t.clearRevents i)
      (ov.onReadSocketError (t.fds i).fd) (fun _ w ↦ Settled t i w.thread.pollFds)
      fun _ w ↦ Settled t i w.thread.pollFds := by
  intro w hw
  have hfd : ((t.clearRevents i).fds i).fd = (t.fds i).fd := PollTable.fd_clearRevents t i i
  rcases hov.onReadSocketError with herror | herror
  · rw [herror, run_onReadSocketError hvalid]
    right
    have hdelete := PollTable.pollFDDelete_of_nodup (t := t.clearRevents i) (i := i)
      (by rwa [PollTable.descriptors_clearRevents]) hi (by rwa [hfd])
    rw [hfd] at hdelete
    change (w.thread.pollFds.pollFDDelete (t.fds i).fd).2 = _
    rw [hw, hdelete]
  · rw [herror]
    exact Or.inl hw

/-- The handling of a readable entry clears it or drops it. -/
theorem settled_processEntry (hov : LeavesTable ov) (hnodup : t.descriptors.Nodup)
    (hi : i < t.count) (hvalid : (t.fds i).fd ≠ invalidSocket) :
    Contract (fun w ↦ w.thread.pollFds = t) (processEntry (recorded ov) i)
      (fun _ w ↦ Settled t i w.thread.pollFds) fun _ w ↦ Settled t i w.thread.pollFds := by
  have hfd : ((t.clearRevents i).fds i).fd = (t.fds i).fd := PollTable.fd_clearRevents t i i
  have hreport : Contract (fun w ↦ w.thread.pollFds = t.clearRevents i) (do
      let fd ← fdAt i
      let _ ← (recorded ov).onReadSocketError fd
      pure ()) (fun _ w ↦ Settled t i w.thread.pollFds)
        fun _ w ↦ Settled t i w.thread.pollFds := by
    refine (contract_fdAt i).bind fun fd ↦ Contract.bind ?_ fun _ ↦ Contract.pure fun _ hv ↦ hv
    rintro w ⟨hw, rfl⟩
    rw [hfd]
    exact contract_recording (P := (· = t.clearRevents i)) (Q := Settled t i) (E := Settled t i)
      (settled_onReadSocketError hov hnodup hi hvalid) _ _ w hw
  refine Contract.bind (Q := fun _ w ↦ w.thread.pollFds = t.clearRevents i)
    (Contract.modify fun w hw ↦ congrArg (·.clearRevents i) hw) fun _ ↦ ?_
  refine (contract_fdAt i).bind fun fd ↦
    Contract.bind (Q := fun _ w ↦ w.thread.pollFds = t.clearRevents i) ?_ fun msg ↦ ?_
  · exact Contract.mono
      (keeps_table_recording (hov.receiveIntMessage fd (t.clearRevents i)) _ _)
      (fun _ hv ↦ hv.1) (fun _ _ hv ↦ hv) fun _ _ hv ↦ Or.inl hv
  · cases msg with
    | none => exact hreport
    | some iMessage =>
      refine (contract_fdAt i).bind fun fd' ↦
        Contract.bind (Q := fun _ w ↦ w.thread.pollFds = t.clearRevents i) ?_ fun ret ↦ ?_
      · exact Contract.mono
          (keeps_table_recording (hov.onMessage fd' iMessage (t.clearRevents i)) _ _)
          (fun _ hv ↦ hv.1) (fun _ _ hv ↦ hv) fun _ _ hv ↦ Or.inl hv
      · exact Contract.ite (fun _ ↦ hreport) fun _ ↦ Contract.pure fun _ hv ↦ Or.inl hv

end Entry

/-! ### The pass -/

/-- Since `socks` were received, `ReceiveIntMessage` has been called for readable entries of `t`
before the one at `i`, for each at most once. -/
def ReadBefore (t : PollTable) (socks : List Int) (i : Nat) (v : World (Recorded δ)) : Prop :=
  ∃ ps : List Nat, receives v.own.calls = socks ++ ps.map (fun p ↦ (t.fds p).fd) ∧ ps.Nodup ∧
    ∀ p ∈ ps, p < i ∧ p < t.count ∧ t.Readable p

/-- The pass over `t` has come to the entry at `i`, and the entries from there on are in place. -/
structure Reading (t : PollTable) (socks : List Int) (i : Nat) (v : World (Recorded δ)) : Prop where
  count_le : v.thread.pollFds.count ≤ t.count
  same : ∀ j, i ≤ j → j < v.thread.pollFds.count → v.thread.pollFds.fds j = t.fds j
  nodup : v.thread.pollFds.descriptors.Nodup
  read : ReadBefore t socks i v

/-- What a pass leaves. -/
def HaveRead (t : PollTable) (socks : List Int) (v : World (Recorded δ)) : Prop :=
  v.thread.pollFds.descriptors.Nodup ∧ ∃ i, ReadBefore t socks i v

namespace Reading

variable {ov : Overrides δ} {t : PollTable} {socks : List Int} {i : Nat} {v : World (Recorded δ)}

theorem skip (h : Reading t socks i v) : Reading t socks (i + 1) v where
  count_le := h.count_le
  same j hj := h.same j (by omega)
  nodup := h.nodup
  read := by
    obtain ⟨ps, hreceives, hnodup, hps⟩ := h.read
    refine ⟨ps, hreceives, hnodup, fun p hp ↦ ?_⟩
    obtain ⟨hlt, hrest⟩ := hps p hp
    exact ⟨by omega, hrest⟩

/-- After a readable entry has been handled the pass can go on behind it. -/
theorem after_entry (h : Reading t socks i v) (hi : i < v.thread.pollFds.count)
    (hread : v.thread.pollFds.Readable i) {v' : World (Recorded δ)}
    (hsettled : Settled v.thread.pollFds i v'.thread.pollFds)
    (hreceives : receives v'.own.calls = receives v.own.calls ++ [v.slot i]) :
    Reading t socks (i + 1) v' := by
  have hsame : v.thread.pollFds.fds i = t.fds i := h.same i (Nat.le_refl i) hi
  have hslot : v.slot i = (t.fds i).fd := congrArg PollFd.fd hsame
  have hread' : t.Readable i := by
    unfold PollTable.Readable at hread ⊢
    rw [← hsame]
    exact hread
  have hlt := Nat.lt_of_lt_of_le hi h.count_le
  constructor
  · exact Nat.le_trans hsettled.count_le h.count_le
  · intro j hj hlt
    have hlt' := Nat.lt_of_lt_of_le hlt hsettled.count_le
    rw [hsettled.fds hj hlt]
    exact h.same j (by omega) hlt'
  · exact hsettled.nodup h.nodup hi
  · obtain ⟨ps, hps_receives, hps_nodup, hps⟩ := h.read
    refine ⟨ps ++ [i], ?_, ?_, fun p hp ↦ ?_⟩
    · rw [hreceives, hps_receives, hslot, List.map_append, List.append_assoc]
      rfl
    · rw [← List.concat_eq_append]
      apply hps_nodup.concat
      exact fun hi ↦ Nat.lt_irrefl i (hps i hi).1
    · rcases List.mem_append.mp hp with hp | hp
      · obtain ⟨hpi, hrest⟩ := hps p hp
        exact ⟨by omega, hrest⟩
      · rw [List.mem_singleton.mp hp]
        exact ⟨Nat.lt_succ_self i, hlt, hread'⟩

/-- A readable entry is read once, however its handlers are left. -/
theorem entry (hov : LeavesTable ov) (t : PollTable) (socks : List Int) (i : Nat) :
    Contract (fun w ↦ Reading t socks i w ∧ i < w.thread.pollFds.count ∧
        w.thread.pollFds.Readable i)
      (processEntry (recorded ov) i) (fun _ ↦ Reading t socks (i + 1))
      fun _ ↦ Reading t socks (i + 1) := by
  rintro w ⟨hw, hi, hread⟩
  have hboth := (settled_processEntry hov hw.nodup hi hread.1).and
    (receives_processEntry ov i (receives w.own.calls) (w.slot i)) w ⟨rfl, rfl, rfl⟩
  cases hrun : (processEntry (recorded ov) i).run w with
  | ok a w' =>
    rw [hrun] at hboth
    exact hw.after_entry hi hread hboth.1 hboth.2
  | error f w' =>
    rw [hrun] at hboth
    exact hw.after_entry hi hread hboth.1 hboth.2

theorem haveRead (h : Reading t socks i v) : HaveRead t socks v := ⟨h.nodup, i, h.read⟩

/-- `ProcessReadEvent` reads readable entries of the table that it starts with, each at most
once. -/
theorem processReadEvent (hov : LeavesTable ov) (h : Reading t socks 0 v) :
    Contract (fun w ↦ w = v) (Legacy.processReadEvent (recorded ov)) (fun _ ↦ HaveRead t socks)
      fun _ ↦ HaveRead t socks := by
  refine Contract.bind (Q := fun _ ↦ HaveRead t socks) ?_ fun _ ↦ Contract.pure fun _ hw ↦ hw
  refine Contract.at_state (P := Reading t socks 0) ?_ h
  refine contract_processFrom (J := Reading t socks) (fun i ↦ ?_) (fun _ _ hw _ _ ↦ hw.skip)
    (fun _ _ hw _ ↦ hw.haveRead) maxFDSize 0 (Nat.le_refl _)
  refine (entry hov t socks i).mono (fun _ hw ↦ hw) (fun _ w hw ↦ ?_) fun _ _ hw ↦ hw.haveRead
  have hnext : Reading t socks (i + 1) (handled w) := ⟨hw.1, hw.2, hw.3, hw.4⟩
  split
  · exact hnext.haveRead
  · exact hnext

end Reading

/-! ### Waiting, and the two halves of `Run` -/

/-- The first half of `Run`: the exit flag is looked at, and the network is waited for. -/
def pollNetwork (ov : Overrides δ) : Call δ Bool := do
  ov.others
  if (← get).thread.bExit = false then waitNetworkEvent else pure false

/-- The second half: what has been reported is read. -/
def readReported (ov : Overrides δ) : Call δ Bool := do
  ov.others
  if (← get).thread.bExit = false ∧ 0 < (← get).thread.eventsCount then
    let _ ← processReadEvent ov
  pure true

theorem run_eq (ov : Overrides δ) :
    Legacy.run ov = pollNetwork ov >>= fun b ↦ if b then readReported ov else pure true := by
  rw [Legacy.run, pollNetwork, bind_assoc]
  congr 1
  funext _
  rw [bind_assoc]
  congr 1
  funext w
  split
  · rfl
  · rw [pure_bind]
    rfl

section Halves

variable {ov : Overrides δ} {w v : World (Recorded δ)} {E : Fault → World (Recorded δ) → Prop}

/-- Calls by other threads leave the table and the record alone. -/
structure Interleaved (w v : World (Recorded δ)) : Prop where
  pollFds : v.thread.pollFds = w.thread.pollFds
  eventsCount : v.thread.eventsCount = w.thread.eventsCount
  env : v.env = fun k ↦ w.env (k + 1)
  calls : v.own.calls = w.own.calls

theorem contract_recorded_others (hov : LeavesTable ov) (w : World (Recorded δ)) :
    Contract (fun u ↦ u = w) (recorded ov).others (fun _ ↦ Interleaved w) E := by
  intro u hu
  rw [hu]
  obtain ⟨set, hset⟩ := hov.others
  have hrun : (recorded ov).others.run w =
      .ok () ((clientCalls set (w.env 0).clients w.plain.next).recorded w.own.calls) := by
    change (recording [] (fun _ ↦ []) ov.others).run w = _
    rw [run_recording, hset, List.append_nil]
    change EStateM.Result.ok () (World.recorded (w.own.calls ++ []) _) = _
    rw [List.append_nil]
    rfl
  rw [hrun]
  obtain ⟨b, hthread⟩ := thread_clientCalls set (w.env 0).clients w.plain.next
  constructor
  · exact (congrArg NetworkThread.pollFds hthread : _)
  · exact (congrArg NetworkThread.eventsCount hthread : _)
  · exact env_clientCalls set (w.env 0).clients w.plain.next
  · rfl

/-- What the first half of a `Run` from `w` leaves: nothing has been read, and the returned events
are what its `poll` has set where it returns true with a positive count. -/
structure Polled (w : World (Recorded δ)) (b : Bool) (v : World (Recorded δ)) : Prop where
  calls : v.own.calls = w.own.calls
  descriptors : v.thread.pollFds.descriptors = w.thread.pollFds.descriptors
  reported : b = true → 0 < v.thread.eventsCount → 0 < (w.env 1).poll.ret ∧
    v.thread.pollFds = w.thread.pollFds.report (w.env 1).poll.revents

theorem polled_waitNetworkEvent (h : Interleaved w v) :
    Contract (fun u ↦ u = v) waitNetworkEvent (Polled w) E := by
  have henv : v.env 0 = w.env 1 := congrFun h.env 0
  have hdescriptors := congrArg PollTable.descriptors h.pollFds
  intro u hu
  rw [hu]
  simp only [waitNetworkEvent, EStateM.run_bind, EStateM.run_get, run_consult, run_emit]
  by_cases hneg : (v.env 0).poll.ret < 0
  · rw [if_pos hneg]
    cases (v.env 0).poll.interrupted with
    | true =>
      refine ⟨h.calls, hdescriptors, fun hfalse ↦ ?_⟩
      cases hfalse
    | false =>
      refine ⟨h.calls, hdescriptors, fun _ hpos ↦ ?_⟩
      have hret : 0 < (v.env 0).poll.ret := hpos
      omega
  · rw [if_neg hneg]
    constructor
    · exact h.calls
    · exact (PollTable.descriptors_report _ _).trans hdescriptors
    · intro _ hpos
      have hret : 0 < (v.env 0).poll.ret := hpos
      rw [henv] at hret
      constructor
      · exact hret
      · change v.thread.pollFds.report (v.env 0).poll.revents = _
        rw [h.pollFds, henv]

theorem polled_pollNetwork (hov : LeavesTable ov) (w : World (Recorded δ)) :
    Contract (fun u ↦ u = w) (pollNetwork (recorded ov)) (Polled w) E := by
  refine (contract_recorded_others hov w).bind fun _ ↦ Contract.get_bind fun v hv ↦ ?_
  refine Contract.ite (fun _ ↦ polled_waitNetworkEvent hv) fun _ ↦ Contract.pure ?_
  rintro _ rfl
  refine ⟨hv.calls, congrArg PollTable.descriptors hv.pollFds, fun hfalse ↦ ?_⟩
  cases hfalse

/-- Between `w` and `w'`, `ReceiveIntMessage` has been called only for descriptors that the `poll`
of a `Run` from `w` reported with a read bit, at most once for each. -/
def OnlyReported (w w' : World (Recorded δ)) : Prop :=
  ∃ socks, receives w'.own.calls = receives w.own.calls ++ socks ∧ socks.Nodup ∧
    ∀ sockfd ∈ socks, 0 < (w.env 1).poll.ret ∧ ∃ i < w.thread.pollFds.count,
      (w.thread.pollFds.fds i).fd = sockfd ∧ (w.env 1).poll.revents i &&& readMask ≠ 0

theorem OnlyReported.of_calls (h : v.own.calls = w.own.calls) : OnlyReported w v := by
  refine ⟨[], ?_, List.nodup_nil, fun _ hmem ↦ absurd hmem List.not_mem_nil⟩
  rw [h, List.append_nil]

/-- What a pass over a table just reported reads has been reported. -/
theorem HaveRead.onlyReported (hret : 0 < (w.env 1).poll.ret)
    (hnodup : w.thread.pollFds.descriptors.Nodup)
    (h : HaveRead (w.thread.pollFds.report (w.env 1).poll.revents) (receives w.own.calls) v) :
    OnlyReported w v := by
  obtain ⟨-, i, ps, hreceives, hps_nodup, hps⟩ := h
  refine ⟨_, hreceives, ?_, fun sockfd hmem ↦ ⟨hret, ?_⟩⟩
  · refine (List.nodup_map_iff_inj_on hps_nodup).mpr fun p hp q hq hpq ↦ ?_
    rw [PollTable.fd_report, PollTable.fd_report] at hpq
    exact PollTable.nodup_descriptors_iff.mp hnodup p (hps p hp).2.1 q (hps q hq).2.1 hpq
  · obtain ⟨p, hp, rfl⟩ := List.mem_map.mp hmem
    obtain ⟨-, hlt, -, hread⟩ := hps p hp
    refine ⟨p, hlt, (PollTable.fd_report _ _ _).symm, ?_⟩
    have hlt' : p < w.thread.pollFds.count := hlt
    simpa only [PollTable.report, if_pos hlt'] using hread

/-- What holds after the second half, and so after `Run`. -/
def Served (w w' : World (Recorded δ)) : Prop :=
  w'.thread.pollFds.descriptors.Nodup ∧ OnlyReported w w'

theorem Polled.served {b : Bool} (h : Polled w b v)
    (hnodup : w.thread.pollFds.descriptors.Nodup) : Served w v :=
  ⟨h.descriptors ▸ hnodup, OnlyReported.of_calls h.calls⟩

theorem served_readReported (hov : LeavesTable ov) (hnodup : w.thread.pollFds.descriptors.Nodup)
    (h : Polled w true v) :
    Contract (fun u ↦ u = v) (readReported (recorded ov)) (fun _ ↦ Served w) fun _ ↦ Served w := by
  refine (contract_recorded_others hov v).bind fun _ ↦ Contract.get_bind fun u hu ↦
    Contract.get_bind fun u' hu' ↦ ?_
  subst hu'
  refine Contract.ite (fun hcount ↦ ?_) fun _ ↦ Contract.pure ?_
  · have hpos : 0 < v.thread.eventsCount := hu.eventsCount ▸ hcount.2
    obtain ⟨hret, htable⟩ := h.reported rfl hpos
    have hread : Reading (w.thread.pollFds.report (w.env 1).poll.revents)
        (receives w.own.calls) 0 u' := by
      rw [← htable, ← hu.pollFds]
      constructor
      · exact Nat.le_refl _
      · exact fun _ _ _ ↦ rfl
      · rw [hu.pollFds, h.descriptors]
        exact hnodup
      · refine ⟨[], ?_, List.nodup_nil, fun _ hmem ↦ absurd hmem List.not_mem_nil⟩
        rw [hu.calls, h.calls, List.map_nil, List.append_nil]
    have hserved (u : World (Recorded δ))
        (hr : HaveRead (w.thread.pollFds.report (w.env 1).poll.revents) (receives w.own.calls) u) :
        Served w u :=
      ⟨hr.1, hr.onlyReported hret hnodup⟩
    refine Contract.bind (Q := fun _ ↦ Served w) ?_ fun _ ↦ Contract.pure fun _ hv ↦ hv
    exact (hread.processReadEvent hov).mono (fun _ hv ↦ hv) (fun _ u ↦ hserved u)
      fun _ u ↦ hserved u
  · rintro _ rfl
    constructor
    · rw [hu.pollFds, h.descriptors]
      exact hnodup
    · exact OnlyReported.of_calls (hu.calls.trans h.calls)

theorem served_run (hov : LeavesTable ov) (hnodup : w.thread.pollFds.descriptors.Nodup) :
    Contract (fun u ↦ u = w) (Legacy.run (recorded ov)) (fun _ ↦ Served w) fun _ ↦ Served w := by
  rw [run_eq]
  refine (polled_pollNetwork hov w).bind fun b ↦ ?_
  cases b with
  | true =>
    intro v hv
    exact served_readReported hov hnodup hv v rfl
  | false => exact Contract.pure fun v hv ↦ hv.served hnodup

end Halves

/-! ### Sequences of `Run` calls -/

/-- `Run` is called. -/
def runStep (ov : Overrides δ) (w : World (Recorded δ)) (_ : Unit) :
    Option (World (Recorded δ)) :=
  some (World.after ((Legacy.run (recorded ov)).run w))

/-- What a `Run` from `w` to `w'` has read: nothing before its `poll`, and then only what this
`poll` reported. -/
structure ReadsReported (ov : Overrides δ) (w w' : World (Recorded δ)) : Prop where
  before_poll : receives (World.after ((pollNetwork (recorded ov)).run w)).own.calls =
    receives w.own.calls
  after_poll : OnlyReported w w'

theorem readsReported_run {ov : Overrides δ} (hov : LeavesTable ov) {w : World (Recorded δ)}
    (hnodup : w.thread.pollFds.descriptors.Nodup) :
    (World.after ((Legacy.run (recorded ov)).run w)).thread.pollFds.descriptors.Nodup ∧
      ReadsReported ov w (World.after ((Legacy.run (recorded ov)).run w)) := by
  have hrun := served_run hov hnodup w rfl
  have hpoll := polled_pollNetwork (E := fun _ v ↦ v.own.calls = w.own.calls) hov w w rfl
  have hserved : Served w (World.after ((Legacy.run (recorded ov)).run w)) := by
    cases hr : (Legacy.run (recorded ov)).run w with
    | ok b w' =>
      rw [hr] at hrun
      exact hrun
    | error f w' =>
      rw [hr] at hrun
      exact hrun
  refine ⟨hserved.1, ⟨?_, hserved.2⟩⟩
  cases hr : (pollNetwork (recorded ov)).run w with
  | ok b v =>
    rw [hr] at hpoll
    exact congrArg receives hpoll.calls
  | error f v =>
    rw [hr] at hpoll
    exact congrArg receives hpoll

namespace Responser

variable {t : PollTable}

private theorem keeps_table_others :
    Keeps (fun w ↦ w.thread.pollFds = t) (fun _ w ↦ w.thread.pollFds = t) others := by
  intro w hw
  rw [run_others]
  obtain ⟨b, hthread⟩ := thread_clientCalls setProcessState (w.env 0).clients w.next
  exact (congrArg NetworkThread.pollFds hthread : _).trans hw

private theorem keeps_table_receiveIntMessage (e : Endian) (sockfd : Int) :
    Keeps (fun w ↦ w.thread.pollFds = t) (fun _ w ↦ w.thread.pollFds = t)
      (receiveIntMessage e sockfd) := by
  refine Keeps.ite (Keeps.pure _) ?_
  refine (keeps_consult fun _ hw ↦ hw).bind fun o ↦ (keeps_emit fun _ hw ↦ hw).bind fun _ ↦ ?_
  refine Keeps.bind (Keeps.modify fun _ hw ↦ hw) fun _ ↦ Keeps.ite (Keeps.pure _) ?_
  exact Keeps.ite (Keeps.pure _) (Keeps.get_bind fun _ ↦ Keeps.pure _)

private theorem keeps_table_sendHeartbeatResponse (e : Endian) (sockfd : Int) (iSeqNum : Int32) :
    Keeps (fun w ↦ w.thread.pollFds = t) (fun _ w ↦ w.thread.pollFds = t)
      (sendHeartbeatResponse e sockfd iSeqNum) := by
  refine keeps_table_others.bind fun _ ↦ Keeps.get_bind fun w ↦ ?_
  dsimp only
  cases buildResponse e w.own.identity w.own.processState iSeqNum with
  | error f => exact fun _ hw ↦ hw
  | ok bytes =>
    refine (keeps_consult fun _ hw ↦ hw).bind fun o ↦ (keeps_emit fun _ hw ↦ hw).bind fun _ ↦ ?_
    exact Keeps.ite (Keeps.pure _) (Keeps.ite (Keeps.pure _) (Keeps.pure _))

/-- The handlers of the responder leave the table alone. -/
theorem leavesTable (e : Endian) : LeavesTable (overrides e) where
  receiveIntMessage sockfd _ := keeps_table_receiveIntMessage e sockfd
  onMessage sockfd iMessage _ := by
    refine Keeps.ite (Keeps.pure _) (Keeps.ite ?_ (Keeps.pure _))
    refine Keeps.bind (Keeps.get_bind fun w ↦ ?_) fun _ ↦ Keeps.pure _
    exact keeps_table_sendHeartbeatResponse e sockfd _
  onReadSocketError := Or.inr rfl
  others := ⟨setProcessState, rfl⟩

end Responser

/-- In every sequence of `Run` calls on a table without double descriptors, each
`ReceiveIntMessage` follows a `poll` that reported its descriptor, and comes before the next. -/
theorem reads_only_reported {ov : Overrides δ} (hov : LeavesTable ov) {w w' : World (Recorded δ)}
    {tr : List (Transition (World (Recorded δ)) Unit)} (h : Runs (runStep ov) w tr w')
    (hnodup : w.thread.pollFds.descriptors.Nodup) :
    ∀ x ∈ tr, ReadsReported ov x.source x.target := by
  refine (h.rule (I := fun w ↦ w.thread.pollFds.descriptors.Nodup) (C := fun _ _ _ ↦ True)
    (P := fun w _ w' ↦ ReadsReported ov w w') (fun w _ w' hw hstep _ ↦ ?_) hnodup
    fun _ _ ↦ trivial).2
  obtain rfl := Option.some.inj hstep
  exact readsReported_run hov hw

/-- A responder with one descriptor: a `poll` reports it, the next fails, and one reports it
again. -/
private def reporting : World (Recorded Responser) where
  thread := { NetworkThread.new 1000 with
    bExit := false, pollFds := (PollTable.empty.pollFDAdd 3).2 }
  own := ⟨.new ⟨[], []⟩ 0 ⟨0, 0⟩ Responser.zeros, []⟩
  env k := ⟨[], 3, 0, 0, ⟨if k = 5 then -1 else 1, true, fun _ ↦ 1⟩, .other (-1) [] none, 0⟩
  trace := []

/-- Three `Run` calls, of which two read. -/
theorem reads_only_reported_twice : ∃ tr w', Runs (runStep (Responser.overrides .little)) reporting
    tr w' ∧ receives w'.own.calls = [3, 3] ∧
    ∀ x ∈ tr, ReadsReported (Responser.overrides .little) x.source x.target := by
  obtain ⟨w', hw', hreceives⟩ : ∃ w', exec (runStep (Responser.overrides .little)) reporting
      [(), (), ()] = some w' ∧ receives w'.own.calls = [3, 3] := by
    refine ⟨_, rfl, ?_⟩
    decide +kernel
  have hrun := Runs.of_exec hw'
  exact ⟨_, _, hrun, hreceives,
    reads_only_reported (Responser.leavesTable .little) hrun (by decide)⟩

end HeartbeatSpec.Legacy
