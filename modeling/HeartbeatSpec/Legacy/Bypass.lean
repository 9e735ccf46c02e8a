import HeartbeatSpec.Base.Ranking
import HeartbeatSpec.Legacy.Readiness
import HeartbeatSpec.Legacy.Servicing

/-!
# A readable descriptor is read in the end

Library `Legacy`. An entry that is moved into a dropped one's place is not looked at in that pass,
`legacy_compatible/legacy_support.cpp:707–733`, and a pass can hide it again. But a pass that
hides it drops an entry, so that a descriptor which stays readable is read before there have been
as many passes as entries.
-/

namespace HeartbeatSpec.Legacy
open HeartbeatSpec.Base HeartbeatSpec.Message

variable {δ : Type}

/-- The call leaves the count of events alone where it returns. -/
def LeavesCount {α : Type} (x : Call δ α) : Prop :=
  ∀ n : Int, Keeps (fun w ↦ w.thread.eventsCount = n) (fun _ _ ↦ True) x

/-- The handlers leave the poll table and the count of events alone. -/
structure LeavesEvents (ov : Overrides δ) : Prop extends LeavesTable ov where
  count_receiveIntMessage : ∀ sockfd, LeavesCount (ov.receiveIntMessage sockfd)
  count_onMessage : ∀ sockfd iMessage, LeavesCount (ov.onMessage sockfd iMessage)

/-- A `Run` finds the exit flag clear, and its `poll` reports the descriptor readable and returns
the number of entries that it has set events for. -/
structure Offered (sockfd : Int) (w : World δ) : Prop where
  valid : sockfd ≠ invalidSocket
  bExit : w.thread.bExit = false
  quiet_before : .endThread ∉ (w.env 0).clients
  quiet_after : .endThread ∉ (w.env 2).clients
  ret : (w.env 1).poll.ret =
    Nat.count (fun i ↦ (w.env 1).poll.revents i ≠ 0) w.thread.pollFds.count
  reported : ∃ p < w.thread.pollFds.count, (w.thread.pollFds.fds p).fd = sockfd ∧
    (w.env 1).poll.revents p &&& readMask ≠ 0

instance (sockfd : Int) (w : World δ) : Decidable (Offered sockfd w) :=
  decidable_of_iff (sockfd ≠ invalidSocket ∧ w.thread.bExit = false ∧
      .endThread ∉ (w.env 0).clients ∧ .endThread ∉ (w.env 2).clients ∧
      (w.env 1).poll.ret =
        Nat.count (fun i ↦ (w.env 1).poll.revents i ≠ 0) w.thread.pollFds.count ∧
      ∃ p < w.thread.pollFds.count, (w.thread.pollFds.fds p).fd = sockfd ∧
        (w.env 1).poll.revents p &&& readMask ≠ 0)
    ⟨fun ⟨h1, h2, h3, h4, h5, h6⟩ ↦ ⟨h1, h2, h3, h4, h5, h6⟩,
      fun h ↦ ⟨h.valid, h.bExit, h.quiet_before, h.quiet_after, h.ret, h.reported⟩⟩

/-- Since `socks` were received, `ReceiveIntMessage` has been called for the descriptor. -/
def ReceivedSince (socks : List Int) (sockfd : Int) (v : World (Recorded δ)) : Prop :=
  ∃ new, receives v.own.calls = socks ++ new ∧ sockfd ∈ new

theorem ReceivedSince.append {socks : List Int} {sockfd fd : Int} {v v' : World (Recorded δ)}
    (h : ReceivedSince socks sockfd v)
    (hreceives : receives v'.own.calls = receives v.own.calls ++ [fd]) :
    ReceivedSince socks sockfd v' := by
  obtain ⟨new, hnew, hmem⟩ := h
  refine ⟨new ++ [fd], ?_, List.mem_append_left _ hmem⟩
  rw [hreceives, hnew, List.append_assoc]

/-- The table has become shorter, and the descriptor is still registered. -/
def Bypassed (t : PollTable) (sockfd : Int) (v : World δ) : Prop :=
  v.thread.pollFds.count < t.count ∧ sockfd ∈ v.thread.pollFds.descriptors

/-! ### One entry -/

section Entry

variable {ov : Overrides δ} {t t' : PollTable} {i : Nat}

theorem LeavesCount.recording {α : Type} {x : Call δ α} (h : LeavesCount x)
    (before : List HandlerEvent) (after : α → List HandlerEvent) :
    LeavesCount (recording before after x) := by
  intro n w hw
  have hx := h n w.plain hw
  rw [run_recording]
  cases hr : x.run w.plain with
  | ok a v =>
    rw [hr] at hx
    exact hx
  | error f v => trivial

/-- Reporting an error leaves the count alone. -/
theorem LeavesTable.count_onReadSocketError (hov : LeavesTable ov) (sockfd : Int) :
    LeavesCount (ov.onReadSocketError sockfd) := by
  intro n
  rcases hov.onReadSocketError with herror | herror
  · rw [herror]
    refine Keeps.ite (Keeps.pure _) ?_
    refine Keeps.bind ?_ fun _ ↦ Keeps.bind ?_ fun _ ↦ Keeps.pure _
    · refine Keeps.ite (Keeps.pure _) ?_
      refine (keeps_onTable fun _ hw ↦ hw).bind fun _ ↦ ?_
      exact (keeps_emit fun _ hw ↦ hw).bind fun _ ↦ Keeps.pure _
    · refine Keeps.ite (Keeps.pure _) ?_
      exact (keeps_modifyThread fun _ hw ↦ hw).bind fun _ ↦ Keeps.pure _
  · rw [herror]
    exact Keeps.pure _

/-- The handling of an entry leaves the count alone. -/
theorem count_processEntry (hov : LeavesEvents ov) (i : Nat) :
    LeavesCount (processEntry (recorded ov) i) := by
  intro n
  refine Keeps.bind (Keeps.modify fun _ hw ↦ hw) fun _ ↦ Keeps.get_bind fun w ↦ ?_
  refine Keeps.bind ((hov.count_receiveIntMessage _).recording _ _ n) fun msg ↦ ?_
  have hreport : Keeps (fun w ↦ w.thread.eventsCount = n) (fun _ _ ↦ True) (do
      let fd ← fdAt i
      let _ ← (recorded ov).onReadSocketError fd
      pure ()) := Keeps.get_bind fun v ↦
    Keeps.bind ((hov.count_onReadSocketError _).recording _ _ n) fun _ ↦ Keeps.pure _
  cases msg with
  | none => exact hreport
  | some iMessage =>
    refine Keeps.get_bind fun v ↦ ?_
    refine Keeps.bind ((hov.count_onMessage _ _).recording _ _ n) fun ret ↦ ?_
    exact Keeps.ite hreport (Keeps.pure _)

/-- Another entry's descriptor stays registered. -/
theorem Settled.mem_descriptors (h : Settled t i t') (hi : i < t.count) {sockfd : Int}
    (hmem : sockfd ∈ t.descriptors) (hne : (t.fds i).fd ≠ sockfd) : sockfd ∈ t'.descriptors := by
  rw [← PollTable.descriptors_clearRevents t i] at hmem
  rcases h with rfl | rfl
  · exact hmem
  · have hcount : i < (t.clearRevents i).count := hi
    rw [← PollTable.descriptors_removeAt hcount, PollTable.fd_clearRevents] at hmem
    exact (Multiset.mem_cons.mp hmem).resolve_left (Ne.symm hne)

end Entry

/-! ### One pass -/

/-- The pass over `t` has come to the entry at `i`, and the descriptor in the entry at `p` has been
received since `socks` were, is still ahead, or has been bypassed. -/
structure Approaching (t : PollTable) (socks : List Int) (p i : Nat) (v : World (Recorded δ)) :
    Prop extends Reading t socks i v where
  events : (Nat.count t.Readable t.count : Int) ≤
    v.thread.eventsCount + Nat.count t.Readable i
  pending : ReceivedSince socks (t.fds p).fd v ∨ i ≤ p ∧ p < v.thread.pollFds.count ∨
    Bypassed t (t.fds p).fd v

namespace Approaching

variable {ov : Overrides δ} {t : PollTable} {socks : List Int} {p i : Nat}
  {v v' : World (Recorded δ)}

theorem readable_iff (h : Approaching t socks p i v) (hi : i < v.thread.pollFds.count) :
    v.thread.pollFds.Readable i ↔ t.Readable i := by
  unfold PollTable.Readable
  rw [h.same i (Nat.le_refl i) hi]

/-- An entry that is not readable is not the one that is awaited. -/
theorem skip (h : Approaching t socks p i v) (hp : t.Readable p)
    (hi : i < v.thread.pollFds.count) (hread : ¬v.thread.pollFds.Readable i) :
    Approaching t socks p (i + 1) v where
  toReading := h.toReading.skip
  events := by
    have hevents := h.events
    rw [Nat.count_succ]
    omega
  pending := by
    rw [h.readable_iff hi] at hread
    rcases h.pending with hreceived | ⟨hle, hlt⟩ | hbypassed
    · exact Or.inl hreceived
    · right
      left
      have hne : i ≠ p := by
        rintro rfl
        exact hread hp
      omega
    · exact Or.inr (Or.inr hbypassed)

/-- A readable entry is handled: if it is the awaited one, it is received; if another goes, the
table is shorter. -/
theorem after_entry (h : Approaching t socks p i v) (hi : i < v.thread.pollFds.count)
    (hread : v.thread.pollFds.Readable i)
    (hsettled : Settled v.thread.pollFds i v'.thread.pollFds)
    (hreceives : receives v'.own.calls = receives v.own.calls ++ [v.slot i])
    (hcount : v'.thread.eventsCount = v.thread.eventsCount) :
    Approaching t socks p (i + 1) (handled v') := by
  have hslot : v.slot i = (t.fds i).fd := congrArg PollFd.fd (h.same i (Nat.le_refl i) hi)
  have hnext := h.toReading.after_entry hi hread hsettled hreceives
  refine ⟨⟨hnext.1, hnext.2, hnext.3, hnext.4⟩, ?_, ?_⟩
  · have hevents := h.events
    rw [Nat.count_succ, if_pos ((h.readable_iff hi).mp hread)]
    change _ ≤ v'.thread.eventsCount - 1 + _
    omega
  · by_cases hfd : v.slot i = (t.fds p).fd
    · obtain ⟨ps, hps, -⟩ := h.read
      refine Or.inl ⟨ps.map (fun q ↦ (t.fds q).fd) ++ [v.slot i], ?_, ?_⟩
      · rw [← List.append_assoc, ← hps]
        exact hreceives
      · rw [hfd]
        exact List.mem_append_right _ (List.mem_singleton_self _)
    · rcases h.pending with hreceived | ⟨hle, hlt⟩ | ⟨hshorter, hmem⟩
      · exact Or.inl (hreceived.append hreceives)
      · have hne : i ≠ p := by
          rintro rfl
          exact hfd hslot
        right
        rcases hsettled with heq | heq
        · left
          refine ⟨by omega, ?_⟩
          change p < v'.thread.pollFds.count
          rw [heq]
          exact hlt
        · right
          constructor
          · change v'.thread.pollFds.count < t.count
            have hle := h.count_le
            rw [heq, PollTable.count_removeAt, PollTable.count_clearRevents]
            omega
          · have hmem : (t.fds p).fd ∈ v.thread.pollFds.descriptors :=
              PollTable.mem_descriptors.mpr ⟨p, hlt, congrArg PollFd.fd (h.same p hle hlt)⟩
            exact Settled.mem_descriptors (Or.inr heq) hi hmem hfd
      · right
        right
        exact ⟨Nat.lt_of_le_of_lt hsettled.count_le hshorter, hsettled.mem_descriptors hi hmem hfd⟩

/-- At the end of the table, and when the events are used up, the awaited entry is not ahead. -/
theorem finished (h : Approaching t socks p i v) (hp : t.Readable p) (hlt : p < t.count)
    (hend : v.thread.pollFds.count ≤ i ∨ v.thread.eventsCount ≤ 0) :
    v.thread.pollFds.descriptors.Nodup ∧
      (ReceivedSince socks (t.fds p).fd v ∨ Bypassed t (t.fds p).fd v) := by
  refine ⟨h.nodup, ?_⟩
  rcases h.pending with hreceived | ⟨hle, hcount⟩ | hbypassed
  · exact Or.inl hreceived
  · exfalso
    rcases hend with hend | hend
    · omega
    · have hevents := h.events
      have hstrict := Nat.count_strict_mono hp hlt
      have hmono := Nat.count_monotone t.Readable hle
      omega
  · exact Or.inr hbypassed

/-- `ProcessReadEvent` receives a readable entry, or bypasses it. -/
theorem processReadEvent (hov : LeavesEvents ov) (h : Approaching t socks p 0 v)
    (hp : t.Readable p) (hlt : p < t.count) :
    Contract (fun w ↦ w = v) (Legacy.processReadEvent (recorded ov))
      (fun _ w ↦ w.thread.pollFds.descriptors.Nodup ∧
        (ReceivedSince socks (t.fds p).fd w ∨ Bypassed t (t.fds p).fd w)) fun _ _ ↦ True := by
  refine Contract.bind (Q := fun _ w ↦ w.thread.pollFds.descriptors.Nodup ∧
    (ReceivedSince socks (t.fds p).fd w ∨ Bypassed t (t.fds p).fd w)) ?_
    fun _ ↦ Contract.pure fun _ hw ↦ hw
  refine Contract.at_state (P := Approaching t socks p 0) ?_ h
  refine contract_processFrom (J := Approaching t socks p) (fun i ↦ ?_)
    (fun _ _ hw hi hread ↦ hw.skip hp hi hread)
    (fun _ _ hw hend ↦ hw.finished hp hlt (Or.inl hend)) maxFDSize 0 (Nat.le_refl _)
  rintro w ⟨hw, hi, hread⟩
  have hall := ((settled_processEntry hov.toLeavesTable hw.nodup hi hread.1).and
    (receives_processEntry ov i (receives w.own.calls) (w.slot i))).and
      (count_processEntry hov i w.thread.eventsCount) w ⟨⟨rfl, rfl, rfl⟩, rfl⟩
  cases hrun : (processEntry (recorded ov) i).run w with
  | error f w' => trivial
  | ok a w' =>
    rw [hrun] at hall
    obtain ⟨⟨hsettled, hreceives⟩, hcount⟩ := hall
    have hnext := hw.after_entry hi hread hsettled hreceives hcount
    dsimp only
    split
    · next hused => exact hnext.finished hp hlt (Or.inr hused)
    · exact hnext

end Approaching

/-! ### One `Run` -/

section Run

variable {ov : Overrides δ} {sockfd : Int} {w v : World (Recorded δ)}
  {E : Fault → World (Recorded δ) → Prop}

/-- Other threads that do not call `EndThread` leave the thread alone. -/
theorem thread_clientCalls_of_quiet {set : CiHBState → δ → δ} {calls : List ClientCall}
    (h : .endThread ∉ calls) (w : World δ) : (clientCalls set calls w).thread = w.thread := by
  induction calls generalizing w with
  | nil => rfl
  | cons call rest ih =>
    rw [List.mem_cons, not_or] at h
    cases call with
    | endThread => exact absurd rfl h.1
    | setProcess st => exact ih h.2 _

theorem contract_quiet_others (hov : LeavesTable ov) (hquiet : .endThread ∉ (w.env 0).clients) :
    Contract (fun u ↦ u = w) (recorded ov).others (fun _ u ↦ u.thread = w.thread ∧
      u.env = (fun k ↦ w.env (k + 1)) ∧ u.own.calls = w.own.calls) E := by
  rintro u rfl
  obtain ⟨set, hset⟩ := hov.others
  have hrun : (recorded ov).others.run u = .ok ()
      ((clientCalls set (u.env 0).clients u.plain.next).recorded (u.own.calls ++ [] ++ [])) := by
    change (recording [] (fun _ ↦ []) ov.others).run u = _
    rw [run_recording, hset]
    rfl
  rw [hrun, List.append_nil, List.append_nil]
  constructor
  · exact thread_clientCalls_of_quiet hquiet u.plain.next
  · exact ⟨env_clientCalls set (u.env 0).clients u.plain.next, rfl⟩

/-- A `poll` that does not fail reports what it found. -/
theorem contract_waitNetworkEvent (h : 0 ≤ (v.env 0).poll.ret) :
    Contract (fun u ↦ u = v) waitNetworkEvent (fun b u ↦ b = true ∧
      u.thread = { v.thread with
        pollFds := v.thread.pollFds.report (v.env 0).poll.revents
        eventsCount := (v.env 0).poll.ret } ∧
      u.env = (fun k ↦ v.env (k + 1)) ∧ u.own.calls = v.own.calls) E := by
  rintro u rfl
  simp only [waitNetworkEvent, EStateM.run_bind, EStateM.run_get, run_consult, run_emit]
  rw [if_neg (by omega)]
  exact ⟨rfl, rfl, rfl, rfl⟩

/-- The readable entries are among those that `poll` has set events for. -/
theorem count_readable_report_le (t : PollTable) (revents : Nat → UInt16) :
    Nat.count (t.report revents).Readable (t.report revents).count ≤
      Nat.count (fun i ↦ revents i ≠ 0) t.count := by
  apply Nat.count_mono_left
  intro i hi hread hzero
  apply hread.2
  have hlt : i < t.count := hi
  simp only [PollTable.report, if_pos hlt, hzero]
  rfl

/-- A `Run` that is offered the descriptor receives it, or drops another and keeps it. -/
theorem receives_or_bypasses_run (hov : LeavesEvents ov)
    (hnodup : w.thread.pollFds.descriptors.Nodup) (h : Offered sockfd w) :
    Contract (fun u ↦ u = w) (Legacy.run (recorded ov))
      (fun _ u ↦ u.thread.pollFds.descriptors.Nodup ∧
        (ReceivedSince (receives w.own.calls) sockfd u ∨ Bypassed w.thread.pollFds sockfd u))
      fun _ _ ↦ True := by
  obtain ⟨p, hp, hfd, hread⟩ := h.reported
  have hpos : 0 < (w.env 1).poll.ret := by
    have hcount : 0 < Nat.count (fun i ↦ (w.env 1).poll.revents i ≠ 0)
        w.thread.pollFds.count := by
      have hne : (w.env 1).poll.revents p ≠ 0 := by
        intro hzero
        rw [hzero] at hread
        exact hread rfl
      exact Nat.lt_of_le_of_lt (Nat.zero_le _)
        (Nat.count_strict_mono (p := fun i ↦ (w.env 1).poll.revents i ≠ 0) hne hp)
    rw [h.ret]
    exact_mod_cast hcount
  refine (contract_quiet_others hov.toLeavesTable h.quiet_before).bind fun _ ↦
    Contract.get_bind fun v ⟨hthread, henv, hcalls⟩ ↦ ?_
  have henv0 : v.env 0 = w.env 1 := congrFun henv 0
  rw [if_pos ((congrArg NetworkThread.bExit hthread).trans h.bExit)]
  refine (contract_waitNetworkEvent (v := v) (henv0 ▸ hpos.le)).bind fun b ↦ ?_
  rintro u ⟨rfl, huthread, huenv, hucalls⟩
  have huenv0 : (u.env 0).clients = (w.env 2).clients := by rw [huenv, henv]
  have hquiet : .endThread ∉ (u.env 0).clients := huenv0 ▸ h.quiet_after
  refine ((contract_quiet_others hov.toLeavesTable hquiet).bind fun _ ↦
    Contract.get_bind fun x ⟨hxthread, hxenv, hxcalls⟩ ↦ Contract.get_bind fun x' hx' ↦ ?_) u rfl
  subst hx'
  have htable : x'.thread.pollFds = w.thread.pollFds.report (w.env 1).poll.revents := by
    rw [hxthread, huthread, henv0, hthread]
  have hevents : x'.thread.eventsCount = (w.env 1).poll.ret := by
    rw [hxthread, huthread, henv0]
  have hexit : x'.thread.bExit = false := by
    rw [hxthread, huthread, hthread]
    exact h.bExit
  have hstart : Approaching (w.thread.pollFds.report (w.env 1).poll.revents)
      (receives w.own.calls) p 0 x' := by
    refine ⟨⟨?_, ?_, ?_, ?_⟩, ?_, ?_⟩
    · rw [htable]
    · intro j _ _
      rw [htable]
    · rw [htable, PollTable.descriptors_report]
      exact hnodup
    · refine ⟨[], ?_, List.nodup_nil, fun _ hmem ↦ absurd hmem List.not_mem_nil⟩
      rw [hxcalls, hucalls, hcalls, List.map_nil, List.append_nil]
    · rw [Nat.count_zero, Int.natCast_zero, Int.add_zero, hevents, h.ret]
      exact_mod_cast count_readable_report_le _ _
    · right
      left
      rw [htable]
      exact ⟨Nat.zero_le p, hp⟩
  have hreadable : (w.thread.pollFds.report (w.env 1).poll.revents).Readable p := by
    constructor
    · rw [PollTable.fd_report, hfd]
      exact h.valid
    · simpa only [PollTable.report, if_pos hp] using hread
  have hpass := hstart.processReadEvent hov hreadable hp
  rw [PollTable.fd_report, hfd] at hpass
  refine Contract.ite (fun _ ↦ ?_) fun hskip ↦ absurd ⟨hexit, hevents ▸ hpos⟩ hskip
  exact (hpass.bind fun _ ↦ Contract.pure fun _ hv ↦ hv).mono (fun _ hv ↦ hv)
    (fun _ _ hv ↦ hv) fun _ _ _ ↦ trivial

end Run

/-! ### Sequences of `Run` calls -/

/-- `Run` is called and returns. -/
def returnStep (ov : Overrides δ) (w : World (Recorded δ)) (_ : Unit) :
    Option (World (Recorded δ)) :=
  match (Legacy.run (recorded ov)).run w with
  | .ok _ w' => some w'
  | .error _ _ => none

/-- The descriptor is registered, and no descriptor twice. -/
def Awaited (sockfd : Int) (w : World δ) : Prop :=
  w.thread.pollFds.descriptors.Nodup ∧ sockfd ∈ w.thread.pollFds.descriptors

theorem Awaited.count_pos {sockfd : Int} {w : World δ} (h : Awaited sockfd w) :
    0 < w.thread.pollFds.count := by
  obtain ⟨i, hi, -⟩ := PollTable.mem_descriptors.mp h.2
  exact Nat.lt_of_le_of_lt (Nat.zero_le i) hi

/-- In every sequence of `Run` calls that return, a registered descriptor that each `poll` reports
readable is received before there are more `Run` calls than there were entries. -/
theorem received_within_count {ov : Overrides δ} (hov : LeavesEvents ov)
    {w w' : World (Recorded δ)} {tr : List (Transition (World (Recorded δ)) Unit)}
    (h : Runs (returnStep ov) w tr w') {sockfd : Int} (hawaited : Awaited sockfd w)
    (hoffered : ∀ x ∈ tr, Offered sockfd x.source)
    (hlength : w.thread.pollFds.count ≤ tr.length) :
    ∃ x ∈ tr, ReceivedSince (receives x.source.own.calls) sockfd x.target := by
  refine h.exists_of_rank (I := Awaited sockfd) (C := fun w _ _ ↦ Offered sockfd w)
    (P := fun w _ w' ↦ ReceivedSince (receives w.own.calls) sockfd w')
    (fun w ↦ w.thread.pollFds.count - 1) (fun w _ w' hw hstep hoffer ↦ ?_) hawaited hoffered ?_
  · have hrun := receives_or_bypasses_run hov hw.1 hoffer w rfl
    unfold returnStep at hstep
    cases hreturns : (Legacy.run (recorded ov)).run w with
    | error f v =>
      rw [hreturns] at hstep
      cases hstep
    | ok b v =>
      rw [hreturns] at hstep hrun
      obtain rfl := Option.some.inj hstep
      obtain ⟨hnodup, hreceived | ⟨hlt, hmem⟩⟩ := hrun
      · exact Or.inl hreceived
      · have hkept : Awaited sockfd v := ⟨hnodup, hmem⟩
        have hpos := hkept.count_pos
        exact Or.inr ⟨hkept, by omega⟩
  · have hpos := hawaited.count_pos
    omega

/-- The handlers of the responder leave the count of events alone too. -/
theorem Responser.leavesEvents (e : Endian) : LeavesEvents (overrides e) where
  toLeavesTable := leavesTable e
  count_receiveIntMessage sockfd n := by
    refine Keeps.ite (Keeps.pure _) ?_
    refine (keeps_consult fun _ hw ↦ hw).bind fun o ↦ (keeps_emit fun _ hw ↦ hw).bind fun _ ↦ ?_
    refine Keeps.bind (Keeps.modify fun _ hw ↦ hw) fun _ ↦ Keeps.ite (Keeps.pure _) ?_
    exact Keeps.ite (Keeps.pure _) (Keeps.get_bind fun _ ↦ Keeps.pure _)
  count_onMessage sockfd iMessage n := by
    have hothers : Keeps (fun w ↦ w.thread.eventsCount = n) (fun _ _ ↦ True) others := by
      intro w hw
      rw [run_others]
      obtain ⟨b, hthread⟩ := thread_clientCalls setProcessState (w.env 0).clients w.next
      exact (congrArg NetworkThread.eventsCount hthread : _).trans hw
    refine Keeps.ite (Keeps.pure _) (Keeps.ite ?_ (Keeps.pure _))
    refine Keeps.bind (Keeps.get_bind fun w ↦ ?_) fun _ ↦ Keeps.pure _
    refine hothers.bind fun _ ↦ Keeps.get_bind fun w ↦ ?_
    dsimp only
    cases buildResponse e w.own.identity w.own.processState _ with
    | error f => exact fun _ _ ↦ trivial
    | ok bytes =>
      refine (keeps_consult fun _ hw ↦ hw).bind fun o ↦ (keeps_emit fun _ hw ↦ hw).bind fun _ ↦ ?_
      exact Keeps.ite (Keeps.pure _) (Keeps.ite (Keeps.pure _) (Keeps.pure _))

/-- Handlers of which those for one descriptor fail. -/
private def failingFirst : Overrides Unit :=
  { scripted (.failing 3) with others := othersCall fun _ own ↦ own }

private theorem leavesEvents_failingFirst : LeavesEvents failingFirst where
  receiveIntMessage _ _ := Keeps.pure _
  onMessage _ _ _ := Keeps.pure _
  onReadSocketError := Or.inl rfl
  others := ⟨_, rfl⟩
  count_receiveIntMessage _ _ := Keeps.pure _
  count_onMessage _ _ _ := Keeps.pure _

/-- Two descriptors that every `poll` reports, each before any `Run`. -/
private def offeringBoth : World (Recorded Unit) where
  thread := { NetworkThread.new 1000 with
    bExit := false
    pollFds := (PollTable.pollFDAdd 4 (PollTable.pollFDAdd 3 .empty).2).2 }
  own := ⟨(), []⟩
  env k := ⟨[], 3, 0, 0, ⟨if k = 1 then 2 else 1, false, fun _ ↦ 1⟩, .other (-1) [] none, 0⟩
  trace := []

/-- The first pass drops the one and hides the other, the second receives it. -/
theorem received_within_count_hidden : ∃ tr w', Runs (returnStep failingFirst) offeringBoth tr w' ∧
    receives w'.own.calls = [3, 4] ∧
    ∃ x ∈ tr, ReceivedSince (receives x.source.own.calls) 4 x.target := by
  obtain ⟨w', hw', hreceives⟩ : ∃ w', exec (returnStep failingFirst) offeringBoth [(), ()] =
      some w' ∧ receives w'.own.calls = [3, 4] := by
    refine ⟨_, rfl, ?_⟩
    decide +kernel
  have hrun := Runs.of_exec hw'
  refine ⟨_, _, hrun, hreceives, ?_⟩
  apply received_within_count leavesEvents_failingFirst hrun
  · exact ⟨by decide +kernel, by decide +kernel⟩
  · decide +kernel
  · decide +kernel

end HeartbeatSpec.Legacy
