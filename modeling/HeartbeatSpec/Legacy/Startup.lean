import HeartbeatSpec.Legacy.Calls

/-!
# Starting up

Library `Legacy`. What `InitInstance` returns, from the system calls that it makes, and the first
turn of a run, which makes it.
-/

namespace HeartbeatSpec.Legacy.Responser
open HeartbeatSpec.Base HeartbeatSpec.Thread

/-- The first turn up to the end of `InitInstance`. -/
def firstInit : Call Responser Bool := do
  others
  initInstance

/-- Every call that `InitInstance` makes after the next point succeeds, and the poll table has
room. -/
def InitSucceeds (w : World Responser) : Prop :=
  0 ≤ (w.env 1).socket ∧ (w.env 2).setsockopt ≠ -1 ∧ 0 ≤ (w.env 3).bind ∧
    w.thread.pollFds.count < maxFDSize

instance (w : World Responser) : Decidable (InitSucceeds w) :=
  inferInstanceAs (Decidable (_ ∧ _ ∧ _ ∧ _))

private theorem run_initInstance (v : World Responser) :
    ∃ v₀, initInstance.run v =
      .ok (decide (0 ≤ (v.env 0).socket ∧ (v.env 1).setsockopt ≠ -1 ∧ 0 ≤ (v.env 2).bind ∧
        v.thread.pollFds.count < maxFDSize)) v₀ := by
  simp only [initInstance, EStateM.run_bind, run_consult, run_emit]
  split
  · next hsock =>
    rw [decide_eq_false (by omega)]
    exact ⟨_, rfl⟩
  next hsock =>
  simp only [EStateM.run_bind, run_consult, run_emit]
  split
  · next hopt =>
    have hopt' : (v.env 1).setsockopt = -1 := hopt
    rw [decide_eq_false (by omega)]
    exact ⟨_, rfl⟩
  next hopt =>
  have hopt' : (v.env 1).setsockopt ≠ -1 := hopt
  simp only [EStateM.run_bind, run_consult, run_emit, EStateM.run_get]
  split
  · next hbind =>
    have hbind' : (v.env 2).bind < 0 := hbind
    rw [decide_eq_false (by omega)]
    exact ⟨_, rfl⟩
  next hbind =>
  have hbind' : ¬(v.env 2).bind < 0 := hbind
  have hvalid : (v.env 0).socket ≠ invalidSocket := by
    unfold invalidSocket
    omega
  have hadd (u : World Responser) : (addReadSocket (v.env 0).socket).run u =
      .ok true (u.withThread fun th ↦
        { th with readSockets := insert (v.env 0).socket th.readSockets }) := by
    rw [addReadSocket, if_neg hvalid]
    rfl
  simp only [EStateM.run_bind, hadd, Bool.true_eq_false, if_false]
  have hroom : (PollTable.pollFDAdd (v.env 0).socket v.thread.pollFds).1 =
      decide (0 ≤ (v.env 0).socket ∧ (v.env 1).setsockopt ≠ -1 ∧ 0 ≤ (v.env 2).bind ∧
        v.thread.pollFds.count < maxFDSize) := by
    rw [PollTable.pollFDAdd_fst hvalid, decide_eq_decide]
    omega
  rw [← hroom]
  show ∃ v₀, EStateM.run (if (PollTable.pollFDAdd (v.env 0).socket v.thread.pollFds).1 = false
    then pure false else pure true) _ = _
  cases (PollTable.pollFDAdd (v.env 0).socket v.thread.pollFds).1 with
  | false => exact ⟨_, rfl⟩
  | true => exact ⟨_, rfl⟩

/-- `InitInstance` returns true exactly if its calls succeed. -/
theorem run_firstInit (w : World Responser) :
    ∃ w₀, firstInit.run w = .ok (decide (InitSucceeds w)) w₀ := by
  obtain ⟨w₀, hw₀⟩ := run_initInstance (afterOthers w)
  obtain ⟨b, hthread⟩ := thread_clientCalls setProcessState (w.env 0).clients w.next
  have hpollFds : (afterOthers w).thread.pollFds = w.thread.pollFds := by
    rw [afterOthers, hthread]
    rfl
  rw [env_afterOthers, hpollFds] at hw₀
  exact ⟨w₀, hw₀⟩

/-- A turn in which `InitInstance` succeeds goes on at `DONE_INITINSTANCE`. -/
theorem run_turn_of_firstInit (e : Endian) {w w₀ : World Responser}
    (hstate : (afterOthers w).thread.state = .ready) (hinit : firstInit.run w = .ok true w₀) :
    (threadClass e).turn.run w =
      (threadClass e).procDoneInitInstance.run ((threadClass e).setState .doneInitInstance w₀) :=
  (threadClass e).run_turn_of_init (run_others w) hstate hinit

end HeartbeatSpec.Legacy.Responser
