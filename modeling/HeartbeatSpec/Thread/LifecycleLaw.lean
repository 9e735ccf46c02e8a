import HeartbeatSpec.Thread.Lifecycle

/-!
# The lifecycle law

Library `Thread`. One run makes the callbacks of a complete lifecycle, ends in the state
that tells whether they succeeded, starts no `Run` whose test came after an `EndThread`
call, and ends within two calls of `ThreadProc` after one.
-/

namespace HeartbeatSpec.Thread.Lifecycle

variable {w w' : Lifecycle}

/-- Callbacks that have been made when the loop is in the given state. -/
def Shape : CiThread2State → List (Callback × Bool) → Prop
  | .ready, cs => cs = []
  | .doneInitInstance, cs => ∃ k, cs = (.initInstance, true) :: List.replicate k (.run, true)
  | .doneRun, cs => ∃ k, cs = (.initInstance, true) :: List.replicate k (.run, true)
  | .error, cs => cs = [(.initInstance, false)] ∨
      ∃ k, cs = (.initInstance, true) :: List.replicate k (.run, true) ++ [(.run, false)]
  | .done, cs => ∃ k r,
      cs = (.initInstance, true) :: List.replicate k (.run, true) ++ [(.exitInstance, r)]
  | .doneError, cs => (∃ r, cs = [(.initInstance, false), (.exitInstance, r)]) ∨
      ∃ k r, cs = (.initInstance, true) :: List.replicate k (.run, true) ++
        [(.run, false), (.exitInstance, r)]
  | _, _ => False

/-- The exit flag is set exactly by `EndThread` calls, and no `Run` ignored one. -/
structure Sound (w : Lifecycle) : Prop where
  bExit_iff : w.bExit = true ↔ .endThread ∈ w.log
  guarded : RunsGuarded w.log

/-- The invariant between two calls of `ThreadProc`. -/
structure Inv (w : Lifecycle) : Prop extends Sound w where
  shape : Shape w.state (callbacks w.log)

/-- The invariant holds after `PrepareRunning`. -/
theorem inv_prepared : Inv prepared where
  bExit_iff := by simp [prepared]
  guarded := by
    intro pre post he
    simp [prepared] at he
  shape := rfl

/-- Events that start no `Run` keep an object sound. -/
theorem Sound.extends {es : List LifecycleEvent} (h : Sound w) (hx : Extends w es w')
    (hes : .call .run ∉ es) : Sound w' where
  bExit_iff := by rw [hx.bExit_iff, h.bExit_iff, hx.log_eq, List.mem_append]
  guarded := by
    rw [hx.log_eq]
    exact h.guarded.append hes

/-- The exit flag is never cleared. -/
theorem Extends.bExit_mono {es : List LifecycleEvent} (hx : Extends w es w')
    (h : w.bExit = true) : w'.bExit = true :=
  hx.bExit_iff.mpr (Or.inl h)

private theorem Quiet.run_not_mem {es : List LifecycleEvent} (h : Quiet es) :
    .call .run ∉ es := by
  intro hm
  cases h _ hm

/-- A callback other than `Run` keeps an object sound and is recorded once. -/
theorem Sound.callback (h : Sound w) (sc : Script) (cb : Callback) (hcb : cb ≠ .run) :
    Sound (callback sc cb w).2 ∧
      callbacks (callback sc cb w).2.log = callbacks w.log ++ [(cb, (callback sc cb w).1)] ∧
      (w.bExit = true → (callback sc cb w).2.bExit = true) := by
  obtain ⟨before, inside, hb, hi, hx⟩ := extends_callback sc cb w
  refine ⟨h.extends hx ?_, ?_, hx.bExit_mono⟩
  · simp only [List.mem_append, List.mem_cons, LifecycleEvent.call.injEq, not_or]
    exact ⟨hb.run_not_mem, Ne.symm hcb, hi.run_not_mem, by simp⟩
  · rw [hx.log_eq, callbacks_append, callbacks_of_callback cb _ hb hi]

/-- `Run`, after a test that found the exit flag clear, keeps an object sound and is
recorded once. -/
theorem Sound.test_run (h : Sound w) (sc : Script) (hclear : (w.point sc).bExit = false)
    (t : Lifecycle) (ht : t = (w.point sc).record (.test false)) :
    Sound (Lifecycle.callback sc .run t).2 ∧
      callbacks (Lifecycle.callback sc .run t).2.log =
        callbacks w.log ++ [(.run, (Lifecycle.callback sc .run t).1)] := by
  obtain ⟨es, hes, hqes⟩ := extends_point sc w
  obtain ⟨before, inside, hb, hi, hx⟩ := extends_callback sc .run t
  have hp : Sound (w.point sc) := h.extends hes hqes.run_not_mem
  have hno : .endThread ∉ (w.point sc).log := by
    intro hm
    rw [hp.bExit_iff.mpr hm] at hclear
    cases hclear
  subst ht
  have hall := (extends_record (.test false) (by simp) (w.point sc)).trans hx
  have hlog := hall.log_eq
  simp only [List.singleton_append] at hlog
  refine ⟨⟨?_, ?_⟩, ?_⟩
  · rw [hall.bExit_iff, hp.bExit_iff, hall.log_eq]
    simp only [List.mem_append]
  · rw [hlog]
    exact hp.guarded.append_run hno hb (by
      simpa using fun hm ↦ hi.run_not_mem hm)
  · rw [hx.log_eq, callbacks_append, callbacks_of_callback .run _ hb hi]
    change callbacks ((w.point sc).log ++ [.test false]) ++ _ = _
    rw [hes.log_eq, callbacks_append, callbacks_append, callbacks_of_quiet hqes]
    simp [callbacks]

/-! ### The parts of `ThreadProc` -/

/-- `ExitInstance` and the labels behind it end the run. -/
theorem procDoneRun_spec (sc : Script) (hw : Inv w) (hs : w.state = .doneRun ∨ w.state = .error) :
    ∃ w', (threadClass sc).procDoneRun.run w = .ok () w' ∧ Inv w' ∧
      w'.state.isThreadDone = true ∧ (w.bExit = true → w'.bExit = true) := by
  obtain ⟨hsound, hcbs, hmono⟩ := hw.toSound.callback sc .exitInstance (by simp)
  obtain ⟨_, _, _, _, hx⟩ := extends_callback sc .exitInstance w
  have hstate := hx.state_eq
  have hshape := hw.shape
  rcases hs with hs | hs
  · refine ⟨{ (callback sc .exitInstance w).2 with state := .done }, ?_, ⟨⟨hsound.1, hsound.2⟩, ?_⟩,
      rfl, hmono⟩
    · simp [CiThread2Class.procDoneRun, CiThread2Class.procDoneExitInstance, threadClass,
        hstate, hs]
    · rw [hs] at hshape
      obtain ⟨k, hk⟩ := hshape
      change Shape .done (callbacks (callback sc .exitInstance w).2.log)
      rw [hcbs, hk]
      exact ⟨k, _, rfl⟩
  · refine ⟨{ (callback sc .exitInstance w).2 with state := .doneError }, ?_,
      ⟨⟨hsound.1, hsound.2⟩, ?_⟩, rfl, hmono⟩
    · simp [CiThread2Class.procDoneRun, CiThread2Class.procDoneExitInstance, threadClass,
        hstate, hs]
    · rw [hs] at hshape
      change Shape .doneError (callbacks (callback sc .exitInstance w).2.log)
      rcases hshape with hk | ⟨k, hk⟩
      · rw [hcbs, hk]
        exact Or.inl ⟨_, rfl⟩
      · rw [hcbs, hk]
        exact Or.inr ⟨k, (callback sc .exitInstance w).1, by simp⟩

/-- From `DONE_INITINSTANCE` either one `Run` is made, or the run ends; the latter if the
exit flag was set before. -/
theorem procDoneInitInstance_spec (sc : Script) (hw : Inv w) (hs : w.state = .doneInitInstance) :
    ∃ w', (threadClass sc).procDoneInitInstance.run w = .ok () w' ∧ Inv w' ∧
      (w.bExit = true → w'.bExit = true ∧ w'.state.isThreadDone = true) := by
  obtain ⟨es, hqes, htest⟩ := extends_test sc w
  obtain ⟨_, hpoint, _⟩ := extends_point sc w
  have hshape := hw.shape
  rw [hs] at hshape
  obtain ⟨k, hk⟩ := hshape
  cases hclear : (w.point sc).bExit with
  | false =>
    obtain ⟨hsound, hcbs⟩ := hw.toSound.test_run sc hclear _ rfl
    have hset : w.bExit ≠ true := by
      intro hset
      rw [hpoint.bExit_mono hset] at hclear
      cases hclear
    obtain ⟨_, _, _, _, hx⟩ := extends_callback sc .run ((w.point sc).record (.test false))
    have hstate : (callback sc .run ((w.point sc).record (.test false))).2.state =
        .doneInitInstance := by
      rw [hx.state_eq, ← hs]
      exact hpoint.state_eq
    cases hr : (callback sc .run ((w.point sc).record (.test false))).1 with
    | true =>
      refine ⟨(callback sc .run ((w.point sc).record (.test false))).2, ?_, ⟨hsound, ?_⟩,
        fun h ↦ absurd h hset⟩
      · simp [CiThread2Class.procDoneInitInstance, threadClass, hclear, hr]
      · rw [hstate, hcbs, hr, hk, List.cons_append, ← List.replicate_succ']
        exact ⟨k + 1, rfl⟩
    | false =>
      refine ⟨{ (callback sc .run ((w.point sc).record (.test false))).2 with state := .error },
        ?_, ⟨⟨hsound.1, hsound.2⟩, ?_⟩, fun h ↦ absurd h hset⟩
      · simp [CiThread2Class.procDoneInitInstance, threadClass, hclear, hr]
      · change Shape .error (callbacks (callback sc .run _).2.log)
        rw [hcbs, hr, hk]
        exact Or.inr ⟨k, rfl⟩
  | true =>
    rw [hclear] at htest
    have hsound := hw.toSound.extends htest (by simpa using hqes.run_not_mem)
    have hinv : Inv { (w.point sc).record (.test true) with state := .doneRun } :=
      ⟨⟨hsound.1, hsound.2⟩, k, by
        change callbacks ((w.point sc).record (.test true)).log = _
        rw [htest.log_eq, callbacks_append, callbacks_append, callbacks_of_quiet hqes, hk]
        simp [callbacks]⟩
    obtain ⟨w', hrun, hinv', hdone, hmono⟩ := procDoneRun_spec sc hinv (Or.inl rfl)
    refine ⟨w', ?_, hinv', fun _ ↦ ⟨hmono hclear, hdone⟩⟩
    simpa [CiThread2Class.procDoneInitInstance, threadClass, hclear] using hrun

/-- From `READY` the run starts with `InitInstance`; if the exit flag was set before, it
gets no further than that and `ExitInstance`. -/
theorem procReady_spec (sc : Script) (hw : Inv w) (hs : w.state = .ready) :
    ∃ w', (threadClass sc).procReady.run w = .ok () w' ∧ Inv w' ∧
      (w.bExit = true → w'.bExit = true ∧
        (w'.state.isThreadDone = true ∨ w'.state = .error)) := by
  obtain ⟨hsound, hcbs, hmono⟩ := hw.toSound.callback sc .initInstance (by simp)
  have hshape := hw.shape
  rw [hs] at hshape
  rw [hshape, List.nil_append] at hcbs
  cases hr : (callback sc .initInstance w).1 with
  | false =>
    refine ⟨{ (callback sc .initInstance w).2 with state := .error }, ?_,
      ⟨⟨hsound.1, hsound.2⟩, ?_⟩, fun h ↦ ⟨hmono h, Or.inr rfl⟩⟩
    · simp [CiThread2Class.procReady, threadClass, hr]
    · rw [hr] at hcbs
      exact Or.inl hcbs
  | true =>
    have hinv : Inv { (callback sc .initInstance w).2 with state := .doneInitInstance } :=
      ⟨⟨hsound.1, hsound.2⟩, 0, by
        rw [hr] at hcbs
        exact hcbs⟩
    obtain ⟨w', hrun, hinv', hexit⟩ := procDoneInitInstance_spec sc hinv rfl
    refine ⟨w', ?_, hinv', fun h ↦ ?_⟩
    · simpa [CiThread2Class.procReady, threadClass, hr] using hrun
    · obtain ⟨hb, hd⟩ := hexit (hmono h)
      exact ⟨hb, Or.inl hd⟩

/-! ### The loop -/

/-- Calls of `ThreadProc` that a run may still need once the exit flag is set. -/
def left : CiThread2State → Nat
  | .ready => 2
  | .done | .doneError => 0
  | _ => 1

private theorem left_of_done {s : CiThread2State} (h : s.isThreadDone = true) : left s = 0 := by
  cases s <;> simp_all [CiThread2State.isThreadDone, left]

private theorem done_of_left {s : CiThread2State} (h : left s = 0) : s.isThreadDone = true := by
  cases s <;> simp_all [CiThread2State.isThreadDone, left]

/-- One turn keeps the invariant, and brings a run with the exit flag set closer to its
end. -/
theorem turn_spec (sc : Script) (hw : Inv w) (hd : w.state.isThreadDone = false) :
    ∃ w', (threadClass sc).turn.run w = .ok () w' ∧ Inv w' ∧
      ((w.point sc).bExit = true → w'.bExit = true ∧ left w'.state < left w.state) := by
  obtain ⟨es, hx, hq⟩ := extends_point sc w
  have hstate := hx.state_eq
  have hp : Inv (w.point sc) :=
    ⟨hw.toSound.extends hx hq.run_not_mem, by
      rw [hstate, hx.log_eq, callbacks_append, callbacks_of_quiet hq, List.append_nil]
      exact hw.shape⟩
  have hshape := hw.shape
  cases hs : w.state with
  | ready =>
    obtain ⟨w', hrun, hinv, hexit⟩ := procReady_spec sc hp (hstate.trans hs)
    refine ⟨w', ?_, hinv, fun h ↦ ?_⟩
    · simpa [CiThread2Class.turn, CiThread2Class.threadProc, threadClass, hstate, hs] using hrun
    · obtain ⟨hb, hdone | herr⟩ := hexit h
      · exact ⟨hb, by rw [left_of_done hdone]; decide⟩
      · exact ⟨hb, by rw [herr]; decide⟩
  | doneInitInstance =>
    obtain ⟨w', hrun, hinv, hexit⟩ := procDoneInitInstance_spec sc hp (hstate.trans hs)
    refine ⟨w', ?_, hinv, fun h ↦ ?_⟩
    · simpa [CiThread2Class.turn, CiThread2Class.threadProc, threadClass, hstate, hs] using hrun
    · obtain ⟨hb, hdone⟩ := hexit h
      exact ⟨hb, by rw [left_of_done hdone]; decide⟩
  | doneRun =>
    obtain ⟨w', hrun, hinv, hdone, hmono⟩ := procDoneRun_spec sc hp
      (Or.inl (hstate.trans hs))
    refine ⟨w', ?_, hinv, fun h ↦ ⟨hmono h, by rw [left_of_done hdone]; decide⟩⟩
    simpa [CiThread2Class.turn, CiThread2Class.threadProc, threadClass, hstate, hs] using hrun
  | error =>
    obtain ⟨w', hrun, hinv, hdone, hmono⟩ := procDoneRun_spec sc hp
      (Or.inr (hstate.trans hs))
    refine ⟨w', ?_, hinv, fun h ↦ ⟨hmono h, by rw [left_of_done hdone]; decide⟩⟩
    simpa [CiThread2Class.turn, CiThread2Class.threadProc, threadClass, hstate, hs] using hrun
  | done =>
    rw [hs] at hd
    cases hd
  | doneError =>
    rw [hs] at hd
    cases hd
  | doneExitInstance =>
    rw [hs] at hshape
    exact hshape.elim
  | doneExitInstanceError =>
    rw [hs] at hshape
    exact hshape.elim
  | inactive =>
    rw [hs] at hshape
    exact hshape.elim

/-- The invariant holds after any number of turns. -/
theorem runLoop_inv (sc : Script) (n : Nat) (hw : Inv w) :
    ∃ b w', ((threadClass sc).runLoop n).run w = .ok b w' ∧ Inv w' ∧
      b = w'.state.isThreadDone :=
  (threadClass sc).runLoop_induct
    (fun _ hs hd ↦ by
      obtain ⟨w', hrun, hinv, -⟩ := turn_spec sc hs hd
      exact ⟨w', hrun, hinv⟩) n hw

/-- With the exit flag set when `ThreadProc` is called next, the loop ends within the calls
that are left. -/
theorem runLoop_ends (sc : Script) (n : Nat) (hw : Inv w) (hexit : (w.point sc).bExit = true)
    (hn : left w.state ≤ n) :
    ∃ w', ((threadClass sc).runLoop n).run w = .ok true w' := by
  induction n generalizing w with
  | zero =>
    have hd := done_of_left (Nat.le_zero.mp hn)
    exact ⟨w, (threadClass sc).runLoop_of_done hd 0⟩
  | succ n ih =>
    cases hd : w.state.isThreadDone with
    | true => exact ⟨w, (threadClass sc).runLoop_of_done hd _⟩
    | false =>
      obtain ⟨w', hrun, hinv, hleft⟩ := turn_spec sc hw hd
      obtain ⟨hb, hlt⟩ := hleft hexit
      obtain ⟨_, hx, _⟩ := extends_point sc w'
      obtain ⟨w'', hr⟩ := ih hinv (hx.bExit_mono hb) (by omega)
      refine ⟨w'', ?_⟩
      rw [(threadClass sc).runLoop_succ hd, EStateM.run_bind, hrun]
      exact hr

theorem complete_of_shape {s : CiThread2State} {cs : List (Callback × Bool)}
    (h : Shape s cs) (hd : s.isThreadDone = true) :
    Complete cs ∧ (s = .done ↔ Succeeded cs) ∧ (s = .doneError ↔ ¬Succeeded cs) := by
  cases s with
  | done =>
    obtain ⟨k, r, rfl⟩ := h
    have hok : Succeeded ((.initInstance, true) :: List.replicate k (.run, true) ++
        [(.exitInstance, r)]) := by
      refine ⟨by simp, ?_⟩
      simp [List.mem_replicate]
    exact ⟨Or.inr (Or.inl ⟨k, r, rfl⟩), iff_of_true rfl hok,
      iff_of_false (by decide) fun h ↦ h hok⟩
  | doneError =>
    rcases h with ⟨r, rfl⟩ | ⟨k, r, rfl⟩
    · have hbad : ¬Succeeded [(.initInstance, false), (.exitInstance, r)] := by
        simp [Succeeded]
      exact ⟨Or.inl ⟨r, rfl⟩, iff_of_false (by decide) hbad, iff_of_true rfl hbad⟩
    · have hbad : ¬Succeeded ((.initInstance, true) :: List.replicate k (.run, true) ++
          [(.run, false), (.exitInstance, r)]) := by
        rintro ⟨-, hno⟩
        simp at hno
      exact ⟨Or.inr (Or.inr ⟨k, r, rfl⟩), iff_of_false (by decide) hbad, iff_of_true rfl hbad⟩
  | _ => cases hd

/-- The lifecycle law: after any number of calls of `ThreadProc`, once the loop has ended the
callbacks are those of a complete lifecycle, the final state tells whether they succeeded,
and further calls of `ThreadProc` do nothing; no `Run` was started on a test made after an
`EndThread` call; and if `EndThread` has been called, the loop ends within two more calls. -/
theorem lifecycle_law (sc : Script) (n : Nat) :
    ∃ ended w, ((threadClass sc).runLoop n).run prepared = .ok ended w ∧
      ended = w.state.isThreadDone ∧
      (ended = true → Complete (callbacks w.log) ∧
        (w.state = .done ↔ Succeeded (callbacks w.log)) ∧
        (w.state = .doneError ↔ ¬Succeeded (callbacks w.log)) ∧
        (threadClass sc).threadProc.run w = .ok () w) ∧
      RunsGuarded w.log ∧
      (.endThread ∈ (w.point sc).log →
        ∃ w', ((threadClass sc).runLoop (n + 2)).run prepared = .ok true w') := by
  obtain ⟨ended, w, hrun, hinv, hended⟩ := runLoop_inv sc n inv_prepared
  refine ⟨ended, w, hrun, hended, fun hd ↦ ?_, hinv.guarded, fun hend ↦ ?_⟩
  · rw [hended] at hd
    obtain ⟨hcomplete, hdone, herror⟩ := complete_of_shape hinv.shape hd
    exact ⟨hcomplete, hdone, herror, (threadClass sc).threadProc_of_done hd⟩
  · obtain ⟨es, hx, hq⟩ := extends_point sc w
    have hexit := (hinv.toSound.extends hx hq.run_not_mem).bExit_iff.mpr hend
    have hleft : left w.state ≤ 2 := by
      cases w.state <;> decide
    obtain ⟨w', hr⟩ := runLoop_ends sc 2 hinv hexit hleft
    exact ⟨w', by rw [(threadClass sc).runLoop_add n 2 hrun, hr]⟩

end HeartbeatSpec.Thread.Lifecycle
