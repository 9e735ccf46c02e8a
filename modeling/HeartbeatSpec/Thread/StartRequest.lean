import HeartbeatSpec.Thread.Exclusion

/-!
# Start requests beside an active run

Library `Thread`. `PrepareRunning` resets `m_bExit` and `m_state` before it waits for the
semaphore (`legacy_compatible/legacy_support.cpp:332–339`), and only `CreateThread` stores a
thread handle for the guard to find (`legacy_compatible/legacy_support.cpp:258–302`). A start
request therefore leaves a run alone as long as no start resets the members while a run is
active or another start waits; otherwise the run can lose a stop request or its state.
-/

namespace HeartbeatSpec.Thread
open HeartbeatSpec.Base

/-- What a step of party `t` from `s` to `s'` may not do to a run: start it in another state
than `READY`, change the state from outside its own loop, withdraw a stop request, or end it
without exactly one `InitInstance` and one `ExitInstance`. -/
structure Undisturbed (s : Sys) (t : Tid) (s' : Sys) : Prop where
  starts_ready : ∀ k, s.pc t = .prepareWait k → s'.shared.state = .ready
  state_own : ∀ u run, s.Active u run → s'.shared.state ≠ s.shared.state →
    t = u ∧ ∃ worker inits exits pc, s.pc u = .loop run worker inits exits pc
  exit_kept : ∀ u run, s.Active u run → s.shared.bExit = true → s'.shared.bExit = true
  callbacks_once : ∀ run worker inits exits, s.pc t = .notifyExit run worker inits exits →
    inits = 1 ∧ exits = 1

/-- A start resets the members only beside no run and no other start: it clears a set exit
flag while no run is active, and sets the state while no run is active and no start waits
for the semaphore. -/
structure ResetsAlone (s : Sys) (t : Tid) : Prop where
  exit : ∀ k, s.pc t = .prepareExit k → s.shared.bExit = true → ∀ u run, ¬s.Active u run
  state : ∀ k, s.pc t = .prepareState k →
    (∀ u run, ¬s.Active u run) ∧ ∀ u k', s.pc u ≠ .prepareWait k'

/-! ### Where a run is when its loop is at a given place -/

/-- State and callback counts between two steps of the `ThreadProc` switch. -/
def Between (st : CiThread2State) (inits exits : Nat) : Prop :=
  (st = .ready ∧ inits = 0 ∧ exits = 0) ∨
  (st = .doneInitInstance ∧ inits = 1 ∧ exits = 0) ∨
  (st = .error ∧ inits = 1 ∧ exits = 0) ∨
  (st.isThreadDone = true ∧ inits = 1 ∧ exits = 1)

/-- State and callback counts at each place of the loop. -/
def LoopOk (st : CiThread2State) (inits exits : Nat) : LoopPc → Prop
  | .isDone | .isDoneError | .switch => Between st inits exits
  | .initInstance => st = .ready ∧ inits = 0 ∧ exits = 0
  | .setInitError | .setDoneInitInstance => st = .ready ∧ inits = 1 ∧ exits = 0
  | .testExit | .run | .setRunError | .setDoneRun =>
    st = .doneInitInstance ∧ inits = 1 ∧ exits = 0
  | .exitInstance => (st = .doneRun ∨ st = .error) ∧ inits = 1 ∧ exits = 0
  | .testDoneRun => (st = .doneRun ∨ st = .error) ∧ inits = 1 ∧ exits = 1
  | .setDoneExitInstance | .setDoneExitInstanceError => inits = 1 ∧ exits = 1
  | .testDoneExitInstance =>
    (st = .doneExitInstance ∨ st = .doneExitInstanceError) ∧ inits = 1 ∧ exits = 1
  | .setDone | .setDoneError => inits = 1 ∧ exits = 1

/-- State and callback counts of a party in a run. -/
def RunOk (st : CiThread2State) : Pc → Prop
  | .create _ => st = .ready
  | .loop _ _ inits exits pc => LoopOk st inits exits pc
  | .notifyExit _ _ inits exits => inits = 1 ∧ exits = 1
  | _ => True

/-- Once the state is a done state, each of the two callbacks has been made once. -/
theorem Between.counts {st : CiThread2State} {inits exits : Nat} (h : Between st inits exits)
    (hd : st.isThreadDone = true) : inits = 1 ∧ exits = 1 := by
  rcases h with ⟨rfl, -, -⟩ | ⟨rfl, -, -⟩ | ⟨rfl, -, -⟩ | ⟨-, h1, h2⟩
  · cases hd
  · cases hd
  · cases hd
  · exact ⟨h1, h2⟩

/-- One step of the loop keeps the state and the counts in step with its place, and ends
the loop only after one `InitInstance` and one `ExitInstance`. -/
theorem loopOk_step {result : Bool} {sh : Shared} {inits exits : Nat} {pc : LoopPc}
    (run : Nat) (worker : Bool) (h : LoopOk sh.state inits exits pc) :
    RunOk (loopStep result sh pc).1.state
      (afterLoop run worker (countAt pc .initInstance inits) (countAt pc .exitInstance exits)
        (loopStep result sh pc).2) := by
  cases pc with
  | isDone =>
    simp only [loopStep]
    split
    · next hd => exact h.counts (by rw [hd]; rfl)
    · exact h
  | isDoneError =>
    simp only [loopStep]
    split
    · next hd => exact h.counts (by rw [hd]; rfl)
    · exact h
  | switch =>
    have hb : Between sh.state inits exits := h
    simp only [loopStep]
    rcases h with ⟨hs, h1, h2⟩ | ⟨hs, h1, h2⟩ | ⟨hs, h1, h2⟩ | ⟨hd, -, -⟩
    · rw [hs]
      exact ⟨rfl, h1, h2⟩
    · rw [hs]
      exact ⟨rfl, h1, h2⟩
    · rw [hs]
      exact ⟨Or.inr rfl, h1, h2⟩
    · have ht : switchTarget sh.state = .isDone := by
        cases hs : sh.state <;> simp_all [CiThread2State.isThreadDone, switchTarget]
      rw [ht]
      exact hb
  | initInstance =>
    obtain ⟨hs, rfl, rfl⟩ := h
    simp only [loopStep]
    cases result <;> exact ⟨hs, rfl, rfl⟩
  | setInitError => exact Or.inr (Or.inr (Or.inl ⟨rfl, h.2⟩))
  | setDoneInitInstance => exact ⟨rfl, h.2⟩
  | testExit =>
    simp only [loopStep]
    split <;> exact h
  | run =>
    simp only [loopStep]
    split
    · exact Or.inr (Or.inl h)
    · exact h
  | setRunError => exact Or.inr (Or.inr (Or.inl ⟨rfl, h.2⟩))
  | setDoneRun => exact ⟨Or.inl rfl, h.2⟩
  | exitInstance =>
    obtain ⟨hs, h1, rfl⟩ := h
    exact ⟨hs, h1, rfl⟩
  | testDoneRun =>
    simp only [loopStep]
    split <;> exact h.2
  | setDoneExitInstance => exact ⟨Or.inl rfl, h⟩
  | setDoneExitInstanceError => exact ⟨Or.inr rfl, h⟩
  | testDoneExitInstance =>
    simp only [loopStep]
    split <;> exact h.2
  | setDone => exact Or.inr (Or.inr (Or.inr ⟨rfl, h⟩))
  | setDoneError => exact Or.inr (Or.inr (Or.inr ⟨rfl, h⟩))

/-- A party outside all runs has nothing to keep. -/
theorem runOk_of_run?_eq_none (st : CiThread2State) {p : Pc} (h : p.run? = none) :
    RunOk st p := by
  cases p <;> trivial

/-! ### What one step does to the members -/

private theorem loopStep_bExit (result : Bool) (sh : Shared) (pc : LoopPc) :
    (loopStep result sh pc).1.bExit = sh.bExit := by
  cases pc <;> rfl

/-- A party's own step sets the state for a start, passes the wait, is a step of a loop, or
leaves the state alone and the party outside all runs; in the last case only a start clears
the exit flag. -/
theorem localStep_cases {ch : Choice} {sh sh' : Shared} {p p' : Pc}
    (h : localStep ch sh p = some (sh', p')) :
    (∃ k, p = .prepareState k ∧ sh' = { sh with state := .ready } ∧ p' = .prepareWait k) ∨
    (∃ k, p = .prepareWait k ∧ sh'.state = sh.state ∧ sh'.bExit = sh.bExit ∧
      p' = runEntry k sh.runs) ∨
    (∃ run worker inits exits pc, p = .loop run worker inits exits pc ∧
      sh' = (loopStep ch.result sh pc).1 ∧
      p' = afterLoop run worker (countAt pc .initInstance inits)
        (countAt pc .exitInstance exits) (loopStep ch.result sh pc).2) ∨
    (sh'.state = sh.state ∧ p'.run? = none ∧ (∀ k, p ≠ .prepareWait k ∧ p' ≠ .prepareWait k) ∧
      (sh.bExit = true → sh'.bExit = true ∨ ∃ k, p = .prepareExit k)) := by
  cases p with
  | prepareState k =>
    cases h
    exact Or.inl ⟨k, rfl, rfl, rfl⟩
  | prepareWait k =>
    simp only [localStep] at h
    split at h
    · cases h
      exact Or.inr (Or.inl ⟨k, rfl, rfl, rfl, rfl⟩)
    · cases h
  | loop run worker inits exits pc =>
    cases h
    exact Or.inr (Or.inr (Or.inl ⟨run, worker, inits, exits, pc, rfl, rfl, rfl⟩))
  | prepareExit k =>
    cases h
    exact Or.inr (Or.inr (Or.inr ⟨rfl, rfl, by simp, fun _ ↦ Or.inr ⟨k, rfl⟩⟩))
  | idle =>
    simp only [localStep] at h
    split at h <;> cases h <;>
      exact Or.inr (Or.inr (Or.inr ⟨rfl, rfl, by simp, fun he ↦ Or.inl he⟩))
  | startGuard k =>
    simp only [localStep] at h
    split at h <;> cases h <;>
      exact Or.inr (Or.inr (Or.inr ⟨rfl, rfl, by simp, fun he ↦ Or.inl he⟩))
  | waitTest bound =>
    simp only [localStep] at h
    split at h <;> cases h <;>
      exact Or.inr (Or.inr (Or.inr ⟨rfl, rfl, by simp, fun he ↦ Or.inl he⟩))
  | create run =>
    simp only [localStep] at h
    split at h
    · cases h
    · cases h
      exact Or.inr (Or.inr (Or.inr ⟨rfl, rfl, by simp, fun he ↦ Or.inl he⟩))
  | createStore run =>
    simp only [localStep] at h
    split at h
    · cases h
      exact Or.inr (Or.inr (Or.inr ⟨rfl, rfl, by simp, fun he ↦ Or.inl he⟩))
    · cases h
  | waitWait bound =>
    simp only [localStep] at h
    split at h
    · cases h
      exact Or.inr (Or.inr (Or.inr ⟨rfl, rfl, by simp, fun he ↦ Or.inl he⟩))
    · cases h
  | _ =>
    cases h
    exact Or.inr (Or.inr (Or.inr ⟨rfl, rfl, by simp, by simp⟩))

/-! ### Whole runs -/

/-- A start that waits for the semaphore has just reset the state, beside no run and no
other start; and every run has the state and the counts of its place. -/
structure StartsOk (s : Sys) : Prop where
  waiting : ∀ t k, s.pc t = .prepareWait k → s.shared.state = .ready ∧
    (∀ u run, ¬s.Active u run) ∧ ∀ u k', s.pc u = .prepareWait k' → u = t
  runs : ∀ t, RunOk s.shared.state (s.pc t)

/-- Nobody waits and no run is active on the constructed object. -/
theorem startsOk_initial : StartsOk Sys.initial where
  waiting t k h := by cases h
  runs t := trivial

/-- A party that is not active has nothing to keep, whatever the state. -/
theorem runOk_of_not_active {s : Sys} {t : Tid} (h : ∀ run, ¬s.Active t run)
    (st : CiThread2State) : RunOk st (s.pc t) := by
  apply runOk_of_run?_eq_none
  rw [Option.eq_none_iff_forall_ne_some]
  exact h

private theorem waits_of_update {pcs : Tid → Pc} {t u : Tid} {p : Pc} {k : Start}
    (hp : p ≠ .prepareWait k) (h : Function.update pcs t p u = .prepareWait k) :
    u ≠ t ∧ pcs u = .prepareWait k := by
  by_cases hu : u = t
  · subst hu
    rw [Function.update_self] at h
    exact absurd h hp
  · rw [Function.update_of_ne hu] at h
    exact ⟨hu, h⟩

/-- A reset beside no run and no other start. -/
theorem startsOk_reset {s : Sys} {t : Tid} (k : Start) (hna : ∀ u run, ¬s.Active u run)
    (hnw : ∀ u k', s.pc u ≠ .prepareWait k') :
    StartsOk ⟨{ s.shared with state := .ready }, Function.update s.pc t (.prepareWait k)⟩ where
  waiting v k' hv := by
    have hself : ∀ u k'', Function.update s.pc t (.prepareWait k) u = .prepareWait k'' →
        u = t := by
      intro u k'' hu
      by_contra hne
      rw [Function.update_of_ne hne] at hu
      exact hnw u k'' hu
    refine ⟨rfl, fun u run hu ↦ hna u run (hu.of_update rfl), fun u k'' hu ↦ ?_⟩
    rw [hself u k'' hu, hself v k' hv]
  runs v := by
    by_cases hv : v = t
    · subst hv
      simp only [Function.update_self]
      trivial
    · simp only [Function.update_of_ne hv]
      exact runOk_of_not_active (hna v) _

/-- The wait is passed by the only start that waited, beside no run. -/
theorem startsOk_pass {s : Sys} {sh : Shared} {t : Tid} {k : Start} (hs : StartsOk s)
    (hp : s.pc t = .prepareWait k) (hst : sh.state = s.shared.state) (run : Nat) :
    StartsOk ⟨sh, Function.update s.pc t (runEntry k run)⟩ := by
  obtain ⟨hready, hna, huniq⟩ := hs.waiting t k hp
  refine ⟨fun v k' hv ↦ ?_, fun v ↦ ?_⟩
  · obtain ⟨hne, hv⟩ := waits_of_update (by cases k <;> simp [runEntry]) hv
    exact absurd (huniq v k' hv) hne
  · by_cases hv : v = t
    · subst hv
      simp only [Function.update_self, hst, hready]
      cases k
      · rfl
      · exact Or.inl ⟨rfl, rfl, rfl⟩
    · simp only [Function.update_of_ne hv]
      exact runOk_of_not_active (hna v) _

/-- The one active run makes a step of its loop. -/
theorem startsOk_loop {s : Sys} {sh : Shared} {t : Tid} {p : Pc} {run : Nat}
    (hx : Exclusive s) (hs : StartsOk s) (ht : s.Active t run) (hp : p.run? = some run)
    (hok : RunOk sh.state p) : StartsOk ⟨sh, Function.update s.pc t p⟩ := by
  refine ⟨fun v k' hv ↦ ?_, fun v ↦ ?_⟩
  · obtain ⟨-, hv⟩ := waits_of_update (by rintro rfl; cases hp) hv
    exact absurd ht ((hs.waiting v k' hv).2.1 t run)
  · by_cases hv : v = t
    · subst hv
      simp only [Function.update_self]
      exact hok
    · simp only [Function.update_of_ne hv]
      exact runOk_of_not_active (fun r hr ↦ hv (hx.active_unique hr ht)) _

/-- Any other step of one party. -/
theorem startsOk_other {s : Sys} {sh : Shared} {t : Tid} {p : Pc} (hs : StartsOk s)
    (hst : sh.state = s.shared.state) (hp : p.run? = none) (hnw : ∀ k, p ≠ .prepareWait k) :
    StartsOk ⟨sh, Function.update s.pc t p⟩ := by
  refine ⟨fun v k' hv ↦ ?_, fun v ↦ ?_⟩
  · obtain ⟨-, hv⟩ := waits_of_update (hnw k') hv
    obtain ⟨hready, hna, huniq⟩ := hs.waiting v k' hv
    refine ⟨hst.trans hready, fun u run hu ↦ hna u run (hu.of_update hp), ?_⟩
    intro u k'' hu
    exact huniq u k'' (waits_of_update (hnw k'') hu).2
  · by_cases hv : v = t
    · subst hv
      simp only [Function.update_self]
      exact runOk_of_run?_eq_none _ hp
    · simp only [Function.update_of_ne hv, hst]
      exact hs.runs v

/-- The run is handed to a worker. -/
theorem startsOk_spawn {s : Sys} {t u : Tid} {run : Nat} (hs : StartsOk s)
    (ht : s.pc t = .create run) : StartsOk (spawn s t u run) := by
  have hready := hs.runs t
  rw [ht] at hready
  refine ⟨fun v k' hv ↦ ?_, fun v ↦ ?_⟩
  · rw [spawn] at hv
    obtain ⟨-, hv⟩ := waits_of_update Pc.noConfusion hv
    obtain ⟨-, hv⟩ := waits_of_update Pc.noConfusion hv
    exact absurd (by rw [Sys.Active, ht]; rfl) ((hs.waiting v k' hv).2.1 t run)
  · simp only [spawn]
    by_cases hvu : v = u
    · subst hvu
      rw [Function.update_self]
      exact Or.inl ⟨hready, rfl, rfl⟩
    · rw [Function.update_of_ne hvu]
      by_cases hvt : v = t
      · subst hvt
        rw [Function.update_self]
        trivial
      · rw [Function.update_of_ne hvt]
        exact hs.runs v

/-- A step in which every start resets the members alone keeps the runs in order. -/
theorem startsOk_step {s s' : Sys} {l : Tid × Choice} (hx : Exclusive s) (hs : StartsOk s)
    (h : step s l = some s') (hr : ResetsAlone s l.1) : StartsOk s' := by
  obtain ⟨t, ch⟩ := l
  rcases step_cases h with ⟨sh, p, hl, rfl⟩ | ⟨run, ht, -, -, -, rfl⟩
  · rcases localStep_cases hl with ⟨k, hp, rfl, rfl⟩ | ⟨k, hp, hst, -, rfl⟩ |
      ⟨run, worker, inits, exits, pc, hp, rfl, rfl⟩ | ⟨hst, hp, hnw, -⟩
    · obtain ⟨hna, hnw⟩ := hr.state k hp
      exact startsOk_reset k hna hnw
    · exact startsOk_pass hs hp hst _
    · have hok := hs.runs t
      rw [hp] at hok
      exact startsOk_loop hx hs (by rw [Sys.Active, hp]; rfl) (run?_afterLoop _ _ _ _ _)
        (loopOk_step run worker hok)
    · exact startsOk_other hs hst hp fun k ↦ (hnw k).2
  · exact startsOk_spawn hs ht

/-- Such a step disturbs no run. -/
theorem undisturbed_step {s s' : Sys} {l : Tid × Choice} (hx : Exclusive s) (hs : StartsOk s)
    (h : step s l = some s') (hr : ResetsAlone s l.1) : Undisturbed s l.1 s' := by
  obtain ⟨t, ch⟩ := l
  have hnotify : ∀ run worker inits exits, s.pc t = .notifyExit run worker inits exits →
      inits = 1 ∧ exits = 1 := by
    intro run worker inits exits hpc
    have hok := hs.runs t
    rw [hpc] at hok
    exact hok
  rcases step_cases h with ⟨sh, p, hl, rfl⟩ | ⟨run, ht, -, -, -, rfl⟩
  · rcases localStep_cases hl with ⟨k, hp, rfl, rfl⟩ | ⟨k, hp, hst, hex, rfl⟩ |
      ⟨run, worker, inits, exits, pc, hp, rfl, rfl⟩ | ⟨hst, -, hnw, hex⟩
    · obtain ⟨hna, -⟩ := hr.state k hp
      exact ⟨fun _ _ ↦ rfl, fun u run hu _ ↦ absurd hu (hna u run),
        fun u run hu _ ↦ absurd hu (hna u run), hnotify⟩
    · obtain ⟨hready, hna, -⟩ := hs.waiting t k hp
      exact ⟨fun _ _ ↦ hst.trans hready, fun u run hu _ ↦ absurd hu (hna u run),
        fun u run hu _ ↦ absurd hu (hna u run), hnotify⟩
    · have hact : s.Active t run := by rw [Sys.Active, hp]; rfl
      refine ⟨fun k hk ↦ ?_, fun u r hu _ ↦ ?_, fun u r hu hb ↦ ?_, hnotify⟩
      · rw [hp] at hk
        cases hk
      · have hut : u = t := hx.active_unique hu hact
        subst hut
        rw [Sys.Active, hp] at hu
        cases hu
        exact ⟨rfl, worker, inits, exits, pc, hp⟩
      · change (loopStep ch.result s.shared pc).1.bExit = true
        rw [loopStep_bExit, hb]
    · refine ⟨fun k hk ↦ absurd hk (hnw k).1, fun u run _ hne ↦ absurd hst hne,
        fun u run hu hb ↦ ?_, hnotify⟩
      rcases hex hb with hb' | ⟨k, hp⟩
      · exact hb'
      · exact absurd hu (hr.exit k hp hb u run)
  · refine ⟨fun k hk ↦ ?_, fun _ _ _ hne ↦ absurd rfl hne, fun _ _ _ hb ↦ hb, hnotify⟩
    rw [ht] at hk
    cases hk

/-- Start requests leave every run alone, in any interleaving in which each start resets the
members beside no run and no other start. -/
theorem start_request_law {tr : List (Transition Sys (Tid × Choice))} {s : Sys}
    (h : Runs step Sys.initial tr s) (hr : ∀ e ∈ tr, ResetsAlone e.source e.label.1) :
    ∀ e ∈ tr, Undisturbed e.source e.label.1 e.target := by
  have hrule := h.rule (I := fun s ↦ Exclusive s ∧ StartsOk s)
    (C := fun s l _ ↦ ResetsAlone s l.1) (P := fun s l s' ↦ Undisturbed s l.1 s')
    (fun s l s' hI hst hC ↦ ⟨⟨exclusive_step hI.1 hst, startsOk_step hI.1 hI.2 hst hC⟩,
      undisturbed_step hI.1 hI.2 hst hC⟩)
    ⟨exclusive_initial, startsOk_initial⟩ hr
  exact hrule.2

/-! ### A run that meets the condition, and one that does not -/

/-- A single client resets the members alone. -/
theorem resetsAlone_of_solo {s : Sys} {t : Tid} (h : ∀ u, u ≠ t → s.pc u = .idle) :
    ResetsAlone s t := by
  have hna : (s.pc t).run? = none → ∀ u run, ¬s.Active u run := by
    intro ht u run hu
    unfold Sys.Active at hu
    by_cases hut : u = t
    · rw [hut, ht] at hu
      cases hu
    · rw [h u hut] at hu
      cases hu
  refine ⟨fun k hk _ ↦ hna (by rw [hk]; rfl), fun k hk ↦ ⟨hna (by rw [hk]; rfl), ?_⟩⟩
  intro u k' hu
  by_cases hut : u = t
  · rw [hut, hk] at hu
    cases hu
  · rw [h u hut] at hu
    cases hu

/-- Client 0 calls `RunThreadHere` and `InitInstance` fails; nobody else does anything. -/
def soloSchedule : List (Tid × Choice) :=
  List.replicate 21 (0, ⟨.start .runThreadHere, false, 0, 0⟩)

private theorem solo_of_mem_trace {e : Transition Sys (Tid × Choice)}
    (he : e ∈ trace step Sys.initial soloSchedule) : ResetsAlone e.source e.label.1 := by
  obtain ⟨s, hs⟩ : ∃ s, exec step Sys.initial soloSchedule = some s := ⟨_, rfl⟩
  have hinv := (Runs.of_exec hs).rule
    (I := fun s ↦ ∀ u, u ≠ 0 → s.pc u = .idle)
    (C := fun _ l _ ↦ l = (0, ⟨.start .runThreadHere, false, 0, 0⟩))
    (P := fun s l _ ↦ ResetsAlone s l.1)
    (by
      rintro s l s' hI hst rfl
      refine ⟨fun u hu ↦ ?_, resetsAlone_of_solo hI⟩
      rcases step_cases hst with ⟨sh, p, -, rfl⟩ | ⟨_, _, hr, -⟩
      · exact (Function.update_of_ne hu p s.pc).trans (hI u hu)
      · cases hr)
    (fun _ _ ↦ rfl) (fun e he ↦ List.eq_of_mem_replicate (label_mem_of_mem_trace he))
  exact hinv.2 e he

/-- The law holds of a run of one client, from its start to its end. -/
theorem start_request_law_solo :
    (exec step Sys.initial soloSchedule).map (fun s ↦ (s.pc 0, s.shared)) =
        some (.idle, ⟨false, .doneError, 0, 1, 1⟩) ∧
      ∀ e ∈ trace step Sys.initial soloSchedule, Undisturbed e.source e.label.1 e.target :=
  ⟨by decide, start_request_law (Runs.of_exec rfl) fun _ he ↦ solo_of_mem_trace he⟩

/-- Client 0 is in a run started by `RunThreadHere`, client 2 has called `EndThread`, and
client 1 has found no thread handle and is about to clear the exit flag. -/
def lostStopSchedule : List (Tid × Choice) :=
  List.replicate 5 (0, ⟨.start .runThreadHere, false, 0, 0⟩) ++
    List.replicate 2 (2, ⟨.endThread, false, 0, 0⟩) ++
    List.replicate 2 (1, ⟨.start .runThreadHere, false, 0, 0⟩)

/-- A second start withdraws the stop request of an active run. -/
theorem start_request_disturbs :
    ¬∀ tr s, Runs step Sys.initial tr s →
      ∀ e ∈ tr, Undisturbed e.source e.label.1 e.target := by
  intro hall
  have hfacts : (exec step Sys.initial lostStopSchedule).map
      (fun s ↦ (s.pc 0, s.pc 1, s.shared.bExit)) =
      some (.loop 0 false 0 0 .isDone, .prepareExit .runThreadHere, true) := by decide
  obtain ⟨s, hs, hf⟩ := Option.map_eq_some_iff.mp hfacts
  simp only [Prod.mk.injEq] at hf
  obtain ⟨h0, h1, hexit⟩ := hf
  have hstep : step s (1, ⟨.start .runThreadHere, false, 0, 0⟩) =
      some ⟨{ s.shared with bExit := false },
        Function.update s.pc 1 (.prepareState .runThreadHere)⟩ := by
    simp only [step, h1, localStep, Option.map_some]
  have hact : s.Active 0 0 := by rw [Sys.Active, h0]; rfl
  have hu := hall _ _ ((Runs.of_exec hs).snoc hstep) _ (List.mem_append_right _ List.mem_cons_self)
  cases hu.exit_kept 0 0 hact hexit

end HeartbeatSpec.Thread
