import HeartbeatSpec.Thread.StartRequest

/-!
# Waiting for the end of a run

Library `Thread`. `WaitUntilExit` waits for the semaphore only if it finds a thread handle
(`legacy_compatible/legacy_support.cpp:318–327`). `CreateThread` stores one, `RunThreadHere`
does not. A call therefore waits for the runs that were there when it began exactly as long
as the handle is set whenever it is tested beside such a run.
-/

namespace HeartbeatSpec.Thread
open HeartbeatSpec.Base

/-- If a call of `WaitUntilExit` returns in a step of party `t` from `s` to `s'`, no run is
left of those that had passed the wait when the call began. -/
def ReturnsAfterRuns (s : Sys) (t : Tid) (s' : Sys) : Prop :=
  ∀ bound, s.pc t = .waitTest bound ∨ s.pc t = .waitPost bound → s'.pc t = .idle →
    ∀ u run, s'.Active u run → bound ≤ run

/-- If a call of `WaitUntilExit` tests the handle while one of those runs is active, the
handle is set. -/
def HandleSet (s : Sys) (t : Tid) : Prop :=
  ∀ bound, s.pc t = .waitTest bound → ∀ u run, s.Active u run → run < bound →
    s.shared.ciThreadHandle ≠ 0

/-- The step ends the run: it is the `NotifyExit` of the run, or the creation of its worker
fails before the first callback. -/
def Ends (s : Sys) (l : Tid × Choice) (run : Nat) : Prop :=
  (∃ worker inits exits, s.pc l.1 = .notifyExit run worker inits exits) ∨
    (s.pc l.1 = .create run ∧ l.2.result = false)

/-- Some party goes on with a run, unless the step ends it. -/
theorem active_step {s s' : Sys} {l : Tid × Choice} (h : step s l = some s') {u : Tid}
    {run : Nat} (hu : s.Active u run) : (∃ v, s'.Active v run) ∨ Ends s l run := by
  obtain ⟨t, ch⟩ := l
  rcases step_cases h with ⟨sh, p, hl, rfl⟩ | ⟨r, ht, -, hidle, -, rfl⟩
  · by_cases hut : u = t
    · subst hut
      have hrun := hu
      cases hp : s.pc u with
      | create r =>
        rw [Sys.Active, hp] at hrun
        cases hrun
        simp only [hp, localStep] at hl
        split at hl
        · cases hl
        · next hr => exact Or.inr (Or.inr ⟨hp, by simpa using hr⟩)
      | loop r worker inits exits pc =>
        rw [Sys.Active, hp] at hrun
        cases hrun
        rw [hp] at hl
        cases hl
        refine Or.inl ⟨u, ?_⟩
        rw [Sys.Active]
        simp only [Function.update_self]
        exact run?_afterLoop _ _ _ _ _
      | notifyExit r worker inits exits =>
        rw [Sys.Active, hp] at hrun
        cases hrun
        exact Or.inr (Or.inl ⟨worker, inits, exits, hp⟩)
      | _ =>
        rw [Sys.Active, hp] at hrun
        cases hrun
    · exact Or.inl ⟨u, hu.update_of_ne hut _ _⟩
  · by_cases hut : u = t
    · subst hut
      rw [Sys.Active, ht] at hu
      cases hu
      refine Or.inl ⟨ch.worker, ?_⟩
      rw [Sys.Active, spawn]
      simp only [Function.update_self]
      rfl
    · by_cases huw : u = ch.worker
      · rw [huw, Sys.Active, hidle] at hu
        cases hu
      · refine Or.inl ⟨u, ?_⟩
        unfold Sys.Active spawn
        simp only [Function.update_of_ne huw, Function.update_of_ne hut]
        exact hu

private theorem loopStep_runs (result : Bool) (sh : Shared) (pc : LoopPc) :
    (loopStep result sh pc).1.runs = sh.runs := by
  cases pc <;> rfl

private theorem run?_runEntry (k : Start) (run : Nat) : (runEntry k run).run? = some run := by
  cases k <;> rfl

/-- Only passing the wait counts a run, and the party that passes it is in that run. -/
theorem localStep_runs {ch : Choice} {sh sh' : Shared} {p p' : Pc}
    (h : localStep ch sh p = some (sh', p')) :
    sh'.runs = sh.runs ∨ sh'.runs = sh.runs + 1 ∧ p'.run? = some sh.runs := by
  cases p with
  | prepareWait k =>
    simp only [localStep] at h
    split at h
    · cases h
      exact Or.inr ⟨rfl, run?_runEntry k _⟩
    · cases h
  | loop run worker inits exits pc =>
    cases h
    exact Or.inl (loopStep_runs _ _ _)
  | idle =>
    simp only [localStep] at h
    split at h <;> cases h <;> exact Or.inl rfl
  | create run =>
    simp only [localStep] at h
    split at h
    · cases h
    · cases h
      exact Or.inl rfl
  | createStore run =>
    simp only [localStep] at h
    split at h
    · cases h
      exact Or.inl rfl
    · cases h
  | waitWait bound =>
    simp only [localStep] at h
    split at h
    · cases h
      exact Or.inl rfl
    · cases h
  | _ =>
    cases h
    exact Or.inl rfl

/-- A run that has passed the wait and that no party is in any more has ended. -/
theorem ended_of_not_active {tr : List (Transition Sys (Tid × Choice))} {s : Sys}
    (h : Runs step Sys.initial tr s) {run : Nat} (hrun : run < s.shared.runs)
    (hleft : ∀ u, ¬s.Active u run) : ∃ e ∈ tr, Ends e.source e.label run := by
  induction h with
  | nil => exact absurd hrun (Nat.not_lt_zero run)
  | @snoc t s l tr _ hstep ih =>
    have hpassed : run < t.shared.runs := by
      obtain ⟨u, ch⟩ := l
      rcases step_cases hstep with ⟨sh, p, hl, rfl⟩ | ⟨r, -, -, -, -, rfl⟩
      · rcases localStep_runs hl with heq | ⟨heq, hp⟩
        · exact heq ▸ hrun
        · -- A run that this step starts would be active.
          have hne : run ≠ t.shared.runs := by
            rintro rfl
            apply hleft u
            rw [Sys.Active]
            simp only [Function.update_self]
            exact hp
          change run < sh.runs at hrun
          omega
      · exact hrun
    by_cases hbefore : ∃ u, t.Active u run
    · obtain ⟨u, hu⟩ := hbefore
      rcases active_step hstep hu with ⟨v, hv⟩ | hends
      · exact absurd hv (hleft v)
      · exact ⟨_, List.mem_append_right _ List.mem_cons_self, hends⟩
    · obtain ⟨e, he, hends⟩ := ih hpassed fun u hu ↦ hbefore ⟨u, hu⟩
      exact ⟨e, List.mem_append_left _ he, hends⟩

/-- Under mutual exclusion a step of `WaitUntilExit` returns after the runs exactly when the
handle is set if tested beside one of them. -/
theorem returnsAfterRuns_iff {s s' : Sys} {l : Tid × Choice} (hx : Exclusive s)
    (h : step s l = some s') : ReturnsAfterRuns s l.1 s' ↔ HandleSet s l.1 := by
  obtain ⟨t, ch⟩ := l
  constructor
  · intro hp bound ht u run hu hlt hzero
    rcases step_cases h with ⟨sh, p, hl, rfl⟩ | ⟨r, ht', -⟩
    · simp only [ht, localStep, hzero, ne_eq, not_true_eq_false, if_false, Option.some.injEq,
        Prod.mk.injEq] at hl
      obtain ⟨rfl, rfl⟩ := hl
      have hut : u ≠ t := by
        rintro rfl
        rw [Sys.Active, ht] at hu
        cases hu
      have hle := hp bound (Or.inl ht) (Function.update_self _ _ _) u run
        (hu.update_of_ne hut _ _)
      omega
    · rw [ht] at ht'
      cases ht'
  · intro hc bound ht hidle u run hu
    rcases step_cases h with ⟨sh, p, hl, rfl⟩ | ⟨r, ht', -⟩
    · have hpidle : p = .idle := by
        simp only [Function.update_self] at hidle
        exact hidle
      subst hpidle
      have hus := hu.of_update rfl
      rcases ht with ht | ht
      · by_contra hlt
        have hset := hc bound ht u run hus (by omega)
        simp only [ht, localStep, if_pos hset] at hl
        cases hl
      · -- The waiter holds the token, so no run is active at all.
        have hut := hx.unique (Pc.holds_of_run? hus) (by rw [ht]; rfl)
        rw [hut, Sys.Active, ht] at hus
        cases hus
    · rcases ht with ht | ht
      · rw [ht] at ht'
        cases ht'
      · rw [ht] at ht'
        cases ht'

/-- In every interleaving, the calls of `WaitUntilExit` all return after the runs they were
to wait for exactly when each of them that tests the handle beside such a run finds it set. -/
theorem wait_until_exit_law {tr : List (Transition Sys (Tid × Choice))} {s : Sys}
    (h : Runs step Sys.initial tr s) :
    (∀ e ∈ tr, ReturnsAfterRuns e.source e.label.1 e.target) ↔
      ∀ e ∈ tr, HandleSet e.source e.label.1 :=
  h.forall_iff (I := Exclusive) (C := fun s l _ ↦ HandleSet s l.1)
    (P := fun s l s' ↦ ReturnsAfterRuns s l.1 s')
    (fun _ _ _ hx hst ↦ exclusive_step hx hst) (fun _ _ _ hx hst ↦ returnsAfterRuns_iff hx hst)
    exclusive_initial

/-- Client 0 calls `CreateThread`, client 1 `WaitUntilExit`, client 0 `EndThread`; worker 2
makes its callbacks and ends, and client 1 returns. -/
def waitedSchedule : List (Tid × Choice) :=
  List.replicate 7 (0, ⟨.start .createThread, true, 7, 2⟩) ++
    List.replicate 2 (1, ⟨.waitUntilExit, true, 0, 0⟩) ++
    List.replicate 2 (0, ⟨.endThread, true, 0, 0⟩) ++
    List.replicate 14 (2, ⟨.endThread, true, 0, 0⟩) ++
    List.replicate 3 (1, ⟨.waitUntilExit, true, 0, 0⟩)

/-- The law at a worker that is waited for. -/
theorem wait_until_exit_law_waited :
    (exec step Sys.initial waitedSchedule).map (fun s ↦ (s.pc 0, s.pc 1, s.pc 2, s.shared)) =
        some (.idle, .idle, .idle, ⟨true, .done, 0, 1, 1⟩) ∧
      ((∀ e ∈ trace step Sys.initial waitedSchedule,
          ReturnsAfterRuns e.source e.label.1 e.target) ↔
        ∀ e ∈ trace step Sys.initial waitedSchedule, HandleSet e.source e.label.1) :=
  ⟨by decide, wait_until_exit_law (Runs.of_exec rfl)⟩

/-- Client 0 is in a run started by `RunThreadHere`, and client 1 has called
`WaitUntilExit`. -/
def unwaitedSchedule : List (Tid × Choice) :=
  List.replicate 5 (0, ⟨.start .runThreadHere, true, 0, 0⟩) ++
    [(1, ⟨.waitUntilExit, true, 0, 0⟩)]

/-- `WaitUntilExit` returns beside a run started by `RunThreadHere`. -/
theorem wait_until_exit_returns_early :
    ¬∀ tr s, Runs step Sys.initial tr s →
      ∀ e ∈ tr, ReturnsAfterRuns e.source e.label.1 e.target := by
  intro hall
  have hfacts : (exec step Sys.initial unwaitedSchedule).map
      (fun s ↦ (s.pc 0, s.pc 1, s.shared.ciThreadHandle)) =
      some (.loop 0 false 0 0 .isDone, .waitTest 1, 0) := by decide
  obtain ⟨s, hs, hf⟩ := Option.map_eq_some_iff.mp hfacts
  simp only [Prod.mk.injEq] at hf
  obtain ⟨h0, h1, hhandle⟩ := hf
  have hstep : step s (1, ⟨.waitUntilExit, true, 0, 0⟩) =
      some ⟨s.shared, Function.update s.pc 1 .idle⟩ := by
    simp only [step, h1, localStep, hhandle, ne_eq, not_true_eq_false, if_false, Option.map_some]
  have hact : Sys.Active ⟨s.shared, Function.update s.pc 1 .idle⟩ 0 0 := by
    apply Sys.Active.update_of_ne
    · rw [Sys.Active, h0]
      rfl
    · decide
  have hret := hall _ _ ((Runs.of_exec hs).snoc hstep) _
    (List.mem_append_right _ List.mem_cons_self)
  have hle := hret 1 (Or.inl h1) (by simp) 0 0 hact
  omega

/-! ### Workers -/

/-- The run that a worker drives. -/
def Pc.worker? : Pc → Option Nat
  | .loop run true _ _ _ | .notifyExit run true _ _ => some run
  | _ => none

/-- While a worker drives a run, the handle is set or the creator has yet to store it. -/
def WorkersStored (s : Sys) : Prop :=
  ∀ t run, (s.pc t).worker? = some run →
    s.shared.ciThreadHandle ≠ 0 ∨ ∃ u, s.pc u = .createStore run

/-- A worker's run is a run. -/
theorem Pc.run?_of_worker? {p : Pc} {run : Nat} (h : p.worker? = some run) :
    p.run? = some run := by
  unfold Pc.worker? at h
  split at h
  · exact h
  · exact h
  · cases h

private theorem worker?_afterLoop {run : Nat} {worker : Bool} {inits exits r : Nat}
    {o : Option LoopPc} {pc : LoopPc} (h : (afterLoop run worker inits exits o).worker? = some r)
    (i e : Nat) : (Pc.loop run worker i e pc).worker? = some r := by
  cases o <;> cases worker <;> exact h

private theorem loopStep_ciThreadHandle (result : Bool) (sh : Shared) (pc : LoopPc) :
    (loopStep result sh pc).1.ciThreadHandle = sh.ciThreadHandle := by
  cases pc <;> rfl

/-- Only a holder of the token clears the handle, a creator that stores it sets it, and a
party's own step makes nobody a worker. -/
theorem localStep_handle {ch : Choice} {sh sh' : Shared} {p p' : Pc}
    (h : localStep ch sh p = some (sh', p')) :
    sh'.ciThreadHandle ≠ 0 ∨
    ((∀ r, p ≠ .createStore r) ∧
      (sh'.ciThreadHandle = sh.ciThreadHandle ∨ p.holds = true ∧ p'.worker? = none) ∧
      ∀ r, p'.worker? = some r → p.worker? = some r) := by
  cases p with
  | createStore run =>
    simp only [localStep] at h
    split at h
    · next hset =>
      cases h
      exact Or.inl hset
    · cases h
  | create run =>
    simp only [localStep] at h
    split at h
    · cases h
    · cases h
      exact Or.inr ⟨by simp, Or.inr ⟨rfl, rfl⟩, fun r hr ↦ by cases hr⟩
  | failHandle =>
    cases h
    exact Or.inr ⟨by simp, Or.inr ⟨rfl, rfl⟩, fun r hr ↦ by cases hr⟩
  | waitClear bound =>
    cases h
    exact Or.inr ⟨by simp, Or.inr ⟨rfl, rfl⟩, fun r hr ↦ by cases hr⟩
  | loop run worker inits exits pc =>
    cases h
    exact Or.inr ⟨by simp, Or.inl (loopStep_ciThreadHandle _ _ _),
      fun r hr ↦ worker?_afterLoop hr _ _⟩
  | prepareWait k =>
    simp only [localStep] at h
    split at h
    · cases h
      exact Or.inr ⟨by simp, Or.inl rfl, fun r hr ↦ by cases k <;> cases hr⟩
    · cases h
  | idle =>
    simp only [localStep] at h
    split at h <;> cases h <;> exact Or.inr ⟨by simp, Or.inl rfl, fun r hr ↦ by cases hr⟩
  | startGuard k =>
    simp only [localStep] at h
    split at h <;> cases h <;> exact Or.inr ⟨by simp, Or.inl rfl, fun r hr ↦ by cases hr⟩
  | waitTest bound =>
    simp only [localStep] at h
    split at h <;> cases h <;> exact Or.inr ⟨by simp, Or.inl rfl, fun r hr ↦ by cases hr⟩
  | waitWait bound =>
    simp only [localStep] at h
    split at h
    · cases h
      exact Or.inr ⟨by simp, Or.inl rfl, fun r hr ↦ by cases hr⟩
    · cases h
  | _ =>
    cases h
    exact Or.inr ⟨by simp, Or.inl rfl, fun r hr ↦ by cases hr⟩

/-- Every step keeps the handle of a worker. -/
theorem workersStored_step {s s' : Sys} {l : Tid × Choice} (hx : Exclusive s)
    (hw : WorkersStored s) (h : step s l = some s') : WorkersStored s' := by
  obtain ⟨t, ch⟩ := l
  intro v run hv
  rcases step_cases h with ⟨sh, p, hl, rfl⟩ | ⟨r, ht, -, hidle, htw, rfl⟩
  · rcases localStep_handle hl with hset | ⟨hnostore, hkeep, hback⟩
    · exact Or.inl hset
    · -- The worker was one before, so nobody else holds the token.
      have hv' : (s.pc v).worker? = some run := by
        by_cases hvt : v = t
        · rw [hvt] at hv ⊢
          simp only [Function.update_self] at hv
          exact hback run hv
        · simpa only [Function.update_of_ne hvt] using hv
      have heq : sh.ciThreadHandle = s.shared.ciThreadHandle := by
        rcases hkeep with heq | ⟨hholds, hnone⟩
        · exact heq
        · have hvt := hx.unique (Pc.holds_of_run? (Pc.run?_of_worker? hv')) hholds
          rw [hvt] at hv
          simp only [Function.update_self, hnone] at hv
          cases hv
      rcases hw v run hv' with hset | ⟨u, hu⟩
      · exact Or.inl fun hz ↦ hset (heq ▸ hz)
      · have hut : u ≠ t := by
          rintro rfl
          exact hnostore run hu
        exact Or.inr ⟨u, (Function.update_of_ne hut p s.pc).trans hu⟩
  · simp only [spawn] at hv ⊢
    by_cases hvw : v = ch.worker
    · rw [hvw, Function.update_self] at hv
      cases hv
      exact Or.inr ⟨t, by rw [Function.update_of_ne htw, Function.update_self]⟩
    · rw [Function.update_of_ne hvw] at hv
      by_cases hvt : v = t
      · rw [hvt, Function.update_self] at hv
        cases hv
      · rw [Function.update_of_ne hvt] at hv
        exact absurd (hx.unique (Pc.holds_of_run? (Pc.run?_of_worker? hv)) (by rw [ht]; rfl)) hvt

/-- In every state that can be reached, a run of a worker whose creator has stored the
thread id is one that `WaitUntilExit` finds. -/
theorem handle_of_worker {tr : List (Transition Sys (Tid × Choice))} {s : Sys}
    (h : Runs step Sys.initial tr s) {t : Tid} {run : Nat}
    (hw : (s.pc t).worker? = some run) (hstored : ∀ u, s.pc u ≠ .createStore run) :
    s.shared.ciThreadHandle ≠ 0 := by
  have hinv := h.invariant (I := fun s ↦ Exclusive s ∧ WorkersStored s)
    (fun _ _ _ hI hst ↦ ⟨exclusive_step hI.1 hst, workersStored_step hI.1 hI.2 hst⟩)
    ⟨exclusive_initial, fun t run ht ↦ by cases ht⟩
  rcases hinv.1.2 t run hw with hset | ⟨u, hu⟩
  · exact hset
  · exact absurd hu (hstored u)

end HeartbeatSpec.Thread
