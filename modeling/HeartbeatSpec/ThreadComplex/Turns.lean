import HeartbeatSpec.ThreadComplex.Attached

/-!
# Turns of a thread complex

Library `ThreadComplex`. One call of `ThreadProc` of a complex is a round of its threads, or ends
them all if its exit flag has been set,
`examples/Externals/CiUtils/Src/CiThreadComplex.cpp:50–106`. So over a whole run each thread gets
its turns in the order of the list, and none is left at the end.
-/

namespace HeartbeatSpec.ThreadComplex
open HeartbeatSpec.Base HeartbeatSpec.Thread

variable {ι ω : Type} [DecidableEq ι] [DecidableEq ω] {A : Address ω} {sc : ω → Script}
  {l : ComplexTurn ι ω} {w w' : CiThreadComplex ι ω}

/-! ### One turn -/

/-- No call of other threads adds a null pointer. -/
def ComplexTurn.Allowed (l : ComplexTurn ι ω) : Prop :=
  ∀ call ∈ l.before ++ l.inside, call.Allowed

/-- The exit flag is set when it is tested. -/
def Ends (w : CiThreadComplex ι ω) (l : ComplexTurn ι ω) : Prop :=
  w.bExit = true ∨ .endThread ∈ l.before

/-- Nobody puts the thread into another state. -/
def ComplexTurn.LeavesAlone (l : ComplexTurn ι ω) (x : ω) : Prop :=
  ∀ st, .setState x st ∉ l.before ++ l.inside

/-- What a turn leaves. -/
structure Turned (l : ComplexTurn ι ω) (w w' : CiThreadComplex ι ω) : Prop where
  attached : w'.attached = (l.before ++ l.inside).foldl OtherCall.attach w.attached
  bExit : w'.bExit = true ↔ w.bExit = true ∨ .endThread ∈ l.before ++ l.inside
  ends : Ends w l → w'.state = .done ∧ w'.procs = w.procs ∧
    ∀ x ∈ w'.attached, (w'.threads x).state.isThreadDone = true
  goesOn : ¬Ends w l → w'.state = .doneInitInstance ∧ w'.procs = w.procs ++ w'.active
  lifecycles : ∀ x, l.LeavesAlone x → (w.threads x).Inv → (w'.threads x).Inv

omit [DecidableEq ι] in
theorem Turned.procs (h : Turned l w w') :
    w'.procs = w.procs ++ if w'.state = .done then [] else w'.active := by
  by_cases hends : Ends w l
  · obtain ⟨hdone, hsame, -⟩ := h.ends hends
    rw [if_pos hdone, hsame, List.append_nil]
  · obtain ⟨hgoes, hround⟩ := h.goesOn hends
    rw [if_neg (by rw [hgoes]; decide), hround]

/-- `Run` is a round. -/
theorem contract_run (h : Orderly w) (hinside : ∀ call ∈ l.inside, call.Allowed) :
    Contract (fun u ↦ u = w) (threadClass A sc l).run
      (fun ret u ↦ ret = true ∧ ∃ v, Orderly v ∧ Amended l.inside w v ∧ Served sc v.attached v u)
      fun f _ ↦ f = .badAlloc := by
  show Contract _ (do others A l.inside; traverse (runThread sc); pure true) _ _
  refine (contract_others h hinside).bind fun _ ↦ ?_
  rintro v ⟨hv, hamended⟩
  rw [EStateM.run_bind, run_traverse hv.toListed (run_runThread sc) fun x u ↦ ?_]
  · exact ⟨rfl, v, hv, hamended, served_foldl sc hv.nodup v⟩
  · rw [serve]
    split <;> rfl

/-- `ExitInstance` ends the threads. -/
theorem contract_exitInstance (h : Orderly w) (hinside : ∀ call ∈ l.inside, call.Allowed) :
    Contract (fun u ↦ u = w) (threadClass A sc l).exitInstance
      (fun _ u ↦ ∃ v, Orderly v ∧ Amended l.inside w v ∧ Finished sc v.attached v u)
      fun f _ ↦ f = .badAlloc := by
  show Contract _ (do others A l.inside; traverse (exitThread sc); pure true) _ _
  refine (contract_others h hinside).bind fun _ ↦ ?_
  rintro v ⟨hv, hamended⟩
  rw [EStateM.run_bind, run_traverse hv.toListed (run_exitThread sc) fun x u ↦ rfl]
  exact ⟨v, hv, hamended, finished_foldl sc hv.nodup v⟩

omit [DecidableEq ι] [DecidableEq ω] in
theorem attached_of_ciThreads (h : w'.ciThreads = w.ciThreads) : w'.attached = w.attached := by
  rw [CiThreadComplex.attached, h]
  rfl

omit [DecidableEq ι] [DecidableEq ω] in
theorem Orderly.of_ciThreads (h : Orderly w) (hsame : w'.ciThreads = w.ciThreads) :
    Orderly w' := by
  refine ⟨⟨?_, ?_⟩, ?_⟩
  · rw [hsame]
    exact h.inOrder
  · rw [hsame]
    exact h.some
  · rw [attached_of_ciThreads hsame]
    exact h.nodup

/-- From the label `DONE_INITINSTANCE` on. -/
theorem contract_procDoneInitInstance (h : Orderly w) (hstate : w.state = .doneInitInstance)
    (hinside : ∀ call ∈ l.inside, call.Allowed) :
    Contract (fun u ↦ u = w) (threadClass A sc l).procDoneInitInstance
      (fun _ t ↦ ∃ v, Orderly v ∧ if w.bExit = true then
          Amended l.inside { w with state := .doneRun } v ∧
            ∃ u, Finished sc v.attached v u ∧ t = { u with state := .done }
        else Amended l.inside w v ∧ Served sc v.attached v t)
      fun f _ ↦ f = .badAlloc := by
  rintro u rfl
  have htest : (threadClass A sc l).procDoneInitInstance.run u =
      (if !u.bExit then do
        if (← (threadClass A sc l).run) != true then
          modify ((threadClass A sc l).setState .error)
      else do
        modify ((threadClass A sc l).setState .doneRun)
        (threadClass A sc l).procDoneRun).run u := rfl
  rw [htest]
  by_cases hexit : u.bExit = true
  · rw [if_neg (by simp [hexit])]
    have hset : Orderly { u with state := .doneRun } := h.of_ciThreads rfl
    refine ((contract_exitInstance hset hinside).bind fun ret ↦ ?_) { u with state := .doneRun } rfl
    rintro t ⟨v, hv, hamended, hfinished⟩
    have hdone : t.state = .doneRun := hfinished.state.trans hamended.state
    have hends : (do
        if (threadClass A sc l).state (← get) == .doneRun then
          modify ((threadClass A sc l).setState .doneExitInstance)
        else
          modify ((threadClass A sc l).setState .doneExitInstanceError)
        (threadClass A sc l).procDoneExitInstance : Call ι ω Unit).run t =
        .ok () { t with state := .done } := by
      simp [CiThread2Class.procDoneExitInstance, threadClass, hdone]
    rw [hends]
    refine ⟨v, hv, ?_⟩
    rw [if_pos hexit]
    exact ⟨hamended, t, hfinished, rfl⟩
  · rw [if_pos (by simp [hexit])]
    refine ((contract_run h hinside).bind fun ret ↦ ?_) u rfl
    rintro t ⟨rfl, v, hv, hamended, hserved⟩
    refine ⟨v, hv, ?_⟩
    rw [if_neg hexit]
    exact ⟨hamended, hserved⟩

omit [DecidableEq ι] in
/-- Calls do not depend on the state of the complex itself. -/
theorem Amended.withState {calls : List (OtherCall ι ω)} (h : Amended calls w w')
    (st : CiThread2State) : Amended calls { w with state := st } { w' with state := st } :=
  ⟨h.attached, h.bExit, rfl, h.procs, h.threads⟩

omit [DecidableEq ι] in
theorem turned_of_served {v t : CiThreadComplex ι ω} (hends : ¬Ends w l)
    (h : Amended (l.before ++ l.inside) { w with state := .doneInitInstance } v)
    (hserved : Served sc v.attached v t) : Turned l w t where
  attached := (attached_of_ciThreads hserved.ciThreads).trans h.attached
  bExit := by rw [hserved.bExit, h.bExit]
  ends hexit := absurd hexit hends
  goesOn _ := by
    refine ⟨hserved.state.trans h.state, ?_⟩
    rw [hserved.procs, h.procs, CiThreadComplex.active, attached_of_ciThreads hserved.ciThreads]
  lifecycles x hx hinv := by
    rw [hserved.threads, h.threads x hx]
    split
    · exact inv_afterTurn (sc x) hinv
    · exact hinv

omit [DecidableEq ι] in
theorem turned_of_finished {v t : CiThreadComplex ι ω} (hends : Ends w l)
    (h : Amended (l.before ++ l.inside) { w with state := .doneRun } v)
    (hfinished : Finished sc v.attached v t) : Turned l w { t with state := .done } := by
  have hattached : t.attached = v.attached := attached_of_ciThreads hfinished.ciThreads
  refine ⟨hattached.trans h.attached, ?_, fun _ ↦ ⟨rfl, ?_, fun x hx ↦ ?_⟩,
    fun hnot ↦ absurd hends hnot, fun x hx hinv ↦ ?_⟩
  · show t.bExit = true ↔ _
    rw [hfinished.bExit, h.bExit]
  · exact hfinished.procs.trans h.procs
  · have hin : x ∈ v.attached := by
      rw [← hattached]
      exact hx
    show (t.threads x).state.isThreadDone = true
    rw [hfinished.threads, if_pos hin]
    exact (run_afterEnd _ _).2
  · show (t.threads x).Inv
    rw [hfinished.threads, h.threads x hx]
    split
    · exact inv_afterEnd (sc x) hinv
    · exact hinv

/-- One turn. -/
theorem contract_turn (h : Orderly w) (hstate : w.state = .ready ∨ w.state = .doneInitInstance)
    (hl : l.Allowed) :
    Contract (fun u ↦ u = w) (threadClass A sc l).turn (fun _ t ↦ Orderly t ∧ Turned l w t)
      fun f _ ↦ f = .badAlloc := by
  have hbefore : ∀ call ∈ l.before, call.Allowed :=
    fun call hc ↦ hl call (List.mem_append_left _ hc)
  have hinside : ∀ call ∈ l.inside, call.Allowed :=
    fun call hc ↦ hl call (List.mem_append_right _ hc)
  refine (contract_others h hbefore).bind fun _ ↦ ?_
  rintro u ⟨hu, hamended⟩
  -- From either state the turn comes to the label `DONE_INITINSTANCE`.
  have hproc : (threadClass A sc l).threadProc.run u =
      (threadClass A sc l).procDoneInitInstance.run { u with state := .doneInitInstance } := by
    have hsame : u.state = w.state := hamended.state
    rcases hstate with hstate | hstate
    · simp [CiThread2Class.threadProc, CiThread2Class.procReady, threadClass, hsame, hstate]
    · have heta : { u with state := .doneInitInstance } = u := by
        rw [← hstate, ← hsame]
      rw [heta]
      simp [CiThread2Class.threadProc, threadClass, hsame, hstate]
  have hset : Orderly { u with state := .doneInitInstance } := hu.of_ciThreads rfl
  have hexit : u.bExit = true ↔ Ends w l := hamended.bExit
  rw [hproc]
  refine ((contract_procDoneInitInstance hset rfl hinside).mono (fun _ ht ↦ ht) ?_
    fun _ _ hf ↦ hf) _ rfl
  rintro ⟨⟩ t ⟨v, hv, hturn⟩
  split at hturn
  · next hends =>
    obtain ⟨hinner, t, hfinished, rfl⟩ := hturn
    exact ⟨hv.of_ciThreads hfinished.ciThreads, turned_of_finished (hexit.mp hends)
      ((hamended.withState .doneRun).append hinner) hfinished⟩
  · next hends =>
    obtain ⟨hinner, hserved⟩ := hturn
    exact ⟨hv.of_ciThreads hserved.ciThreads, turned_of_served (fun he ↦ hends (hexit.mpr he))
      ((hamended.withState .doneInitInstance).append hinner) hserved⟩

/-! ### Runs -/

/-- The calls of other threads in a run. -/
def calls (tr : List (Transition (CiThreadComplex ι ω) (ComplexTurn ι ω))) :
    List (OtherCall ι ω) :=
  tr.flatMap fun x ↦ x.label.before ++ x.label.inside

omit [DecidableEq ι] [DecidableEq ω] in
theorem calls_snoc (tr : List (Transition (CiThreadComplex ι ω) (ComplexTurn ι ω)))
    (x : Transition (CiThreadComplex ι ω) (ComplexTurn ι ω)) :
    calls (tr ++ [x]) = calls tr ++ (x.label.before ++ x.label.inside) := by
  rw [calls, List.flatMap_append, List.flatMap_singleton]
  rfl

/-- The list of a complex is in order, and its thread has not got further than `Run` or has
ended. -/
structure Going (w : CiThreadComplex ι ω) : Prop extends Orderly w where
  state : w.state = .ready ∨ w.state = .doneInitInstance ∨ w.state = .done

omit [DecidableEq ι] [DecidableEq ω] in
theorem Going.running (h : Going w) (hnot : w.state ≠ .done) :
    w.state = .ready ∨ w.state = .doneInitInstance := by
  rcases h.state with hstate | hstate | hstate
  · exact Or.inl hstate
  · exact Or.inr hstate
  · exact absurd hstate hnot

omit [DecidableEq ι] [DecidableEq ω] in
theorem going_prepared (cacheSize : Int) : Going (.prepared cacheSize : CiThreadComplex ι ω) := by
  refine ⟨⟨⟨CiUtils.inOrder_new fun _ ↦ cacheSize, ?_⟩, List.nodup_nil⟩, Or.inl rfl⟩
  rintro e ⟨⟩

/-- What a step is. -/
theorem turned_of_step (h : Going w) (hl : l.Allowed) (hstep : complexStep A sc w l = some w') :
    w.state ≠ .done ∧ Going w' ∧ Turned l w w' := by
  rw [complexStep] at hstep
  split at hstep
  · cases hstep
  · next hdone =>
    have hnot : w.state ≠ .done := by
      rintro heq
      rw [heq] at hdone
      exact hdone rfl
    split at hstep
    · next hrun =>
      have hturn := (contract_turn h.toOrderly (h.running hnot) hl).of_ok rfl hrun
      obtain rfl := Option.some.inj hstep
      refine ⟨hnot, ⟨hturn.1, ?_⟩, hturn.2⟩
      by_cases hends : Ends w l
      · exact Or.inr (Or.inr (hturn.2.ends hends).1)
      · exact Or.inr (Or.inl (hturn.2.goesOn hends).1)
    · cases hstep

/-- Every transition of a run is a turn. -/
theorem turned_run {cacheSize : Int}
    {tr : List (Transition (CiThreadComplex ι ω) (ComplexTurn ι ω))}
    (h : Runs (complexStep A sc) (.prepared cacheSize) tr w)
    (hallowed : ∀ x ∈ tr, x.label.Allowed) :
    Going w ∧ ∀ x ∈ tr, x.source.state ≠ .done ∧ Turned x.label x.source x.target :=
  h.rule (I := Going) (C := fun _ l _ ↦ l.Allowed)
    (P := fun w l w' ↦ w.state ≠ .done ∧ Turned l w w')
    (fun _ _ _ hw hstep hl ↦ by
      obtain ⟨hnot, hgoing, hturned⟩ := turned_of_step hw hl hstep
      exact ⟨hgoing, hnot, hturned⟩) (going_prepared cacheSize) hallowed

omit [DecidableEq ι] [DecidableEq ω] in
/-- The count of the threads that are not inactive. -/
theorem run_countFrom {before : Option ι} {es : List (Entry ι (Option ω))}
    (h : Linked w.ciThreads.linkItems before none es) (hsome : ∀ e ∈ es, e.2 ≠ none)
    {turns : Nat} (hturns : es.length ≤ turns) (n : Int) :
    (countFrom turns (firstOr none es) (firstOr none es.tail) n).run w =
      .ok (n + ((objects es).filter fun x ↦ (w.threads x).state ≠ .inactive).length) w := by
  induction es generalizing before turns n with
  | nil => cases turns <;> exact congrArg (EStateM.Result.ok · w) (Int.add_zero n).symm
  | cons e es ih =>
    cases turns with
    | zero => cases hturns
    | succ turns =>
      obtain ⟨p, item⟩ := e
      cases item with
      | none => exact absurd rfl (hsome _ List.mem_cons_self)
      | some x =>
        have hrest := ih h.2 (fun e he ↦ hsome e (List.mem_cons_of_mem _ he))
          (Nat.le_of_succ_le_succ hturns)
        rw [firstOr, countFrom, EStateM.run_bind, run_getCurrentItem h]
        dsimp only
        rw [EStateM.run_bind, EStateM.run_get]
        dsimp only
        rw [List.tail_cons, EStateM.run_bind, run_gotoNextPosition h.2]
        dsimp only
        rw [hrest, objects_cons, List.filter_cons]
        by_cases hactive : (w.threads x).state = .inactive
        · simp [hactive]
        · simp [hactive]
          omega

omit [DecidableEq ι] [DecidableEq ω] in
theorem run_getRawNRunningThreads (h : Listed w) :
    getRawNRunningThreads.run w = .ok (w.active.length : Int) w := by
  obtain ⟨es, hlinked, hsome, hhead, hturns, hattached⟩ := h.chain
  rw [getRawNRunningThreads, EStateM.run_bind, EStateM.run_get]
  dsimp only
  rw [hhead, EStateM.run_bind, run_gotoNextPosition hlinked, CiThreadComplex.active, hattached]
  dsimp only
  rw [run_countFrom hlinked hsome hturns, Int.zero_add]

/-- In every run, whatever threads are added and deleted meanwhile, the list holds the threads that
the calls say, none of them twice. `ThreadProc` has been called once in each round of each thread in
the list that is not inactive, in the order of the list, and of no other thread. -/
theorem rounds_served {cacheSize : Int}
    {tr : List (Transition (CiThreadComplex ι ω) (ComplexTurn ι ω))}
    (h : Runs (complexStep A sc) (.prepared cacheSize) tr w)
    (hallowed : ∀ x ∈ tr, x.label.Allowed) :
    w.attached = (calls tr).foldl OtherCall.attach [] ∧ w.attached.Nodup ∧
      w.procs = tr.flatMap (fun x ↦ if x.target.state = .done then [] else x.target.active) ∧
      getRawNRunningThreads.run w = .ok (w.active.length : Int) w ∧
      ∀ l : ComplexTurn ι ω, l.Allowed → w.state ≠ .done → ∀ f u,
        (threadClass A sc l).turn.run w = .error f u → f = .badAlloc := by
  obtain ⟨hgoing, -⟩ := turned_run h hallowed
  have hsum : w.attached = (calls tr).foldl OtherCall.attach [] ∧
      w.procs = tr.flatMap fun x ↦ if x.target.state = .done then [] else x.target.active := by
    clear hgoing
    induction h with
    | nil => exact ⟨rfl, rfl⟩
    | snoc h hstep ih =>
      have hbefore := fun x hx ↦ hallowed x (List.mem_append_left _ hx)
      obtain ⟨hattached, hprocs⟩ := ih hbefore
      obtain ⟨-, -, hturned⟩ := turned_of_step (turned_run h hbefore).1
        (hallowed _ (List.mem_append_right _ List.mem_cons_self)) hstep
      constructor
      · rw [hturned.attached, hattached, ← List.foldl_append, calls_snoc]
      · rw [List.flatMap_append, List.flatMap_singleton, ← hprocs, hturned.procs]
  refine ⟨hsum.1, hgoing.nodup, hsum.2, run_getRawNRunningThreads hgoing.toListed,
    fun l hl hnot f u herror ↦ ?_⟩
  exact (contract_turn hgoing.toOrderly (hgoing.running hnot) hl).of_error rfl herror

/-- What has become of the exit flag and of the threads. -/
structure Ended (tr : List (Transition (CiThreadComplex ι ω) (ComplexTurn ι ω)))
    (w : CiThreadComplex ι ω) : Prop where
  bExit : w.bExit = true ↔ .endThread ∈ calls tr
  done : w.state = .done → .endThread ∈ calls tr ∧
    ∀ y ∈ w.attached, (w.threads y).state.isThreadDone = true
  lifecycles : ∀ y, (∀ x ∈ tr, x.label.LeavesAlone y) → (w.threads y).Inv
  soon : ∀ pre x post, tr = pre ++ x :: post → .endThread ∈ x.label.before ++ x.label.inside →
    w.bExit = true ∧ (post = [] ∨ post.length = 1 ∧ w.state = .done)

omit [DecidableEq ι] [DecidableEq ω] in
theorem ended_prepared (cacheSize : Int) :
    Ended [] (.prepared cacheSize : CiThreadComplex ι ω) where
  bExit := iff_of_false Bool.false_ne_true List.not_mem_nil
  done := CiThread2State.noConfusion
  lifecycles _ _ := Lifecycle.inv_prepared
  soon pre x post htr := by simp at htr

omit [DecidableEq ι] in
/-- A turn keeps it. -/
theorem Ended.snoc {tr : List (Transition (CiThreadComplex ι ω) (ComplexTurn ι ω))}
    (h : Ended tr w) (hnot : w.state ≠ .done) (hturned : Turned l w w') :
    Ended (tr ++ [⟨w, l, w'⟩]) w' where
  bExit := by
    rw [hturned.bExit, h.bExit, calls_snoc]
    exact List.mem_append.symm
  done hdone := by
    by_cases hends : Ends w l
    · refine ⟨?_, (hturned.ends hends).2.2⟩
      rw [calls_snoc, List.mem_append]
      rcases hends with hexit | hcall
      · exact Or.inl (h.bExit.mp hexit)
      · exact Or.inr (List.mem_append_left _ hcall)
    · rw [(hturned.goesOn hends).1] at hdone
      cases hdone
  lifecycles y hy := by
    refine hturned.lifecycles y (hy _ (List.mem_append_right _ List.mem_cons_self)) ?_
    exact h.lifecycles y fun x hx ↦ hy x (List.mem_append_left _ hx)
  soon pre x post htr hcall := by
    rcases snoc_eq_append_cons htr with ⟨rfl, rfl⟩ | ⟨rest, rfl, hpre⟩
    · exact ⟨hturned.bExit.mpr (Or.inr hcall), Or.inl rfl⟩
    · obtain ⟨hexit, hrest⟩ := h.soon pre x rest hpre hcall
      refine ⟨hturned.bExit.mpr (Or.inl hexit), Or.inr ?_⟩
      rcases hrest with rfl | ⟨-, hdone⟩
      · exact ⟨rfl, (hturned.ends (Or.inl hexit)).1⟩
      · exact absurd hdone hnot

theorem ended_run {cacheSize : Int}
    {tr : List (Transition (CiThreadComplex ι ω) (ComplexTurn ι ω))}
    (h : Runs (complexStep A sc) (.prepared cacheSize) tr w)
    (hallowed : ∀ x ∈ tr, x.label.Allowed) : Ended tr w := by
  induction h with
  | nil => exact ended_prepared cacheSize
  | snoc h hstep ih =>
    have hbefore := fun x hx ↦ hallowed x (List.mem_append_left _ hx)
    obtain ⟨hnot, -, hturned⟩ := turned_of_step (turned_run h hbefore).1
      (hallowed _ (List.mem_append_right _ List.mem_cons_self)) hstep
    exact (ih hbefore).snoc hnot hturned

/-- In every run the complex is done only after a call of its `EndThread`, and then in one more turn
at most. Every thread in its list is done by then, and one that nobody has put into another state
has gone through a complete lifecycle. -/
theorem threads_ended {cacheSize : Int}
    {tr : List (Transition (CiThreadComplex ι ω) (ComplexTurn ι ω))}
    (h : Runs (complexStep A sc) (.prepared cacheSize) tr w)
    (hallowed : ∀ x ∈ tr, x.label.Allowed) :
    (w.state = .done → .endThread ∈ calls tr ∧ ∀ y ∈ w.attached,
        (w.threads y).state.isThreadDone = true ∧ ((∀ x ∈ tr, x.label.LeavesAlone y) →
          Lifecycle.Complete (Lifecycle.callbacks (w.threads y).log) ∧
          ((w.threads y).state = .done ↔
            Lifecycle.Succeeded (Lifecycle.callbacks (w.threads y).log)) ∧
          Lifecycle.RunsGuarded (w.threads y).log)) ∧
      ∀ pre x post, tr = pre ++ x :: post → .endThread ∈ x.label.before ++ x.label.inside →
        post.length ≤ 1 ∧ (post ≠ [] → w.state = .done) := by
  have hended := ended_run h hallowed
  constructor
  · intro hdone
    obtain ⟨hcall, hthreads⟩ := hended.done hdone
    refine ⟨hcall, fun y hy ↦ ⟨hthreads y hy, fun halone ↦ ?_⟩⟩
    have hinv := hended.lifecycles y halone
    obtain ⟨hcomplete, hsucceeded, -⟩ := Lifecycle.complete_of_shape hinv.shape (hthreads y hy)
    exact ⟨hcomplete, hsucceeded, hinv.guarded⟩
  · intro pre x post htr hcall
    rcases (hended.soon pre x post htr hcall).2 with rfl | ⟨hone, hdone⟩
    · exact ⟨Nat.zero_le 1, fun hne ↦ absurd rfl hne⟩
    · exact ⟨Nat.le_of_eq hone, fun _ ↦ hdone⟩

/-! ### A run of three threads -/

private def freeAddress (h : Cells Nat (Option Nat)) : Option Nat :=
  (List.range 8).find? fun p ↦ (h p).isNone

private theorem freeAddress_free (h : Cells Nat (Option Nat)) (p : Nat)
    (hp : freeAddress h = some p) : h p = none := by
  have hfree := List.find?_some hp
  exact Option.isNone_iff_eq_none.mp hfree

/-- An allocator of few addresses. -/
private def fewAddresses : CiUtils.Allocator Nat Nat := ⟨freeAddress, freeAddress_free⟩

private def addressOf : Address Nat where
  toNat x := x + 1
  injective _ _ h := Nat.succ.inj h
  ne_zero := Nat.succ_ne_zero

/-- Callbacks succeed, and nobody calls `EndThread` of a thread. -/
private def willing : Nat → Script := fun _ ↦ ⟨fun _ ↦ true, fun _ ↦ false⟩

/-- Two threads are added, a third one while the first is inactive, and the second is deleted before
the complex ends. -/
private def threeThreads : List (ComplexTurn Nat Nat) :=
  [⟨[.addCiThread (some 10) fewAddresses true true,
      .addCiThread (some 11) fewAddresses true true], []⟩,
    ⟨[.setState 10 .inactive], [.addCiThread (some 12) fewAddresses true false]⟩,
    ⟨[.addCiThread (some 10) fewAddresses true true],
      [.deleteCiThread (some 11) true true, .endThread]⟩,
    ⟨[], []⟩]

private theorem run_threeThreads : ∃ tr w,
    Runs (complexStep addressOf willing) (.prepared 1 : CiThreadComplex Nat Nat) tr w ∧
    (∀ x ∈ tr, x.label.Allowed) ∧ w.procs = [10, 11, 11, 12, 12] ∧ w.attached = [10, 12] ∧
    w.state = .done ∧ ∀ x ∈ tr, x.label.LeavesAlone 12 := by
  have hexec : (exec (complexStep addressOf willing) (.prepared 1 : CiThreadComplex Nat Nat)
      threeThreads).map (fun w ↦ (w.procs, w.attached, w.state)) =
        some ([10, 11, 11, 12, 12], [10, 12], .done) := by
    decide +kernel
  obtain ⟨w, hw, hlast⟩ := Option.map_eq_some_iff.mp hexec
  rw [Prod.mk.injEq, Prod.mk.injEq] at hlast
  refine ⟨_, w, Runs.of_exec hw, fun x hx ↦ ?_, hlast.1, hlast.2.1, hlast.2.2, fun x hx ↦ ?_⟩
  · have hallowed : ∀ l ∈ threeThreads, ∀ call ∈ l.before ++ l.inside, call.Allowed := by decide
    exact hallowed x.label (label_mem_of_mem_trace hx)
  · have halone : ∀ l ∈ threeThreads, l.LeavesAlone 12 := by
      simp [threeThreads, ComplexTurn.LeavesAlone]
    exact halone x.label (label_mem_of_mem_trace hx)

theorem rounds_served_three : ∃ tr w,
    Runs (complexStep addressOf willing) (.prepared 1 : CiThreadComplex Nat Nat) tr w ∧
    w.attached = [10, 12] ∧ [10, 11, 11, 12, 12] =
      tr.flatMap fun x ↦ if x.target.state = .done then [] else x.target.active := by
  obtain ⟨tr, w, hrun, hallowed, hprocs, hattached, -, -⟩ := run_threeThreads
  obtain ⟨-, -, hrounds, -⟩ := rounds_served hrun hallowed
  exact ⟨tr, w, hrun, hattached, hprocs.symm.trans hrounds⟩

theorem threads_ended_three : ∃ tr w,
    Runs (complexStep addressOf willing) (.prepared 1 : CiThreadComplex Nat Nat) tr w ∧
    w.attached = [10, 12] ∧ (w.threads 10).state.isThreadDone = true ∧
    Lifecycle.Complete (Lifecycle.callbacks (w.threads 12).log) := by
  obtain ⟨tr, w, hrun, hallowed, -, hattached, hdone, halone⟩ := run_threeThreads
  obtain ⟨-, hthreads⟩ := (threads_ended hrun hallowed).1 hdone
  rw [hattached] at hthreads
  exact ⟨tr, w, hrun, hattached, (hthreads 10 (by simp)).1, ((hthreads 12 (by simp)).2 halone).1⟩

end HeartbeatSpec.ThreadComplex
