import Mathlib.Data.Fintype.EquivFin
import HeartbeatSpec.Base.Ranking
import HeartbeatSpec.Thread.Exclusion

/-!
# No call is ever stuck

Library `Thread`. Whatever calls have been interleaved,
`legacy_compatible/legacy_support.cpp:222–406`, and whatever the callbacks and `pthread_create`
return from then on, every party can still come back: the one that holds the token first, then
the others one by one, with `EndThread` called whenever one is in the loop. So no interleaving
loses the token, and none leaves a call where it can only wait.
-/

namespace HeartbeatSpec.Thread
open HeartbeatSpec.Base

/-- A step in which callbacks and `pthread_create` return what the oracle says. -/
def stepUnder (oracle : Sys → Bool) (s : Sys) (l : Tid × Choice) : Option Sys :=
  if l.2.result = oracle s then step s l else none

variable {oracle : Sys → Bool} {s s' : Sys} {t : Tid}

theorem step_of_stepUnder {l : Tid × Choice} (h : stepUnder oracle s l = some s') :
    step s l = some s' := by
  unfold stepUnder at h
  split at h
  · exact h
  · cases h

/-- A party makes a step of its own. -/
theorem stepUnder_of_localStep {call : Call} {worker : Tid} {sh : Shared} {p : Pc}
    (h : localStep ⟨call, oracle s, 1, worker⟩ s.shared (s.pc t) = some (sh, p)) :
    stepUnder oracle s (t, ⟨call, oracle s, 1, worker⟩) =
      some ⟨sh, Function.update s.pc t p⟩ := by
  rw [stepUnder, if_pos rfl]
  unfold step
  split
  · next run hpc hresult =>
    dsimp only at hpc hresult
    rw [hpc] at h
    simp [localStep, hresult] at h
  · rw [h]
    rfl

/-! ### How far a party is from its return -/

/-- Steps from the `switch` of `ThreadProc` to the end of the loop, once the exit flag is set. -/
def switchRank : CiThread2State → Nat
  | .ready => 13
  | .doneInitInstance => 10
  | .doneExitInstance | .doneExitInstanceError => 5
  | .done => 2
  | .doneError => 3
  | .doneRun | .error | .inactive => 8

/-- Steps from a place in the loop to its end, once the exit flag is set. -/
def LoopPc.rank (st : CiThread2State) : LoopPc → Nat
  | .isDone => if st = .done then 1 else if st = .doneError then 2 else switchRank st + 2
  | .isDoneError => if st = .doneError then 1 else switchRank st + 1
  | .switch => switchRank st
  | .initInstance => 12
  | .setInitError => 11
  | .setDoneInitInstance => 10
  | .testExit => 9
  | .run => 16
  | .setRunError => 11
  | .setDoneRun => 8
  | .exitInstance => 7
  | .testDoneRun => 6
  | .setDoneExitInstance | .setDoneExitInstanceError => 5
  | .testDoneExitInstance => 4
  | .setDone | .setDoneError => 3

theorem LoopPc.rank_isDone_le (st : CiThread2State) : LoopPc.isDone.rank st ≤ 15 := by
  cases st <;> decide

/-- A step of the loop comes nearer to its end, whatever a callback returns. -/
theorem loopStep_rank {sh : Shared} (hexit : sh.bExit = true) (result : Bool) (pc : LoopPc) :
    match (loopStep result sh pc).2 with
    | some pc' => pc'.rank (loopStep result sh pc).1.state < pc.rank sh.state
    | none => 0 < pc.rank sh.state := by
  cases pc with
  | isDone =>
    by_cases hdone : sh.state = .done
    · simp [loopStep, hdone, LoopPc.rank]
    · by_cases herror : sh.state = .doneError
      · simp [loopStep, herror, LoopPc.rank]
      · simp [loopStep, hdone, herror, LoopPc.rank]
  | isDoneError =>
    by_cases herror : sh.state = .doneError
    · simp [loopStep, herror, LoopPc.rank]
    · simp [loopStep, herror, LoopPc.rank]
  | switch =>
    cases hst : sh.state <;> simp [loopStep, hst, switchTarget, LoopPc.rank, switchRank]
  | initInstance => cases result <;> simp [loopStep, LoopPc.rank]
  | run =>
    cases result with
    | true =>
      have hle := LoopPc.rank_isDone_le sh.state
      change LoopPc.isDone.rank sh.state < 16
      omega
    | false => simp [loopStep, LoopPc.rank]
  | testExit => simp [loopStep, hexit, LoopPc.rank]
  | testDoneRun =>
    by_cases hrun : sh.state = .doneRun <;> simp [loopStep, hrun, LoopPc.rank]
  | testDoneExitInstance =>
    by_cases hdone : sh.state = .doneExitInstance <;> simp [loopStep, hdone, LoopPc.rank]
  | _ => simp [loopStep, LoopPc.rank, switchRank]

/-- A party that has only the rest of its loop before it, if anything. -/
def Pc.InLoop : Pc → Prop
  | .idle | .loop .. | .notifyExit .. => True
  | _ => False

/-- Steps from a place in the loop to the return. -/
def Pc.loopRank (st : CiThread2State) : Pc → Nat
  | .loop _ _ _ _ pc => pc.rank st + 1
  | .notifyExit _ _ _ _ => 1
  | _ => 0

/-- Steps from any other place to the loop, to a worker of its own or to the return. -/
def Pc.entryRank : Pc → Nat
  | .startGuard _ => 8
  | .prepareExit _ => 7
  | .prepareState _ => 6
  | .prepareWait _ => 5
  | .create _ | .waitTest _ => 4
  | .failExit | .waitWait _ => 3
  | .failHandle | .waitClear _ => 2
  | .createStore _ | .failPost | .waitPost _ | .endThread => 1
  | .idle | .loop .. | .notifyExit .. => 0

/-- A party in the loop goes on in it, and leaves the exit flag set. -/
theorem localStep_loop (ch : Choice) {sh : Shared} {p : Pc} (hloop : p.InLoop)
    (hbusy : p ≠ .idle) (hexit : sh.bExit = true) :
    ∃ sh' p', localStep ch sh p = some (sh', p') ∧ p'.InLoop ∧ sh'.bExit = true ∧
      p'.loopRank sh'.state < p.loopRank sh.state := by
  cases p with
  | idle => exact absurd rfl hbusy
  | loop run worker inits exits pc =>
    refine ⟨_, _, rfl, ?_, ?_, ?_⟩
    · cases (loopStep ch.result sh pc).2 <;> trivial
    · cases pc <;> exact hexit
    · have hrank := loopStep_rank hexit ch.result pc
      cases hnext : (loopStep ch.result sh pc).2 with
      | none =>
        rw [hnext] at hrank
        simp only [afterLoop, Pc.loopRank]
        omega
      | some pc' =>
        rw [hnext] at hrank
        simp only [afterLoop, Pc.loopRank]
        omega
  | notifyExit run worker inits exits => exact ⟨_, _, rfl, trivial, hexit, Nat.one_pos⟩
  | _ => exact hloop.elim

/-- A party elsewhere comes nearer to the loop, if the token is free or its own and it is not
given a worker. -/
theorem localStep_entry (ch : Choice) (hhandle : ch.handle ≠ 0) {sh : Shared} {p : Pc}
    (hloop : ¬p.InLoop) (hcreate : ∀ run, p = .create run → ch.result = false)
    (htoken : p.holds = true ∨ 0 < sh.semExit) :
    ∃ sh' p', localStep ch sh p = some (sh', p') ∧ p'.entryRank < p.entryRank := by
  cases p with
  | idle | loop | notifyExit => exact absurd trivial hloop
  | create run =>
    have hfails : ¬ch.result = true := Bool.eq_false_iff.mp (hcreate run rfl)
    exact ⟨_, _, if_neg hfails, by simp [Pc.entryRank]⟩
  | createStore run => exact ⟨_, _, if_pos hhandle, Nat.one_pos⟩
  | prepareWait k =>
    have hsem : 0 < sh.semExit := htoken.resolve_left Bool.false_ne_true
    refine ⟨_, _, if_pos hsem, ?_⟩
    cases k <;> simp [runEntry, Pc.entryRank]
  | waitWait bound =>
    have hsem : 0 < sh.semExit := htoken.resolve_left Bool.false_ne_true
    exact ⟨_, _, if_pos hsem, by simp [Pc.entryRank]⟩
  | startGuard k | waitTest bound =>
    refine ⟨_, _, rfl, ?_⟩
    split <;> simp [Pc.entryRank]
  | _ => exact ⟨_, _, rfl, by simp [Pc.entryRank]⟩

/-! ### One party -/

/-- Where nobody else holds the token, a party has it or finds it at the semaphore. -/
theorem Exclusive.token_free (hx : Exclusive s) (hothers : ∀ u ≠ t, (s.pc u).holds = false) :
    (s.pc t).holds = true ∨ 0 < s.shared.semExit := by
  obtain ⟨o, ho, hsem⟩ := hx
  cases o with
  | none =>
    right
    rw [hsem]
    exact Nat.one_pos
  | some u =>
    left
    have hu : (s.pc u).holds = true := (ho u).mpr rfl
    by_cases hut : u = t
    · rwa [← hut]
    · rw [hothers u hut] at hu
      cases hu

/-- The steps `ls` lead to `s'` and leave every party but `t` where it is. -/
structure Alone (oracle : Sys → Bool) (s : Sys) (t : Tid) (ls : List (Tid × Choice)) (s' : Sys) :
    Prop where
  exec : exec (stepUnder oracle) s ls = some s'
  exclusive : Exclusive s'
  same : ∀ u ≠ t, s'.pc u = s.pc u

theorem Alone.trans {ls ls' : List (Tid × Choice)} {s'' : Sys} (h : Alone oracle s t ls s')
    (h' : Alone oracle s' t ls' s'') : Alone oracle s t (ls ++ ls') s'' where
  exec := by
    rw [exec_append, h.exec]
    exact h'.exec
  exclusive := h'.exclusive
  same u hu := (h'.same u hu).trans (h.same u hu)

/-- One step of the party itself. -/
theorem Alone.of_localStep (hx : Exclusive s) {call : Call} {worker : Tid} {sh : Shared} {p : Pc}
    (h : localStep ⟨call, oracle s, 1, worker⟩ s.shared (s.pc t) = some (sh, p)) :
    Alone oracle s t [(t, ⟨call, oracle s, 1, worker⟩)] ⟨sh, Function.update s.pc t p⟩ := by
  have hstep := stepUnder_of_localStep h
  constructor
  · rw [Base.exec, hstep]
    rfl
  · exact exclusive_step hx (step_of_stepUnder hstep)
  · exact fun u hu ↦ Function.update_of_ne hu p s.pc

/-- With the exit flag set, a party in the loop returns. -/
theorem loop_returns (oracle : Sys → Bool) (hx : Exclusive s) (hexit : s.shared.bExit = true)
    (hloop : (s.pc t).InLoop) : ∃ ls s', Alone oracle s t ls s' ∧ s'.pc t = .idle := by
  have hstep (v : Sys) (hv : (Exclusive v ∧ ∀ u ≠ t, v.pc u = s.pc u) ∧ (v.pc t).InLoop ∧
      v.shared.bExit = true) (hbusy : v.pc t ≠ .idle) :
      ∃ l v', stepUnder oracle v l = some v' ∧ ((Exclusive v' ∧ ∀ u ≠ t, v'.pc u = s.pc u) ∧
          (v'.pc t).InLoop ∧ v'.shared.bExit = true) ∧
        (v'.pc t).loopRank v'.shared.state < (v.pc t).loopRank v.shared.state := by
    obtain ⟨⟨hxv, hsame⟩, hvloop, hvexit⟩ := hv
    obtain ⟨sh, p, hl, hp, hsh, hlt⟩ :=
      localStep_loop ⟨.endThread, oracle v, 1, 0⟩ hvloop hbusy hvexit
    have hst := stepUnder_of_localStep hl
    refine ⟨_, _, hst, ⟨⟨exclusive_step hxv (step_of_stepUnder hst), fun u hu ↦ ?_⟩, ?_, hsh⟩, ?_⟩
    · exact (Function.update_of_ne hu p v.pc).trans (hsame u hu)
    · simpa using hp
    · simpa using hlt
  obtain ⟨ls, s', hex, ⟨⟨hx', hsame⟩, -⟩, hidle⟩ := exec_of_rank (s := s)
    (I := fun v ↦ (Exclusive v ∧ ∀ u ≠ t, v.pc u = s.pc u) ∧ (v.pc t).InLoop ∧
      v.shared.bExit = true)
    (F := fun v ↦ v.pc t = .idle) (fun v ↦ (v.pc t).loopRank v.shared.state) hstep
    ⟨⟨hx, fun _ _ ↦ rfl⟩, hloop, hexit⟩
  exact ⟨ls, s', ⟨hex, hx', hsame⟩, hidle⟩

/-- A party that is not in a call can call `EndThread` and return. -/
theorem endThread_called (oracle : Sys → Bool) (hx : Exclusive s) {e : Tid} (he : s.pc e = .idle)
    (t : Tid) :
    ∃ ls, Alone oracle s t ls ⟨{ s.shared with bExit := true }, s.pc⟩ := by
  have hcall : localStep ⟨.endThread, oracle s, 1, 0⟩ s.shared (s.pc e) =
      some (s.shared, .endThread) := by
    rw [he]
    rfl
  have hfirst := Alone.of_localStep hx hcall
  have hset : localStep ⟨.endThread, oracle ⟨s.shared, Function.update s.pc e .endThread⟩, 1, 0⟩
      s.shared (Function.update s.pc e .endThread e) =
        some ({ s.shared with bExit := true }, .idle) := by
    rw [Function.update_self]
    rfl
  have hboth := hfirst.trans (Alone.of_localStep hfirst.exclusive hset)
  have hback : Function.update (Function.update s.pc e .endThread) e .idle = s.pc := by
    rw [Function.update_idem, ← he, Function.update_eq_self]
  rw [hback] at hboth
  exact ⟨_, hboth.exec, hboth.exclusive, fun _ _ ↦ rfl⟩

/-- Only these parties are in a call. -/
def BusyAmong (busy : Finset Tid) (s : Sys) : Prop := ∀ t ∉ busy, s.pc t = .idle

/-- So a party in the loop can return. -/
theorem run_returns (oracle : Sys → Bool) {busy : Finset Tid} (hx : Exclusive s)
    (hbusy : BusyAmong busy s) (hloop : (s.pc t).InLoop) :
    ∃ ls s', Alone oracle s t ls s' ∧ s'.pc t = .idle := by
  obtain ⟨e, he⟩ := Infinite.exists_notMem_finset busy
  obtain ⟨ls, hend⟩ := endThread_called oracle hx (hbusy e he) t
  obtain ⟨ls', s', hrest, hidle⟩ := loop_returns oracle (t := t) hend.exclusive rfl hloop
  exact ⟨ls ++ ls', s', hend.trans hrest, hidle⟩

/-- Where nobody else holds the token, any party comes to the loop, back, or to the point where
it is given a worker. -/
theorem comes_to_loop (oracle : Sys → Bool) (hx : Exclusive s)
    (hothers : ∀ u ≠ t, (s.pc u).holds = false) :
    ∃ ls s', Alone oracle s t ls s' ∧
      ((s'.pc t).InLoop ∨ ∃ run, s'.pc t = .create run ∧ oracle s' = true) := by
  have hstep (v : Sys) (hv : Exclusive v ∧ ∀ u ≠ t, v.pc u = s.pc u)
      (hgoal : ¬((v.pc t).InLoop ∨ ∃ run, v.pc t = .create run ∧ oracle v = true)) :
      ∃ l v', stepUnder oracle v l = some v' ∧ (Exclusive v' ∧ ∀ u ≠ t, v'.pc u = s.pc u) ∧
        (v'.pc t).entryRank < (v.pc t).entryRank := by
    obtain ⟨hxv, hsame⟩ := hv
    rw [not_or] at hgoal
    have htoken := hxv.token_free (t := t) fun u hu ↦ by rw [hsame u hu, hothers u hu]
    have hcreate (run : Nat) (hpc : v.pc t = .create run) : oracle v = false :=
      Bool.eq_false_iff.mpr fun hresult ↦ hgoal.2 ⟨run, hpc, hresult⟩
    obtain ⟨sh, p, hl, hlt⟩ :=
      localStep_entry ⟨.endThread, oracle v, 1, 0⟩ Nat.one_ne_zero hgoal.1 hcreate
        htoken
    have hst := stepUnder_of_localStep hl
    refine ⟨_, _, hst, ⟨exclusive_step hxv (step_of_stepUnder hst), fun u hu ↦ ?_⟩, ?_⟩
    · exact (Function.update_of_ne hu p v.pc).trans (hsame u hu)
    · simpa using hlt
  obtain ⟨ls, s', hex, ⟨hx', hsame⟩, hgoal⟩ := exec_of_rank (s := s)
    (I := fun v ↦ Exclusive v ∧ ∀ u ≠ t, v.pc u = s.pc u)
    (F := fun v ↦ (v.pc t).InLoop ∨ ∃ run, v.pc t = .create run ∧ oracle v = true)
    (fun v ↦ (v.pc t).entryRank) hstep ⟨hx, fun _ _ ↦ rfl⟩
  exact ⟨ls, s', ⟨hex, hx', hsame⟩, hgoal⟩

theorem BusyAmong.of_alone {busy : Finset Tid} (h : BusyAmong busy s) {ls : List (Tid × Choice)}
    (ha : Alone oracle s t ls s') : BusyAmong (insert t busy) s' := by
  intro u hu
  rw [Finset.mem_insert, not_or] at hu
  rw [ha.same u hu.1]
  exact h u hu.2

/-- A party that is given a worker stores its id and is back; the worker enters the loop. -/
theorem worker_created (oracle : Sys → Bool) (hx : Exclusive s) {run : Nat} {e : Tid}
    (hcreate : s.pc t = .create run) (hresult : oracle s = true) (het : e ≠ t)
    (hidle : s.pc e = .idle) :
    ∃ ls v, exec (stepUnder oracle) s ls = some v ∧ Exclusive v ∧ v.pc t = .idle ∧
      v.pc e = .loop run true 0 0 .isDone ∧ ∀ u, u ≠ t → u ≠ e → v.pc u = s.pc u := by
  have hspawn : stepUnder oracle s (t, ⟨.endThread, oracle s, 1, e⟩) = some (spawn s t e run) := by
    rw [stepUnder, if_pos rfl]
    simp [step, hcreate, hresult, hidle]
  have hx' : Exclusive (spawn s t e run) := exclusive_step hx (step_of_stepUnder hspawn)
  have hstore : localStep ⟨.endThread, oracle (spawn s t e run), 1, 0⟩ (spawn s t e run).shared
      ((spawn s t e run).pc t) =
        some ({ (spawn s t e run).shared with ciThreadHandle := 1 }, .idle) := by
    have hpc : (spawn s t e run).pc t = .createStore run := by
      simp [spawn, Function.update_of_ne (Ne.symm het)]
    rw [hpc]
    rfl
  have hback := Alone.of_localStep hx' hstore
  refine ⟨[(t, ⟨.endThread, oracle s, 1, e⟩), (t, ⟨.endThread, oracle (spawn s t e run), 1, 0⟩)],
    _, ?_, hback.exclusive, Function.update_self t _ _, ?_, fun u hut hue ↦ ?_⟩
  · rw [exec, hspawn]
    exact hback.exec
  · simp [spawn, Function.update_of_ne het]
  · simp [spawn, Function.update_of_ne hut, Function.update_of_ne hue]

/-- So it returns, and so can the worker. -/
theorem create_returns (oracle : Sys → Bool) {busy : Finset Tid} (hx : Exclusive s)
    (hbusy : BusyAmong busy s) {run : Nat} (hcreate : s.pc t = .create run)
    (hresult : oracle s = true) : ∃ ls s', Alone oracle s t ls s' ∧ s'.pc t = .idle := by
  obtain ⟨e, he⟩ := Infinite.exists_notMem_finset (insert t busy)
  rw [Finset.mem_insert, not_or] at he
  obtain ⟨het, heb⟩ := he
  have hidle : s.pc e = .idle := hbusy e heb
  obtain ⟨ls, v, hex, hxv, hback, hworker, hsame⟩ :=
    worker_created oracle hx hcreate hresult het hidle
  have hbusy' : BusyAmong (insert e busy) v := by
    intro u hu
    rw [Finset.mem_insert, not_or] at hu
    by_cases hut : u = t
    · rw [hut, hback]
    · rw [hsame u hut hu.1]
      exact hbusy u hu.2
  have hloop : (v.pc e).InLoop := by
    rw [hworker]
    trivial
  obtain ⟨ls', s', hrest, hdone⟩ := run_returns oracle hxv hbusy' hloop
  refine ⟨ls ++ ls', s', ⟨?_, hrest.exclusive, fun u hu ↦ ?_⟩, ?_⟩
  · rw [exec_append, hex]
    exact hrest.exec
  · by_cases hue : u = e
    · rw [hue, hdone, hidle]
    · rw [hrest.same u hue, hsame u hu hue]
  · rw [hrest.same t (Ne.symm het), hback]

/-- Where nobody else holds the token, a party can return while the others stand still. -/
theorem returns_alone (oracle : Sys → Bool) {busy : Finset Tid} (hx : Exclusive s)
    (hbusy : BusyAmong busy s) (hothers : ∀ u ≠ t, (s.pc u).holds = false) :
    ∃ ls s', Alone oracle s t ls s' ∧ s'.pc t = .idle := by
  obtain ⟨ls, v, hcomes, hgoal⟩ := comes_to_loop oracle hx hothers
  have hbusy' := hbusy.of_alone hcomes
  obtain ⟨ls', s', hrest, hidle⟩ : ∃ ls s', Alone oracle v t ls s' ∧ s'.pc t = .idle := by
    rcases hgoal with hloop | ⟨run, hcreate, hresult⟩
    · exact run_returns oracle hcomes.exclusive hbusy' hloop
    · exact create_returns oracle hcomes.exclusive hbusy' hcreate hresult
  exact ⟨ls ++ ls', s', hcomes.trans hrest, hidle⟩

/-! ### All parties -/

/-- A step makes at most two more parties busy. -/
theorem busyAmong_step {busy : Finset Tid} {l : Tid × Choice} (hs : BusyAmong busy s)
    (h : step s l = some s') : BusyAmong (insert l.1 (insert l.2.worker busy)) s' := by
  obtain ⟨u, ch⟩ := l
  intro t ht
  simp only [Finset.mem_insert, not_or] at ht
  obtain ⟨htu, htw, htb⟩ := ht
  rcases step_cases h with ⟨sh, p, -, rfl⟩ | ⟨run, -, -, -, -, rfl⟩
  · exact (Function.update_of_ne htu p s.pc).trans (hs t htb)
  · simp only [spawn, Function.update_of_ne htw, Function.update_of_ne htu]
    exact hs t htb

/-- Some busy party is such that nobody else holds the token. -/
theorem Exclusive.next (hx : Exclusive s) {busy : Finset Tid} (hbusy : BusyAmong busy s)
    (hne : busy.Nonempty) : ∃ t ∈ busy, ∀ u ≠ t, (s.pc u).holds = false := by
  by_cases hholder : ∃ t, (s.pc t).holds = true
  · obtain ⟨t, ht⟩ := hholder
    refine ⟨t, ?_, fun u hu ↦ ?_⟩
    · by_contra hidle
      rw [hbusy t hidle] at ht
      cases ht
    · by_contra hheld
      exact hu (hx.unique (Bool.eq_true_of_not_eq_false hheld) ht)
  · obtain ⟨t, ht⟩ := hne
    exact ⟨t, ht, fun u _ ↦ Bool.eq_false_of_not_eq_true fun hu ↦ hholder ⟨u, hu⟩⟩

/-- All parties can return, the holder of the token first. -/
theorem all_return (oracle : Sys → Bool) {busy : Finset Tid} (hx : Exclusive s)
    (hbusy : BusyAmong busy s) :
    ∃ ls s', exec (stepUnder oracle) s ls = some s' ∧ Exclusive s' ∧ ∀ t, s'.pc t = .idle := by
  induction busy using Finset.strongInduction generalizing s with
  | H busy ih =>
    rcases busy.eq_empty_or_nonempty with rfl | hne
    · exact ⟨[], s, rfl, hx, fun t ↦ hbusy t (Finset.notMem_empty t)⟩
    · obtain ⟨t, ht, hothers⟩ := hx.next hbusy hne
      obtain ⟨ls, v, halone, hidle⟩ := returns_alone oracle hx hbusy hothers
      have hbusy' : BusyAmong (busy.erase t) v := by
        intro u hu
        by_cases hut : u = t
        · rw [hut, hidle]
        · rw [halone.same u hut]
          exact hbusy u fun hmem ↦ hu (Finset.mem_erase.mpr ⟨hut, hmem⟩)
      obtain ⟨ls', s', hex, hx', hall⟩ := ih _ (Finset.erase_ssubset ht) halone.exclusive hbusy'
      refine ⟨ls ++ ls', s', ?_, hx', hall⟩
      rw [exec_append, halone.exec]
      exact hex

/-- From every state that an interleaving of calls reaches, and whatever the callbacks and
`pthread_create` return from then on, some steps lead to a state in which nobody is in a call
and the semaphore is free. -/
theorem always_quiesces (oracle : Sys → Bool) {tr : List (Transition Sys (Tid × Choice))}
    (h : Runs step Sys.initial tr s) :
    ∃ ls s', exec (stepUnder oracle) s ls = some s' ∧ (∀ t, s'.pc t = .idle) ∧
      s'.shared.semExit = 1 := by
  obtain ⟨⟨hx, busy, hbusy⟩, -⟩ := h.invariant
    (I := fun s ↦ Exclusive s ∧ ∃ busy, BusyAmong busy s)
    (fun _ _ _ hI hst ↦ ⟨exclusive_step hI.1 hst, _, busyAmong_step hI.2.choose_spec hst⟩)
    ⟨exclusive_initial, ∅, fun _ _ ↦ rfl⟩
  obtain ⟨ls, s', hex, ⟨o, ho, hsem⟩, hall⟩ := all_return oracle hx hbusy
  refine ⟨ls, s', hex, hall, ?_⟩
  cases o with
  | none => exact hsem
  | some t =>
    have ht := (ho t).mpr rfl
    rw [hall t] at ht
    cases ht

/-- One start is about to create its worker, another waits for the semaphore. -/
def waitingSchedule : List (Tid × Choice) :=
  List.replicate 5 (0, ⟨.start .createThread, true, 7, 3⟩) ++
    List.replicate 4 (1, ⟨.start .runThreadHere, true, 0, 0⟩)

/-- Both come back, although every callback succeeds. -/
theorem always_quiesces_waiting :
    ∃ s, exec step Sys.initial waitingSchedule = some s ∧
      (s.pc 0, s.pc 1, s.shared.semExit) = (.create 0, .prepareWait .runThreadHere, 0) ∧
      ∃ ls s', exec (stepUnder fun _ ↦ true) s ls = some s' ∧ (∀ t, s'.pc t = .idle) ∧
        s'.shared.semExit = 1 := by
  obtain ⟨s, hs, hplaces⟩ : ∃ s, exec step Sys.initial waitingSchedule = some s ∧
      (s.pc 0, s.pc 1, s.shared.semExit) = (.create 0, .prepareWait .runThreadHere, 0) :=
    Option.map_eq_some_iff.mp (by decide)
  exact ⟨s, hs, hplaces, always_quiesces (fun _ ↦ true) (Runs.of_exec hs)⟩

end HeartbeatSpec.Thread
