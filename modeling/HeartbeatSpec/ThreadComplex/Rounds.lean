import HeartbeatSpec.ThreadComplex.Members

/-!
# Rounds of a thread complex

Library `ThreadComplex`. Whatever threads are added to a complex and deleted from it meanwhile, each
of its `Run` calls is a round: `ThreadProc` is called once of every thread that is in the list and
not inactive, in the order of the list. At its end every thread in the list has been ended,
`examples/Externals/CiUtils/Src/CiThreadComplex.cpp:28–106`.
-/

namespace HeartbeatSpec.ThreadComplex
open HeartbeatSpec.Base HeartbeatSpec.Thread

variable {ι ω : Type} {w w' : CiThreadComplex ι ω}

/-! ### Going along the list -/

/-- The items of entries, without null pointers. -/
def objects (es : List (Entry ι (Option ω))) : List ω := es.filterMap Prod.snd

theorem run_onList {α : Type} {x : CiUtils.Call Unit ι ω α} {a : α}
    {m : CiUtils.Memory Unit ι ω} (h : x.run w.ciThreads = .ok a m) :
    (onList x).run w = .ok a { w with ciThreads := m } := by
  rw [EStateM.run, onList, h]

theorem run_onList_error {α : Type} {x : CiUtils.Call Unit ι ω α} {f : CiUtils.Fault}
    {m : CiUtils.Memory Unit ι ω} (h : x.run w.ciThreads = .error f m) :
    (onList x).run w = .error f { w with ciThreads := m } := by
  rw [EStateM.run, onList, h]

theorem run_gotoNextPosition {before : Option ι} {es : List (Entry ι (Option ω))}
    (h : Linked w.ciThreads.linkItems before none es) :
    (onList (CiUtils.gotoNextPosition (firstOr none es))).run w =
      .ok (firstOr none es.tail) w := by
  apply run_onList
  cases es with
  | nil => rfl
  | cons e es =>
    rw [firstOr, CiUtils.gotoNextPosition, EStateM.run_bind, CiUtils.run_deref h.1]
    rfl

theorem run_getCurrentItem {before : Option ι} {e : Entry ι (Option ω)}
    {es : List (Entry ι (Option ω))} (h : Linked w.ciThreads.linkItems before none (e :: es)) :
    (onList (CiUtils.getCurrentItem (some e.1))).run w = .ok e.2 w := by
  apply run_onList
  rw [CiUtils.getCurrentItem, EStateM.run_bind, CiUtils.run_deref h.1]
  rfl

/-- Going along the list calls the body of each object in it, in order. -/
theorem run_traverseFrom {body : Option ω → Call ι ω Unit}
    {f : ω → CiThreadComplex ι ω → CiThreadComplex ι ω}
    (hbody : ∀ x w, (body (some x)).run w = .ok () (f x w))
    (hsame : ∀ x w, (f x w).ciThreads = w.ciThreads) {before : Option ι}
    {es : List (Entry ι (Option ω))} (h : Linked w.ciThreads.linkItems before none es)
    (hsome : ∀ e ∈ es, e.2 ≠ none) {turns : Nat} (hturns : es.length ≤ turns) :
    (traverseFrom body turns (firstOr none es) (firstOr none es.tail)).run w =
      .ok () ((objects es).foldl (fun w x ↦ f x w) w) := by
  induction es generalizing w before turns with
  | nil => cases turns <;> rfl
  | cons e es ih =>
    cases turns with
    | zero => cases hturns
    | succ turns =>
      obtain ⟨p, item⟩ := e
      cases item with
      | none => exact absurd rfl (hsome _ List.mem_cons_self)
      | some x =>
        have hrest : Linked (f x w).ciThreads.linkItems (some p) none es := by
          rw [hsame]
          exact h.2
        rw [firstOr, traverseFrom, EStateM.run_bind, run_getCurrentItem h]
        dsimp only
        rw [EStateM.run_bind, hbody]
        dsimp only
        rw [List.tail_cons, EStateM.run_bind, run_gotoNextPosition hrest]
        exact ih hrest (fun e he ↦ hsome e (List.mem_cons_of_mem _ he))
          (Nat.le_of_succ_le_succ hturns)

/-- The list is in order, and no null pointer is in it. -/
structure Listed (w : CiThreadComplex ι ω) : Prop where
  inOrder : CiUtils.InOrder w.ciThreads
  some : ∀ e ∈ w.ciThreads.lists.entries (), e.2 ≠ none

/-- The chain of the list. -/
theorem Listed.chain (h : Listed w) : ∃ es : List (Entry ι (Option ω)),
    Linked w.ciThreads.linkItems none none es ∧ (∀ e ∈ es, e.2 ≠ none) ∧
      (w.ciThreads.queues (.list ())).head = firstOr none es ∧
      es.length ≤ w.ciThreads.turns () ∧ w.attached = objects es := by
  obtain ⟨chains, hholds⟩ := h.inOrder
  have hentries : w.ciThreads.lists.entries () = chains (.list ()) := by
    rw [hholds.lists_eq]
    rfl
  refine ⟨chains (.list ()), hholds.linked _, ?_, hholds.head _, ?_, ?_⟩
  · rw [← hentries]
    exact h.some
  · rw [CiUtils.Memory.turns, hholds.nItems]
    exact Nat.le_refl _
  · rw [CiThreadComplex.attached, hentries]
    rfl

theorem run_traverse (h : Listed w) {body : Option ω → Call ι ω Unit}
    {f : ω → CiThreadComplex ι ω → CiThreadComplex ι ω}
    (hbody : ∀ x w, (body (some x)).run w = .ok () (f x w))
    (hsame : ∀ x w, (f x w).ciThreads = w.ciThreads) :
    (traverse body).run w = .ok () (w.attached.foldl (fun w x ↦ f x w) w) := by
  obtain ⟨es, hlinked, hsome, hhead, hturns, hattached⟩ := h.chain
  rw [traverse, EStateM.run_bind, EStateM.run_get]
  dsimp only
  rw [hhead, EStateM.run_bind, run_gotoNextPosition hlinked, hattached]
  exact run_traverseFrom hbody hsame hlinked hsome hturns

/-! ### A round -/

variable [DecidableEq ω]

/-- What `Run` does with a thread. -/
def serve (sc : ω → Script) (x : ω) (w : CiThreadComplex ι ω) : CiThreadComplex ι ω :=
  if (w.threads x).state ≠ .inactive then
    { w with procs := w.procs ++ [x] }.setThread x (afterTurn (sc x) (w.threads x))
  else w

theorem run_onThread {α : Type} {x : ω} {proc : EStateM Empty Lifecycle α} {a : α}
    {th : Lifecycle} (h : proc.run (w.threads x) = .ok a th) :
    (onThread x proc).run w = .ok a (w.setThread x th) := by
  rw [EStateM.run, onThread, h]

theorem run_runThread (sc : ω → Script) (x : ω) (w : CiThreadComplex ι ω) :
    (runThread sc (some x)).run w = .ok () (serve sc x w) := by
  rw [runThread, EStateM.run_bind, EStateM.run_get, serve]
  dsimp only
  split
  · exact run_onThread (w := { w with procs := w.procs ++ [x] }) (run_turn (sc x) (w.threads x))
  · rfl

/-- What a round leaves. -/
structure Served (sc : ω → Script) (xs : List ω) (w w' : CiThreadComplex ι ω) : Prop where
  ciThreads : w'.ciThreads = w.ciThreads
  bExit : w'.bExit = w.bExit
  state : w'.state = w.state
  procs : w'.procs = w.procs ++ xs.filter fun x ↦ (w'.threads x).state ≠ .inactive
  threads : ∀ x, w'.threads x = if x ∈ xs ∧ (w.threads x).state ≠ .inactive
    then afterTurn (sc x) (w.threads x) else w.threads x

theorem serve_threads (sc : ω → Script) (x y : ω) (w : CiThreadComplex ι ω) :
    (serve sc x w).threads y = if y = x ∧ (w.threads x).state ≠ .inactive
      then afterTurn (sc x) (w.threads x) else w.threads y := by
  rw [serve]
  by_cases hactive : (w.threads x).state ≠ .inactive
  · rw [if_pos hactive]
    show Function.update w.threads x _ y = _
    by_cases hy : y = x
    · rw [if_pos ⟨hy, hactive⟩, hy, Function.update_self]
    · rw [if_neg fun h ↦ hy h.1, Function.update_of_ne hy]
  · rw [if_neg hactive, if_neg fun h ↦ hactive h.2]

theorem serve_procs (sc : ω → Script) (x : ω) (w : CiThreadComplex ι ω) :
    (serve sc x w).procs = w.procs ++ if (w.threads x).state ≠ .inactive then [x] else [] := by
  rw [serve]
  split
  · rfl
  · exact (List.append_nil _).symm

theorem served_foldl (sc : ω → Script) {xs : List ω} (hxs : xs.Nodup) (w : CiThreadComplex ι ω) :
    Served sc xs w (xs.foldl (fun w x ↦ serve sc x w) w) := by
  induction xs generalizing w with
  | nil => exact ⟨rfl, rfl, rfl, (List.append_nil _).symm, fun x ↦ (if_neg (by simp)).symm⟩
  | cons x xs ih =>
    obtain ⟨hx, hxs⟩ := List.nodup_cons.mp hxs
    have h := ih hxs (serve sc x w)
    have hsame : (serve sc x w).ciThreads = w.ciThreads ∧ (serve sc x w).bExit = w.bExit ∧
        (serve sc x w).state = w.state := by
      rw [serve]
      split
      · exact ⟨rfl, rfl, rfl⟩
      · exact ⟨rfl, rfl, rfl⟩
    have hself := h.threads x
    rw [if_neg fun hin ↦ hx hin.1, serve_threads] at hself
    have hactive : ((List.foldl (fun w x ↦ serve sc x w) (serve sc x w) xs).threads x).state ≠
        .inactive ↔ (w.threads x).state ≠ .inactive := by
      rw [hself]
      split
      · next h => exact iff_of_true (afterTurn_active _ _) h.2
      · rfl
    refine ⟨h.ciThreads.trans hsame.1, h.bExit.trans hsame.2.1, h.state.trans hsame.2.2, ?_,
      fun y ↦ ?_⟩
    · rw [List.foldl_cons, h.procs, serve_procs, List.append_assoc, List.filter_cons]
      congr 1
      by_cases hin : (w.threads x).state ≠ .inactive
      · rw [if_pos hin, if_pos (decide_eq_true (hactive.mpr hin))]
        rfl
      · rw [if_neg hin, if_neg fun hd ↦ hin (hactive.mp (of_decide_eq_true hd))]
        rfl
    · rw [List.foldl_cons]
      by_cases hy : y = x
      · rw [hy, hself]
        simp
      · have hother : (serve sc x w).threads y = w.threads y := by
          rw [serve_threads, if_neg fun hin ↦ hy hin.1]
        rw [h.threads y, hother]
        simp [hy]

/-- What `ExitInstance` does with a thread. -/
def finish (sc : ω → Script) (x : ω) (w : CiThreadComplex ι ω) : CiThreadComplex ι ω :=
  w.setThread x (afterEnd (sc x) (w.threads x))

theorem run_exitThread (sc : ω → Script) (x : ω) (w : CiThreadComplex ι ω) :
    (exitThread sc (some x)).run w = .ok () (finish sc x w) := by
  have hset : (w.setThread x (endThread (w.threads x))).threads x = endThread (w.threads x) :=
    Function.update_self ..
  have hloop : (onThread x ((Lifecycle.threadClass (sc x)).runLoop 2)).run
      (w.setThread x (endThread (w.threads x))) =
      .ok true ((w.setThread x (endThread (w.threads x))).setThread x
        (afterEnd (sc x) (w.threads x))) :=
    run_onThread (by rw [hset]; exact (run_afterEnd _ _).1)
  have htwice : (w.setThread x (endThread (w.threads x))).setThread x
      (afterEnd (sc x) (w.threads x)) = finish sc x w := by
    rw [CiThreadComplex.setThread, CiThreadComplex.setThread, finish, CiThreadComplex.setThread]
    dsimp only
    rw [Function.update_idem]
  rw [exitThread, EStateM.run_bind]
  show ((do if (← onThread x ((Lifecycle.threadClass (sc x)).runLoop 2)) = false then
    throw .endless) : Call ι ω Unit).run (w.setThread x (endThread (w.threads x))) = _
  rw [EStateM.run_bind, hloop, htwice]
  rfl

/-- What `ExitInstance` leaves. -/
structure Finished (sc : ω → Script) (xs : List ω) (w w' : CiThreadComplex ι ω) : Prop where
  ciThreads : w'.ciThreads = w.ciThreads
  bExit : w'.bExit = w.bExit
  state : w'.state = w.state
  procs : w'.procs = w.procs
  threads : ∀ x, w'.threads x =
    if x ∈ xs then afterEnd (sc x) (w.threads x) else w.threads x

theorem finished_foldl (sc : ω → Script) {xs : List ω} (hxs : xs.Nodup)
    (w : CiThreadComplex ι ω) : Finished sc xs w (xs.foldl (fun w x ↦ finish sc x w) w) := by
  induction xs generalizing w with
  | nil => exact ⟨rfl, rfl, rfl, rfl, fun x ↦ (if_neg List.not_mem_nil).symm⟩
  | cons x xs ih =>
    obtain ⟨hx, hxs⟩ := List.nodup_cons.mp hxs
    have h := ih hxs (finish sc x w)
    refine ⟨h.ciThreads, h.bExit, h.state, h.procs, fun y ↦ ?_⟩
    rw [List.foldl_cons, h.threads y]
    show (if y ∈ xs then afterEnd (sc y) (Function.update w.threads x _ y)
      else Function.update w.threads x _ y) = _
    by_cases hy : y = x
    · rw [hy, if_neg hx, if_pos List.mem_cons_self, Function.update_self]
    · rw [Function.update_of_ne hy]
      simp [hy]

end HeartbeatSpec.ThreadComplex
