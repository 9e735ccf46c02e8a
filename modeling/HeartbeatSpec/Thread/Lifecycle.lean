import HeartbeatSpec.Thread.CiThread2

/-!
# Lifecycle of one run

Library `Thread`. One run of the loop around `ThreadProc` over an object whose callbacks
return arbitrary results and on which `EndThread` is called at arbitrary points: between
two calls, before the exit flag is tested, before a callback starts, and inside it. The
object records what happened to it.
-/

namespace HeartbeatSpec.Thread

/-- The three virtual callbacks of `ThreadProc`. -/
inductive Callback where
  | initInstance
  | run
  | exitInstance
  deriving DecidableEq, Repr

/-- What happens to an object during a run. -/
inductive LifecycleEvent where
  | call (cb : Callback)
  | ret (cb : Callback) (result : Bool)
  | test (bExit : Bool)
  | endThread
  deriving DecidableEq, Repr

/-- Results of the callbacks, and the points at which `EndThread` is called. A point is
known by the number of events before it. -/
structure Script where
  result : Nat → Bool
  endThread : Nat → Bool

/-- An object with the thread part only, and what has happened to it. -/
structure Lifecycle where
  bExit : Bool
  state : CiThread2State
  log : List LifecycleEvent
  deriving DecidableEq, Repr

namespace Lifecycle

/-- The state that `PrepareRunning` establishes,
`legacy_compatible/legacy_support.cpp:332–339`. -/
def prepared : Lifecycle := ⟨false, .ready, []⟩

/-- A point at which `EndThread` may be called, `legacy_compatible/legacy_support.h:127–130`. -/
def point (sc : Script) (w : Lifecycle) : Lifecycle :=
  if sc.endThread w.log.length then ⟨true, w.state, w.log ++ [.endThread]⟩ else w

/-- Record one event. -/
def record (ev : LifecycleEvent) (w : Lifecycle) : Lifecycle := { w with log := w.log ++ [ev] }

/-- Recording leaves the exit flag. -/
@[simp] theorem bExit_record (ev : LifecycleEvent) (w : Lifecycle) :
    (w.record ev).bExit = w.bExit := rfl

/-- A callback, with points before and inside it. -/
def callback (sc : Script) (cb : Callback) (w : Lifecycle) : Bool × Lifecycle :=
  let inside := (((w.point sc).record (.call cb)).point sc)
  let result := sc.result inside.log.length
  (result, inside.record (.ret cb result))

/-- The object as a thread class. -/
def threadClass (sc : Script) : CiThread2Class Empty Lifecycle where
  bExit w := w.bExit
  state w := w.state
  setState s w := { w with state := s }
  initInstance := modifyGet (callback sc .initInstance)
  run := modifyGet (callback sc .run)
  exitInstance := modifyGet (callback sc .exitInstance)
  betweenProcs := modify (point sc)
  beforeTest := modify fun w ↦ (w.point sc).record (.test (w.point sc).bExit)

/-- The callbacks made so far, with their results. -/
def callbacks : List LifecycleEvent → List (Callback × Bool)
  | [] => []
  | .ret cb result :: rest => (cb, result) :: callbacks rest
  | _ :: rest => callbacks rest

/-- A run of callbacks from the first to `ExitInstance`. -/
def Complete (cs : List (Callback × Bool)) : Prop :=
  (∃ r, cs = [(.initInstance, false), (.exitInstance, r)]) ∨
  (∃ k r, cs = (.initInstance, true) :: List.replicate k (.run, true) ++ [(.exitInstance, r)]) ∨
  (∃ k r, cs = (.initInstance, true) :: List.replicate k (.run, true) ++
    [(.run, false), (.exitInstance, r)])

/-- `InitInstance` succeeded and no `Run` failed. -/
def Succeeded (cs : List (Callback × Bool)) : Prop :=
  (.initInstance, true) ∈ cs ∧ (.run, false) ∉ cs

/-- Events between which only `EndThread` calls happen. -/
def Quiet (es : List LifecycleEvent) : Prop := ∀ e ∈ es, e = .endThread

/-- Every started `Run` comes after its own test of the exit flag, with nothing but
`EndThread` calls in between, and no `EndThread` call came before that test. -/
def RunsGuarded (log : List LifecycleEvent) : Prop :=
  ∀ pre post, log = pre ++ .call .run :: post →
    ∃ before quiet, pre = before ++ .test false :: quiet ∧ Quiet quiet ∧ .endThread ∉ before

/-! ### What happens between two states -/

/-- Only events `es` happened between `w` and `w'`, and the exit flag is set by them alone. -/
structure Extends (w : Lifecycle) (es : List LifecycleEvent) (w' : Lifecycle) : Prop where
  log_eq : w'.log = w.log ++ es
  state_eq : w'.state = w.state
  bExit_iff : w'.bExit = true ↔ w.bExit = true ∨ .endThread ∈ es

/-- Consecutive extensions compose. -/
theorem Extends.trans {w₁ w₂ w₃ : Lifecycle} {es fs : List LifecycleEvent}
    (h : Extends w₁ es w₂) (h' : Extends w₂ fs w₃) : Extends w₁ (es ++ fs) w₃ where
  log_eq := by rw [h'.log_eq, h.log_eq, List.append_assoc]
  state_eq := h'.state_eq.trans h.state_eq
  bExit_iff := by rw [h'.bExit_iff, h.bExit_iff, List.mem_append, or_assoc]

/-- At a point only `EndThread` may happen. -/
theorem extends_point (sc : Script) (w : Lifecycle) :
    ∃ es, Extends w es (w.point sc) ∧ Quiet es := by
  unfold point
  split
  · exact ⟨[.endThread], ⟨rfl, rfl, by simp⟩, by simp [Quiet]⟩
  · exact ⟨[], ⟨by simp, rfl, by simp⟩, by simp [Quiet]⟩

/-- Recording an event that is not an `EndThread` call leaves the exit flag. -/
theorem extends_record (ev : LifecycleEvent) (hev : ev ≠ .endThread) (w : Lifecycle) :
    Extends w [ev] (w.record ev) :=
  ⟨rfl, rfl, by simp [record, hev.symm]⟩

/-- The events of a callback: its call and its return, amid `EndThread` calls. -/
theorem extends_callback (sc : Script) (cb : Callback) (w : Lifecycle) :
    ∃ before inside, Quiet before ∧ Quiet inside ∧
      Extends w (before ++ .call cb :: (inside ++ [.ret cb (callback sc cb w).1]))
        (callback sc cb w).2 := by
  obtain ⟨before, hb, hqb⟩ := extends_point sc w
  have hc := extends_record (.call cb) (by simp) (w.point sc)
  obtain ⟨inside, hi, hqi⟩ := extends_point sc ((w.point sc).record (.call cb))
  have hr := extends_record (.ret cb (callback sc cb w).1) (by simp)
    (((w.point sc).record (.call cb)).point sc)
  refine ⟨before, inside, hqb, hqi, ?_⟩
  have h := ((hb.trans hc).trans hi).trans hr
  simp only [List.append_assoc, List.singleton_append] at h
  exact h

/-- The events before a test and the test itself. -/
theorem extends_test (sc : Script) (w : Lifecycle) :
    ∃ es, Quiet es ∧ Extends w (es ++ [.test (w.point sc).bExit])
      ((w.point sc).record (.test (w.point sc).bExit)) := by
  obtain ⟨es, he, hq⟩ := extends_point sc w
  exact ⟨es, hq, he.trans (extends_record _ (by simp) _)⟩

/-! ### Reading the log -/

/-- Callbacks of consecutive events are consecutive. -/
theorem callbacks_append (es fs : List LifecycleEvent) :
    callbacks (es ++ fs) = callbacks es ++ callbacks fs := by
  induction es with
  | nil => rfl
  | cons e es ih => cases e <;> simp [callbacks, ih]

/-- `EndThread` calls are no callbacks. -/
theorem callbacks_of_quiet {es : List LifecycleEvent} (h : Quiet es) : callbacks es = [] := by
  induction es with
  | nil => rfl
  | cons e es ih =>
    have he := h e (by simp)
    subst he
    exact ih fun e he ↦ h e (by simp [he])

/-- A callback is made once. -/
theorem callbacks_of_callback {before inside : List LifecycleEvent} (cb : Callback) (r : Bool)
    (hb : Quiet before) (hi : Quiet inside) :
    callbacks (before ++ .call cb :: (inside ++ [.ret cb r])) = [(cb, r)] := by
  simp [callbacks_append, callbacks, callbacks_of_quiet hb, callbacks_of_quiet hi]

private theorem call_not_mem_quiet {es : List LifecycleEvent} (h : Quiet es) (cb : Callback) :
    .call cb ∉ es := by
  intro hm
  cases h _ hm

/-- Events that start no `Run` keep the runs guarded. -/
theorem RunsGuarded.append {log es : List LifecycleEvent} (h : RunsGuarded log)
    (hes : .call .run ∉ es) : RunsGuarded (log ++ es) := by
  intro pre post he
  rcases List.append_eq_append_iff.mp he with ⟨mid, hpre, hes'⟩ | ⟨mid, hlog, hpost⟩
  · exact absurd (by rw [hes']; simp) hes
  · cases mid with
    | nil => exact absurd (by rw [← List.nil_append es, ← hpost]; simp) hes
    | cons e mid =>
      obtain ⟨rfl, -⟩ := List.cons.inj hpost
      exact h pre mid hlog

/-- A `Run` started after its test, with no `EndThread` call before that test, is guarded. -/
theorem RunsGuarded.append_run {log quiet es : List LifecycleEvent} (h : RunsGuarded log)
    (hlog : .endThread ∉ log) (hq : Quiet quiet) (hes : .call .run ∉ es) :
    RunsGuarded (log ++ .test false :: (quiet ++ .call .run :: es)) := by
  intro pre post he
  have hsplit : log ++ .test false :: (quiet ++ .call .run :: es) =
      (log ++ .test false :: quiet) ++ .call .run :: es := by simp
  rw [hsplit] at he
  rcases List.append_eq_append_iff.mp he with ⟨mid, hpre, hes'⟩ | ⟨mid, hlog', hpost⟩
  · cases mid with
    | nil => exact ⟨log, quiet, by simpa using hpre, hq, hlog⟩
    | cons e mid =>
      obtain ⟨-, hes''⟩ := List.cons.inj hes'
      exact absurd (by rw [hes'']; simp) hes
  · cases mid with
    | nil => exact ⟨log, quiet, by simpa using hlog'.symm, hq, hlog⟩
    | cons e mid =>
      obtain ⟨rfl, -⟩ := List.cons.inj hpost
      have hg : RunsGuarded (log ++ .test false :: quiet) :=
        h.append (by simpa using call_not_mem_quiet hq .run)
      exact hg pre mid hlog'

end Lifecycle
end HeartbeatSpec.Thread
