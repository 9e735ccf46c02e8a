import Mathlib.Logic.Function.Basic
import HeartbeatSpec.Base.Runs
import HeartbeatSpec.Thread.CiThread2

/-!
# Interleaved calls on one thread object

Library `Thread`. Any number of clients call `CreateThread`, `RunThreadHere`,
`WaitUntilExit` and `EndThread` on one `cihb::CCiThread2`, besides the workers that
`pthread_create` starts (`legacy_compatible/legacy_support.cpp:222–339`,
`legacy_compatible/legacy_support.h:127–130`). One step is one read or write of a member,
one semaphore operation or one callback. Runs are numbered in the order in which they pass
the wait of `PrepareRunning`; these numbers and the counts of callbacks are kept for
statements only and no step depends on them.
-/

namespace HeartbeatSpec.Thread
open HeartbeatSpec.Base

/-- A client or a worker. -/
abbrev Tid := Nat

/-- The two ways to start a run. -/
inductive Start where
  | createThread
  | runThreadHere
  deriving DecidableEq, Repr

/-- The members that all parties share; `runs` counts the runs that have passed the wait. -/
structure Shared where
  bExit : Bool
  state : CiThread2State
  ciThreadHandle : Nat
  semExit : Nat
  runs : Nat
  deriving DecidableEq, Repr

/-- Where a run is in the loop around `ThreadProc`,
`legacy_compatible/legacy_support.cpp:232–236,304–308,356–406`. -/
inductive LoopPc where
  | isDone
  | isDoneError
  | switch
  | initInstance
  | setInitError
  | setDoneInitInstance
  | testExit
  | run
  | setRunError
  | setDoneRun
  | exitInstance
  | testDoneRun
  | setDoneExitInstance
  | setDoneExitInstanceError
  | testDoneExitInstance
  | setDone
  | setDoneError
  deriving DecidableEq, Repr

/-- Where a party is. The run of a party that drives the loop has made `inits` calls of
`InitInstance` and `exits` calls of `ExitInstance`; a call of `WaitUntilExit` knows how many
runs had passed the wait when it began. -/
inductive Pc where
  | idle
  | startGuard (k : Start)
  | prepareExit (k : Start)
  | prepareState (k : Start)
  | prepareWait (k : Start)
  | create (run : Nat)
  | createStore (run : Nat)
  | failExit
  | failHandle
  | failPost
  | loop (run : Nat) (worker : Bool) (inits exits : Nat) (pc : LoopPc)
  | notifyExit (run : Nat) (worker : Bool) (inits exits : Nat)
  | waitTest (bound : Nat)
  | waitWait (bound : Nat)
  | waitClear (bound : Nat)
  | waitPost (bound : Nat)
  | endThread
  deriving DecidableEq, Repr

/-- The calls a client may make. -/
inductive Call where
  | start (k : Start)
  | waitUntilExit
  | endThread
  deriving DecidableEq, Repr

/-- What a step does not decide itself: the call a client makes, the result of a callback or
of `pthread_create`, the thread id that `pthread_create` stores, and the worker it starts. -/
structure Choice where
  call : Call
  result : Bool
  handle : Nat
  worker : Tid
  deriving DecidableEq, Repr

/-- All parties and the members they share. -/
structure Sys where
  shared : Shared
  pc : Tid → Pc

/-- A constructed object, `legacy_compatible/legacy_support.cpp:245–251`, before any call. -/
def Sys.initial : Sys := ⟨⟨true, .ready, 0, 1, 0⟩, fun _ ↦ .idle⟩

/-- The label of `ThreadProc` that `m_state` selects. -/
def switchTarget : CiThread2State → LoopPc
  | .ready => .initInstance
  | .doneInitInstance => .testExit
  | .doneExitInstance | .doneExitInstanceError => .testDoneExitInstance
  | .done | .doneError => .isDone
  | .doneRun | .error | .inactive => .exitInstance

/-- One step of the loop around `ThreadProc`: the members after it and the place after it,
`none` once the loop has ended. -/
def loopStep (result : Bool) (sh : Shared) : LoopPc → Shared × Option LoopPc
  | .isDone => (sh, if sh.state = .done then none else some .isDoneError)
  | .isDoneError => (sh, if sh.state = .doneError then none else some .switch)
  | .switch => (sh, some (switchTarget sh.state))
  | .initInstance => (sh, some (if result then .setDoneInitInstance else .setInitError))
  | .setInitError => ({ sh with state := .error }, some .isDone)
  | .setDoneInitInstance => ({ sh with state := .doneInitInstance }, some .testExit)
  | .testExit => (sh, some (if sh.bExit then .setDoneRun else .run))
  | .run => (sh, some (if result then .isDone else .setRunError))
  | .setRunError => ({ sh with state := .error }, some .isDone)
  | .setDoneRun => ({ sh with state := .doneRun }, some .exitInstance)
  | .exitInstance => (sh, some .testDoneRun)
  | .testDoneRun =>
    (sh, some (if sh.state = .doneRun then .setDoneExitInstance else .setDoneExitInstanceError))
  | .setDoneExitInstance =>
    ({ sh with state := .doneExitInstance }, some .testDoneExitInstance)
  | .setDoneExitInstanceError =>
    ({ sh with state := .doneExitInstanceError }, some .testDoneExitInstance)
  | .testDoneExitInstance =>
    (sh, some (if sh.state = .doneExitInstance then .setDone else .setDoneError))
  | .setDone => ({ sh with state := .done }, some .isDone)
  | .setDoneError => ({ sh with state := .doneError }, some .isDone)

/-- Calls counted: one more if the step at `pc` makes the callback of `cb`. -/
def countAt (pc cb : LoopPc) (n : Nat) : Nat := if pc = cb then n + 1 else n

/-- Where a run goes on after a step of its loop. -/
def afterLoop (run : Nat) (worker : Bool) (inits exits : Nat) : Option LoopPc → Pc
  | some pc => .loop run worker inits exits pc
  | none => .notifyExit run worker inits exits

/-- The place at which a run starts once it has passed the wait. -/
def runEntry (k : Start) (run : Nat) : Pc :=
  match k with
  | .createThread => .create run
  | .runThreadHere => .loop run false 0 0 .isDone

/-- One step of a party on its own; `none` where it is blocked. -/
def localStep (ch : Choice) (sh : Shared) : Pc → Option (Shared × Pc)
  | .idle =>
    match ch.call with
    | .start k => some (sh, .startGuard k)
    | .waitUntilExit => some (sh, .waitTest sh.runs)
    | .endThread => some (sh, .endThread)
  -- CreateThread and RunThreadHere begin alike.
  | .startGuard k => some (sh, if sh.ciThreadHandle ≠ 0 then .idle else .prepareExit k)
  | .prepareExit k => some ({ sh with bExit := false }, .prepareState k)
  | .prepareState k => some ({ sh with state := .ready }, .prepareWait k)
  | .prepareWait k =>
    if 0 < sh.semExit then
      some ({ sh with semExit := sh.semExit - 1, runs := sh.runs + 1 }, runEntry k sh.runs)
    else none
  -- A failing pthread_create may leave anything in the id; success is a step of two parties.
  | .create _ =>
    if ch.result then none else some ({ sh with ciThreadHandle := ch.handle }, .failExit)
  | .createStore _ =>
    if ch.handle ≠ 0 then some ({ sh with ciThreadHandle := ch.handle }, .idle) else none
  | .failExit => some ({ sh with bExit := true }, .failHandle)
  | .failHandle => some ({ sh with ciThreadHandle := 0 }, .failPost)
  | .failPost => some ({ sh with semExit := sh.semExit + 1 }, .idle)
  | .loop run worker inits exits pc =>
    some ((loopStep ch.result sh pc).1,
      afterLoop run worker (countAt pc .initInstance inits) (countAt pc .exitInstance exits)
        (loopStep ch.result sh pc).2)
  | .notifyExit _ _ _ _ => some ({ sh with semExit := sh.semExit + 1 }, .idle)
  | .waitTest bound => some (sh, if sh.ciThreadHandle ≠ 0 then .waitWait bound else .idle)
  | .waitWait bound =>
    if 0 < sh.semExit then some ({ sh with semExit := sh.semExit - 1 }, .waitClear bound)
    else none
  | .waitClear bound => some ({ sh with ciThreadHandle := 0 }, .waitPost bound)
  | .waitPost _ => some ({ sh with semExit := sh.semExit + 1 }, .idle)
  | .endThread => some ({ sh with bExit := true }, .idle)

/-- `pthread_create` succeeds: an idle party becomes the worker of the run and enters the
loop; the caller has yet to store the worker's id. -/
def spawn (s : Sys) (t u : Tid) (run : Nat) : Sys :=
  ⟨s.shared, Function.update (Function.update s.pc t (.createStore run)) u
    (.loop run true 0 0 .isDone)⟩

/-- One step of the system: party `t` makes its next step under choice `ch`. -/
def step (s : Sys) (l : Tid × Choice) : Option Sys :=
  match s.pc l.1, l.2.result with
  | .create run, true =>
    if s.pc l.2.worker = .idle then some (spawn s l.1 l.2.worker run) else none
  | _, _ =>
    (localStep l.2 s.shared (s.pc l.1)).map fun r ↦ ⟨r.1, Function.update s.pc l.1 r.2⟩

/-- What a step of the system is: a step of one party on its own, or a successful
`pthread_create`. -/
theorem step_cases {s s' : Sys} {t : Tid} {ch : Choice} (h : step s (t, ch) = some s') :
    (∃ sh p, localStep ch s.shared (s.pc t) = some (sh, p) ∧
      s' = ⟨sh, Function.update s.pc t p⟩) ∨
    (∃ run, s.pc t = .create run ∧ ch.result = true ∧ s.pc ch.worker = .idle ∧ t ≠ ch.worker ∧
      s' = spawn s t ch.worker run) := by
  unfold step at h
  split at h
  · next run hpc hr =>
    right
    split at h
    · next hidle =>
      refine ⟨run, hpc, hr, hidle, fun he ↦ ?_, (Option.some.inj h).symm⟩
      rw [← he, hpc] at hidle
      cases hidle
    · cases h
  · left
    obtain ⟨⟨sh, p⟩, hl, hs⟩ := Option.map_eq_some_iff.mp h
    exact ⟨sh, p, hl, hs.symm⟩

end HeartbeatSpec.Thread
