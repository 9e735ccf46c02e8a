import HeartbeatSpec.CiUtils.ListRuns
import HeartbeatSpec.Thread.LifecycleLaw

/-!
# The thread complex

Library `ThreadComplex`. The vendored `CCiThreadComplex`,
`examples/Externals/CiUtils/Src/CiThreadComplex.cpp:28–106`, a thread whose `Run` calls `ThreadProc`
of every thread in its list, and whose `ExitInstance` ends them all. What other threads do comes
between two calls of the complex's own `ThreadProc`, or within it before it goes along the list.
`AddCiThread` and `DeleteCiThread` take the lock of the list, which `Run` and `ExitInstance` are
assumed to hold meanwhile, though they ignore what their own `Lock` returns. `SetState` takes no
lock; it is called outside of a round. The threads in the list return what they like from their
callbacks, and `EndThread` is called of them at any point.
-/

namespace HeartbeatSpec.ThreadComplex
open HeartbeatSpec.Base HeartbeatSpec.Thread

/-- Objects have addresses. -/
structure Address (ω : Type) where
  toNat : ω → Nat
  injective : Function.Injective toNat
  ne_zero : ∀ x, toNat x ≠ 0

variable {ι ω : Type} [DecidableEq ι] [DecidableEq ω]

/-- `GetIDOf` and `IsIDEqual` as `CCiThreadList` has them,
`examples/Externals/CiUtils/Src/LinkedListTemplate.h:911–921`. -/
def Address.overridables (A : Address ω) : CiUtils.Overridables ω where
  getIDOf x := (x.map A.toNat).getD 0
  isIDEqual i j := i == j

/-- `m_ciThreads`, the thread objects that may be in it, and the members that the complex has as a
thread. Beside them the threads that `Run` has called `ThreadProc` of, in order; the calls that
`ExitInstance` makes are in the records of the threads alone. -/
structure CiThreadComplex (ι ω : Type) where
  ciThreads : CiUtils.Memory Unit ι ω
  threads : ω → Lifecycle
  bExit : Bool
  state : CiThread2State
  procs : List ω

/-- A member function of the complex. -/
abbrev Call (ι ω α : Type) := EStateM CiUtils.Fault (CiThreadComplex ι ω) α

/-- The complex after `PrepareRunning`, with no thread in it, and the threads after
`PrepareComplexing`. -/
def CiThreadComplex.prepared (cacheSize : Int) : CiThreadComplex ι ω :=
  ⟨CiUtils.Memory.new fun _ ↦ cacheSize, fun _ ↦ Lifecycle.prepared, false, .ready, []⟩

/-- A function of the list. -/
def onList {α : Type} (x : CiUtils.Call Unit ι ω α) : Call ι ω α := fun w ↦
  match x.run w.ciThreads with
  | .ok a m => .ok a { w with ciThreads := m }
  | .error f m => .error f { w with ciThreads := m }

/-- Change a thread. -/
def CiThreadComplex.setThread (w : CiThreadComplex ι ω) (x : ω) (th : Lifecycle) :
    CiThreadComplex ι ω :=
  { w with threads := Function.update w.threads x th }

/-- A function of a thread. -/
def onThread {α : Type} (x : ω) (proc : EStateM Empty Lifecycle α) : Call ι ω α := fun w ↦
  match proc.run (w.threads x) with
  | .ok a th => .ok a (w.setThread x th)
  | .error f _ => nomatch f

/-! ### Going along the list -/

/-- The loop of `TRAVERSELIST`, `examples/Externals/CiUtils/Src/LinkedListTemplate.h:624–629`, with
`GetCurrentItem` at the beginning of its body. -/
def traverseFrom (body : Option ω → Call ι ω Unit) : Nat → Option ι → Option ι → Call ι ω Unit
  | _, none, _ => pure ()
  | 0, some _, _ => throw .endless
  | turns + 1, some p, ulPositionNext => do
    body (← onList (CiUtils.getCurrentItem (some p)))
    traverseFrom body turns ulPositionNext (← onList (CiUtils.gotoNextPosition ulPositionNext))

/-- `TRAVERSELIST` of `m_ciThreads`. -/
def traverse (body : Option ω → Call ι ω Unit) : Call ι ω Unit := do
  let m := (← get).ciThreads
  let ulPosition := (m.queues (.list ())).head
  traverseFrom body (m.turns ()) ulPosition (← onList (CiUtils.gotoNextPosition ulPosition))

/-- What `Run` does with a thread, `examples/Externals/CiUtils/Src/CiThreadComplex.cpp:73–78`. -/
def runThread (sc : ω → Script) : Option ω → Call ι ω Unit
  | none => throw .invalidPointer
  | some pCiThread => do
    if ((← get).threads pCiThread).state ≠ .inactive then
      modify fun w ↦ { w with procs := w.procs ++ [pCiThread] }
      onThread pCiThread (Lifecycle.threadClass (sc pCiThread)).turn

/-- `EndThread` of a thread, `examples/Externals/CiUtils/Src/CiThread2.h:109–112`. -/
def endThread (th : Lifecycle) : Lifecycle := ⟨true, th.state, th.log ++ [.endThread]⟩

/-- What `ExitInstance` does with a thread; its loop takes two turns at most,
`examples/Externals/CiUtils/Src/CiThreadComplex.cpp:94–100`. -/
def exitThread (sc : ω → Script) : Option ω → Call ι ω Unit
  | none => throw .invalidPointer
  | some pCiThread => do
    modify fun w ↦ w.setThread pCiThread (endThread (w.threads pCiThread))
    if (← onThread pCiThread ((Lifecycle.threadClass (sc pCiThread)).runLoop 2)) = false then
      throw .endless

/-- The loop of `GetRawNRunningThreads`,
`examples/Externals/CiUtils/Src/CiThreadComplex.cpp:56–61`. -/
def countFrom : Nat → Option ι → Option ι → Int → Call ι ω Int
  | _, none, _, iNRunningThreads => pure iNRunningThreads
  | 0, some _, _, _ => throw .endless
  | turns + 1, some p, ulPositionNext, iNRunningThreads => do
    match ← onList (CiUtils.getCurrentItem (some p)) with
    | none => throw .invalidPointer
    | some pCiThread =>
      let n := if ((← get).threads pCiThread).state ≠ .inactive then iNRunningThreads + 1
        else iNRunningThreads
      countFrom turns ulPositionNext (← onList (CiUtils.gotoNextPosition ulPositionNext)) n

/-- `GetRawNRunningThreads`, `examples/Externals/CiUtils/Src/CiThreadComplex.cpp:50–64`. -/
def getRawNRunningThreads : Call ι ω Int := do
  let m := (← get).ciThreads
  let ulPosition := (m.queues (.list ())).head
  countFrom (m.turns ()) ulPosition (← onList (CiUtils.gotoNextPosition ulPosition)) 0

/-! ### Other threads -/

/-- A call that another thread makes, with what `new` does and how the lock and the unlock of the
list return. -/
inductive OtherCall (ι ω : Type) where
  | addCiThread (pCiThread : Option ω) (new : CiUtils.Allocator ι ω) (lock unlock : Bool)
  | deleteCiThread (pCiThread : Option ω) (lock unlock : Bool)
  | setState (pCiThread : ω) (state : CiThread2State)
  | endThread

/-- `AddCiThread`, `examples/Externals/CiUtils/Src/CiThreadComplex.cpp:28–31`. -/
def addCiThread (A : Address ω) (new : CiUtils.Allocator ι ω) (lock unlock : Bool)
    (pCiThread : Option ω) : Call ι ω Bool :=
  onList (CiUtils.safely lock unlock (CiUtils.addItem A.overridables new () pCiThread))

/-- `DeleteCiThread`, `examples/Externals/CiUtils/Src/CiThreadComplex.cpp:33–36`. -/
def deleteCiThread (A : Address ω) (lock unlock : Bool) (pCiThread : Option ω) : Call ι ω Bool :=
  onList (CiUtils.safely lock unlock (CiUtils.deleteItem A.overridables () pCiThread true))

def OtherCall.run (A : Address ω) : OtherCall ι ω → Call ι ω Unit
  | addCiThread pCiThread new lock unlock => do
    let _ ← ThreadComplex.addCiThread A new lock unlock pCiThread
  | deleteCiThread pCiThread lock unlock => do
    let _ ← ThreadComplex.deleteCiThread A lock unlock pCiThread
  | setState pCiThread state =>
    modify fun w ↦ w.setThread pCiThread { w.threads pCiThread with state := state }
  | endThread => modify fun w ↦ { w with bExit := true }

def others (A : Address ω) (calls : List (OtherCall ι ω)) : Call ι ω Unit :=
  calls.forM fun call ↦ call.run A

/-! ### The complex as a thread -/

/-- What other threads do before a call of the complex's `ThreadProc`, and within it before the list
is locked. -/
structure ComplexTurn (ι ω : Type) where
  before : List (OtherCall ι ω)
  inside : List (OtherCall ι ω)

/-- The complex as an object of class `::CCiThread2`; `Run` and `ExitInstance` are those of
`examples/Externals/CiUtils/Src/CiThreadComplex.cpp:66–106`. -/
def threadClass (A : Address ω) (sc : ω → Script) (l : ComplexTurn ι ω) :
    CiThread2Class CiUtils.Fault (CiThreadComplex ι ω) where
  bExit := CiThreadComplex.bExit
  state := CiThreadComplex.state
  setState st w := { w with state := st }
  initInstance := pure true
  run := do
    others A l.inside
    traverse (runThread sc)
    pure true
  exitInstance := do
    others A l.inside
    traverse (exitThread sc)
    pure true
  betweenProcs := others A l.before
  beforeTest := pure ()

/-- One turn of the loop of `RunThreadHere` or of the thread entry, which goes on until the complex
is done, `examples/Externals/CiUtils/Src/CiThread2.cpp:34–36,108–110`. -/
def complexStep (A : Address ω) (sc : ω → Script) (w : CiThreadComplex ι ω)
    (l : ComplexTurn ι ω) : Option (CiThreadComplex ι ω) :=
  if w.state.isThreadDone then none
  else
    match (threadClass A sc l).turn.run w with
    | .ok _ w' => some w'
    | .error _ _ => none

/-- The threads in the list. -/
def CiThreadComplex.attached (w : CiThreadComplex ι ω) : List ω :=
  (w.ciThreads.lists.entries ()).filterMap Prod.snd

/-- Those of them that are not inactive. -/
def CiThreadComplex.active (w : CiThreadComplex ι ω) : List ω :=
  w.attached.filter fun x ↦ (w.threads x).state ≠ .inactive

end HeartbeatSpec.ThreadComplex
