import Mathlib.Data.Int.Order.Basic
import HeartbeatSpec.Base.NodeSet
import HeartbeatSpec.Select.FdSets
import HeartbeatSpec.Thread.CiThread2

/-!
# The network thread, select build

Library `Select`. `cihb::CNetworkThread` as it is built where `_WIN32` is defined,
`legacy_compatible/legacy_support.cpp:412–768`. `select` answers with an arbitrary outcome, what
a subclass overrides is a parameter, and an iterator of `m_ReadSockets` is checked wherever it
is read or advanced.
-/

namespace HeartbeatSpec.Select
open HeartbeatSpec.Base HeartbeatSpec.Thread
open HeartbeatSpec.Legacy (invalidSocket)

/-- How `select` returns: its result, whether `errno` is `WSAEINTR`, and which sockets are
ready. -/
structure SelectOutcome where
  ret : Int
  interrupted : Bool
  ready : Int → Bool

/-- What is recorded: system calls with their arguments and results. -/
inductive SysEvent where
  | select (nfds : Int) (sockets : List Int) (timeout : Int) (ret : Int)
  | msleep (msec : Int)
  | close (sockfd : Int)
  deriving DecidableEq, Repr

/-- Why a function does not return: reading or advancing an iterator that is past the end, or
whose member is gone, has no defined meaning. `outOfTurns` is of the model alone, where a loop
takes more turns than it has been given. -/
inductive Fault where
  | invalidIterator
  | outOfTurns
  deriving DecidableEq, Repr

/-- The members of `CNetworkThread` and of its base `CCiThread2`. -/
structure NetworkThread where
  bExit : Bool
  state : CiThread2State
  readSockets : NodeSet Int
  fdSets : FdSets
  eventsCount : Int
  timeoutMillisec : Int

/-- An object whose subclass has members `δ`, the outcomes of `select` to come, and what happened
so far. -/
structure World (δ : Type) where
  thread : NetworkThread
  own : δ
  env : Nat → SelectOutcome
  trace : List SysEvent

/-- A member function. -/
abbrev Call (δ α : Type) := EStateM Fault (World δ) α

variable {δ : Type}

/-- The members after `CNetworkThread::CNetworkThread`,
`legacy_compatible/legacy_support.cpp:245–251,412–436`. -/
def NetworkThread.new (timeoutMillisec : Int) : NetworkThread :=
  ⟨true, .ready, .empty, .zero, 0, timeoutMillisec⟩

/-- Change members of the thread. -/
def World.withThread (f : NetworkThread → NetworkThread) (w : World δ) : World δ :=
  { w with thread := f w.thread }

/-- Record an event. -/
def World.record (ev : SysEvent) (w : World δ) : World δ := { w with trace := w.trace ++ [ev] }

/-- The environment has given its next answer. -/
def World.next (w : World δ) : World δ := { w with env := fun k ↦ w.env (k + 1) }

/-- Ask the environment. -/
def consult : Call δ SelectOutcome := modifyGet fun w ↦ (w.env 0, w.next)

/-- Record an event. -/
def emit (ev : SysEvent) : Call δ Unit := modify (World.record ev)

/-- Change members of the thread. -/
def modifyThread (f : NetworkThread → NetworkThread) : Call δ Unit := modify (World.withThread f)

@[simp] theorem run_consult (w : World δ) : consult.run w = .ok (w.env 0) w.next := rfl

@[simp] theorem run_emit (ev : SysEvent) (w : World δ) : (emit ev).run w = .ok () (w.record ev) :=
  rfl

@[simp] theorem run_modifyThread (f : NetworkThread → NetworkThread) (w : World δ) :
    (modifyThread f).run w = .ok () (w.withThread f) := rfl

/-- What a subclass overrides; a received message is `none` where `ReceiveIntMessage`
returns false. `others` is a point at which other threads call the object. -/
structure Overrides (δ : Type) where
  receiveIntMessage : Int → Call δ (Option Int32)
  onMessage : Int → Int32 → Call δ Bool
  onReadSocketError : Int → Call δ Bool
  others : Call δ Unit

/-! ### Sockets -/

/-- `nu_disconnect`, `legacy_compatible/legacy_support.cpp:117–124`; its result is never used. -/
def nuDisconnect (sock : Int) : Call δ Unit := emit (.close sock)

/-- A function on the socket sets. -/
def onSets (f : FdSets → Bool × FdSets) : Call δ Bool :=
  modifyGet fun w ↦
    ((f w.thread.fdSets).1, w.withThread fun th ↦ { th with fdSets := (f th.fdSets).2 })

/-- `DeleteReadSocket`, `legacy_compatible/legacy_support.cpp:585–593`. -/
def deleteReadSocket (sockfd : Int) : Call δ Bool :=
  if sockfd = invalidSocket then pure false
  else do
    modifyThread fun th ↦ { th with readSockets := th.readSockets.erase sockfd }
    pure true

/-- `DisableSocket`, `legacy_compatible/legacy_support.cpp:740–757`. -/
def disableSocket (sockfd : Int) : Call δ Bool :=
  if sockfd = invalidSocket then pure false
  else do
    let _ ← onSets (FdSets.fdSetDelete sockfd)
    nuDisconnect sockfd
    pure true

/-- `CNetworkThread::OnReadSocketError`, `legacy_compatible/legacy_support.cpp:759–768`. -/
def onReadSocketError (sockfd : Int) : Call δ Bool :=
  if sockfd = invalidSocket then pure false
  else do
    let _ ← disableSocket sockfd
    let _ ← deleteReadSocket sockfd
    pure true

/-- `CNetworkThread::ExitInstance`, `legacy_compatible/legacy_support.cpp:595–622`. -/
def exitInstance : Call δ Bool := do
  (← get).thread.readSockets.members.forM nuDisconnect
  modifyThread fun th ↦
    { th with readSockets := th.readSockets.clear, fdSets := .zero, eventsCount := 0 }
  pure true

/-! ### The event loop -/

/-- `WaitNetworkEvent` with the address of `m_iEventsCount`,
`legacy_compatible/legacy_support.cpp:641–677`. A failing `select` leaves the set alone. -/
def waitNetworkEvent : Call δ Bool := do
  modifyThread fun th ↦ { th with fdSets := th.fdSets.copy }
  let th := (← get).thread
  let o ← consult
  emit (.select (th.fdSets.maximumSocket + 1) th.fdSets.fdSetRead.fdArray th.timeoutMillisec o.ret)
  if o.ret < 0 then
    if o.interrupted then
      modifyThread fun th ↦ { th with eventsCount := 0 }
      pure false
    else
      emit (.msleep th.timeoutMillisec)
      modifyThread fun th ↦ { th with eventsCount := o.ret }
      pure true
  else
    modifyThread fun th ↦ { th with fdSets := th.fdSets.select o.ready, eventsCount := o.ret }
    pure true

/-- `*i` for an iterator of `m_ReadSockets`. -/
def deref (i : Iterator Int) : Call δ Int := do
  match (← get).thread.readSockets.deref i with
  | some sockfd => pure sockfd
  | none => throw .invalidIterator

/-- `++i` for an iterator of `m_ReadSockets`. -/
def advance (i : Iterator Int) : Call δ (Iterator Int) := do
  match (← get).thread.readSockets.advance i with
  | some i' => pure i'
  | none => throw .invalidIterator

/-- The condition of `ProcessReadEvent` on a member,
`legacy_compatible/legacy_support.cpp:684`. -/
def isReadable (i : Iterator Int) : Call δ Bool := do
  if (← deref i) ≠ invalidSocket then
    let sockfd ← deref i
    pure ((← get).thread.fdSets.isReadable sockfd)
  else pure false

/-- What `ProcessReadEvent` does with a readable member: every call takes the descriptor from
the iterator anew, `legacy_compatible/legacy_support.cpp:686–698`. -/
def processMember (ov : Overrides δ) (i : Iterator Int) : Call δ Unit := do
  match ← ov.receiveIntMessage (← deref i) with
  | some iMessage =>
    if (← ov.onMessage (← deref i) iMessage) = false then
      let _ ← ov.onReadSocketError (← deref i)
  | none =>
    let _ ← ov.onReadSocketError (← deref i)

/-- The loop of `ProcessReadEvent` from an iterator on, in a number of turns. -/
def processFrom (ov : Overrides δ) : Nat → Iterator Int → Call δ Unit
  | _, none => pure ()
  | 0, some _ => throw .outOfTurns
  | turns + 1, some n => do
    if ← isReadable (some n) then
      processMember ov (some n)
      modifyThread fun th ↦ { th with eventsCount := th.eventsCount - 1 }
      if (← get).thread.eventsCount ≤ 0 then pure ()
      else processFrom ov turns (← advance (some n))
    else processFrom ov turns (← advance (some n))

/-- `ProcessReadEvent`, `legacy_compatible/legacy_support.cpp:679–705,736–737`. -/
def processReadEvent (ov : Overrides δ) (turns : Nat) : Call δ Bool := do
  processFrom ov turns (← get).thread.readSockets.begin
  pure true

/-- `CNetworkThread::Run`, `legacy_compatible/legacy_support.cpp:624–638`. -/
def run (ov : Overrides δ) (turns : Nat) : Call δ Bool := do
  ov.others
  if (← get).thread.bExit = false then
    if ← waitNetworkEvent then
      ov.others
      if (← get).thread.bExit = false ∧ 0 < (← get).thread.eventsCount then
        let _ ← processReadEvent ov turns
  pure true

end HeartbeatSpec.Select
