import Mathlib.Data.Finset.Sort
import HeartbeatSpec.Legacy.PollTable
import HeartbeatSpec.Message.Defines
import HeartbeatSpec.Thread.CiThread2

/-!
# The network thread

Library `Legacy`. `cihb::CNetworkThread`, poll build,
`legacy_compatible/legacy_support.cpp:412–768`, with what it calls: the operating system
answers every call with an arbitrary outcome, other threads call the object at the points
where it reads a member they write, and everything is recorded. What a subclass overrides is
a parameter.
-/

namespace HeartbeatSpec.Legacy
open HeartbeatSpec.Message HeartbeatSpec.Thread

/-- What other threads do to a responder: `EndThread`, and the `SetProcess` functions. -/
inductive ClientCall where
  | endThread
  | setProcess (state : CiHBState)
  deriving DecidableEq, Repr

/-- How `poll` returns: its result, whether `errno` is `EINTR`, and the returned events. -/
structure PollOutcome where
  ret : Int
  interrupted : Bool
  revents : Nat → UInt16

/-- How `recvfrom` with a buffer of eight bytes returns. A datagram is delivered with its
first eight bytes and its sender; any other outcome may leave anything behind. -/
inductive RecvOutcome where
  | datagram (d : Datagram)
  | other (ret : Int) (stored : List UInt8) (sender : Option Endpoint)
  deriving DecidableEq, Repr

/-- The result of `recvfrom`. -/
def RecvOutcome.ret : RecvOutcome → Int
  | datagram d => (min d.bytes.length 8 : Nat)
  | other ret _ _ => ret

/-- The bytes that `recvfrom` stores, at most eight. -/
def RecvOutcome.stored : RecvOutcome → List UInt8
  | datagram d => d.bytes.take 8
  | other _ stored _ => stored.take 8

/-- The address that `recvfrom` stores, if any. -/
def RecvOutcome.sender : RecvOutcome → Option Endpoint
  | datagram d => some d.sender
  | other _ _ sender => sender

/-- A datagram is received, or the call fails. -/
def RecvOutcome.IsUdp : RecvOutcome → Prop
  | datagram _ => True
  | other ret _ _ => ret < 0

/-- What the environment answers at one point; a point uses the part it asks for. -/
structure Outcome where
  clients : List ClientCall
  socket : Int
  setsockopt : Int
  bind : Int
  poll : PollOutcome
  recvfrom : RecvOutcome
  sendto : Int

/-- What is recorded: system calls with their arguments and results, and the calls of other
threads. -/
inductive SysEvent where
  | socket (ret : Int)
  | setsockopt (sockfd : Int) (ret : Int)
  | bind (sockfd : Int) (port : UInt16) (ret : Int)
  | poll (fds : List (Int × UInt16)) (timeout : Int) (ret : Int)
  | msleep (msec : Int)
  | recvfrom (sockfd : Int) (outcome : RecvOutcome)
  | sendto (sockfd : Int) (bytes : List UInt8) (dest : Endpoint) (ret : Int)
  | close (sockfd : Int)
  | client (call : ClientCall)
  deriving DecidableEq, Repr

/-- Why a function does not return: `new` with a negative size throws a `std::bad_alloc`, and a
write outside the allocated storage or a use of bytes never written has no defined meaning. -/
inductive Fault where
  | badAlloc
  | bufferOverrun
  | uninitialisedRead
  deriving DecidableEq, Repr

/-- The members of `CNetworkThread` and of its base `CCiThread2`. -/
structure NetworkThread where
  bExit : Bool
  state : CiThread2State
  readSockets : Finset Int
  pollFds : PollTable
  eventsCount : Int
  timeoutMillisec : Int

/-- `m_ReadSockets` as a `std::set` is iterated. -/
def NetworkThread.socketsInOrder (th : NetworkThread) : List Int := th.readSockets.sort (· ≤ ·)

@[simp] theorem NetworkThread.mem_socketsInOrder {th : NetworkThread} {sockfd : Int} :
    sockfd ∈ th.socketsInOrder ↔ sockfd ∈ th.readSockets := Finset.mem_sort _

theorem NetworkThread.nodup_socketsInOrder (th : NetworkThread) : th.socketsInOrder.Nodup :=
  Finset.sort_nodup _ _

@[simp] theorem NetworkThread.toFinset_socketsInOrder (th : NetworkThread) :
    th.socketsInOrder.toFinset = th.readSockets := Finset.sort_toFinset _ _

/-- An object whose subclass has members `δ`, the environment's answers to come, and what
happened so far. -/
structure World (δ : Type) where
  thread : NetworkThread
  own : δ
  env : Nat → Outcome
  trace : List SysEvent

/-- A member function. -/
abbrev Call (δ α : Type) := EStateM Fault (World δ) α

variable {δ : Type}

/-- The members after `CNetworkThread::CNetworkThread`,
`legacy_compatible/legacy_support.cpp:245–251,412–436`. -/
def NetworkThread.new (timeoutMillisec : Int) : NetworkThread :=
  ⟨true, .ready, ∅, .empty, 0, timeoutMillisec⟩

/-- Change members of the thread. -/
def World.withThread (f : NetworkThread → NetworkThread) (w : World δ) : World δ :=
  { w with thread := f w.thread }

/-- Record an event. -/
def World.record (ev : SysEvent) (w : World δ) : World δ := { w with trace := w.trace ++ [ev] }

/-- The environment has given its next answer. -/
def World.next (w : World δ) : World δ := { w with env := fun k ↦ w.env (k + 1) }

/-- Ask the environment. -/
def consult : Call δ Outcome := modifyGet fun w ↦ (w.env 0, w.next)

/-- Record an event. -/
def emit (ev : SysEvent) : Call δ Unit := modify (World.record ev)

/-- Change members of the thread. -/
def modifyThread (f : NetworkThread → NetworkThread) : Call δ Unit := modify (World.withThread f)

/-- What a subclass overrides; a received message is `none` where `ReceiveIntMessage`
returns false. `others` is a point at which other threads call the object. -/
structure Overrides (δ : Type) where
  receiveIntMessage : Int → Call δ (Option Int32)
  onMessage : Int → Int32 → Call δ Bool
  onReadSocketError : Int → Call δ Bool
  others : Call δ Unit

/-- Calls by other threads: `endThread` sets the exit flag, and `set` does the rest. -/
def clientCalls (set : CiHBState → δ → δ) : List ClientCall → World δ → World δ
  | [], w => w
  | .endThread :: rest, w =>
    clientCalls set rest ((w.withThread fun th ↦ { th with bExit := true }).record
      (.client .endThread))
  | .setProcess st :: rest, w =>
    clientCalls set rest ({ w with own := set st w.own }.record (.client (.setProcess st)))

/-- A point at which other threads call the object. -/
def othersCall (set : CiHBState → δ → δ) : Call δ Unit := do
  let o ← consult
  modify (clientCalls set o.clients)

/-! ### Sockets -/

/-- `nu_disconnect`, `legacy_compatible/legacy_support.cpp:117–124`; its result is never used. -/
def nuDisconnect (sock : Int) : Call δ Unit := emit (.close sock)

/-- A function on the poll table. -/
def onTable (f : PollTable → Bool × PollTable) : Call δ Bool :=
  modifyGet fun w ↦
    ((f w.thread.pollFds).1, w.withThread fun th ↦ { th with pollFds := (f th.pollFds).2 })

/-- `AddReadSocket`, `legacy_compatible/legacy_support.cpp:575–583`. -/
def addReadSocket (sockfd : Int) : Call δ Bool :=
  if sockfd = invalidSocket then pure false
  else do
    modifyThread fun th ↦ { th with readSockets := insert sockfd th.readSockets }
    pure true

/-- `DeleteReadSocket`, `legacy_compatible/legacy_support.cpp:585–593`. -/
def deleteReadSocket (sockfd : Int) : Call δ Bool :=
  if sockfd = invalidSocket then pure false
  else do
    modifyThread fun th ↦ { th with readSockets := th.readSockets.erase sockfd }
    pure true

/-- `DisableSocket`, `legacy_compatible/legacy_support.cpp:740–757`. -/
def disableSocket (sockfd : Int) : Call δ Bool :=
  if sockfd = invalidSocket then pure false
  else do
    let _ ← onTable (PollTable.pollFDDelete sockfd)
    nuDisconnect sockfd
    pure true

/-- `CNetworkThread::OnReadSocketError`, `legacy_compatible/legacy_support.cpp:759–768`. -/
def onReadSocketError (sockfd : Int) : Call δ Bool :=
  if sockfd = invalidSocket then pure false
  else do
    let _ ← disableSocket sockfd
    let _ ← deleteReadSocket sockfd
    pure true

/-- `CNetworkThread::ExitInstance`, `legacy_compatible/legacy_support.cpp:595–622`. -/
def exitInstance : Call δ Bool := do
  (← get).thread.socketsInOrder.forM nuDisconnect
  modifyThread fun th ↦ { th with readSockets := ∅, pollFds := .empty, eventsCount := 0 }
  pure true

/-! ### The event loop -/

/-- `WaitNetworkEvent` with the address of `m_iEventsCount`, poll build,
`legacy_compatible/legacy_support.cpp:641–677`. A failing `poll` leaves the table alone. -/
def waitNetworkEvent : Call δ Bool := do
  let th := (← get).thread
  let o := (← consult).poll
  emit (.poll ((List.range th.pollFds.count).map fun i ↦
    ((th.pollFds.fds i).fd, (th.pollFds.fds i).events)) th.timeoutMillisec o.ret)
  if o.ret < 0 then
    if o.interrupted then
      modifyThread fun th ↦ { th with eventsCount := 0 }
      pure false
    else
      emit (.msleep th.timeoutMillisec)
      modifyThread fun th ↦ { th with eventsCount := o.ret }
      pure true
  else
    modifyThread fun th ↦ { th with pollFds := th.pollFds.report o.revents, eventsCount := o.ret }
    pure true

/-- The descriptor that the entry at `i` holds now. -/
def fdAt (i : Nat) : Call δ Int := do
  pure ((← get).thread.pollFds.fds i).fd

/-- What `ProcessReadEvent` does with a readable entry: every call takes the descriptor from
the entry anew, `legacy_compatible/legacy_support.cpp:713–727`. -/
def processEntry (ov : Overrides δ) (i : Nat) : Call δ Unit := do
  modifyThread fun th ↦ { th with pollFds := th.pollFds.clearRevents i }
  match ← ov.receiveIntMessage (← fdAt i) with
  | some iMessage =>
    if (← ov.onMessage (← fdAt i) iMessage) = false then
      let _ ← ov.onReadSocketError (← fdAt i)
  | none =>
    let _ ← ov.onReadSocketError (← fdAt i)

/-- The loop of `ProcessReadEvent` from entry `i` on. The count is read anew for each entry;
it never passes `maxFDSize`, so that many turns are enough. -/
def processFrom (ov : Overrides δ) : Nat → Nat → Call δ Unit
  | 0, _ => pure ()
  | turns + 1, i => do
    let t := (← get).thread.pollFds
    if i < t.count then
      if t.Readable i then
        processEntry ov i
        modifyThread fun th ↦ { th with eventsCount := th.eventsCount - 1 }
        if (← get).thread.eventsCount ≤ 0 then pure () else processFrom ov turns (i + 1)
      else processFrom ov turns (i + 1)
    else pure ()

/-- `ProcessReadEvent`, poll build, `legacy_compatible/legacy_support.cpp:706–737`. -/
def processReadEvent (ov : Overrides δ) : Call δ Bool := do
  processFrom ov maxFDSize 0
  pure true

/-- `CNetworkThread::Run`, `legacy_compatible/legacy_support.cpp:624–638`. -/
def run (ov : Overrides δ) : Call δ Bool := do
  ov.others
  if (← get).thread.bExit = false then
    if ← waitNetworkEvent then
      ov.others
      if (← get).thread.bExit = false ∧ 0 < (← get).thread.eventsCount then
        let _ ← processReadEvent ov
  pure true

/-- The object as a thread class, with the subclass's `InitInstance`. -/
def threadClass (ov : Overrides δ) (initInstance : Call δ Bool) :
    CiThread2Class Fault (World δ) where
  bExit w := w.thread.bExit
  state w := w.thread.state
  setState s := World.withThread fun th ↦ { th with state := s }
  initInstance := initInstance
  run := run ov
  exitInstance := exitInstance
  betweenProcs := ov.others
  beforeTest := ov.others

/-- `PrepareRunning`, once it has passed the wait,
`legacy_compatible/legacy_support.cpp:332–339`. -/
def World.prepareRunning (w : World δ) : World δ :=
  w.withThread fun th ↦ { th with bExit := false, state := .ready }

/-- A new thread of a subclass without members, for runs on fixed inputs. -/
def newThread : World Unit :=
  ⟨.new 1000, (), fun _ ↦ ⟨[], 3, 0, 0, ⟨0, false, fun _ ↦ 0⟩, .other (-1) [] none, 0⟩, []⟩

/-- Where a call leaves the object. -/
def World.after {α : Type} : EStateM.Result Fault (World δ) α → World δ
  | .ok _ w => w
  | .error _ w => w

end HeartbeatSpec.Legacy
