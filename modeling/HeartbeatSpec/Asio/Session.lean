import HeartbeatSpec.Base.Runs
import HeartbeatSpec.Message.Layout

/-!
# The asio session

Library `Asio`. `HeartBeatSession`, `asio_base/HeartBeatSession.cpp`, with what it relies on
of the io service: an armed receive completes with a datagram or an error, its handler is
dispatched later, and closing a socket completes what has not completed yet with
`operation_aborted`. One step is a completion, a dispatched handler, or a call from outside
between handlers.
-/

namespace HeartbeatSpec.Asio
open HeartbeatSpec.Base HeartbeatSpec.Message

/-- `boost::system::error_code` with an error in it. -/
structure ErrorCode where
  value : Int32
  message : String
  deriving DecidableEq, Repr

/-- The error of a receive that `close` cancels. -/
def operationAborted : ErrorCode := ⟨125, "Operation canceled"⟩

/-- `boost::asio::ip::udp::socket`. -/
structure UdpSocket where
  isOpen : Bool
  deriving DecidableEq, Repr

/-- The members of `HeartBeatSession`, `asio_base/HeartBeatSession.h:49–54`. -/
structure HeartBeatSession where
  socket : Option UdpSocket
  identity : Identity
  hbPort : UInt16
  processState : CiHBState
  senderEndpoint : Endpoint
  deriving DecidableEq, Repr

/-- How a receive completes. -/
inductive Completion where
  | received (d : Datagram)
  | failed (ec : ErrorCode)
  deriving DecidableEq, Repr

/-- How `send_to` returns. -/
inductive SendOutcome where
  | sent (n : Nat)
  | failed (ec : ErrorCode)
  deriving DecidableEq, Repr

/-- What is recorded: datagrams given to `send_to`, and calls of `handle_error`. -/
inductive AsioEvent where
  | sendTo (bytes : List UInt8) (dest : Endpoint)
  | handleError (errorCode : Int32) (errorStr : String)
  deriving DecidableEq, Repr

/-- A session, the number of armed receives, the completions whose handlers are to be
dispatched, and what happened so far. -/
structure System where
  session : HeartBeatSession
  pending : Nat
  completed : List Completion
  crashed : Bool
  trace : List AsioEvent
  deriving DecidableEq, Repr

/-- Why a function does not return: `socket_` is null where it is dereferenced, or an
operation on it throws. -/
inductive AsioFault where
  | nullSocket
  | systemError (ec : ErrorCode)
  deriving DecidableEq, Repr

/-- A member function. -/
abbrev Call (α : Type) := EStateM AsioFault System α

/-- What an override of `handle_error` does: it returns, or calls `clear` and goes on; the
`close` in `clear` may fail, and then calls `handle_error` again. -/
inductive Hook where
  | returns
  | clears (next : Hook)
  | clearsFailing (ec : ErrorCode) (inner next : Hook)
  deriving DecidableEq, Repr

/-- Change members of the session. -/
def modifySession (f : HeartBeatSession → HeartBeatSession) : Call Unit :=
  modify fun s ↦ { s with session := f s.session }

/-- Record an event. -/
def emit (ev : AsioEvent) : Call Unit := modify fun s ↦ { s with trace := s.trace ++ [ev] }

/-- `socket_->`, `boost::shared_ptr::operator->`. -/
def derefSocket : Call UdpSocket := do
  match (← get).session.socket with
  | none => throw .nullSocket
  | some sock => pure sock

/-- The session after the constructor, `asio_base/HeartBeatSession.cpp:7–17`. -/
def HeartBeatSession.new (identity : Identity) (hbPort : UInt16) : HeartBeatSession :=
  ⟨some ⟨false⟩, identity, hbPort, .alive, ⟨0, 0⟩⟩

/-- `SetProcessState` and the functions that call it,
`asio_base/HeartBeatSession.cpp:48–66`. -/
def setProcessState (st : CiHBState) : Call Unit :=
  modifySession fun m ↦ { m with processState := st }

/-- `remote_address`, `asio_base/HeartBeatSession.cpp:68–78`. -/
def remoteAddress (m : HeartBeatSession) : String :=
  let octet (k : UInt32) := toString ((m.senderEndpoint.address >>> k) &&& 255)
  ".".intercalate [octet 24, octet 16, octet 8, octet 0]

/-- The text of every error report: what happened, and the sender of the last datagram. -/
def fromRemote (m : HeartBeatSession) (what : String) : String :=
  what ++ " from " ++ remoteAddress m

/-- `do_read_request`, `asio_base/HeartBeatSession.cpp:80–86`. -/
def doReadRequest : Call Unit := do
  let _ ← derefSocket
  modify fun s ↦ { s with pending := s.pending + 1 }

/-! ### Shutdown -/

/-- `socket_->close(ec)`: what has not completed completes with `operation_aborted`. -/
def closeSocket : Call Unit :=
  modify fun s ↦
    { s with
      session := { s.session with socket := some ⟨false⟩ }
      pending := 0
      completed := s.completed ++ List.replicate s.pending (.failed operationAborted) }

/-- `clear`, `asio_base/HeartBeatSession.cpp:32–41`, where `onError` is what happens if the
`close` fails. -/
def clearThen (onError : Call Unit) : Call Unit := do
  if (← get).session.socket.isSome then
    closeSocket
    onError
  modifySession fun m ↦ { m with socket := none }

/-- What an override of `handle_error` does. -/
def Hook.run : Hook → Call Unit
  | .returns => pure ()
  | .clears next => do
    clearThen (pure ())
    next.run
  | .clearsFailing ec inner next => do
    clearThen do
      emit (.handleError ec.value ec.message)
      inner.run
    next.run

/-- `handle_error`, `asio_base/HeartBeatSession.cpp:160–163`, and what an override of it does. -/
def handleError (hook : Hook) (errorCode : Int32) (errorStr : String) : Call Unit := do
  emit (.handleError errorCode errorStr)
  hook.run

/-- `clear`, `asio_base/HeartBeatSession.cpp:32–41`, with the result of its `close`. -/
def clear (close : Option ErrorCode) (hook : Hook) : Call Unit :=
  clearThen <|
    match close with
    | none => pure ()
    | some ec => handleError hook ec.value ec.message

/-! ### Handling a request -/

/-- A `std::istream` over the bytes that are there. -/
structure IStream where
  avail : List UInt8
  good : Bool

/-- `std::istream::read`: a stream that has failed reads nothing; a short one gives what is
there and fails. -/
def IStream.read (n : Nat) (is : IStream) : List UInt8 × IStream :=
  if is.good then (is.avail.take n, ⟨is.avail.drop n, n ≤ is.avail.length⟩) else ([], is)

/-- The memory of a zero-initialised `int32_t` after the bytes read are stored over it. -/
def overZeros (bs : List UInt8) : List UInt8 := bs ++ List.replicate (4 - bs.length) 0

/-- The two words of a request as they are parsed,
`asio_base/HeartBeatSession.cpp:100–106`. -/
def parseRequest (e : Endian) (request : List UInt8) : Int32 × Int32 :=
  let first := IStream.read 4 ⟨request, true⟩
  let msg := loadInt e (overZeros first.1)
  let second := IStream.read 4 first.2
  let seq := loadInt e (overZeros second.1)
  ((ntohl e msg.toUInt32).toInt32, (ntohl e seq.toUInt32).toInt32)

/-- The bytes that `do_write_response` puts into its stream,
`asio_base/HeartBeatSession.cpp:124–138`. -/
def responseBytes (e : Endian) (m : HeartBeatSession) (seq : Int32) : List UInt8 :=
  storeInt e (htonl e CiHBMessageType.heartbeatResponse.code.toUInt32).toInt32 ++
    storeInt e (htonl e seq.toUInt32).toInt32 ++
    storeInt e (htonl e (UInt32.ofNat m.identity.representativeIP.length)).toInt32 ++
    m.identity.representativeIP ++
    storeInt e (htonl e m.processState.code.toUInt32).toInt32 ++
    storeInt e (htonl e (UInt32.ofNat m.identity.localIP.length)).toInt32 ++
    m.identity.localIP

/-- `do_write_response`, `asio_base/HeartBeatSession.cpp:122–158`. -/
def doWriteResponse (e : Endian) (send : SendOutcome) (hook : Hook) (seq : Int32) :
    Call Unit := do
  let m := (← get).session
  let response := responseBytes e m seq
  let _ ← derefSocket
  emit (.sendTo response m.senderEndpoint)
  match send with
  | .failed ec => handleError hook ec.value (fromRemote m ec.message)
  | .sent n =>
    if response.length ≠ n then
      handleError hook (Int32.ofNat n) (fromRemote m "invalid send size")

/-- `handle_read_request` for a receive without error, of which the first eight bytes at most
are there, up to the next receive, `asio_base/HeartBeatSession.cpp:98–117`. -/
def handleRequest (e : Endian) (send : SendOutcome) (hook : Hook) (request : List UInt8) :
    Call Unit :=
  let msg := (parseRequest e request).1
  let seq := (parseRequest e request).2
  if msg = CiHBMessageType.heartbeatRequest.code then
    doWriteResponse e send hook seq
  else do
    handleError hook msg (fromRemote (← get).session "invalid msg")

/-- `handle_read_request`, `asio_base/HeartBeatSession.cpp:88–120`. -/
def handleReadRequest (e : Endian) (send : SendOutcome) (hook : Hook) (c : Completion) :
    Call Unit := do
  let m := (← get).session
  match c with
  | .failed ec => handleError hook ec.value (fromRemote m ec.message)
  | .received d =>
    handleRequest e send hook (d.bytes.take 8)
    doReadRequest

/-- `start`, `asio_base/HeartBeatSession.cpp:23–30`, with the errors of its three calls on the
socket; `open` on an open socket fails. -/
def start (alreadyOpen : ErrorCode) (opening setOption binding : Option ErrorCode) :
    Call Unit := do
  let sock ← derefSocket
  match if sock.isOpen then some alreadyOpen else opening with
  | some ec => throw (.systemError ec)
  | none =>
    modifySession fun m ↦ { m with socket := some ⟨true⟩ }
    match setOption with
    | some ec => throw (.systemError ec)
    | none =>
      match binding with
      | some ec => throw (.systemError ec)
      | none => doReadRequest

/-! ### Steps -/

/-- What can happen next. -/
inductive Event where
  | complete (c : Completion)
  | dispatch (send : SendOutcome) (hook : Hook)
  | clear (close : Option ErrorCode) (hook : Hook)
  | setProcess (st : CiHBState)
  deriving DecidableEq, Repr

/-- The system before any call. -/
def System.new (identity : Identity) (hbPort : UInt16) : System :=
  ⟨.new identity hbPort, 0, [], false, []⟩

/-- A system whose session has been started and has nothing to do yet. -/
def System.started (m : HeartBeatSession) : System :=
  ⟨{ m with socket := some ⟨true⟩ }, 1, [], false, []⟩

/-- The system after a call; a call that does not return crashes it. -/
def settle : EStateM.Result AsioFault System Unit → System
  | .ok _ s => s
  | .error _ s => { s with crashed := true }

/-- A receive completes: a datagram leaves its sender in the session. -/
def deliver (c : Completion) (s : System) : System :=
  let s := { s with pending := s.pending - 1, completed := s.completed ++ [c] }
  match c with
  | .received d => { s with session := { s.session with senderEndpoint := d.sender } }
  | .failed _ => s

/-- One step of a system that has not crashed. -/
def step (e : Endian) (s : System) (l : Event) : Option System :=
  if s.crashed then none
  else
    match l with
    | .complete c => if 0 < s.pending then some (deliver c s) else none
    | .dispatch send hook =>
      match s.completed with
      | [] => none
      | c :: rest =>
        some (settle ((handleReadRequest e send hook c).run { s with completed := rest }))
    | .clear close hook => some (settle ((clear close hook).run s))
    | .setProcess st => some (settle ((setProcessState st).run s))

end HeartbeatSpec.Asio
