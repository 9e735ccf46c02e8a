import HeartbeatSpec.Socket.CiSocket

/-!
# Messages on a buffered socket

Library `Socket`. How the vendored network thread takes a message from a socket that is readable:
an `int` that says which it is, another for the size of its body, and the body,
`examples/Externals/CiUtils/Src/NetworkThread.cpp:907–981,1044–1108`. As much is received as the
message still lacks; once it is there, `OnMessage` is called with all but the first `int` of it in
the buffer.
-/

namespace HeartbeatSpec.Socket
open HeartbeatSpec.Base

/-- `ReceiveIntMessageResult_t`, `examples/Externals/CiUtils/Src/NetworkThread.h:22–26`. -/
inductive ReceiveIntMessageResult where
  | messageFalse
  | messageTrue
  | messageInterim
  deriving DecidableEq, Repr

/-- The two `int`s, with the bytes that have been there before: whether the function returns, or
goes on, `examples/Externals/CiUtils/Src/NetworkThread.cpp:1062–1079`. -/
def receiveHeader (realloc : Realloc) (iRecvDataSize : Nat) :
    Call (Option ReceiveIntMessageResult) := do
  if iRecvDataSize < 8 then
    if (← readFromNetworkToBufferMax realloc (8 - iRecvDataSize)) = false then
      pure (some .messageFalse)
    else
      let n := dataSize (← get).recv
      if n = iRecvDataSize then pure (some .messageFalse)
      else if n < 8 then pure (some .messageInterim)
      else pure none
  else pure none

/-- The body: whether the function goes on,
`examples/Externals/CiUtils/Src/NetworkThread.cpp:1086–1098`. -/
def receiveBody (realloc : Realloc) (isReceiveHeader : Bool) (iNBodySize : Int) : Call Bool := do
  if 0 < iNBodySize then
    let iRecvDataSize := dataSize (← get).recv
    if iNBodySize < (iRecvDataSize : Int) - 8 then throw .negativeSize
    else if (← readFromNetworkToBufferMax realloc
        (iNBodySize - ((iRecvDataSize : Int) - 8)).toNat) = false then pure false
    else if isReceiveHeader = false ∧ iRecvDataSize = dataSize (← get).recv then pure false
    else pure true
  else pure true

/-- The end of the function, `examples/Externals/CiUtils/Src/NetworkThread.cpp:1100–1106`. -/
def takeMessage (e : Endian) (iNBodySize : Int) :
    Call (ReceiveIntMessageResult × Option Int32) := do
  if 2 ^ 31 ≤ 8 + iNBodySize then throw .sizeOverflow
  else if (dataSize (← get).recv : Int) < 8 + iNBodySize then pure (.messageInterim, none)
  else
    match ← readInt32 e with
    | none => pure (.messageInterim, none)
    | some iMessage => pure (.messageTrue, some iMessage)

/-- `ReceiveIntMessage`, with what it stores in `*piReceivedMessage`,
`examples/Externals/CiUtils/Src/NetworkThread.cpp:1044–1108`. -/
def receiveIntMessage (e : Endian) (headerRealloc bodyRealloc : Realloc) :
    Call (ReceiveIntMessageResult × Option Int32) := do
  let iRecvDataSize := dataSize (← get).recv
  match ← receiveHeader headerRealloc iRecvDataSize with
  | some ret => pure (ret, none)
  | none =>
    match ← lookAheadInt32 e 4 with
    | none => pure (.messageInterim, none)
    | some iNBodySize =>
      if (← receiveBody bodyRealloc (iRecvDataSize < 8) iNBodySize.toInt) = false then
        pure (.messageFalse, none)
      else takeMessage e iNBodySize.toInt

/-- `poll` reports the socket once there is more on the wire than a moment without any bytes. -/
def CiSocket.awaitInput (s : CiSocket) : Option CiSocket :=
  match s.arrivals.dropWhile (· = .wouldBlock) with
  | [] => none
  | a :: as => some { s with arrivals := a :: as }

/-- A turn of the loop over the readable sockets: what `realloc` does in it, and the message with
which `OnMessage` has been called, if it has, and what was in the buffer then. -/
structure ReadTurn where
  headerRealloc : Realloc
  bodyRealloc : Realloc
  message : Option (Int32 × List UInt8)

/-- A turn for a socket that is not given up in it,
`examples/Externals/CiUtils/Src/NetworkThread.cpp:929–971`. -/
def readTurn (e : Endian) (onMessage : Int32 → Call Bool) (s : CiSocket) (l : ReadTurn) :
    Option CiSocket :=
  match s.awaitInput with
  | none => none
  | some s =>
    match (receiveIntMessage e l.headerRealloc l.bodyRealloc).run s with
    | .ok (.messageInterim, _) t => if l.message = none then some t else none
    | .ok (.messageTrue, some iMessage) t =>
      if l.message = some (iMessage, t.recv.contents) then
        match (onMessage iMessage).run t with
        | .ok true u => some u
        | _ => none
      else none
    | _ => none

end HeartbeatSpec.Socket
