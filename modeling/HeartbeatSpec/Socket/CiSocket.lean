import HeartbeatSpec.Base.NetworkOrder
import HeartbeatSpec.Base.RingBuffer

/-!
# The buffered socket

Library `Socket`. The vendored `CCiSocket`,
`examples/Externals/CiUtils/Src/CiSocket.cpp:26–83,653–1466`: a non-blocking stream socket with a
buffer for what has been received and not yet read, and one for what has been written and not yet
sent. What the peer sends and what the kernel takes are scripts, and each access to a buffer is
checked. Sizes and offsets that the callers pass are not negative.
-/

namespace HeartbeatSpec.Socket
open HeartbeatSpec.Base

/-! ### Members -/

/-- What comes in: bytes, a moment without any, an error, or the end of the stream. -/
inductive Arrival where
  | data (b : UInt8) (bs : List UInt8)
  | wouldBlock
  | error
  | eof
  deriving DecidableEq, Repr

/-- What the kernel does with a block that is to be sent: it takes so many bytes at most, or none
for now, or fails. -/
inductive Acceptance where
  | accepted (n : Nat)
  | wouldBlock
  | error
  deriving DecidableEq, Repr

/-- Why a call does not return: a byte outside of a buffer is accessed, a buffer size is no `int`, a
sum that an offset goes into is none, so that it has no defined meaning, or a size is negative.
`outOfTurns` is of the model alone, where a loop takes more turns than it has been given. -/
inductive Fault where
  | outOfBounds
  | sizeOverflow
  | offsetOverflow
  | negativeSize
  | outOfTurns
  deriving DecidableEq, Repr

/-- The buffers with their sizes and pointers: `m_pRecvBuffer`, `m_iRecvBufferSize`,
`m_iRecvStartPtr` and `m_iRecvEndPtr`, and the same for sending. Beside them what is to happen on
the wire, and what has come from it and gone to it so far. -/
structure CiSocket where
  recv : RingBuffer UInt8
  send : RingBuffer UInt8
  arrivals : List Arrival
  acceptances : List Acceptance
  received : List UInt8
  sent : List UInt8

/-- A member function. -/
abbrev Call (α : Type) := EStateM Fault CiSocket α

/-- What `realloc` returns: null, or a block with what is in its new cells. -/
abbrev Realloc := Option (Nat → UInt8)

/-- The members after the constructor,
`examples/Externals/CiUtils/Src/CiSocket.cpp:26–46,65–83`. -/
def CiSocket.new (sendBuffer recvBuffer : Nat → UInt8) (iSendBufferSize iRecvBufferSize : Nat)
    (arrivals : List Arrival) (acceptances : List Acceptance) : CiSocket :=
  ⟨⟨recvBuffer, iRecvBufferSize, 0, 0⟩, ⟨sendBuffer, iSendBufferSize, 0, 0⟩, arrivals, acceptances,
    [], []⟩

/-- One of the two buffers. -/
inductive Side where
  | recv
  | send
  deriving DecidableEq, Repr

def CiSocket.ring (s : CiSocket) : Side → RingBuffer UInt8
  | .recv => s.recv
  | .send => s.send

def CiSocket.setRing (s : CiSocket) (r : RingBuffer UInt8) : Side → CiSocket
  | .recv => { s with recv := r }
  | .send => { s with send := r }

/-- Change the pointers of a buffer. -/
def movePtrs (side : Side) (f : RingBuffer UInt8 → RingBuffer UInt8) : Call Unit :=
  modify fun s ↦ s.setRing (f (s.ring side)) side

/-- `memcpy` from a buffer. -/
def copyFrom (side : Side) (ptr n : Nat) : Call (List UInt8) := do
  match ((← get).ring side).load ptr n with
  | none => throw .outOfBounds
  | some bs => pure bs

/-- `memcpy` to a buffer. -/
def copyTo (side : Side) (ptr : Nat) (bs : List UInt8) : Call Unit := do
  let s ← get
  match (s.ring side).store ptr bs with
  | none => throw .outOfBounds
  | some r => set (s.setRing r side)

/-- `GetCurrentRecvDataSize` and `GetRemainSendDataSize`, for any of the two buffers,
`examples/Externals/CiUtils/Src/CiSocket.cpp:1111–1137`. -/
def dataSize (r : RingBuffer UInt8) : Nat :=
  if r.start < r.stop then r.stop - r.start
  else if r.stop < r.start then r.size - (r.start - r.stop)
  else 0

/-- `PrepareRecvBuffer` and `PrepareSendBuffer`, for any of the two buffers,
`examples/Externals/CiUtils/Src/CiSocket.cpp:1022–1046,1397–1421`. -/
def prepareBuffer (side : Side) (realloc : Realloc) (size : Nat) : Call Bool := do
  let r := (← get).ring side
  if size < r.size - dataSize r then pure true
  else
    let needSize := size - (r.size - dataSize r) + 1
    match realloc with
    | none => pure false
    | some fresh =>
      if 2 ^ 31 ≤ r.size + needSize then throw .sizeOverflow
      else
        movePtrs side (RingBuffer.grow needSize fresh)
        if r.stop < r.start then
          let bs ← copyFrom side r.start needSize
          copyTo side (r.start + needSize) bs
          movePtrs side fun r ↦ { r with start := r.start + needSize }
        pure true

def prepareRecvBuffer (realloc : Realloc) (size : Nat) : Call Bool :=
  prepareBuffer .recv realloc size

def prepareSendBuffer (realloc : Realloc) (size : Nat) : Call Bool :=
  prepareBuffer .send realloc size

/-! ### Receiving -/

/-- What `recv` returns; at the end of the stream it returns no bytes. -/
inductive Received where
  | bytes (bs : List UInt8)
  | wouldBlock
  | error
  deriving DecidableEq, Repr

/-- What `recv` returns for `n` bytes, and what is to come then. -/
def takeArrival (n : Nat) : List Arrival → Received × List Arrival
  | [] => (.wouldBlock, [])
  | .wouldBlock :: rest => (.wouldBlock, rest)
  | .error :: rest => (.error, rest)
  | .eof :: rest => (.bytes [], .eof :: rest)
  | .data b bs :: rest =>
    (.bytes ((b :: bs).take n), match (b :: bs).drop n with
      | [] => rest
      | b' :: bs' => .data b' bs' :: rest)

def Received.toList : Received → List UInt8
  | .bytes bs => bs
  | _ => []

/-- `recv` on the socket. -/
def recv (n : Nat) : Call Received :=
  modifyGet fun s ↦ ((takeArrival n s.arrivals).1, { s with
    arrivals := (takeArrival n s.arrivals).2
    received := s.received ++ (takeArrival n s.arrivals).1.toList })

/-- An end pointer at the end of the buffer goes to its beginning. -/
def wrapStop (r : RingBuffer UInt8) : RingBuffer UInt8 :=
  if r.stop = r.size then { r with stop := 0 } else r

/-- A start pointer at the end of the buffer goes to its beginning. -/
def wrapStart (r : RingBuffer UInt8) : RingBuffer UInt8 :=
  if r.start = r.size then { r with start := 0 } else r

/-- What `recv` has stored in the receive buffer,
`examples/Externals/CiUtils/Src/CiSocket.cpp:981–987,1011–1015,1099–1106`. -/
def takeIn (wraps : Bool) (ptr : Nat) (bs : List UInt8) : Call Unit := do
  copyTo .recv ptr bs
  movePtrs .recv fun r ↦ { r with stop := r.stop + bs.length }
  if wraps then movePtrs .recv wrapStop

/-- A loop around `recv`, `examples/Externals/CiUtils/Src/CiSocket.cpp:959–1017,1077–1106`: the
function goes on behind it, or returns. The second of two loops leaves an end pointer at the end of
the buffer. -/
def recvLoop (wraps : Bool) : (turns ptr nleft : Nat) → Call (Option Bool)
  | _, _, 0 => pure none
  | 0, _, _ => throw .outOfTurns
  | turns + 1, ptr, nleft + 1 => do
    match ← recv (nleft + 1) with
    | .wouldBlock => pure (some true)
    | .error => pure (some false)
    | .bytes bs =>
      if bs.length = 0 then pure none
      else
        takeIn wraps ptr bs
        recvLoop wraps turns (ptr + bs.length) (nleft + 1 - bs.length)

/-- The two loops, `examples/Externals/CiUtils/Src/CiSocket.cpp:959–1020`. -/
def recvInto (ptr nleft nleft2 : Nat) : Call Bool := do
  match ← recvLoop true nleft ptr nleft with
  | some ret => pure ret
  | none =>
    match ← recvLoop false nleft2 0 nleft2 with
    | some ret => pure ret
    | none => pure true

/-- `ReadFromNetworkToBuffer` with a maximal size, once there is room,
`examples/Externals/CiUtils/Src/CiSocket.cpp:916–1020`. -/
def fillRecvBuffer (iReadSize : Nat) : Call Bool := do
  movePtrs .recv wrapStop
  let r := (← get).recv
  if r.start < r.stop then
    let nleft := r.size - r.stop - (if r.start = 0 then 1 else 0)
    if iReadSize < nleft then recvInto r.stop iReadSize 0
    else recvInto r.stop nleft (iReadSize - nleft)
  else if r.stop < r.start then recvInto r.stop iReadSize 0
  else
    movePtrs .recv fun r ↦ { r with start := 0, stop := 0 }
    recvInto 0 iReadSize 0

/-- `ReadFromNetworkToBuffer` with a maximal size,
`examples/Externals/CiUtils/Src/CiSocket.cpp:912–1020`. -/
def readFromNetworkToBufferMax (realloc : Realloc) (iReadSize : Nat) : Call Bool := do
  if (← prepareRecvBuffer realloc iReadSize) = false then pure false
  else fillRecvBuffer iReadSize

/-- `ReadFromNetworkToBuffer`, `examples/Externals/CiUtils/Src/CiSocket.cpp:1048–1109`. -/
def readFromNetworkToBuffer : Call Bool := do
  movePtrs .recv wrapStop
  let r := (← get).recv
  if r.start < r.stop then
    recvInto r.stop (r.size - r.stop - (if r.start = 0 then 1 else 0)) 0
  else if r.stop < r.start then recvInto r.stop (r.start - r.stop - 1) 0
  else
    movePtrs .recv fun r ↦ { r with start := 0, stop := 0 }
    recvInto 0 (r.size - 1) 0

/-! ### Reading -/

/-- `ReadN`, `examples/Externals/CiUtils/Src/CiSocket.cpp:731–787`; `none` where it returns
false. -/
def readN (ntoread : Nat) : Call (Option (List UInt8)) := do
  let r := (← get).recv
  if r.start < r.stop ∧ ntoread ≤ r.stop - r.start then
    let bs ← copyFrom .recv r.start ntoread
    movePtrs .recv fun r ↦ { r with start := r.start + ntoread }
    pure (some bs)
  else if r.stop < r.start ∧ ntoread ≤ r.size - (r.start - r.stop) then
    if ntoread ≤ r.size - r.start then
      let bs ← copyFrom .recv r.start ntoread
      movePtrs .recv fun r ↦ { r with start := r.start + ntoread }
      movePtrs .recv wrapStart
      pure (some bs)
    else
      let bs ← copyFrom .recv r.start (r.size - r.start)
      let bs' ← copyFrom .recv 0 (ntoread - (r.size - r.start))
      movePtrs .recv fun r ↦ { r with start := ntoread - (r.size - r.start) }
      pure (some (bs ++ bs'))
  else pure none

/-- `LookAheadN`, `examples/Externals/CiUtils/Src/CiSocket.cpp:853–908`; `none` where it returns
false. The sums are of `int`s, and are computed only where there are unread bytes. -/
def lookAheadN (ntoReadSize iOffset : Nat) : Call (Option (List UInt8)) := do
  let r := (← get).recv
  if r.start ≠ r.stop ∧ 2 ^ 31 ≤ iOffset + ntoReadSize then throw .offsetOverflow
  else if r.start < r.stop ∧ iOffset + ntoReadSize ≤ r.stop - r.start then
    let bs ← copyFrom .recv (r.start + iOffset) ntoReadSize
    pure (some bs)
  else if r.stop < r.start ∧ iOffset + ntoReadSize ≤ r.size - (r.start - r.stop) then
    if 2 ^ 31 ≤ r.start + iOffset then throw .offsetOverflow
    else if r.start + iOffset + ntoReadSize ≤ r.size then
      let bs ← copyFrom .recv (r.start + iOffset) ntoReadSize
      pure (some bs)
    else if r.start + iOffset < r.size then
      let bs ← copyFrom .recv (r.start + iOffset) (r.size - (r.start + iOffset))
      let bs' ← copyFrom .recv 0 (ntoReadSize - (r.size - (r.start + iOffset)))
      pure (some (bs ++ bs'))
    else
      let bs ← copyFrom .recv (r.start + iOffset - r.size) ntoReadSize
      pure (some bs)
  else pure none

/-- An integer of `n` bytes from the wire, as the host has it. -/
def wireInt (e : Endian) (n : Nat) (bs : List UInt8) : Nat := e.networkToHost n (e.load bs)

/-- `ReadInt32`, `examples/Externals/CiUtils/Src/CiSocket.cpp:673–690`. -/
def readInt32 (e : Endian) : Call (Option Int32) := do
  match ← readN 4 with
  | none => pure none
  | some bs => pure (some (Int32.ofNat (wireInt e 4 bs)))

/-- `LookAheadInt32`, `examples/Externals/CiUtils/Src/CiSocket.cpp:789–851`. -/
def lookAheadInt32 (e : Endian) (iOffset : Nat) : Call (Option Int32) := do
  match ← lookAheadN 4 iOffset with
  | none => pure none
  | some bs => pure (some (Int32.ofNat (wireInt e 4 bs)))

/-! ### Writing -/

/-- What `send` returns. -/
inductive Sent where
  | bytes (n : Nat)
  | wouldBlock
  | error
  deriving DecidableEq, Repr

/-- What `send` returns for a block of `n` bytes, and what the kernel is to do then. -/
def takeAcceptance (n : Nat) : List Acceptance → Sent × List Acceptance
  | [] => (.wouldBlock, [])
  | .wouldBlock :: rest => (.wouldBlock, rest)
  | .error :: rest => (.error, rest)
  | .accepted k :: rest => (.bytes (min k n), rest)

def Sent.size : Sent → Nat
  | .bytes n => n
  | _ => 0

/-- `send` on the socket. -/
def send (bs : List UInt8) : Call Sent :=
  modifyGet fun s ↦ ((takeAcceptance bs.length s.acceptances).1, { s with
    acceptances := (takeAcceptance bs.length s.acceptances).2
    sent := s.sent ++ bs.take (takeAcceptance bs.length s.acceptances).1.size })

/-- The result of a function that writes, and what it stores in `*pnwritten`, if anything. -/
structure WriteResult where
  ret : Bool
  nwritten : Option Nat
  deriving DecidableEq, Repr

/-- The loop of `WriteFromBufferToNetwork`,
`examples/Externals/CiUtils/Src/CiSocket.cpp:1439–1466`. -/
def flushLoop : (turns ptr nleft : Nat) → Call Bool
  | _, _, 0 => pure true
  | 0, _, _ => throw .outOfTurns
  | turns + 1, ptr, nleft + 1 => do
    let bs ← copyFrom .send ptr (nleft + 1)
    match ← send bs with
    | .wouldBlock => pure true
    | .error => pure false
    | .bytes n =>
      movePtrs .send fun r ↦ { r with start := r.start + n }
      movePtrs .send wrapStart
      flushLoop turns (ptr + n) (nleft + 1 - n)

/-- `WriteFromBufferToNetwork`, `examples/Externals/CiUtils/Src/CiSocket.cpp:1423–1466`. Each turn
of its loop takes an answer of the kernel. -/
def writeFromBufferToNetwork : Call Bool := do
  let s ← get
  let r := s.send
  if dataSize r = 0 then pure true
  else
    let nleft := if r.start < r.stop then r.stop - r.start
      else if r.stop < r.start then r.size - r.start
      else 0
    flushLoop (s.acceptances.length + 1) r.start nleft

/-- `WriteNToBuffer`, once there is room,
`examples/Externals/CiUtils/Src/CiSocket.cpp:1335–1395`. -/
def fillSendBuffer (pBuf : List UInt8) : Call WriteResult := do
  movePtrs .send fun r ↦ if r.start = r.stop then { r with start := 0, stop := 0 } else r
  let r := (← get).send
  if r.stop < r.start ∧ pBuf.length < r.start - r.stop then
    copyTo .send r.stop pBuf
    movePtrs .send fun r ↦ { r with stop := r.stop + pBuf.length }
    pure ⟨true, some pBuf.length⟩
  else if r.start ≤ r.stop ∧ pBuf.length < r.size - (r.stop - r.start) then
    if pBuf.length ≤ r.size - r.stop then
      copyTo .send r.stop pBuf
      movePtrs .send fun r ↦ { r with stop := r.stop + pBuf.length }
      movePtrs .send wrapStop
      pure ⟨true, some pBuf.length⟩
    else
      copyTo .send r.stop (pBuf.take (r.size - r.stop))
      copyTo .send 0 (pBuf.drop (r.size - r.stop))
      movePtrs .send fun r ↦ { r with stop := pBuf.length - (r.size - r.stop) }
      pure ⟨true, some pBuf.length⟩
  else pure ⟨false, none⟩

/-- `WriteNToBuffer`, `examples/Externals/CiUtils/Src/CiSocket.cpp:1331–1395`. -/
def writeNToBuffer (realloc : Realloc) (pBuf : List UInt8) : Call WriteResult := do
  if (← prepareSendBuffer realloc pBuf.length) = false then pure ⟨false, none⟩
  else fillSendBuffer pBuf

/-- The loop of `WriteN`, `examples/Externals/CiUtils/Src/CiSocket.cpp:1230–1275`, with what is left
of the block. -/
def sendLoop (realloc : Realloc) (ntowrite : Nat) : (turns : Nat) → List UInt8 → Call WriteResult
  | _, [] => pure ⟨true, some ntowrite⟩
  | 0, _ => throw .outOfTurns
  | turns + 1, b :: bs => do
    match ← send (b :: bs) with
    | .wouldBlock =>
      let result ← writeNToBuffer realloc (b :: bs)
      if result.ret then pure ⟨true, some ntowrite⟩ else pure result
    | .error => pure ⟨false, none⟩
    | .bytes 0 => pure ⟨false, some (ntowrite - (b :: bs).length)⟩
    | .bytes (n + 1) => sendLoop realloc ntowrite turns (bs.drop n)

/-- What `WriteN` does first, `examples/Externals/CiUtils/Src/CiSocket.cpp:1213–1219`. -/
def flushPending : Call Bool := do
  if 0 < dataSize (← get).send then writeFromBufferToNetwork else pure true

/-- `WriteN`, `examples/Externals/CiUtils/Src/CiSocket.cpp:1211–1278`. -/
def writeN (realloc : Realloc) (pBuf : List UInt8) : Call WriteResult := do
  if (← flushPending) = false then pure ⟨false, none⟩
  else if 0 < dataSize (← get).send then writeNToBuffer realloc pBuf
  else sendLoop realloc pBuf.length pBuf.length pBuf

/-- The loop of `WriteNFlush`, `examples/Externals/CiUtils/Src/CiSocket.cpp:1287–1325`, with what is
left of the block, and the turns in a row in which the kernel took nothing for now. -/
def writeFlushLoop (ntowrite : Nat) : (turns iCount : Nat) → List UInt8 → Call WriteResult
  | _, _, [] => pure ⟨true, some ntowrite⟩
  | 0, _, _ => throw .outOfTurns
  | turns + 1, iCount, b :: bs => do
    match ← send (b :: bs) with
    | .wouldBlock =>
      if 3000 < iCount + 1 then pure ⟨false, none⟩
      else writeFlushLoop ntowrite turns (iCount + 1) (b :: bs)
    | .error => pure ⟨false, none⟩
    | .bytes n => writeFlushLoop ntowrite turns 0 ((b :: bs).drop n)

/-- `WriteNFlush`, `examples/Externals/CiUtils/Src/CiSocket.cpp:1280–1329`. A turn takes an answer
of the kernel, or there is none left. -/
def writeNFlush (pBuf : List UInt8) : Call WriteResult := do
  writeFlushLoop pBuf.length ((← get).acceptances.length + 3001) 0 pBuf

end HeartbeatSpec.Socket
