import HeartbeatSpec.Base.WriteBuffer
import HeartbeatSpec.Legacy.NetworkThread
import HeartbeatSpec.Message.Layout

/-!
# The legacy responder

Library `Legacy`. `CCiHBResponser`, `legacy_compatible/CiHBResponser.cpp:95–312`, over the
network thread, on a host of either byte order.
-/

namespace HeartbeatSpec.Legacy
open HeartbeatSpec.Base HeartbeatSpec.Message HeartbeatSpec.Thread

/-- `m_szRecvBuf`, `legacy_compatible/CiHBResponser.h:47`. -/
structure RecvBuf where
  bytes : List UInt8
  length_eq : bytes.length = maxDataSize

/-- The first bytes are overwritten, eight at most. -/
def RecvBuf.store (b : RecvBuf) (stored : List UInt8) : RecvBuf where
  bytes := stored.take 8 ++ b.bytes.drop (stored.take 8).length
  length_eq := by
    have hb := b.length_eq
    have h8 : (stored.take 8).length ≤ 8 := List.length_take_le 8 stored
    rw [List.length_append, List.length_drop, hb]
    unfold maxDataSize
    omega

/-- The members of `CCiHBResponser`, `legacy_compatible/CiHBResponser.h:38–48`. -/
structure Responser where
  identity : Identity
  portNumber : UInt16
  processState : CiHBState
  saRecv : Endpoint
  recvBuf : RecvBuf

namespace Responser

/-- `SetProcessState` and the functions that call it,
`legacy_compatible/CiHBResponser.cpp:241–260`. -/
def setProcessState (st : CiHBState) (r : Responser) : Responser := { r with processState := st }

/-- The members after the constructor, `legacy_compatible/CiHBResponser.cpp:101–112`; the last
two are left uninitialised there. -/
def new (identity : Identity) (portNumber : UInt16) (saRecv : Endpoint) (recvBuf : RecvBuf) :
    Responser :=
  ⟨identity, portNumber, .alive, saRecv, recvBuf⟩

/-- Change members of the responder. -/
def modifyOwn (f : Responser → Responser) : Call Responser Unit :=
  modify fun w ↦ { w with own := f w.own }

/-- A point at which other threads call the responder. -/
def others : Call Responser Unit := othersCall setProcessState

/-- `CCiHBResponser::InitInstance`, `legacy_compatible/CiHBResponser.cpp:118–159`. -/
def initInstance : Call Responser Bool := do
  let sockfd := (← consult).socket
  emit (.socket sockfd)
  if sockfd < 0 then pure false
  else
    let ret := (← consult).setsockopt
    emit (.setsockopt sockfd ret)
    if ret = -1 then pure false
    else
      let ret := (← consult).bind
      emit (.bind sockfd (← get).own.portNumber ret)
      if ret < 0 then pure false
      else if (← addReadSocket sockfd) = false then
        nuDisconnect sockfd
        pure false
      else if (← onTable (PollTable.pollFDAdd sockfd)) = false then pure false
      else pure true

/-- `CCiHBResponser::OnReadSocketError`, `legacy_compatible/CiHBResponser.cpp:161–166`. -/
def onReadSocketError (_sockfd : Int) : Call Responser Bool := pure true

/-- `ReceiveIntMessage`, `legacy_compatible/CiHBResponser.cpp:262–294`. -/
def receiveIntMessage (e : Endian) (sockfd : Int) : Call Responser (Option Int32) :=
  if sockfd = invalidSocket then pure none
  else do
    let o := (← consult).recvfrom
    emit (.recvfrom sockfd o)
    modifyOwn fun r ↦
      { r with recvBuf := r.recvBuf.store o.stored, saRecv := o.sender.getD r.saRecv }
    if o.ret < 0 then pure none
    else if o.ret ≠ 8 then pure none
    else
      let iTemp := loadInt e ((← get).own.recvBuf.bytes.take 4)
      pure (some (ntohl e iTemp.toUInt32).toInt32)

/-- The blocks that `SendHeartbeatResponse` copies into its message, in order,
`legacy_compatible/CiHBResponser.cpp:192–221`. -/
def responseChunks (e : Endian) (i : Identity) (st : CiHBState) (iSeqNum : Int32) :
    List (List UInt8) :=
  [storeInt e (htonl e CiHBMessageType.heartbeatResponse.code.toUInt32).toInt32,
    storeInt e (htonl e iSeqNum.toUInt32).toInt32,
    storeInt e (htonl e (Int32.ofNat i.representativeIP.length).toUInt32).toInt32,
    i.representativeIP,
    storeInt e (htonl e st.code.toUInt32).toInt32,
    storeInt e (htonl e (Int32.ofNat i.localIP.length).toUInt32).toInt32,
    i.localIP]

/-- The size of the message as an `int`, `legacy_compatible/CiHBResponser.cpp:188`. -/
def iMsgStrSize (i : Identity) : Int32 :=
  Int32.ofNat (4 + 4 + 4 + i.representativeIP.length + 4 + 4 + i.localIP.length)

/-- Allocate the message and copy the blocks behind one another,
`legacy_compatible/CiHBResponser.cpp:188–221`. -/
def buildResponse (e : Endian) (i : Identity) (st : CiHBState) (iSeqNum : Int32) :
    Except Fault (List UInt8) :=
  if iMsgStrSize i < 0 then .error .badAlloc
  else
    match (WriteBuffer.alloc (iMsgStrSize i).toInt.toNat).writeAll 0
        (responseChunks e i st iSeqNum) with
    | none => .error .bufferOverrun
    | some b =>
      match b.contents with
      | none => .error .uninitialisedRead
      | some bytes => .ok bytes

/-- `SendHeartbeatResponse`, `legacy_compatible/CiHBResponser.cpp:183–234`. The process state
is read while the message is built. -/
def sendHeartbeatResponse (e : Endian) (sockfd : Int) (iSeqNum : Int32) : Call Responser Bool := do
  others
  let r := (← get).own
  match buildResponse e r.identity r.processState iSeqNum with
  | .error f => throw f
  | .ok bytes =>
    let nSend := (← consult).sendto
    emit (.sendto sockfd bytes r.saRecv nSend)
    if nSend < 0 then pure false
    else if nSend ≠ (iMsgStrSize r.identity).toInt then pure false
    else pure true

/-- `OnHeartbeatRequest`, `legacy_compatible/CiHBResponser.cpp:168–181`. -/
def onHeartbeatRequest (e : Endian) (sockfd : Int) : Call Responser Bool := do
  let iTemp := loadInt e (((← get).own.recvBuf.bytes.drop 4).take 4)
  sendHeartbeatResponse e sockfd (ntohl e iTemp.toUInt32).toInt32

/-- `OnMessage`, `legacy_compatible/CiHBResponser.cpp:296–312`. -/
def onMessage (e : Endian) (sockfd : Int) (iMessage : Int32) : Call Responser Bool :=
  if sockfd = invalidSocket then pure false
  else if iMessage = CiHBMessageType.heartbeatRequest.code then do
    let _ ← onHeartbeatRequest e sockfd
    pure true
  else pure false

/-- What `CCiHBResponser` overrides. -/
def overrides (e : Endian) : Overrides Responser where
  receiveIntMessage := receiveIntMessage e
  onMessage := onMessage e
  onReadSocketError := onReadSocketError
  others := others

/-- `CCiHBResponser` as a thread class. -/
def threadClass (e : Endian) : CiThread2Class Fault (World Responser) :=
  Legacy.threadClass (overrides e) initInstance

/-- A constructed responder before its first run. -/
def fresh (identity : Identity) (portNumber : UInt16) (timeoutMillisec : Int) (saRecv : Endpoint)
    (recvBuf : RecvBuf) (env : Nat → Outcome) : World Responser :=
  ⟨.new timeoutMillisec, new identity portNumber saRecv recvBuf, env, []⟩

/-- A receive buffer of zeros. -/
def zeros : RecvBuf := ⟨List.replicate maxDataSize 0, List.length_replicate⟩

/-- `RunThreadHere` up to `n` turns of its loop, `legacy_compatible/legacy_support.cpp:292–311`. -/
def runThreadHere (e : Endian) (n : Nat) (w : World Responser) :
    EStateM.Result Fault (World Responser) Bool :=
  ((threadClass e).runLoop n).run w.prepareRunning

end Responser
end HeartbeatSpec.Legacy
