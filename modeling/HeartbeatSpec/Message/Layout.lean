import HeartbeatSpec.Base.PrefixCode
import HeartbeatSpec.Message.Defines

/-!
# Documented layout and the service it carries

Library `Message`. The layout is the comment at `legacy_compatible/CiHBResponser.cpp:185–186`:
message type, sequence number, representative ip length, representative ip, state, local ip
length, local ip, with 32-bit fields in network order. `answer` states what a responder is
for; both responders are compared with it.
-/

namespace HeartbeatSpec.Message
open HeartbeatSpec.Base

/-- A message laid out as documented. -/
structure HeartbeatMessage where
  type : CiHBMessageType
  seq : UInt32
  representativeIP : List UInt8
  state : CiHBState
  localIP : List UInt8
  deriving DecidableEq, Repr

/-- The message type of a wire word. -/
def CiHBMessageType.ofCode : Nat → Option CiHBMessageType
  | 0 => some heartbeatRequest
  | 1 => some heartbeatResponse
  | _ => none

/-- The process state of a wire word. -/
def CiHBState.ofCode : Nat → Option CiHBState
  | 0 => some alive
  | 1 => some swError
  | 2 => some hwError
  | _ => none

/-- The bytes of a message. -/
def encodeMessage (m : HeartbeatMessage) : List UInt8 :=
  networkBytes 4 m.type.code.toUInt32.toNat ++ (networkBytes 4 m.seq.toNat ++
    (framed 4 m.representativeIP ++ (networkBytes 4 m.state.code.toUInt32.toNat ++
      framed 4 m.localIP)))

/-- Reads a message by the documented layout. -/
def readMessage : Reader UInt8 HeartbeatMessage := do
  let typeCode ← readWord 4
  let type ← readOf (CiHBMessageType.ofCode typeCode)
  let seq ← readWord 4
  let representativeIP ← readFramed 4
  let stateCode ← readWord 4
  let state ← readOf (CiHBState.ofCode stateCode)
  let localIP ← readFramed 4
  pure ⟨type, UInt32.ofNat seq, representativeIP, state, localIP⟩

/-- Both addresses have lengths that their length words can hold. -/
def HeartbeatMessage.Representable (m : HeartbeatMessage) : Prop :=
  m.representativeIP.length < 256 ^ 4 ∧ m.localIP.length < 256 ^ 4

/-- Every message type is read back from its code. -/
theorem CiHBMessageType.ofCode_code (t : CiHBMessageType) :
    CiHBMessageType.ofCode t.code.toUInt32.toNat = some t := by
  cases t <;> rfl

/-- Every process state is read back from its code. -/
theorem CiHBState.ofCode_code (s : CiHBState) :
    CiHBState.ofCode s.code.toUInt32.toNat = some s := by
  cases s <;> rfl

private theorem word_lt (x : UInt32) : x.toNat < 256 ^ 4 := x.toNat_lt

/-- The documented layout is self-delimiting: a message is read back field by field,
whatever follows it. -/
theorem readMessage_inverts :
    Inverts HeartbeatMessage.Representable encodeMessage readMessage := by
  rintro ⟨type, seq, representativeIP, state, localIP⟩ rest ⟨hr, hl⟩
  simp only [encodeMessage, readMessage, List.append_assoc]
  rw [(readWord_inverts 4).run_bind _ (word_lt _), CiHBMessageType.ofCode_code,
    run_readOf_bind, (readWord_inverts 4).run_bind _ (word_lt _),
    (readFramed_inverts 4).run_bind _ hr, (readWord_inverts 4).run_bind _ (word_lt _),
    CiHBState.ofCode_code, run_readOf_bind, (readFramed_inverts 4).run_bind _ hl,
    UInt32.ofNat_toNat]
  rfl

/-- The number of bytes of a message. -/
theorem length_encodeMessage (m : HeartbeatMessage) :
    (encodeMessage m).length = 20 + m.representativeIP.length + m.localIP.length := by
  simp only [encodeMessage, List.length_append, length_networkBytes, length_framed]
  omega

/-! ### The service -/

/-- The two addresses a responder reports. -/
structure Identity where
  representativeIP : List UInt8
  localIP : List UInt8
  deriving DecidableEq, Repr

/-- Number of bytes of every reply under this identity. -/
def Identity.replySize (i : Identity) : Nat :=
  20 + i.representativeIP.length + i.localIP.length

/-- A reply has a size that an `int` can hold. -/
def Identity.Fits (i : Identity) : Prop := i.replySize < 2 ^ 31

instance (i : Identity) : Decidable i.Fits :=
  inferInstanceAs (Decidable (_ < _))

/-- The reply message to sequence number `seq` in process state `st`. -/
def Identity.response (i : Identity) (st : CiHBState) (seq : UInt32) : HeartbeatMessage :=
  ⟨.heartbeatResponse, seq, i.representativeIP, st, i.localIP⟩

/-- At least eight bytes, the first four of them the code of a request. -/
def IsRequest (bs : List UInt8) : Prop :=
  8 ≤ bs.length ∧ bs.take 4 = networkBytes 4 CiHBMessageType.heartbeatRequest.code.toUInt32.toNat

instance (bs : List UInt8) : Decidable (IsRequest bs) :=
  inferInstanceAs (Decidable (_ ∧ _))

/-- The sequence number of a request, its bytes 4 to 7. -/
def requestSeq (bs : List UInt8) : UInt32 := UInt32.ofNat (networkValue ((bs.drop 4).take 4))

/-- What a responder is for: a request is answered to its sender with its own sequence
number and the current process state; every other datagram is ignored. -/
def answer (i : Identity) (st : CiHBState) (d : Datagram) : Option Reply :=
  if IsRequest d.bytes then
    some ⟨d.sender, encodeMessage (i.response st (requestSeq d.bytes))⟩
  else none

/-- A reply of `int` size has representable addresses. -/
theorem Identity.Fits.representable {i : Identity} (h : i.Fits) (st : CiHBState)
    (seq : UInt32) : (i.response st seq).Representable := by
  unfold Identity.Fits Identity.replySize at h
  exact ⟨by change i.representativeIP.length < _; omega, by change i.localIP.length < _; omega⟩

/-- A request starts with four zero bytes. -/
theorem isRequest_iff (bs : List UInt8) :
    IsRequest bs ↔ 8 ≤ bs.length ∧ ∀ b ∈ bs.take 4, b = 0 := by
  unfold IsRequest
  refine and_congr_right fun hlen ↦ ?_
  have h4 : (bs.take 4).length = 4 := by rw [List.length_take]; omega
  have hz : networkBytes 4 CiHBMessageType.heartbeatRequest.code.toUInt32.toNat =
      List.replicate 4 0 := rfl
  rw [hz, List.eq_replicate_iff]
  exact and_iff_right h4

/-- Bytes 4 to 7 of a reply are its sequence number. -/
theorem encodeMessage_seq (m : HeartbeatMessage) :
    ((encodeMessage m).drop 4).take 4 = networkBytes 4 m.seq.toNat := by
  have h1 := length_networkBytes 4 m.type.code.toUInt32.toNat
  have h2 := length_networkBytes 4 m.seq.toNat
  rw [encodeMessage, List.drop_left' h1, List.take_left' h2]

/-- Bytes 4 to 7 of the reply to a request are bytes 4 to 7 of the request. -/
theorem answer_seq (i : Identity) (st : CiHBState) {bs : List UInt8} (h : 8 ≤ bs.length) :
    ((encodeMessage (i.response st (requestSeq bs))).drop 4).take 4 = (bs.drop 4).take 4 := by
  rw [encodeMessage_seq]
  apply networkBytes_ofNat
  rw [List.length_take, List.length_drop]
  omega

end HeartbeatSpec.Message
