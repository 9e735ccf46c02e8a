import HeartbeatSpec.Asio.Handler
import HeartbeatSpec.Legacy.Reply

/-!
# The two encoders

Library `Equivalence`. `CCiHBResponser::SendHeartbeatResponse` copies blocks into a presized
buffer, `HeartBeatSession::do_write_response` writes to a stream; on hosts of either byte
order both give the documented layout, which can be read back and is prefix-free.
-/

namespace HeartbeatSpec.Equivalence
open HeartbeatSpec.Base HeartbeatSpec.Message HeartbeatSpec.Asio
open HeartbeatSpec.Legacy.Responser

/-- The stream of the asio session holds the documented layout. -/
theorem responseBytes_eq_encodeMessage (e : Endian) (m : HeartBeatSession) (seq : Int32)
    (h : m.identity.Fits) :
    responseBytes e m seq =
      encodeMessage (m.identity.response m.processState seq.toUInt32) := by
  have hword {n : Nat} (hn : n < 2 ^ 32) : (UInt32.ofNat n).toNat = n := by
    rw [UInt32.toNat_ofNat']
    exact Nat.mod_eq_of_lt hn
  unfold Identity.Fits Identity.replySize at h
  simp only [responseBytes, storeInt_htonl, encodeMessage, Identity.response, framed]
  rw [hword (by omega), hword (by omega)]
  simp only [List.append_assoc]

/-- Replies of which one is a prefix of the other are replies to the same sequence number
under the same identity and state. -/
theorem response_eq_of_prefix {i i' : Identity} {st st' : CiHBState} {seq seq' : UInt32}
    (h : i.Fits) (h' : i'.Fits)
    (hp : encodeMessage (i.response st seq) <+: encodeMessage (i'.response st' seq')) :
    i = i' ∧ st = st' ∧ seq = seq' := by
  have heq := readMessage_inverts.eq_of_prefix (h.representable st seq)
    (h'.representable st' seq') hp
  simp only [Identity.response, HeartbeatMessage.mk.injEq, true_and] at heq
  obtain ⟨hseq, hrep, hst, hlocal⟩ := heq
  refine ⟨?_, hst, hseq⟩
  cases i
  cases i'
  rw [Identity.mk.injEq]
  exact ⟨hrep, hlocal⟩

/-- The reply format: for every identity whose replies have `int` size, the legacy encoder
fills its buffer exactly, by adjacent writes, with the bytes that the asio encoder streams;
these bytes are read back to the message they were made from, with nothing left over; and no
reply is a prefix of a reply to anything else. -/
theorem reply_format_law (e : Endian) (m : HeartBeatSession) (seq : Int32)
    (h : m.identity.Fits) :
    (∃ b, (WriteBuffer.alloc (iMsgStrSize m.identity).toInt.toNat).writeAll 0
        (responseChunks e m.identity m.processState seq) = some b ∧
      b.size = (iMsgStrSize m.identity).toInt.toNat ∧
      Adjacent 0 b.extents (iMsgStrSize m.identity).toInt.toNat ∧
      b.contents = some (responseBytes e m seq)) ∧
    buildResponse e m.identity m.processState seq = .ok (responseBytes e m seq) ∧
    readMessage.run (responseBytes e m seq) =
      some (⟨.heartbeatResponse, seq.toUInt32, m.identity.representativeIP, m.processState,
        m.identity.localIP⟩, []) ∧
    ∀ (e' : Endian) (m' : HeartBeatSession) (seq' : Int32), m'.identity.Fits →
      responseBytes e m seq <+: responseBytes e' m' seq' →
        m.identity = m'.identity ∧ m.processState = m'.processState ∧ seq = seq' := by
  rw [responseBytes_eq_encodeMessage e m seq h]
  refine ⟨writeAll_responseChunks e m.processState seq h,
    buildResponse_of_fits e m.processState seq h,
    readMessage_inverts.run_enc (h.representable m.processState seq.toUInt32), ?_⟩
  intro e' m' seq' h' hp
  rw [responseBytes_eq_encodeMessage e' m' seq' h'] at hp
  obtain ⟨hi, hst, hseq⟩ := response_eq_of_prefix h h' hp
  refine ⟨hi, hst, ?_⟩
  rw [← Int32.toInt32_toUInt32 seq, hseq, Int32.toInt32_toUInt32]

/-- The reply format at addresses of one and of two bytes and a sequence number with its top
bit set. -/
theorem reply_format_law_sample :
    responseBytes .big ⟨none, ⟨[49], [0, 50]⟩, 0, .hwError, ⟨0, 0⟩⟩ (-2) =
        [0, 0, 0, 1, 255, 255, 255, 254, 0, 0, 0, 1, 49, 0, 0, 0, 2, 0, 0, 0, 2, 0, 50] ∧
      readMessage.run (responseBytes .big ⟨none, ⟨[49], [0, 50]⟩, 0, .hwError, ⟨0, 0⟩⟩ (-2)) =
        some (⟨.heartbeatResponse, 4294967294, [49], .hwError, [0, 50]⟩, []) :=
  ⟨by decide, (reply_format_law .big ⟨none, ⟨[49], [0, 50]⟩, 0, .hwError, ⟨0, 0⟩⟩ (-2)
    (by decide)).2.2.1⟩

end HeartbeatSpec.Equivalence
