import HeartbeatSpec.Legacy.Responser

/-!
# The reply that the legacy responder builds

Library `Legacy`. Under an identity whose replies have `int` size, the blocks copied by
`SendHeartbeatResponse` fill its message exactly and are the documented layout; under any
other identity the function does not get as far as `sendto`.
-/

namespace HeartbeatSpec.Legacy.Responser
open HeartbeatSpec.Base HeartbeatSpec.Message

variable {e : Endian} {i : Identity} {st : CiHBState} {iSeqNum : Int32}

/-- A length below `2 ^ 31` is kept by the conversion to `int`. -/
theorem toNat_toUInt32_ofNat {n : Nat} (h : n < 2 ^ 31) :
    (Int32.ofNat n).toUInt32.toNat = n := by
  have hn : (UInt32.ofNat n).toNat = n % 2 ^ 32 := UInt32.toNat_ofNat'
  rw [Nat.mod_eq_of_lt (by omega)] at hn
  exact hn

/-- The blocks have the size of a reply, whatever the addresses. -/
theorem length_flatten_responseChunks (e : Endian) (i : Identity) (st : CiHBState)
    (iSeqNum : Int32) : (responseChunks e i st iSeqNum).flatten.length = i.replySize := by
  simp only [responseChunks, List.flatten_cons, List.flatten_nil, List.length_append,
    length_storeInt, List.length_nil, Identity.replySize]
  omega

/-- The size of a reply of `int` size. -/
theorem toInt_iMsgStrSize (h : i.Fits) : (iMsgStrSize i).toInt = i.replySize := by
  have hsize : 4 + 4 + 4 + i.representativeIP.length + 4 + 4 + i.localIP.length =
      i.replySize := by
    unfold Identity.replySize
    omega
  unfold Identity.Fits at h
  rw [iMsgStrSize, hsize]
  exact Int32.toInt_ofNat_of_lt (by omega)

/-- The blocks are the documented layout. -/
theorem flatten_responseChunks (h : i.Fits) :
    (responseChunks e i st iSeqNum).flatten =
      encodeMessage (i.response st iSeqNum.toUInt32) := by
  unfold Identity.Fits Identity.replySize at h
  simp only [responseChunks, List.flatten_cons, List.flatten_nil, List.append_nil, storeInt_htonl,
    encodeMessage, Identity.response, framed]
  rw [toNat_toUInt32_ofNat (by omega), toNat_toUInt32_ofNat (by omega)]
  simp only [List.append_assoc]

/-- `SendHeartbeatResponse` fills its message by adjacent writes, from the first byte to the
last, with the documented layout. -/
theorem writeAll_responseChunks (e : Endian) (st : CiHBState) (iSeqNum : Int32) (h : i.Fits) :
    ∃ b, (WriteBuffer.alloc (iMsgStrSize i).toInt.toNat).writeAll 0
        (responseChunks e i st iSeqNum) = some b ∧
      b.size = (iMsgStrSize i).toInt.toNat ∧
      Adjacent 0 b.extents (iMsgStrSize i).toInt.toNat ∧
      b.contents = some (encodeMessage (i.response st iSeqNum.toUInt32)) := by
  have hlen : (responseChunks e i st iSeqNum).flatten.length = (iMsgStrSize i).toInt.toNat := by
    rw [length_flatten_responseChunks, toInt_iMsgStrSize h, Int.toNat_natCast]
  obtain ⟨b, hw, hs, hc, ha⟩ := WriteBuffer.writeAll_alloc hlen
  rw [flatten_responseChunks h] at hc
  exact ⟨b, hw, hs, ha, hc⟩

/-- A reply of `int` size is built. -/
theorem buildResponse_of_fits (e : Endian) (st : CiHBState) (iSeqNum : Int32) (h : i.Fits) :
    buildResponse e i st iSeqNum = .ok (encodeMessage (i.response st iSeqNum.toUInt32)) := by
  obtain ⟨b, hw, -, -, hc⟩ := writeAll_responseChunks e st iSeqNum h
  have hneg : ¬iMsgStrSize i < 0 := by
    rw [Int32.lt_iff_toInt_lt, toInt_iMsgStrSize h, Int32.toInt_zero]
    omega
  simp only [buildResponse, if_neg hneg, hw, hc]

/-- Any other reply is not built: its size is negative as an `int`, or less than what is
copied. -/
theorem buildResponse_of_not_fits (e : Endian) (st : CiHBState) (iSeqNum : Int32)
    (h : ¬i.Fits) : ∃ f, buildResponse e i st iSeqNum = .error f := by
  by_cases hneg : iMsgStrSize i < 0
  · exact ⟨_, if_pos hneg⟩
  · have hover : (iMsgStrSize i).toInt.toNat < (responseChunks e i st iSeqNum).flatten.length := by
      rw [length_flatten_responseChunks]
      have hlt := Int32.toInt_lt (iMsgStrSize i)
      unfold Identity.Fits at h
      omega
    refine ⟨.bufferOverrun, ?_⟩
    simp only [buildResponse, if_neg hneg, WriteBuffer.writeAll_alloc_eq_none hover]

end HeartbeatSpec.Legacy.Responser
