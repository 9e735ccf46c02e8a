import HeartbeatSpec.Base.Frames
import HeartbeatSpec.Base.Runs
import HeartbeatSpec.Socket.IntMessages
import HeartbeatSpec.Socket.Progress

/-!
# Messages of a byte stream

Library `Socket`. However the network cuts a stream of messages into pieces, `OnMessage` is called
with each of them once, in their order and when all of it is there; between two turns the buffer
holds a first part of the next one, and nothing else,
`examples/Externals/CiUtils/Src/NetworkThread.cpp:1044–1108`.
-/

namespace HeartbeatSpec.Socket
open HeartbeatSpec.Base
open HeartbeatSpec.Base.RingBuffer (Holds)

variable {s t : CiSocket} {queue bs : List UInt8} {n : Nat} {e : Endian}
  {realloc headerRealloc bodyRealloc : Realloc}

/-! ### The format -/

/-- The second `int` of a message; a negative size is that of an empty body. -/
def bodySize (bs : List UInt8) : Int32 := Int32.ofNat (networkValue ((bs.drop 4).take 4))

/-- The format of the messages. -/
def intFormat : FrameFormat UInt8 := ⟨8, fun head ↦ (bodySize head).toInt.toNat, by decide⟩

theorem frameSize_intFormat (bs : List UInt8) :
    intFormat.frameSize bs = 8 + (bodySize bs).toInt.toNat := by
  have hhead : ((bs.take 8).drop 4).take 4 = (bs.drop 4).take 4 := by
    rw [List.drop_take, List.take_take]
    rfl
  rw [FrameFormat.frameSize]
  show 8 + (bodySize (bs.take 8)).toInt.toNat = _
  rw [bodySize, hhead, bodySize]

/-- What comes behind the two `int`s does not change them. -/
theorem bodySize_append (h : 8 ≤ bs.length) (cs : List UInt8) :
    bodySize (bs ++ cs) = bodySize bs := by
  rw [bodySize, List.drop_append_of_le_length (by omega), List.take_append_of_le_length
    (by rw [List.length_drop]; omega), bodySize]

/-! ### One message -/

/-- The state is known. -/
theorem contract_get {α : Type} {f : CiSocket → Call α} {Q : α → CiSocket → Prop}
    {E : Fault → CiSocket → Prop} (h : Contract (fun t ↦ t = s) (f s) Q E) :
    Contract (fun t ↦ t = s) (get >>= f) Q E :=
  Contract.get_bind fun w hw ↦ by rw [hw]; exact h

/-- Why a socket is given up: there is no memory for a larger buffer, or an error has come, or there
was nothing to be received. -/
def Cause (s : CiSocket) (headerRealloc bodyRealloc : Realloc) (t : CiSocket) : Prop :=
  headerRealloc = none ∨ bodyRealloc = none ∨ errors t.arrivals < errors s.arrivals ∨
    ¬Ready s.arrivals

/-- Bytes have been received into a buffer that starts at its beginning. -/
structure Extended (s : CiSocket) (queue bs : List UInt8) (t : CiSocket) : Prop where
  gained : Gained s queue bs t
  flat : Flat t.recv (queue ++ bs)
  errors_le : errors t.arrivals ≤ errors s.arrivals

theorem Extended.refl (h : s.recv.Holds queue) (hflat : Flat s.recv queue) :
    Extended s queue [] s where
  gained := (Took.refl h).toGained
  flat := by rwa [List.append_nil]
  errors_le := Nat.le_refl _

theorem GotMore.extended {ret : Bool} (h : GotMore s queue bs n realloc ret t) :
    Extended s queue bs t :=
  ⟨h.gained, h.flat, h.errors_le⟩

theorem Extended.trans {u : CiSocket} {cs : List UInt8} (h : Extended s queue bs t)
    (h' : Extended t (queue ++ bs) cs u) : Extended s queue (bs ++ cs) u where
  gained := ⟨by rw [← List.append_assoc]; exact h'.gained.recv,
    by rw [h'.gained.received, h.gained.received, List.append_assoc],
    by rw [h.gained.flow, h'.gained.flow, List.append_assoc],
    h'.gained.send.trans h.gained.send, h'.gained.acceptances.trans h.gained.acceptances,
    h'.gained.sent.trans h.gained.sent⟩
  flat := by
    rw [← List.append_assoc]
    exact h'.flat
  errors_le := Nat.le_trans h'.errors_le h.errors_le

/-- What the first part of the function has come to. -/
def HeaderOutcome (s : CiSocket) (realloc : Realloc) (queue bs : List UInt8) (t : CiSocket) :
    Option ReceiveIntMessageResult → Prop
  | none => queue.length < 8 ∧ (queue ++ bs).length = 8 ∨ 8 ≤ queue.length ∧ bs = [] ∧ t = s
  | some .messageInterim => (queue ++ bs).length < 8 ∧ bs ≠ []
  | some .messageFalse => Cause s realloc realloc t
  | some .messageTrue => False

theorem contract_receiveHeader (h : s.recv.Holds queue) (hflat : Flat s.recv queue) :
    Contract (fun t ↦ t = s) (receiveHeader realloc queue.length)
      (fun ret t ↦ ∃ bs, Extended s queue bs t ∧ HeaderOutcome s realloc queue bs t ret)
      fun f _ ↦ f = .sizeOverflow := by
  rw [receiveHeader]
  refine Contract.ite (fun hshort ↦ ?_) fun hlong ↦ ?_
  · refine (contract_receive h hflat).bind fun ret ↦ ?_
    rintro t ⟨bs, hmore⟩
    have hextended := hmore.extended
    have hsize : dataSize t.recv = (queue ++ bs).length := dataSize_eq hmore.gained.recv
    have hlength := hmore.length_le
    cases ret with
    | false =>
      refine ⟨bs, hextended, ?_⟩
      rcases hmore.failed rfl with hnone | herrors
      · exact Or.inl hnone
      · exact Or.inr (Or.inr (Or.inl herrors))
    | true =>
      rw [if_neg (by decide), EStateM.run_bind, EStateM.run_get]
      dsimp only
      rw [hsize, List.length_append]
      rcases Nat.eq_zero_or_pos bs.length with hzero | hpos
      · obtain rfl := List.length_eq_zero_iff.mp hzero
        rw [if_pos (by rw [hzero, Nat.add_zero])]
        refine ⟨[], hextended, Or.inr (Or.inr (Or.inr fun hready ↦ ?_))⟩
        exact hmore.advances rfl (by omega) hready rfl
      · rw [if_neg (by omega)]
        by_cases hless : queue.length + bs.length < 8
        · rw [if_pos hless]
          exact ⟨bs, hextended, by rwa [List.length_append], List.ne_nil_of_length_pos hpos⟩
        · rw [if_neg hless]
          refine ⟨bs, hextended, Or.inl ⟨hshort, ?_⟩⟩
          rw [List.length_append]
          omega
  · intro t ht
    rw [ht]
    exact ⟨[], Extended.refl h hflat, Or.inr ⟨Nat.not_lt.mp hlong, rfl, rfl⟩⟩

/-- What the second part of the function has come to. -/
structure BodyOutcome (s : CiSocket) (realloc : Realloc) (isReceiveHeader : Bool)
    (iNBodySize : Int) (queue bs : List UInt8) (ret : Bool) (t : CiSocket) : Prop where
  none_of_nonpos : iNBodySize ≤ 0 → bs = []
  length_le : 0 < iNBodySize → ((queue ++ bs).length : Int) ≤ 8 + iNBodySize
  cause : ret = false →
    realloc = none ∨ errors t.arrivals < errors s.arrivals ∨
      isReceiveHeader = false ∧ ¬Ready s.arrivals
  advances : ret = true → isReceiveHeader = false → 0 < iNBodySize → bs ≠ []

theorem contract_receiveBody (h : s.recv.Holds queue) (hflat : Flat s.recv queue)
    (isReceiveHeader : Bool) {iNBodySize : Int}
    (hfit : 0 < iNBodySize → (queue.length : Int) < 8 + iNBodySize) :
    Contract (fun t ↦ t = s) (receiveBody realloc isReceiveHeader iNBodySize)
      (fun ret t ↦ ∃ bs, Extended s queue bs t ∧
        BodyOutcome s realloc isReceiveHeader iNBodySize queue bs ret t)
      fun f _ ↦ f = .sizeOverflow := by
  rw [receiveBody]
  refine Contract.ite (fun hpos ↦ ?_) fun hnonpos ↦ ?_
  · have hshort := hfit hpos
    refine contract_get ?_
    rw [dataSize_eq h]
    dsimp only
    rw [if_neg (by omega)]
    refine (contract_receive h hflat).bind fun ret ↦ ?_
    rintro t ⟨bs, hmore⟩
    have hextended := hmore.extended
    have hsize : dataSize t.recv = (queue ++ bs).length := dataSize_eq hmore.gained.recv
    have hlength := hmore.length_le
    have hle : ((queue ++ bs).length : Int) ≤ 8 + iNBodySize := by
      rw [List.length_append]
      omega
    have hnone : iNBodySize ≤ 0 → bs = [] := fun hle ↦ absurd hpos (by omega)
    cases ret with
    | false =>
      refine ⟨bs, hextended, hnone, fun _ ↦ hle, fun _ ↦ ?_, nofun⟩
      rcases hmore.failed rfl with hrealloc | herrors
      · exact Or.inl hrealloc
      · exact Or.inr (Or.inl herrors)
    | true =>
      rw [if_neg (by decide), EStateM.run_bind, EStateM.run_get]
      dsimp only
      rw [hsize, List.length_append]
      by_cases hgiven : isReceiveHeader = false ∧ queue.length = queue.length + bs.length
      · rw [if_pos hgiven]
        have hnil : bs = [] := List.length_eq_zero_iff.mp (by omega)
        refine ⟨bs, hextended, hnone, fun _ ↦ hle, fun _ ↦ Or.inr (Or.inr ⟨hgiven.1, ?_⟩), nofun⟩
        exact fun hready ↦ hmore.advances rfl (by omega) hready hnil
      · rw [if_neg hgiven]
        refine ⟨bs, hextended, hnone, fun _ ↦ hle, nofun, fun _ hlater _ hnil ↦ ?_⟩
        exact hgiven ⟨hlater, by rw [hnil, List.length_nil, Nat.add_zero]⟩
  · intro t ht
    rw [ht]
    exact ⟨[], Extended.refl h hflat, fun _ ↦ rfl, fun hpos ↦ absurd hpos hnonpos, nofun,
      fun _ _ hpos ↦ absurd hpos hnonpos⟩

/-- The second `int` is looked at in the buffer. -/
theorem run_lookAheadInt32 (h : s.recv.Holds queue) (hflat : Flat s.recv queue)
    (hhead : 8 ≤ queue.length) : (lookAheadInt32 e 4).run s = .ok (some (bodySize queue)) s := by
  have hnil : queue ≠ [] := List.ne_nil_of_length_pos (by omega)
  have hlooks : LooksRight s 4 4 := hflat.looksRight h (by decide)
  rw [lookAheadInt32, EStateM.run_bind, run_lookAheadN h hlooks, if_pos ⟨hhead, hnil⟩]
  dsimp only
  rw [wireInt, Endian.networkToHost_load e (by rw [List.length_take, List.length_drop]; omega)]
  rfl

/-- The first `int` of a message. -/
def messageCode (bs : List UInt8) : Int32 := Int32.ofNat (networkValue (bs.take 4))

theorem run_readInt32 (h : s.recv.Holds queue) (hhead : 4 ≤ queue.length) :
    ∃ r, (readInt32 e).run s = .ok (some (messageCode queue)) { s with recv := r } ∧
      r.Holds (queue.drop 4) := by
  have hnil : queue ≠ [] := List.ne_nil_of_length_pos (by omega)
  obtain ⟨r, hrun, hholds⟩ := (run_readN h 4).1 ⟨hhead, hnil⟩
  refine ⟨r, ?_, hholds⟩
  rw [readInt32, EStateM.run_bind, hrun]
  dsimp only
  rw [wireInt, Endian.networkToHost_load e (by rw [List.length_take]; omega)]
  rfl

/-- The end of the function, once there is not more than a message. -/
theorem contract_takeMessage (h : s.recv.Holds queue) (hhead : 8 ≤ queue.length)
    (hle : queue.length ≤ intFormat.frameSize queue) :
    Contract (fun t ↦ t = s) (takeMessage e (bodySize queue).toInt)
      (fun result t ↦ result = (.messageInterim, none) ∧ t = s ∧ intFormat.Incomplete queue ∨
        result = (.messageTrue, some (messageCode queue)) ∧ intFormat.IsFrame queue ∧
          ∃ r, t = { s with recv := r } ∧ r.Holds (queue.drop 4))
      fun f _ ↦ f = .sizeOverflow := by
  rw [takeMessage]
  rw [frameSize_intFormat] at hle
  refine Contract.ite (fun _ _ _ ↦ rfl) fun _ ↦ ?_
  refine contract_get ?_
  rw [dataSize_eq h]
  refine Contract.ite (fun hless ↦ ?_) fun hall ↦ ?_
  · refine Contract.pure fun t ht ↦ Or.inl ⟨rfl, ht, ?_⟩
    rw [FrameFormat.Incomplete, frameSize_intFormat]
    omega
  · obtain ⟨r, hrun, hholds⟩ := @run_readInt32 s queue e h (by omega)
    intro t ht
    rw [ht, EStateM.run_bind, hrun]
    refine Or.inr ⟨rfl, ?_, r, rfl, hholds⟩
    rw [FrameFormat.IsFrame, frameSize_intFormat]
    omega

/-- What the function has come to: the bytes received do not make a message, or make one, the rest
of which is in the buffer, or the socket is to be given up. -/
def Outcome (s : CiSocket) (headerRealloc bodyRealloc : Realloc) (queue bs : List UInt8)
    (t : CiSocket) : ReceiveIntMessageResult × Option Int32 → Prop
  | (.messageInterim, _) =>
    bs ≠ [] ∧ t.recv.Holds (queue ++ bs) ∧ Flat t.recv (queue ++ bs) ∧
      intFormat.Incomplete (queue ++ bs)
  | (.messageTrue, message) =>
    bs ≠ [] ∧ message = some (messageCode (queue ++ bs)) ∧ intFormat.IsFrame (queue ++ bs) ∧
      t.recv.Holds ((queue ++ bs).drop 4)
  | (.messageFalse, _) => Cause s headerRealloc bodyRealloc t

/-- The bytes received, beside the outcome. -/
structure Turned (s : CiSocket) (headerRealloc bodyRealloc : Realloc) (queue bs : List UInt8)
    (result : ReceiveIntMessageResult × Option Int32) (t : CiSocket) : Prop where
  received : t.received = s.received ++ bs
  flow : flow s.arrivals = bs ++ flow t.arrivals
  errors_le : errors t.arrivals ≤ errors s.arrivals
  outcome : Outcome s headerRealloc bodyRealloc queue bs t result

/-- One call, from a buffer with a first part of a message. -/
theorem contract_receiveIntMessage (h : s.recv.Holds queue) (hflat : Flat s.recv queue)
    (hincomplete : intFormat.Incomplete queue) :
    Contract (fun t ↦ t = s) (receiveIntMessage e headerRealloc bodyRealloc)
      (fun result t ↦ ∃ bs, Turned s headerRealloc bodyRealloc queue bs result t)
      fun f _ ↦ f = .sizeOverflow := by
  rw [FrameFormat.Incomplete, frameSize_intFormat] at hincomplete
  rw [receiveIntMessage]
  refine contract_get ?_
  rw [dataSize_eq h]
  refine (contract_receiveHeader h hflat).bind fun ret ↦ ?_
  rintro t ⟨bs, hextended, houtcome⟩
  have hgained := hextended.gained
  cases ret with
  | some ret =>
    refine ⟨bs, hgained.received, hgained.flow, hextended.errors_le, ?_⟩
    cases ret with
    | messageFalse =>
      rcases houtcome with hnone | hnone | hcause
      · exact Or.inl hnone
      · exact Or.inl hnone
      · exact Or.inr (Or.inr hcause)
    | messageTrue => exact houtcome.elim
    | messageInterim =>
      refine ⟨houtcome.2, hgained.recv, hextended.flat, ?_⟩
      rw [FrameFormat.Incomplete, frameSize_intFormat]
      exact Nat.lt_of_lt_of_le houtcome.1 (Nat.le_add_right _ _)
  | none =>
    have hhead : 8 ≤ (queue ++ bs).length := by
      rcases houtcome with ⟨-, hall⟩ | ⟨hlong, rfl, -⟩
      · omega
      · rwa [List.append_nil]
    have hfit : 0 < (bodySize (queue ++ bs)).toInt →
        ((queue ++ bs).length : Int) < 8 + (bodySize (queue ++ bs)).toInt := by
      intro hpos
      rcases houtcome with ⟨-, hall⟩ | ⟨hlong, rfl, -⟩
      · omega
      · rw [List.append_nil] at hpos ⊢
        omega
    dsimp only
    rw [EStateM.run_bind, run_lookAheadInt32 hgained.recv hextended.flat hhead]
    refine ((contract_receiveBody hgained.recv hextended.flat _ hfit).bind fun ret ↦ ?_) t rfl
    rintro u ⟨cs, hmore, hbody⟩
    have hall := hextended.trans hmore
    cases ret with
    | false =>
      refine ⟨bs ++ cs, hall.gained.received, hall.gained.flow, hall.errors_le, ?_⟩
      rcases hbody.cause rfl with hnone | herrors | ⟨hlater, hready⟩
      · exact Or.inr (Or.inl hnone)
      · exact Or.inr (Or.inr (Or.inl (Nat.lt_of_lt_of_le herrors hextended.errors_le)))
      · rcases houtcome with ⟨hshort, -⟩ | ⟨-, -, rfl⟩
        · exact absurd hshort (of_decide_eq_false hlater)
        · exact Or.inr (Or.inr (Or.inr hready))
    | true =>
      have hsome : bs ++ cs ≠ [] := by
        rcases houtcome with ⟨hshort, hall⟩ | ⟨hlong, rfl, -⟩
        · refine List.append_ne_nil_of_left_ne_nil (List.ne_nil_of_length_pos ?_) cs
          rw [List.length_append] at hall
          omega
        · rw [List.append_nil] at hbody
          refine hbody.advances rfl (decide_eq_false (Nat.not_lt.mpr hlong)) ?_
          omega
      have hle : (queue ++ bs ++ cs).length ≤ intFormat.frameSize (queue ++ bs ++ cs) := by
        rw [frameSize_intFormat, bodySize_append hhead]
        by_cases hpos : 0 < (bodySize (queue ++ bs)).toInt
        · have hlength := hbody.length_le hpos
          omega
        · rw [hbody.none_of_nonpos (Int.not_lt.mp hpos), List.append_nil]
          rcases houtcome with ⟨-, hall⟩ | ⟨hlong, rfl, -⟩
          · omega
          · rw [List.append_nil] at hpos ⊢
            omega
      have hhead' : 8 ≤ (queue ++ bs ++ cs).length := by
        rw [List.length_append]
        omega
      have htake := @contract_takeMessage u (queue ++ bs ++ cs) e hmore.gained.recv hhead' hle
      rw [bodySize_append hhead] at htake
      rw [if_neg (by decide)]
      refine (htake.mono (fun _ hu ↦ hu) (fun result v hv ↦ ?_) fun _ _ hf ↦ hf) u rfl
      refine ⟨bs ++ cs, ?_⟩
      rw [List.append_assoc] at hv
      rcases hv with ⟨rfl, rfl, hincomplete⟩ | ⟨rfl, hframe, r, rfl, hholds⟩
      · exact ⟨hall.gained.received, hall.gained.flow, hall.errors_le, hsome, hall.gained.recv,
          hall.flat, hincomplete⟩
      · exact ⟨hall.gained.received, hall.gained.flow, hall.errors_le, hsome, rfl, hframe, hholds⟩

/-! ### Turns -/

/-- `OnMessage` takes the rest of its message out of the buffer, and receives nothing itself. -/
def Drains (onMessage : Int32 → Call Bool) : Prop :=
  ∀ (message : List UInt8) (s t : CiSocket), intFormat.IsFrame message →
    s.recv.Holds (message.drop 4) → (onMessage (messageCode message)).run s = .ok true t →
      t.recv.Holds [] ∧ t.received = s.received ∧ t.arrivals = s.arrivals

/-- The bytes of a message, from what `OnMessage` is called with. -/
def messageBytes (message : Int32 × List UInt8) : List UInt8 :=
  networkBytes 4 message.1.toUInt32.toNat ++ message.2

theorem messageBytes_eq (hhead : 4 ≤ bs.length) :
    messageBytes (messageCode bs, bs.drop 4) = bs := by
  have hlength : (bs.take 4).length = 4 := by
    rw [List.length_take]
    omega
  have hlt := networkValue_lt (bs.take 4)
  rw [hlength] at hlt
  have hcode : (messageCode bs).toUInt32.toNat = networkValue (bs.take 4) := by
    rw [messageCode, Int32.toUInt32_ofNat', UInt32.toNat_ofNat']
    exact Nat.mod_eq_of_lt hlt
  rw [messageBytes, hcode, networkBytes_networkValue hlength, List.take_append_drop]

/-- The messages with which `OnMessage` has been called. -/
def delivered (tr : List (Transition CiSocket ReadTurn)) : List (List UInt8) :=
  tr.filterMap fun x ↦ x.label.message.map messageBytes

theorem delivered_snoc (tr : List (Transition CiSocket ReadTurn)) (l : ReadTurn) :
    delivered (tr ++ [⟨s, l, t⟩]) = delivered tr ++ (l.message.map messageBytes).toList := by
  rw [delivered, List.filterMap_append, ← delivered, List.append_right_inj]
  cases hmessage : l.message <;> simp [hmessage]

/-- Between two turns. -/
structure Between (coming : List UInt8) (messages : List (List UInt8)) (s : CiSocket) : Prop where
  holds : s.recv.Holds s.recv.contents
  flat : Flat s.recv s.recv.contents
  splits : intFormat.Splits s.received messages s.recv.contents
  all : s.received ++ flow s.arrivals = coming

theorem flow_dropWhile (as : List Arrival) : flow (as.dropWhile (· = .wouldBlock)) = flow as := by
  induction as with
  | nil => rfl
  | cons a as ih =>
    cases a with
    | wouldBlock => exact ih
    | data | error | eof => rfl

theorem Between.awaitInput {coming : List UInt8} {messages : List (List UInt8)}
    (h : Between coming messages s) (hwait : s.awaitInput = some t) :
    Between coming messages t := by
  unfold CiSocket.awaitInput at hwait
  split at hwait
  · cases hwait
  · next a as has =>
    obtain rfl := Option.some.inj hwait
    refine ⟨h.holds, h.flat, h.splits, ?_⟩
    rw [← h.all, ← flow_dropWhile s.arrivals, has]

/-- What one turn does, if the socket is not given up in it. -/
theorem readTurn_cases {onMessage : Int32 → Call Bool} {l : ReadTurn}
    (h : readTurn e onMessage s l = some t) : ∃ s', s.awaitInput = some s' ∧
      ((∃ message, (receiveIntMessage e l.headerRealloc l.bodyRealloc).run s' =
          .ok (.messageInterim, message) t ∧ l.message = none) ∨
        ∃ iMessage u, (receiveIntMessage e l.headerRealloc l.bodyRealloc).run s' =
            .ok (.messageTrue, some iMessage) u ∧
          l.message = some (iMessage, u.recv.contents) ∧
            (onMessage iMessage).run u = .ok true t) := by
  unfold readTurn at h
  split at h
  · cases h
  · next s' hwait =>
    refine ⟨s', hwait, ?_⟩
    split at h
    · next message u hrun =>
      left
      split at h
      · next hnone =>
        obtain rfl := Option.some.inj h
        exact ⟨message, hrun, hnone⟩
      · cases h
    · next iMessage u hrun =>
      right
      split at h
      · next hmessage =>
        split at h
        · next v hhandled =>
          obtain rfl := Option.some.inj h
          exact ⟨iMessage, u, hrun, hmessage, hhandled⟩
        · cases h
      · cases h
    · cases h

theorem Between.readTurn {onMessage : Int32 → Call Bool} (hdrains : Drains onMessage)
    {coming : List UInt8} {messages : List (List UInt8)} {l : ReadTurn}
    (h : Between coming messages s) (hstep : Socket.readTurn e onMessage s l = some t) :
    Between coming (messages ++ (l.message.map messageBytes).toList) t := by
  obtain ⟨s', hwait, hturn⟩ := readTurn_cases hstep
  have h' := h.awaitInput hwait
  have hcall := @contract_receiveIntMessage s' s'.recv.contents e l.headerRealloc l.bodyRealloc
    h'.holds h'.flat h'.splits.rest
  rcases hturn with ⟨message, hrun, hnone⟩ | ⟨iMessage, u, hrun, hmessage, hhandled⟩
  · obtain ⟨bs, hturned⟩ := hcall.of_ok rfl hrun
    obtain ⟨-, hholds, hflat, hincomplete⟩ := hturned.outcome
    rw [hnone, Option.map_none, Option.toList_none, List.append_nil]
    have hcontents := hholds.contents
    refine ⟨⟨hholds.valid, rfl⟩, ?_, ?_, ?_⟩
    · rwa [hcontents]
    · rw [hcontents, hturned.received]
      exact h'.splits.more hincomplete
    · rw [hturned.received, List.append_assoc, ← hturned.flow, h'.all]
  · obtain ⟨bs, hturned⟩ := hcall.of_ok rfl hrun
    obtain ⟨-, hcode, hframe, hholds⟩ := hturned.outcome
    obtain rfl := Option.some.inj hcode
    obtain ⟨hempty, hreceived, harrivals⟩ := hdrains _ u t hframe hholds hhandled
    have hhead : 4 ≤ (s'.recv.contents ++ bs).length :=
      Nat.le_trans (by decide) hframe.head_le
    have hcontents := hempty.contents
    rw [hmessage, Option.map_some, Option.toList_some, hholds.contents, messageBytes_eq hhead]
    refine ⟨⟨hempty.valid, rfl⟩, Or.inl hcontents, ?_, ?_⟩
    · rw [hcontents, hreceived, hturned.received]
      exact h'.splits.complete hframe
    · rw [hreceived, harrivals, hturned.received, List.append_assoc, ← hturned.flow, h'.all]

variable {sendBuffer recvBuffer : Nat → UInt8} {iSendBufferSize iRecvBufferSize : Nat}
  {arrivals : List Arrival} {acceptances : List Acceptance} {onMessage : Int32 → Call Bool}
  {tr : List (Transition CiSocket ReadTurn)}

theorem between_run (h : Runs (readTurn e onMessage) (CiSocket.new sendBuffer recvBuffer
      iSendBufferSize iRecvBufferSize arrivals acceptances) tr s) (hdrains : Drains onMessage) :
    Between (flow arrivals) (delivered tr) s := by
  induction h with
  | nil =>
    have hempty : (CiSocket.new sendBuffer recvBuffer iSendBufferSize iRecvBufferSize arrivals
        acceptances).recv.Holds [] := RingBuffer.holds_nil ⟨Or.inl rfl, Or.inl rfl⟩ rfl
    have hcontents := hempty.contents
    refine ⟨⟨hempty.valid, rfl⟩, Or.inl hcontents, ?_, List.nil_append _⟩
    rw [hcontents]
    exact FrameFormat.Splits.nil intFormat
  | snoc h hstep ih =>
    rw [delivered_snoc]
    exact ih.readTurn hdrains hstep

/-- Whatever pieces the stream of the peer has come in, what has been received is the messages with
which `OnMessage` has been called, one after the other, and what is in the buffer, a first part of
the next message; and it splits into messages in no other way. -/
theorem messages_framed (h : Runs (readTurn e onMessage) (CiSocket.new sendBuffer recvBuffer
      iSendBufferSize iRecvBufferSize arrivals acceptances) tr s) (hdrains : Drains onMessage) :
    (∀ messages rest, intFormat.Splits s.received messages rest ↔
        messages = delivered tr ∧ rest = s.recv.contents) ∧
      s.received ++ flow s.arrivals = flow arrivals := by
  have hbetween := between_run h hdrains
  refine ⟨fun messages rest ↦ ⟨fun hsplits ↦ hsplits.unique hbetween.splits, ?_⟩, hbetween.all⟩
  rintro ⟨rfl, rfl⟩
  exact hbetween.splits

/-- What `poll` reports is bytes, an error, or the end of the stream. -/
theorem head_of_awaitInput (hwait : s.awaitInput = some t) : Ready t.arrivals ∨
    t.arrivals.head? = some .error ∨ t.arrivals.head? = some .eof := by
  unfold CiSocket.awaitInput at hwait
  split at hwait
  · cases hwait
  · next a as has =>
    obtain rfl := Option.some.inj hwait
    cases a with
    | data b bs => exact Or.inl ⟨b, bs, as, rfl⟩
    | wouldBlock =>
      have hhead := List.head?_dropWhile_not (fun a : Arrival ↦ decide (a = .wouldBlock)) s.arrivals
      rw [has] at hhead
      cases hhead
    | error => exact Or.inr (Or.inl rfl)
    | eof => exact Or.inr (Or.inr rfl)

/-- Between any two turns, a socket that `poll` reports is given up by `ReceiveIntMessage` only if
`realloc` would fail, an error has come or is the next to come, or the stream has ended; otherwise
bytes have been received. A call that does not return has found a message that needs a larger buffer
than an `int` can size. -/
theorem given_up_for_cause (h : Runs (readTurn e onMessage) (CiSocket.new sendBuffer recvBuffer
      iSendBufferSize iRecvBufferSize arrivals acceptances) tr s) (hdrains : Drains onMessage)
    (hwait : s.awaitInput = some t) (headerRealloc bodyRealloc : Realloc) :
    match (receiveIntMessage e headerRealloc bodyRealloc).run t with
    | .ok result u =>
      if result.1 = .messageFalse then
        headerRealloc = none ∨ bodyRealloc = none ∨ errors u.arrivals < errors t.arrivals ∨
          t.arrivals.head? = some .error ∨ t.arrivals.head? = some .eof
      else t.received.length < u.received.length
    | .error f _ => f = .sizeOverflow := by
  have hbetween := (between_run h hdrains).awaitInput hwait
  have hcall := @contract_receiveIntMessage t t.recv.contents e headerRealloc bodyRealloc
    hbetween.holds hbetween.flat hbetween.splits.rest t rfl
  cases hrun : (receiveIntMessage e headerRealloc bodyRealloc).run t with
  | error f u =>
    rw [hrun] at hcall
    exact hcall
  | ok result u =>
    rw [hrun] at hcall
    obtain ⟨bs, hturned⟩ := hcall
    obtain ⟨ret, message⟩ := result
    have hmore (hsome : bs ≠ []) : t.received.length < u.received.length := by
      rw [hturned.received, List.length_append]
      exact Nat.lt_add_of_pos_right (List.length_pos_iff.mpr hsome)
    have houtcome := hturned.outcome
    cases ret with
    | messageTrue | messageInterim => exact hmore houtcome.1
    | messageFalse =>
      rcases houtcome with hnone | hnone | herrors | hready
      · exact Or.inl hnone
      · exact Or.inr (Or.inl hnone)
      · exact Or.inr (Or.inr (Or.inl herrors))
      · exact Or.inr (Or.inr (Or.inr ((head_of_awaitInput hwait).resolve_left hready)))

/-! ### Two messages in pieces -/

/-- An `OnMessage` that reads the size and the body. -/
def readBody (e : Endian) (_iMessage : Int32) : Call Bool := do
  match ← readInt32 e with
  | none => pure false
  | some iNBodySize =>
    if 0 < iNBodySize.toInt then
      match ← readN iNBodySize.toInt.toNat with
      | none => pure false
      | some _ => pure true
    else pure true

theorem drains_readBody (e : Endian) : Drains (readBody e) := by
  intro message s t hframe hholds hrun
  have hlength : message.length = 8 + (bodySize message).toInt.toNat := by
    rw [← frameSize_intFormat]
    exact hframe
  obtain ⟨r, hread, hr⟩ := @run_readInt32 s (message.drop 4) e hholds
    (by rw [List.length_drop]; omega)
  rw [List.drop_drop] at hr
  have hsize : messageCode (message.drop 4) = bodySize message := rfl
  rw [hsize] at hread
  rw [readBody, EStateM.run_bind, hread] at hrun
  dsimp only at hrun
  by_cases hpos : 0 < (bodySize message).toInt
  · have hbody : (message.drop 8).length = (bodySize message).toInt.toNat := by
      rw [List.length_drop]
      omega
    have hnil : message.drop 8 ≠ [] := List.ne_nil_of_length_pos (by omega)
    obtain ⟨r', hreadN, hr'⟩ := (run_readN (s := { s with recv := r }) hr
      (bodySize message).toInt.toNat).1 ⟨Nat.le_of_eq hbody.symm, hnil⟩
    rw [if_pos hpos, EStateM.run_bind, hreadN] at hrun
    cases hrun
    rw [List.drop_of_length_le (Nat.le_of_eq hbody)] at hr'
    exact ⟨hr', rfl, rfl⟩
  · rw [if_neg hpos] at hrun
    cases hrun
    rw [List.drop_of_length_le (by omega)] at hr
    exact ⟨hr, rfl, rfl⟩

private def pieces : CiSocket :=
  CiSocket.new (fun _ ↦ 0) (fun _ ↦ 0) 4 4 [.data 0 [0, 0], .wouldBlock, .data 7 [0, 0, 0, 2, 1],
    .wouldBlock, .data 2 [0, 0, 0, 9, 0, 0], .wouldBlock, .data 0 [0]] []

private def turns : List ReadTurn :=
  [⟨some fun _ ↦ 0, some fun _ ↦ 0, none⟩, ⟨some fun _ ↦ 0, some fun _ ↦ 0, none⟩,
    ⟨some fun _ ↦ 0, some fun _ ↦ 0, some (7, [0, 0, 0, 2, 1, 2])⟩,
    ⟨some fun _ ↦ 0, some fun _ ↦ 0, none⟩, ⟨some fun _ ↦ 0, none, some (9, [0, 0, 0, 0])⟩]

theorem messages_framed_pieces : ∃ tr s, Runs (readTurn .little (readBody .little)) pieces tr s ∧
    delivered tr = [[0, 0, 0, 7, 0, 0, 0, 2, 1, 2], [0, 0, 0, 9, 0, 0, 0, 0]] ∧
    (∀ messages rest, intFormat.Splits s.received messages rest ↔
        messages = delivered tr ∧ rest = s.recv.contents) ∧
      s.received ++ flow s.arrivals = flow pieces.arrivals := by
  have hall : (exec (readTurn .little (readBody .little)) pieces turns).isSome = true := by
    decide +kernel
  obtain ⟨s, hs⟩ := Option.isSome_iff_exists.mp hall
  refine ⟨_, s, Runs.of_exec hs, ?_, messages_framed (Runs.of_exec hs) (drains_readBody .little)⟩
  decide +kernel

theorem given_up_for_cause_pieces : ∃ tr s t,
    Runs (readTurn .little (readBody .little)) pieces tr s ∧ s.awaitInput = some t ∧
    match (receiveIntMessage .little none (some fun _ ↦ 0)).run t with
    | .ok result u =>
      if result.1 = .messageFalse then
        (none : Realloc) = none ∨ (some fun _ ↦ 0 : Realloc) = none ∨
          errors u.arrivals < errors t.arrivals ∨
          t.arrivals.head? = some .error ∨ t.arrivals.head? = some .eof
      else t.received.length < u.received.length
    | .error f _ => f = .sizeOverflow := by
  have hall : ((exec (readTurn .little (readBody .little)) pieces (turns.take 2)).bind
      CiSocket.awaitInput).isSome = true := by
    decide +kernel
  obtain ⟨t, ht⟩ := Option.isSome_iff_exists.mp hall
  obtain ⟨s, hs, hwait⟩ := Option.bind_eq_some_iff.mp ht
  exact ⟨_, s, t, Runs.of_exec hs, hwait,
    given_up_for_cause (Runs.of_exec hs) (drains_readBody .little) hwait none (some fun _ ↦ 0)⟩

end HeartbeatSpec.Socket
