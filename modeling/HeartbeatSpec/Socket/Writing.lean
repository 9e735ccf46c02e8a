import HeartbeatSpec.Socket.Receiving

/-!
# The send buffer as a queue

Library `Socket`. What is written goes to the wire at once where nothing is waiting, and behind what
is waiting otherwise, `examples/Externals/CiUtils/Src/CiSocket.cpp:1139–1466`. `WriteNFlush` alone
does not look at what is waiting.
-/

namespace HeartbeatSpec.Socket
open HeartbeatSpec.Base
open HeartbeatSpec.Base.RingBuffer (Holds)

variable {s t : CiSocket} {r : RingBuffer UInt8} {bs queue : List UInt8} {k n : Nat}

/-! ### From the buffer to the wire -/

theorem size_takeAcceptance_le (n : Nat) (as : List Acceptance) :
    (takeAcceptance n as).1.size ≤ n := by
  cases as with
  | nil => exact Nat.zero_le n
  | cons a rest =>
    cases a with
    | accepted k => exact Nat.min_le_right k n
    | wouldBlock | error => exact Nat.zero_le n

theorem length_takeAcceptance (n : Nat) (as : List Acceptance) :
    (takeAcceptance n as).2.length = as.length - 1 := by
  cases as with
  | nil => rfl
  | cons a rest => cases a <;> rfl

theorem run_send (bs : List UInt8) (s : CiSocket) :
    (send bs).run s = .ok (takeAcceptance bs.length s.acceptances).1 { s with
      acceptances := (takeAcceptance bs.length s.acceptances).2
      sent := s.sent ++ bs.take (takeAcceptance bs.length s.acceptances).1.size } := rfl

theorem run_copyFrom_send {ptr : Nat} (h : s.send.load ptr n = some bs) :
    (copyFrom .send ptr n).run s = .ok bs s := run_copyFrom h

theorem run_copyTo_send (s : CiSocket) (ptr : Nat) (bs : List UInt8)
    (hfit : ptr + bs.length ≤ s.send.size) : (copyTo .send ptr bs).run s =
      .ok () { s with send := { s.send with cells := overwrite s.send.cells ptr bs } } :=
  run_copyTo (RingBuffer.store_eq hfit)

/-- The front of the send buffer has gone to the wire, so many bytes of it. -/
structure Gave (s : CiSocket) (queue : List UInt8) (k : Nat) (t : CiSocket) : Prop where
  send : t.send.Holds (queue.drop k)
  sent : t.sent = s.sent ++ queue.take k
  recv : t.recv = s.recv
  arrivals : t.arrivals = s.arrivals
  received : t.received = s.received

/-- Nothing has gone. -/
theorem Gave.refl (h : s.send.Holds queue) : Gave s queue 0 s :=
  ⟨h, (List.append_nil _).symm, rfl, rfl, rfl⟩

theorem Gave.trans {u : CiSocket} {j : Nat} (h : Gave s queue k t)
    (h' : Gave t (queue.drop k) j u) : Gave s queue (k + j) u where
  send := by
    rw [← List.drop_drop]
    exact h'.send
  sent := by rw [h'.sent, h.sent, List.append_assoc, ← List.take_add]
  recv := h'.recv.trans h.recv
  arrivals := h'.arrivals.trans h.arrivals
  received := h'.received.trans h.received

/-- So many bytes are the front of the queue, in one piece. -/
def Piece (r : RingBuffer UInt8) (n : Nat) : Prop :=
  r.start + n = r.stop ∨ r.stop < r.start ∧ r.start + n = r.size

/-- The front of such a piece is taken out, and what is left of it is one. -/
theorem Piece.take (h : r.Holds queue) (hpiece : Piece r n) (hk : k ≤ n) :
    ∃ r', wrapStart { r with start := r.start + k } = r' ∧ r'.Holds (queue.drop k) ∧
      (k < n → r'.start = r.start + k ∧ Piece r' (n - k)) := by
  have hstart := h.valid.start
  have hstop := h.valid.stop
  rw [wrapStart_advance]
  rcases hpiece with hend | ⟨hlt, hend⟩
  · have hlength := h.length_of_le (by omega)
    have hdrop := h.drop_of_le (n := k) (by omega) (by omega)
    have hkept : (if r.start + k = r.size then 0 else r.start + k) = r.start + k := by
      split
      · omega
      · rfl
    rw [hkept]
    exact ⟨_, rfl, hdrop, fun hless ↦ ⟨rfl, Or.inl (by dsimp only; omega)⟩⟩
  · refine ⟨_, rfl, h.drop_upper hlt (by omega), fun hless ↦ ?_⟩
    have hkept : (if r.start + k = r.size then 0 else r.start + k) = r.start + k :=
      if_neg (by omega)
    rw [hkept]
    exact ⟨rfl, Or.inr ⟨by dsimp only; omega, by dsimp only; omega⟩⟩

theorem Piece.load (h : r.Holds queue) (hpiece : Piece r n) :
    r.load r.start n = some (queue.take n) := by
  rcases hpiece with hend | ⟨hlt, hend⟩
  · have hlength := h.length_of_le (by omega)
    have hload := h.load_of_le (i := 0) (n := n) (by omega) (by omega)
    rwa [Nat.add_zero, List.drop_zero] at hload
  · have hload := h.load_upper (i := 0) (n := n) hlt (by omega)
    rwa [Nat.add_zero, List.drop_zero] at hload

theorem Piece.le_length (h : r.Holds queue) (hpiece : Piece r n) : n ≤ queue.length := by
  rcases hpiece with hend | ⟨hlt, hend⟩
  · rw [h.length_of_le (by omega)]
    omega
  · rw [h.length_of_lt hlt]
    omega

/-- The loop of `WriteFromBufferToNetwork`. -/
theorem run_flushLoop {ptr nleft turns : Nat} (h : s.send.Holds queue)
    (hpiece : 0 < nleft → ptr = s.send.start ∧ Piece s.send nleft)
    (hturns : s.acceptances.length < turns) :
    ∃ ret t k, (flushLoop turns ptr nleft).run s = .ok ret t ∧ Gave s queue k t := by
  induction turns generalizing s ptr nleft queue with
  | zero => omega
  | succ turns ih =>
    cases nleft with
    | zero => exact ⟨true, s, 0, rfl, Gave.refl h⟩
    | succ nleft =>
      obtain ⟨hptr, hfront⟩ := hpiece (Nat.succ_pos nleft)
      have hlength := hfront.le_length h
      have htaken : (queue.take (nleft + 1)).length = nleft + 1 :=
        List.length_take_of_le hlength
      have hsize := size_takeAcceptance_le (nleft + 1) s.acceptances
      rw [flushLoop, EStateM.run_bind, hptr, run_copyFrom_send (hfront.load h)]
      dsimp only
      rw [EStateM.run_bind, run_send, htaken]
      dsimp only
      cases hgot : (takeAcceptance (nleft + 1) s.acceptances).1 with
      | wouldBlock =>
        exact ⟨true, _, 0, rfl, h, rfl, rfl, rfl, rfl⟩
      | error =>
        exact ⟨false, _, 0, rfl, h, rfl, rfl, rfl, rfl⟩
      | bytes k =>
        rw [hgot] at hsize
        have hk : k ≤ nleft + 1 := hsize
        obtain ⟨r', hr', hholds, hrest⟩ := hfront.take h hk
        have hgave : Gave s queue k { s with
            send := r'
            acceptances := (takeAcceptance (nleft + 1) s.acceptances).2
            sent := s.sent ++ (queue.take (nleft + 1)).take k } := by
          refine ⟨hholds, ?_, rfl, rfl, rfl⟩
          rw [List.take_take, Nat.min_eq_left hk]
        have hfewer : (takeAcceptance (nleft + 1) s.acceptances).2.length < turns := by
          have hone : s.acceptances ≠ [] := by
            intro hnil
            rw [hnil] at hgot
            cases hgot
          have hpos := List.length_pos_iff.mpr hone
          rw [length_takeAcceptance]
          omega
        obtain ⟨ret, t, j, hloop, hgave'⟩ := @ih _ (queue.drop k) (s.send.start + k)
          (nleft + 1 - k) hgave.send (fun hpos ↦ by
            obtain ⟨hstart, hpiece'⟩ := hrest (by omega)
            exact ⟨hstart.symm, hpiece'⟩) hfewer
        refine ⟨ret, t, k + j, ?_, hgave.trans hgave'⟩
        subst hr'
        exact hloop

/-- `WriteFromBufferToNetwork`. -/
theorem run_writeFromBufferToNetwork (h : s.send.Holds queue) :
    ∃ ret t k, writeFromBufferToNetwork.run s = .ok ret t ∧ Gave s queue k t := by
  rw [writeFromBufferToNetwork, EStateM.run_bind, EStateM.run_get]
  dsimp only
  split
  · exact ⟨true, s, 0, rfl, Gave.refl h⟩
  · refine run_flushLoop h (fun hpos ↦ ⟨rfl, ?_⟩) (Nat.lt_succ_self _)
    have hstart := h.valid.start
    by_cases hlt : s.send.start < s.send.stop
    · rw [if_pos hlt]
      exact Or.inl (by omega)
    · rw [if_neg hlt] at hpos ⊢
      by_cases hgt : s.send.stop < s.send.start
      · rw [if_pos hgt]
        exact Or.inr ⟨hgt, by omega⟩
      · rw [if_neg hgt] at hpos
        omega

/-! ### Into the buffer -/

/-- An empty queue grows right. -/
theorem growsRight_nil (h : r.Holds []) (n : Nat) : GrowsRight r n := by
  have hstart := h.valid.start
  rcases Nat.lt_or_ge r.stop r.start with hlt | hge
  · have hlength := h.length_of_lt hlt
    rw [List.length_nil] at hlength
    omega
  · exact Or.inr (Or.inl hge)

/-- What `WriteNToBuffer` leaves. -/
structure Buffered (s : CiSocket) (queue bs : List UInt8) (result : WriteResult) (t : CiSocket) :
    Prop where
  ring : ∃ r, t = { s with send := r } ∧ r.Holds (if result.ret then queue ++ bs else queue)
  nwritten : result.nwritten = if result.ret then some bs.length else none

/-- `WriteNToBuffer`, once there is room. -/
theorem run_fillSendBuffer (bs : List UInt8) (h : s.send.Holds queue)
    (hroom : queue.length + bs.length < s.send.size) :
    ∃ t, (fillSendBuffer bs).run s = .ok ⟨true, some bs.length⟩ t ∧
      Buffered s queue bs ⟨true, some bs.length⟩ t := by
  -- an empty queue starts at the beginning of the buffer then
  have hreset : ∃ u, s.setRing (if (s.ring .send).start = (s.ring .send).stop then
      { s.ring .send with start := 0, stop := 0 } else s.ring .send) .send = { s with send := u } ∧
      u.Holds queue ∧ u.size = s.send.size ∧ (u.start = u.stop → u.start = 0) := by
    show ∃ u, ({ s with send := if s.send.start = s.send.stop then
      { s.send with start := 0, stop := 0 } else s.send } : CiSocket) = { s with send := u } ∧ _
    split
    · next heq =>
      have hlength := h.length_of_le (Nat.le_of_eq heq)
      obtain rfl : queue = [] := List.length_eq_zero_iff.mp (by omega)
      exact ⟨_, rfl, RingBuffer.holds_nil ⟨Or.inl rfl, Or.inl rfl⟩ rfl, rfl, fun _ ↦ rfl⟩
    · next hne => exact ⟨_, rfl, h, rfl, fun heq ↦ absurd heq hne⟩
  obtain ⟨u, hu, hholds, hsize, hzero⟩ := hreset
  have hstart := hholds.valid.start
  have hstop := hholds.valid.stop
  rw [fillSendBuffer, EStateM.run_bind, run_movePtrs, hu]
  dsimp only
  rw [EStateM.run_bind, EStateM.run_get]
  dsimp only
  by_cases hlt : u.stop < u.start
  · have hlength := hholds.length_of_lt hlt
    have hcopy := run_copyTo_send { s with send := u } u.stop bs (by dsimp only; omega)
    rw [if_pos ⟨hlt, by omega⟩, EStateM.run_bind, hcopy]
    exact ⟨_, rfl, ⟨_, rfl, hholds.store_lower hlt (by omega)⟩, rfl⟩
  · have hle := Nat.not_lt.mp hlt
    have hlength := hholds.length_of_le hle
    rw [if_neg (by omega), if_pos ⟨hle, by omega⟩]
    by_cases hupper : bs.length ≤ u.size - u.stop
    · have hcopy := run_copyTo_send { s with send := u } u.stop bs (by dsimp only; omega)
      have hput := @RingBuffer.Holds.store_upper _ bs _ _ hholds hle (by omega) (by omega)
      rw [← wrapStop_advance { u with cells := overwrite u.cells u.stop bs }] at hput
      rw [if_pos hupper, EStateM.run_bind, hcopy]
      exact ⟨_, rfl, ⟨_, rfl, hput⟩, rfl⟩
    · -- the block fills the buffer to its end and goes on at its beginning
      have hfirst : (bs.take (u.size - u.stop)).length = u.size - u.stop :=
        List.length_take_of_le (by omega)
      have hrest : (bs.drop (u.size - u.stop)).length = bs.length - (u.size - u.stop) :=
        List.length_drop
      have hend : u.stop + (bs.take (u.size - u.stop)).length = u.size := by omega
      have hput := hholds.store_upper hle (Nat.le_of_eq hend) (by omega)
      rw [if_pos hend] at hput
      have hput' := @RingBuffer.Holds.store_lower _ (bs.drop (u.size - u.stop)) _ _ hput
        (show 0 < u.start by omega) (by dsimp only; omega)
      rw [List.append_assoc, List.take_append_drop] at hput'
      dsimp only at hput'
      rw [Nat.zero_add, hrest] at hput'
      have hcopy := run_copyTo_send { s with send := u } u.stop
        (bs.take (u.size - u.stop)) (Nat.le_of_eq hend)
      have hcopy' := run_copyTo_send { s with send :=
        { u with cells := overwrite u.cells u.stop (bs.take (u.size - u.stop)) } } 0
        (bs.drop (u.size - u.stop)) (by dsimp only; omega)
      rw [if_neg hupper, EStateM.run_bind, hcopy]
      dsimp only
      rw [EStateM.run_bind, hcopy']
      exact ⟨_, rfl, ⟨_, rfl, hput'⟩, rfl⟩

/-- `WriteNToBuffer`. -/
theorem contract_writeNToBuffer (realloc : Realloc) (bs : List UInt8) (h : s.send.Holds queue)
    (hgrow : GrowsRight s.send bs.length) :
    Contract (fun t ↦ t = s) (writeNToBuffer realloc bs) (Buffered s queue bs)
      fun f _ ↦ f = .sizeOverflow := by
  have hprepare := @contract_prepareBuffer s .send queue bs.length realloc h hgrow
  refine hprepare.bind fun ret ↦ ?_
  rintro t ⟨r, rfl, hholds, -, hroom⟩
  cases ret with
  | false =>
    rw [if_pos rfl]
    exact ⟨⟨r, rfl, hholds⟩, rfl⟩
  | true =>
    rw [if_neg (by decide)]
    obtain ⟨t, hrun, hbuffered⟩ :=
      run_fillSendBuffer (s := s.setRing r .send) bs hholds (hroom rfl)
    rw [hrun]
    obtain ⟨r', rfl, hholds'⟩ := hbuffered.ring
    exact ⟨⟨r', rfl, hholds'⟩, rfl⟩

/-! ### Writing -/

/-- So many bytes of a block have gone behind what was waiting, to the wire or into the buffer. -/
structure Wrote (s : CiSocket) (queue bs : List UInt8) (k : Nat) (t : CiSocket) : Prop where
  send : ∃ queue', t.send.Holds queue' ∧ t.sent ++ queue' = s.sent ++ queue ++ bs.take k
  sent : s.sent <+: t.sent
  le_length : k ≤ bs.length
  recv : t.recv = s.recv
  arrivals : t.arrivals = s.arrivals
  received : t.received = s.received

/-- Nothing has been written. -/
theorem Wrote.zero (h : s.send.Holds queue) (bs : List UInt8) (as : List Acceptance) :
    Wrote s queue bs 0 { s with acceptances := as } :=
  ⟨⟨queue, h, (List.append_nil _).symm⟩, List.prefix_refl _, Nat.zero_le _, rfl, rfl, rfl⟩

/-- A function that writes: it has written the whole block if it says so. -/
def Writes (s : CiSocket) (queue bs : List UInt8) (ntowrite : Nat) (result : WriteResult)
    (t : CiSocket) : Prop :=
  ∃ k, Wrote s queue bs k t ∧
    (result.ret = true → k = bs.length ∧ result.nwritten = some ntowrite)

/-- What was waiting has gone before, some of it. -/
theorem Writes.of_gave {u : CiSocket} {result : WriteResult} {j : Nat} (h : Gave s queue j t)
    (hw : Writes t (queue.drop j) bs n result u) : Writes s queue bs n result u := by
  obtain ⟨k, hwrote, hret⟩ := hw
  obtain ⟨queue', hholds, hall⟩ := hwrote.send
  refine ⟨k, ⟨⟨queue', hholds, ?_⟩, ?_, hwrote.le_length, hwrote.recv.trans h.recv,
    hwrote.arrivals.trans h.arrivals, hwrote.received.trans h.received⟩, hret⟩
  · rw [hall, h.sent, List.append_assoc, List.append_assoc, List.append_assoc, ← List.append_assoc
      (queue.take j), List.take_append_drop]
  · refine List.IsPrefix.trans ?_ hwrote.sent
    rw [h.sent]
    exact List.prefix_append _ _

theorem Buffered.writes {result : WriteResult} (h : Buffered s queue bs result t) :
    Writes s queue bs bs.length result t := by
  obtain ⟨⟨r, rfl, hholds⟩, hnwritten⟩ := h
  cases hret : result.ret with
  | true =>
    rw [hret] at hholds hnwritten
    refine ⟨bs.length, ⟨⟨_, hholds, ?_⟩, List.prefix_refl _, Nat.le_refl _, rfl, rfl, rfl⟩,
      fun _ ↦ ⟨rfl, hnwritten⟩⟩
    rw [if_pos rfl, List.take_length, List.append_assoc]
  | false =>
    rw [hret] at hholds
    refine ⟨0, ⟨⟨_, hholds, ?_⟩, List.prefix_refl _, Nat.zero_le _, rfl, rfl, rfl⟩,
      fun hno ↦ by rw [hret] at hno; cases hno⟩
    rw [List.take_zero, List.append_nil]
    rfl

/-- The loop of `WriteN`, with nothing waiting. -/
theorem contract_sendLoop (realloc : Realloc) (h : s.send.Holds []) {turns ntowrite : Nat}
    (hturns : bs.length ≤ turns) :
    Contract (fun t ↦ t = s) (sendLoop realloc ntowrite turns bs)
      (Writes s [] bs ntowrite) fun f _ ↦ f = .sizeOverflow := by
  induction turns generalizing s bs with
  | zero =>
    obtain rfl := List.length_eq_zero_iff.mp (Nat.le_zero.mp hturns)
    refine Contract.pure ?_
    rintro t rfl
    exact ⟨0, Wrote.zero h [] t.acceptances, fun _ ↦ ⟨rfl, rfl⟩⟩
  | succ turns ih =>
    cases bs with
    | nil =>
      refine Contract.pure ?_
      rintro t rfl
      exact ⟨0, Wrote.zero h [] t.acceptances, fun _ ↦ ⟨rfl, rfl⟩⟩
    | cons b bs =>
      have hsize := size_takeAcceptance_le (b :: bs).length s.acceptances
      intro w hw
      rw [hw, sendLoop, EStateM.run_bind, run_send]
      dsimp only
      cases hgot : (takeAcceptance (b :: bs).length s.acceptances).1 with
      | wouldBlock =>
        dsimp only [Sent.size]
        rw [List.take_zero, List.append_nil]
        have hbuffer := contract_writeNToBuffer (s := { s with
          acceptances := (takeAcceptance (b :: bs).length s.acceptances).2 })
          realloc (b :: bs) h (growsRight_nil h _)
        refine (hbuffer.bind (R := Writes s [] (b :: bs) ntowrite) fun result ↦ ?_) _ rfl
        refine Contract.ite (fun hret ↦ ?_) fun hret ↦ ?_
        · refine Contract.pure fun t ht ↦ ?_
          obtain ⟨k, hwrote, hk⟩ := ht.writes
          exact ⟨k, ⟨hwrote.send, hwrote.sent, hwrote.le_length, hwrote.recv, hwrote.arrivals,
            hwrote.received⟩, fun _ ↦ ⟨(hk hret).1, rfl⟩⟩
        · refine Contract.pure fun t ht ↦ ?_
          obtain ⟨k, hwrote, -⟩ := ht.writes
          exact ⟨k, ⟨hwrote.send, hwrote.sent, hwrote.le_length, hwrote.recv, hwrote.arrivals,
            hwrote.received⟩, fun hyes ↦ absurd hyes hret⟩
      | error =>
        dsimp only [Sent.size]
        rw [List.take_zero, List.append_nil]
        exact ⟨0, Wrote.zero h _ _, fun hno ↦ by cases hno⟩
      | bytes k =>
        rw [hgot] at hsize
        cases k with
        | zero =>
          dsimp only [Sent.size]
          rw [List.take_zero, List.append_nil]
          exact ⟨0, Wrote.zero h _ _, fun hno ↦ by cases hno⟩
        | succ k =>
          have hk : k + 1 ≤ bs.length + 1 := hsize
          have hrest := @ih { s with
            acceptances := (takeAcceptance (b :: bs).length s.acceptances).2
            sent := s.sent ++ (b :: bs).take (k + 1) } (bs.drop k) h
            (by rw [List.length_drop]; rw [List.length_cons] at hturns; omega)
          refine (hrest.mono (fun _ hu ↦ hu) (fun result t ht ↦ ?_) fun _ _ hf ↦ hf) _ rfl
          obtain ⟨j, hwrote, hret⟩ := ht
          obtain ⟨queue', hholds, hall⟩ := hwrote.send
          have hlength := hwrote.le_length
          rw [List.length_drop] at hlength
          refine ⟨k + 1 + j, ⟨⟨queue', hholds, ?_⟩, ?_, ?_, hwrote.recv, hwrote.arrivals,
            hwrote.received⟩, fun hyes ↦ ⟨?_, (hret hyes).2⟩⟩
          · have hdrop : bs.drop k = (b :: bs).drop (k + 1) := rfl
            rw [hall, List.append_nil, List.append_nil, List.append_assoc, hdrop, ← List.take_add]
          · exact (List.prefix_append _ _).trans hwrote.sent
          · rw [List.length_cons]
            omega
          · rw [(hret hyes).1, List.length_drop, List.length_cons]
            omega

/-- What is to be known of the send buffer when `WriteN` comes to `WriteNToBuffer`. -/
def WritesRight (s : CiSocket) (n : Nat) : Prop :=
  ∀ t, flushPending.run s = .ok true t → GrowsRight t.send n

/-- `WriteN`. -/
theorem contract_writeN (realloc : Realloc) (h : s.send.Holds queue)
    (hgrow : WritesRight s bs.length) :
    Contract (fun t ↦ t = s) (writeN realloc bs) (Writes s queue bs bs.length)
      fun f _ ↦ f = .sizeOverflow := by
  have hflush : ∃ ret t k, flushPending.run s = .ok ret t ∧ Gave s queue k t := by
    rw [flushPending, EStateM.run_bind, EStateM.run_get]
    dsimp only
    split
    · exact run_writeFromBufferToNetwork h
    · exact ⟨true, s, 0, rfl, Gave.refl h⟩
  obtain ⟨ret, t, k, hrun, hgave⟩ := hflush
  intro w hw
  rw [hw, writeN, EStateM.run_bind, hrun]
  dsimp only
  cases ret with
  | false =>
    rw [if_pos rfl]
    exact Writes.of_gave hgave ⟨0, Wrote.zero hgave.send bs t.acceptances, fun hno ↦ by cases hno⟩
  | true =>
    rw [if_neg (by decide), EStateM.run_bind, EStateM.run_get]
    dsimp only
    by_cases hwaiting : 0 < dataSize t.send
    · rw [if_pos hwaiting]
      exact ((contract_writeNToBuffer realloc bs hgave.send (hgrow t hrun)).mono (fun _ hu ↦ hu)
        (fun _ _ hb ↦ Writes.of_gave hgave hb.writes) fun _ _ hf ↦ hf) t rfl
    · rw [if_neg hwaiting]
      have hnil : queue.drop k = [] := by
        rw [dataSize_eq hgave.send, Nat.not_lt, Nat.le_zero] at hwaiting
        exact List.length_eq_zero_iff.mp hwaiting
      have hholds := hgave.send
      rw [hnil] at hholds
      refine ((contract_sendLoop realloc hholds (Nat.le_refl bs.length)).mono (fun _ hu ↦ hu)
        (fun _ u hu ↦ ?_) fun _ _ hf ↦ hf) t rfl
      apply Writes.of_gave hgave
      rw [hnil]
      exact hu

/-- The loop of `WriteNFlush`. -/
theorem run_writeFlushLoop {turns iCount ntowrite : Nat}
    (hturns : s.acceptances.length + 3001 ≤ turns ∨
      s.acceptances = [] ∧ 3001 ≤ turns + iCount) (hcount : iCount ≤ 3000) :
    ∃ result as k, (writeFlushLoop ntowrite turns iCount bs).run s =
        .ok result { s with acceptances := as, sent := s.sent ++ bs.take k } ∧ k ≤ bs.length ∧
      (result.ret = true → k = bs.length ∧ result.nwritten = some ntowrite) := by
  induction turns generalizing s iCount bs with
  | zero => omega
  | succ turns ih =>
    have hnone (result : WriteResult) (as : List Acceptance) :
        (EStateM.Result.ok result { s with acceptances := as } :
          EStateM.Result Fault CiSocket WriteResult) =
          .ok result { s with acceptances := as, sent := s.sent ++ bs.take 0 } := by
      rw [List.take_zero, List.append_nil]
    cases bs with
    | nil =>
      exact ⟨⟨true, some ntowrite⟩, s.acceptances, 0, hnone _ _, Nat.le_refl _,
        fun _ ↦ ⟨rfl, rfl⟩⟩
    | cons b bs =>
      have hsize := size_takeAcceptance_le (b :: bs).length s.acceptances
      have hlength := length_takeAcceptance (b :: bs).length s.acceptances
      rw [writeFlushLoop, EStateM.run_bind, run_send]
      dsimp only
      cases hgot : (takeAcceptance (b :: bs).length s.acceptances).1 with
      | wouldBlock =>
        dsimp only [Sent.size]
        by_cases hmany : 3000 < iCount + 1
        · rw [if_pos hmany, List.take_zero, List.append_nil]
          exact ⟨⟨false, none⟩, _, 0, hnone _ _, Nat.zero_le _, fun hno ↦ by cases hno⟩
        · rw [if_neg hmany, List.take_zero, List.append_nil]
          obtain ⟨result, as, k, hrun, hk, hret⟩ := @ih { s with
            acceptances := (takeAcceptance (b :: bs).length s.acceptances).2 } (b :: bs)
            (iCount + 1) (by
              dsimp only
              rcases hturns with hleft | ⟨hnil, hleft⟩
              · cases hs : s.acceptances with
                | nil => exact Or.inr ⟨rfl, by omega⟩
                | cons a rest =>
                  left
                  rw [length_takeAcceptance]
                  rw [hs] at hleft
                  simp only [List.length_cons] at hleft ⊢
                  omega
              · rw [hnil]
                exact Or.inr ⟨rfl, by omega⟩) (by omega)
          exact ⟨result, as, k, hrun, hk, hret⟩
      | error =>
        dsimp only [Sent.size]
        rw [List.take_zero, List.append_nil]
        exact ⟨⟨false, none⟩, _, 0, hnone _ _, Nat.zero_le _, fun hno ↦ by cases hno⟩
      | bytes n =>
        rw [hgot] at hsize
        have hn : n ≤ (b :: bs).length := hsize
        obtain ⟨result, as, k, hrun, hk, hret⟩ := @ih { s with
          acceptances := (takeAcceptance (b :: bs).length s.acceptances).2
          sent := s.sent ++ (b :: bs).take n } ((b :: bs).drop n) 0 (by
            dsimp only
            have hone : s.acceptances ≠ [] := by
              intro hnil
              rw [hnil] at hgot
              cases hgot
            have hpos := List.length_pos_iff.mpr hone
            rcases hturns with hleft | ⟨hnil, -⟩
            · omega
            · exact absurd hnil hone) (Nat.zero_le _)
        rw [List.length_drop] at hk hret
        refine ⟨result, as, n + k, ?_, by omega, fun hyes ↦ ⟨?_, (hret hyes).2⟩⟩
        · rw [List.take_add, ← List.append_assoc]
          exact hrun
        · rw [(hret hyes).1]
          omega

/-- `WriteNFlush` looks at nothing but its block. -/
theorem run_writeNFlush (s : CiSocket) (bs : List UInt8) :
    ∃ result as k, (writeNFlush bs).run s =
        .ok result { s with acceptances := as, sent := s.sent ++ bs.take k } ∧ k ≤ bs.length ∧
      (result.ret = true → k = bs.length ∧ result.nwritten = some bs.length) :=
  run_writeFlushLoop (Or.inl (Nat.le_refl _)) (Nat.zero_le _)

end HeartbeatSpec.Socket
