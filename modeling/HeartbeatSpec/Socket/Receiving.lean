import HeartbeatSpec.Base.Contract
import HeartbeatSpec.Socket.CiSocket

/-!
# Receiving into the buffer

Library `Socket`. What comes from the wire is put behind what is in the buffer, and what is read is
taken from its front, `examples/Externals/CiUtils/Src/CiSocket.cpp:653–1137`. The buffer grows when
there is too little room; only then can what is in it be lost.
-/

namespace HeartbeatSpec.Socket
open HeartbeatSpec.Base
open HeartbeatSpec.Base.RingBuffer (Holds)

variable {s t : CiSocket} {side : Side} {r : RingBuffer UInt8} {bs queue : List UInt8} {n : Nat}

/-! ### Accesses -/

@[simp] theorem CiSocket.ring_setRing (s : CiSocket) (r : RingBuffer UInt8) (side : Side) :
    (s.setRing r side).ring side = r := by
  cases side <;> rfl

@[simp] theorem CiSocket.setRing_setRing (s : CiSocket) (r r' : RingBuffer UInt8) (side : Side) :
    (s.setRing r side).setRing r' side = s.setRing r' side := by
  cases side <;> rfl

theorem CiSocket.setRing_ring (s : CiSocket) (side : Side) : s.setRing (s.ring side) side = s := by
  cases side <;> rfl

theorem run_movePtrs (side : Side) (f : RingBuffer UInt8 → RingBuffer UInt8) (s : CiSocket) :
    (movePtrs side f).run s = .ok () (s.setRing (f (s.ring side)) side) := rfl

theorem run_copyFrom {ptr : Nat} (h : (s.ring side).load ptr n = some bs) :
    (copyFrom side ptr n).run s = .ok bs s := by
  rw [copyFrom, EStateM.run_bind, EStateM.run_get]
  dsimp only
  rw [h]
  rfl

theorem run_copyTo {ptr : Nat} (h : (s.ring side).store ptr bs = some r) :
    (copyTo side ptr bs).run s = .ok () (s.setRing r side) := by
  rw [copyTo, EStateM.run_bind, EStateM.run_get]
  dsimp only
  rw [h]
  rfl

theorem run_copyFrom_recv {ptr : Nat} (h : s.recv.load ptr n = some bs) :
    (copyFrom .recv ptr n).run s = .ok bs s := run_copyFrom h

/-- The size that is computed from the pointers. -/
theorem dataSize_eq (h : r.Holds queue) : dataSize r = queue.length := by
  have hstart := h.valid.start
  rw [dataSize]
  split
  · next hlt => exact (h.length_of_le (Nat.le_of_lt hlt)).symm
  · split
    · next hlt =>
      rw [h.length_of_lt hlt]
      omega
    · rw [h.length_of_le (by omega)]
      omega

/-- A pointer within the buffer does not go round. -/
theorem wrapStop_eq (h : r.stop = 0 ∨ r.stop < r.size) : wrapStop r = r := by
  unfold wrapStop
  split
  · have hzero : r.stop = 0 := by omega
    rw [← hzero]
  · rfl

theorem wrapStop_advance (r : RingBuffer UInt8) (n : Nat) :
    wrapStop { r with stop := n } = { r with stop := if n = r.size then 0 else n } := by
  unfold wrapStop
  dsimp only
  split <;> rfl

theorem wrapStart_advance (r : RingBuffer UInt8) (n : Nat) :
    wrapStart { r with start := r.start + n } =
      { r with start := if r.start + n = r.size then 0 else r.start + n } := by
  unfold wrapStart
  dsimp only
  split <;> rfl

/-! ### Growing -/

/-- The buffer has room for so many bytes, or does not go round its end, or is made larger by just
what is in its upper part. -/
def GrowsRight (r : RingBuffer UInt8) (size : Nat) : Prop :=
  size < r.size - dataSize r ∨ r.start ≤ r.stop ∨
    r.start + (size - (r.size - dataSize r) + 1) = r.size

/-- Making room. -/
theorem contract_prepareBuffer (realloc : Realloc) (h : (s.ring side).Holds queue)
    (hgrow : GrowsRight (s.ring side) n) :
    Contract (fun t ↦ t = s) (prepareBuffer side realloc n)
      (fun ret t ↦ ∃ r, t = s.setRing r side ∧ r.Holds queue ∧
        ((s.ring side).start ≤ (s.ring side).stop → r.start = (s.ring side).start) ∧
        (ret = true → queue.length + n < r.size))
      fun f _ ↦ f = .sizeOverflow := by
  have hstart := h.valid.start
  have hdata := dataSize_eq h
  have hsize : queue.length ≤ (s.ring side).size := by
    rcases Nat.eq_zero_or_pos (s.ring side).size with hzero | hpos
    · have hstop := h.valid.stop
      rw [h.length_of_le (by omega)]
      omega
    · exact Nat.le_of_lt (h.length_lt hpos)
  intro w hw
  rw [hw, prepareBuffer, EStateM.run_bind, EStateM.run_get]
  dsimp only
  by_cases hroom : n < (s.ring side).size - dataSize (s.ring side)
  · rw [if_pos hroom]
    exact ⟨s.ring side, (s.setRing_ring side).symm, h, fun _ ↦ rfl, fun _ ↦ by omega⟩
  rw [if_neg hroom]
  cases realloc with
  | none =>
    exact ⟨s.ring side, (s.setRing_ring side).symm, h, fun _ ↦ rfl, fun hret ↦ by cases hret⟩
  | some fresh =>
    dsimp only
    generalize hneed : n - ((s.ring side).size - dataSize (s.ring side)) + 1 = need
    by_cases hint : 2 ^ 31 ≤ (s.ring side).size + need
    · rw [if_pos hint]
      exact rfl
    rw [if_neg hint, EStateM.run_bind, run_movePtrs]
    dsimp only
    by_cases hlt : (s.ring side).stop < (s.ring side).start
    · have hend : (s.ring side).start + need = (s.ring side).size := by
        rcases hgrow with h' | h' | h'
        · exact absurd h' hroom
        · omega
        · rw [← hneed]
          exact h'
      rw [if_pos hlt]
      have hload : (((s.ring side).grow need fresh).load (s.ring side).start need) =
          some (cellsFrom ((s.ring side).grow need fresh).cells (s.ring side).start need) :=
        RingBuffer.load_eq (by rw [hend]; exact Nat.le_add_right _ _)
      have hstore : ((s.ring side).grow need fresh).store ((s.ring side).start + need)
          (cellsFrom ((s.ring side).grow need fresh).cells (s.ring side).start need) =
          some { (s.ring side).grow need fresh with
            cells := overwrite ((s.ring side).grow need fresh).cells ((s.ring side).start + need)
              (cellsFrom ((s.ring side).grow need fresh).cells (s.ring side).start need) } := by
        apply RingBuffer.store_eq
        rw [length_cellsFrom, hend]
        exact Nat.le_refl _
      rw [EStateM.run_bind, run_copyFrom (by rw [CiSocket.ring_setRing]; exact hload)]
      dsimp only
      rw [EStateM.run_bind, run_copyTo (by rw [CiSocket.ring_setRing]; exact hstore)]
      dsimp only
      rw [EStateM.run_bind, run_movePtrs, CiSocket.ring_setRing, CiSocket.setRing_setRing,
        CiSocket.setRing_setRing]
      refine ⟨_, rfl, @Holds.shift _ need _ fresh _ h hlt hend,
        fun hle ↦ absurd hlt (Nat.not_lt.mpr hle), fun _ ↦ ?_⟩
      show queue.length + n < (s.ring side).size + need
      omega
    · rw [if_neg hlt]
      refine ⟨_, rfl, h.grow_of_le (Nat.not_lt.mp hlt), fun _ ↦ rfl, fun _ ↦ ?_⟩
      show queue.length + n < (s.ring side).size + need
      omega

/-! ### The wire -/

/-- The bytes that are to come, up to the end of the stream. -/
def flow : List Arrival → List UInt8
  | [] => []
  | .data b bs :: rest => b :: bs ++ flow rest
  | .eof :: _ => []
  | _ :: rest => flow rest

/-- What `recv` returns is the front of what is to come. -/
theorem flow_takeArrival (n : Nat) (as : List Arrival) :
    flow as = (takeArrival n as).1.toList ++ flow (takeArrival n as).2 := by
  cases as with
  | nil => rfl
  | cons a rest =>
    cases a with
    | data b bs =>
      rw [flow, takeArrival, Received.toList]
      dsimp only
      conv_lhs => rw [← List.take_append_drop n (b :: bs), List.append_assoc]
      cases hdrop : (b :: bs).drop n with
      | nil => rfl
      | cons b' bs' => rfl
    | wouldBlock | error | eof => rfl

theorem length_takeArrival_le (n : Nat) (as : List Arrival) :
    (takeArrival n as).1.toList.length ≤ n := by
  cases as with
  | nil => exact Nat.zero_le n
  | cons a rest =>
    cases a with
    | data b bs =>
      rw [takeArrival, Received.toList, List.length_take]
      exact Nat.min_le_left _ _
    | wouldBlock | error | eof => exact Nat.zero_le n

/-- Only at the end of the stream, `recv` returns no bytes. -/
theorem takeArrival_nil (hn : 0 < n) {as : List Arrival} (h : (takeArrival n as).1 = .bytes []) :
    as.head? = some .eof ∧ (takeArrival n as).2 = as := by
  cases as with
  | nil => cases h
  | cons a rest =>
    cases a with
    | data b bs =>
      rw [takeArrival, Received.bytes.injEq, List.take_eq_nil_iff] at h
      rcases h with hzero | hnil
      · omega
      · cases hnil
    | eof => exact ⟨rfl, rfl⟩
    | wouldBlock | error => cases h

/-- There are bytes to be received. -/
def Ready (as : List Arrival) : Prop := ∃ b bs rest, as = .data b bs :: rest

theorem Ready.takeArrival {as : List Arrival} (h : Ready as) (n : Nat) :
    ∃ b bs, (takeArrival (n + 1) as).1 = .bytes (b :: bs) := by
  obtain ⟨b, bs, rest, rfl⟩ := h
  exact ⟨b, bs.take n, rfl⟩

theorem run_recv (n : Nat) (s : CiSocket) :
    (recv n).run s = .ok (takeArrival n s.arrivals).1 { s with
      arrivals := (takeArrival n s.arrivals).2
      received := s.received ++ (takeArrival n s.arrivals).1.toList } := rfl

/-- Bytes have been received, and put behind those in the receive buffer. -/
structure Gained (s : CiSocket) (queue bs : List UInt8) (t : CiSocket) : Prop where
  recv : t.recv.Holds (queue ++ bs)
  received : t.received = s.received ++ bs
  flow : flow s.arrivals = bs ++ flow t.arrivals
  send : t.send = s.send
  acceptances : t.acceptances = s.acceptances
  sent : t.sent = s.sent

/-- The same, in the same buffer and with the same start. -/
structure Took (s : CiSocket) (queue bs : List UInt8) (t : CiSocket) : Prop
    extends Gained s queue bs t where
  size : t.recv.size = s.recv.size
  start : t.recv.start = s.recv.start

/-- Nothing has been received. -/
theorem Took.refl (h : s.recv.Holds queue) : Took s queue [] s :=
  ⟨⟨by rwa [List.append_nil], (List.append_nil _).symm, rfl, rfl, rfl, rfl⟩, rfl, rfl⟩

theorem Took.trans {u : CiSocket} {cs : List UInt8} (h : Took s queue bs t)
    (h' : Took t (queue ++ bs) cs u) : Took s queue (bs ++ cs) u where
  recv := by
    rw [← List.append_assoc]
    exact h'.recv
  size := h'.size.trans h.size
  start := h'.start.trans h.start
  received := by rw [h'.received, h.received, List.append_assoc]
  flow := by rw [h.flow, h'.flow, List.append_assoc]
  send := h'.send.trans h.send
  acceptances := h'.acceptances.trans h.acceptances
  sent := h'.sent.trans h.sent

/-- There is room for so many bytes behind what is in the buffer, without going round its end. -/
def Region (r : RingBuffer UInt8) (length n : Nat) : Prop :=
  r.start ≤ r.stop ∧ r.stop + n ≤ r.size ∧ length + n < r.size ∨
    r.stop < r.start ∧ r.stop + n < r.start

/-- Bytes that have been received are put into such a region, and what is left of it is one. -/
theorem Region.put {wraps : Bool} (h : r.Holds queue) (hregion : Region r queue.length n)
    (hwraps : wraps = true ∨ r.stop < r.start) (hbs : bs.length ≤ n) :
    ∃ r', (if wraps then wrapStop else id)
        ⟨overwrite r.cells r.stop bs, r.size, r.start, r.stop + bs.length⟩ = r' ∧
      r'.Holds (queue ++ bs) ∧ r'.size = r.size ∧ r'.start = r.start ∧
      (bs.length < n → r'.stop = r.stop + bs.length ∧
        Region r' (queue ++ bs).length (n - bs.length) ∧
        (wraps = true ∨ r'.stop < r'.start)) := by
  rcases hregion with ⟨hle, hfit, hfree⟩ | ⟨hlt, hfit⟩
  · have hwrap : wraps = true := by
      rcases hwraps with hwrap | hlt
      · exact hwrap
      · omega
    subst hwrap
    have hput := h.store_upper hle (show r.stop + bs.length ≤ r.size by omega) (by omega)
    refine ⟨_, rfl, ?_, ?_, ?_, fun hless ↦ ?_⟩
    · rw [if_pos rfl, wrapStop]
      split
      · next hend => rwa [if_pos hend] at hput
      · next hend => rwa [if_neg hend] at hput
    · rw [if_pos rfl, wrapStop]
      split <;> rfl
    · rw [if_pos rfl, wrapStop]
      split <;> rfl
    · have hkept : (if true = true then wrapStop else id)
          (⟨overwrite r.cells r.stop bs, r.size, r.start, r.stop + bs.length⟩ :
            RingBuffer UInt8) =
          ⟨overwrite r.cells r.stop bs, r.size, r.start, r.stop + bs.length⟩ := by
        rw [if_pos rfl]
        exact if_neg (by dsimp only; omega)
      rw [hkept, List.length_append]
      refine ⟨rfl, Or.inl ⟨?_, ?_, ?_⟩, Or.inl rfl⟩ <;> dsimp only <;> omega
  · have hstart := h.valid.start
    have hput := h.store_lower hlt (show r.stop + bs.length < r.start by omega)
    have hkept : (if wraps then wrapStop else id)
        (⟨overwrite r.cells r.stop bs, r.size, r.start, r.stop + bs.length⟩ : RingBuffer UInt8) =
        ⟨overwrite r.cells r.stop bs, r.size, r.start, r.stop + bs.length⟩ := by
      split
      · exact if_neg (by dsimp only; omega)
      · rfl
    refine ⟨_, hkept, hput, rfl, rfl, fun hless ↦ ⟨rfl, Or.inr ⟨?_, ?_⟩, Or.inr ?_⟩⟩ <;>
      dsimp only <;> omega

theorem run_takeIn {wraps : Bool} {ptr : Nat} {r' : RingBuffer UInt8}
    (hstore : s.recv.store ptr bs = some r)
    (hr : (if wraps then wrapStop else id) { r with stop := r.stop + bs.length } = r') :
    (takeIn wraps ptr bs).run s = .ok () { s with recv := r' } := by
  have hstore' : (s.ring .recv).store ptr bs = some r := hstore
  subst hr
  rw [takeIn, EStateM.run_bind, run_copyTo hstore']
  dsimp only
  rw [EStateM.run_bind, run_movePtrs]
  cases wraps <;> rfl

/-- A loop around `recv`: what comes is put into the buffer, until there is no more for now, or the
region is full, or the stream has ended. -/
theorem run_recvLoop (wraps : Bool) {ptr nleft turns : Nat} (h : s.recv.Holds queue)
    (hregion : 0 < nleft → ptr = s.recv.stop ∧ Region s.recv queue.length nleft ∧
      (wraps = true ∨ s.recv.stop < s.recv.start)) (hturns : nleft ≤ turns) :
    ∃ ret t bs, (recvLoop wraps turns ptr nleft).run s = .ok ret t ∧ Took s queue bs t ∧
      bs.length ≤ nleft ∧
      (ret = none → bs.length = nleft ∨ t.arrivals.head? = some .eof) ∧
      (0 < nleft → Ready s.arrivals → bs ≠ []) := by
  induction turns generalizing s ptr nleft queue with
  | zero =>
    obtain rfl := Nat.le_zero.mp hturns
    exact ⟨none, s, [], rfl, Took.refl h, Nat.le_refl _, fun _ ↦ Or.inl rfl,
      fun hpos ↦ absurd hpos (Nat.lt_irrefl 0)⟩
  | succ turns ih =>
    cases nleft with
    | zero =>
      exact ⟨none, s, [], rfl, Took.refl h, Nat.le_refl _, fun _ ↦ Or.inl rfl,
        fun hpos ↦ absurd hpos (Nat.lt_irrefl 0)⟩
    | succ nleft =>
      obtain ⟨hptr, hroom, hwraps⟩ := hregion (Nat.succ_pos nleft)
      have hflow := flow_takeArrival (nleft + 1) s.arrivals
      have hlength := length_takeArrival_le (nleft + 1) s.arrivals
      have hready (hready : Ready s.arrivals) := hready.takeArrival nleft
      rw [recvLoop, EStateM.run_bind, run_recv]
      dsimp only
      cases hgot : (takeArrival (nleft + 1) s.arrivals).1 with
      | wouldBlock | error =>
        rw [hgot] at hflow hready
        refine ⟨_, _, [], rfl, ⟨⟨?_, rfl, hflow, rfl, rfl, rfl⟩, rfl, rfl⟩, Nat.zero_le _,
          nofun, fun _ h ↦ ?_⟩
        · rwa [List.append_nil]
        · obtain ⟨b, bs, hbytes⟩ := hready h
          cases hbytes
      | bytes bs =>
        rw [hgot] at hflow hlength hready
        cases bs with
        | nil =>
          obtain ⟨hend, hsame⟩ := takeArrival_nil (Nat.succ_pos nleft) hgot
          refine ⟨none, _, [], rfl, ⟨⟨?_, rfl, hflow, rfl, rfl, rfl⟩, rfl, rfl⟩, Nat.zero_le _,
            fun _ ↦ Or.inr ?_, fun _ h ↦ ?_⟩
          · rwa [List.append_nil]
          · rw [← hend]
            exact congrArg List.head? hsame
          · obtain ⟨b, bs, hbytes⟩ := hready h
            cases hbytes
        | cons b bs =>
          have hle : (b :: bs).length ≤ nleft + 1 := hlength
          have hpos : 0 < (b :: bs).length := Nat.succ_pos _
          obtain ⟨r', hr', hholds, hsize, hstart, hrest⟩ := Region.put h hroom hwraps hle
          have hfit : s.recv.stop + (b :: bs).length ≤ s.recv.size := by
            have hlt := h.valid.start
            rcases hroom with ⟨-, hfit, -⟩ | ⟨-, hfit⟩ <;> omega
          have hstore : s.recv.store ptr (b :: bs) =
              some { s.recv with cells := overwrite s.recv.cells s.recv.stop (b :: bs) } := by
            rw [hptr]
            exact RingBuffer.store_eq hfit
          have htook : Took s queue (b :: bs) { s with
              recv := r'
              arrivals := (takeArrival (nleft + 1) s.arrivals).2
              received := s.received ++ b :: bs } :=
            ⟨⟨hholds, rfl, hflow, rfl, rfl, rfl⟩, hsize, hstart⟩
          obtain ⟨ret, t, cs, hloop, htook', hcs, hnone, -⟩ := @ih _ (queue ++ b :: bs)
            (ptr + (b :: bs).length) (nleft + 1 - (b :: bs).length) htook.recv (fun hpos ↦ by
              obtain ⟨hstop, hregion', hwraps'⟩ := hrest (by omega)
              rw [hptr]
              exact ⟨hstop.symm, hregion', hwraps'⟩)
            (by omega)
          have hin := @run_takeIn { s with
            arrivals := (takeArrival (nleft + 1) s.arrivals).2
            received := s.received ++ b :: bs } _ _ wraps ptr r' hstore hr'
          dsimp only
          rw [if_neg (Nat.ne_of_gt hpos), EStateM.run_bind, Received.toList, hin]
          dsimp only
          refine ⟨ret, t, (b :: bs) ++ cs, ?_, htook.trans htook', ?_, fun hret ↦ ?_,
            fun _ _ ↦ List.cons_ne_nil _ _⟩
          · exact hloop
          · rw [List.length_append]
            omega
          · rcases hnone hret with hfull | hend
            · left
              rw [List.length_append, hfull]
              omega
            · exact Or.inr hend

end HeartbeatSpec.Socket
