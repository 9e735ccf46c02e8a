import HeartbeatSpec.Socket.Receiving

/-!
# The receive buffer as a queue

Library `Socket`. To its callers the receive buffer is a queue of bytes: what is received goes in
at its end, what is read comes from its front, and looking ahead leaves it as it is,
`examples/Externals/CiUtils/Src/CiSocket.cpp:653–1109`.
-/

namespace HeartbeatSpec.Socket
open HeartbeatSpec.Base
open HeartbeatSpec.Base.RingBuffer (Holds)

variable {s t : CiSocket} {r : RingBuffer UInt8} {bs queue : List UInt8} {n : Nat}

/-! ### Putting in -/

/-- At the end of the stream a loop around `recv` receives nothing. -/
theorem run_recvLoop_eof (wraps : Bool) (ptr : Nat) {turns nleft : Nat} (hturns : nleft ≤ turns)
    (hend : s.arrivals.head? = some .eof) :
    (recvLoop wraps turns ptr nleft).run s = .ok none s := by
  cases nleft with
  | zero => cases turns <;> rfl
  | succ nleft =>
    cases turns with
    | zero => cases hturns
    | succ turns =>
      have harrivals : s.arrivals = .eof :: s.arrivals.tail := by
        cases hs : s.arrivals with
        | nil =>
          rw [hs] at hend
          cases hend
        | cons a rest =>
          rw [hs] at hend
          cases hend
          rfl
      have hsame : ({ s with
          arrivals := (takeArrival (nleft + 1) s.arrivals).2
          received := s.received ++ (takeArrival (nleft + 1) s.arrivals).1.toList } :
            CiSocket) = s := by
        rw [harrivals, takeArrival, Received.toList, List.append_nil, ← harrivals]
      have hnone : (takeArrival (nleft + 1) s.arrivals).1 = .bytes [] := by
        rw [harrivals]
        rfl
      rw [recvLoop, EStateM.run_bind, run_recv, hsame, hnone]
      rfl

/-- Both loops: the second fills the beginning of the buffer, once the first has come to its
end. -/
theorem run_recvInto (ptr nleft nleft2 : Nat) (h : s.recv.Holds queue)
    (hptr : ptr = s.recv.stop) (hregion : Region s.recv queue.length nleft)
    (htwo : nleft2 = 0 ∨ s.recv.start ≤ s.recv.stop ∧ s.recv.stop + nleft = s.recv.size ∧
      queue.length + nleft + nleft2 < s.recv.size) :
    ∃ ret t bs, (recvInto ptr nleft nleft2).run s = .ok ret t ∧ Took s queue bs t ∧
      bs.length ≤ nleft + nleft2 ∧ (0 < nleft → Ready s.arrivals → bs ≠ []) := by
  obtain ⟨ret, t, bs, hloop, htook, hbs, hnone, hready⟩ := run_recvLoop true h
    (fun _ ↦ ⟨hptr, hregion, Or.inl rfl⟩) (Nat.le_refl nleft)
  rw [recvInto, EStateM.run_bind, hloop]
  cases ret with
  | some ret => exact ⟨ret, t, bs, rfl, htook, Nat.le_add_right_of_le hbs, hready⟩
  | none =>
    dsimp only
    rcases hnone rfl with hfull | hend
    · have hsecond : 0 < nleft2 →
          0 = t.recv.stop ∧ Region t.recv (queue ++ bs).length nleft2 ∧
            (false = true ∨ t.recv.stop < t.recv.start) := by
        intro hpos
        rcases htwo with hzero | ⟨hle, hend, hfree⟩
        · omega
        -- the queue reaches to the end of the buffer, so its end index is at the beginning
        have hstop := htook.recv.valid.stop
        have hsize := htook.size
        have hstart := htook.start
        have hlength := h.length_of_le hle
        have hlt : t.recv.stop < t.recv.start := by
          rcases Nat.lt_or_ge t.recv.stop t.recv.start with hlt | hge
          · exact hlt
          · have hall := htook.recv.length_of_le hge
            rw [List.length_append] at hall
            omega
        have hall := htook.recv.length_of_lt hlt
        rw [List.length_append] at hall
        refine ⟨by omega, Or.inr ⟨hlt, by omega⟩, Or.inr hlt⟩
      obtain ⟨ret', u, cs, hloop', htook', hcs, -, -⟩ :=
        run_recvLoop false htook.recv hsecond (Nat.le_refl nleft2)
      rw [EStateM.run_bind, hloop']
      have hlength : (bs ++ cs).length ≤ nleft + nleft2 := by
        rw [List.length_append]
        omega
      have hready' (hpos : 0 < nleft) (h : Ready s.arrivals) : bs ++ cs ≠ [] :=
        List.append_ne_nil_of_left_ne_nil (hready hpos h) cs
      cases ret' with
      | some ret' => exact ⟨ret', u, bs ++ cs, rfl, htook.trans htook', hlength, hready'⟩
      | none => exact ⟨true, u, bs ++ cs, rfl, htook.trans htook', hlength, hready'⟩
    · rw [EStateM.run_bind, run_recvLoop_eof false 0 (Nat.le_refl nleft2) hend]
      exact ⟨true, t, bs, rfl, htook, Nat.le_add_right_of_le hbs, hready⟩

/-- The queue starts at the beginning of the buffer, unless it is empty. -/
def Flat (r : RingBuffer UInt8) (queue : List UInt8) : Prop := queue = [] ∨ r.start = 0

/-- Such a queue does not go round the end. -/
theorem Flat.start_le (h : Flat r queue) (hholds : r.Holds queue) : r.start ≤ r.stop := by
  rcases h with hnil | hzero
  · rcases Nat.lt_or_ge r.stop r.start with hlt | hge
    · have hstart := hholds.valid.start
      have hlength := hholds.length_of_lt hlt
      rw [hnil, List.length_nil] at hlength
      omega
    · exact hge
  · omega

/-- What a call that receives leaves. -/
def Receives (s : CiSocket) (queue : List UInt8) (n : Nat) (t : CiSocket) : Prop :=
  ∃ bs, Gained s queue bs t ∧ bs.length ≤ n ∧ (Flat s.recv queue → Flat t.recv (queue ++ bs))

/-- If there are bytes to be received and any are asked for, some are received. -/
def Advances (s : CiSocket) (n : Nat) (t : CiSocket) : Prop :=
  0 < n → Ready s.arrivals → t.received ≠ s.received

theorem Took.advances (h : Took s queue bs t) (hready : Ready s.arrivals → bs ≠ []) :
    Ready s.arrivals → t.received ≠ s.received := by
  intro hs
  rw [h.received, ne_eq, List.append_right_eq_self]
  exact hready hs

/-- From an empty buffer: both pointers go to its beginning. -/
theorem receives_reset (s : CiSocket) (hn : n = 0 ∨ n < s.recv.size) :
    ∃ ret t, (do
      movePtrs .recv fun r ↦ { r with start := 0, stop := 0 }
      recvInto 0 n 0).run s = .ok ret t ∧ Receives s [] n t ∧ Advances s n t := by
  have hreset : RingBuffer.Holds { s.recv with start := 0, stop := 0 } ([] : List UInt8) :=
    RingBuffer.holds_nil ⟨Or.inl rfl, Or.inl rfl⟩ rfl
  rcases hn with rfl | hn
  · exact ⟨true, _, rfl, ⟨[], ⟨hreset, (List.append_nil _).symm, rfl, rfl, rfl, rfl⟩,
      Nat.le_refl _, fun _ ↦ Or.inr rfl⟩, fun hpos ↦ absurd hpos (Nat.lt_irrefl 0)⟩
  · have hregion : Region { s.recv with start := 0, stop := 0 } ([] : List UInt8).length n := by
      refine Or.inl ⟨Nat.le_refl _, ?_, ?_⟩
      · dsimp only
        omega
      · rw [List.length_nil]
        dsimp only
        omega
    obtain ⟨ret, t, bs, hrun, htook, hbs, hready⟩ := run_recvInto
      (s := { s with recv := { s.recv with start := 0, stop := 0 } }) 0 n 0 hreset rfl hregion
      (Or.inl rfl)
    refine ⟨ret, t, hrun, ⟨bs, ⟨htook.recv, htook.received, htook.flow, htook.send,
      htook.acceptances, htook.sent⟩, hbs, fun _ ↦ Or.inr ?_⟩,
      fun hpos ↦ htook.advances (hready hpos)⟩
    rw [htook.start]

/-- The rest of `ReadFromNetworkToBuffer` with a maximal size, once there is room. -/
theorem receives_room (h : s.recv.Holds queue) (hroom : queue.length + n < s.recv.size) :
    ∃ ret t, (fillRecvBuffer n).run s = .ok ret t ∧ Receives s queue n t ∧ Advances s n t := by
  have hstart := h.valid.start
  have hstop := h.valid.stop
  have hwrap : s.setRing (wrapStop (s.ring .recv)) .recv = s := by
    rw [show s.ring .recv = s.recv from rfl, wrapStop_eq hstop]
    rfl
  rw [fillRecvBuffer, EStateM.run_bind, run_movePtrs, hwrap]
  dsimp only
  rw [EStateM.run_bind, EStateM.run_get]
  dsimp only
  by_cases hlt : s.recv.start < s.recv.stop
  · have hlength := h.length_of_le (Nat.le_of_lt hlt)
    have hfrom {nleft nleft2 : Nat} (hregion : Region s.recv queue.length nleft)
        (htwo : nleft2 = 0 ∨ s.recv.start ≤ s.recv.stop ∧ s.recv.stop + nleft = s.recv.size ∧
          queue.length + nleft + nleft2 < s.recv.size) (hn : nleft + nleft2 = n)
        (hpos : 0 < n → 0 < nleft) :
        ∃ ret t, (recvInto s.recv.stop nleft nleft2).run s = .ok ret t ∧
          Receives s queue n t ∧ Advances s n t := by
      obtain ⟨ret, t, bs, hrun, htook, hbs, hready⟩ :=
        run_recvInto _ nleft nleft2 h rfl hregion htwo
      refine ⟨ret, t, hrun, ⟨bs, htook.toGained, by omega, fun hflat ↦ Or.inr ?_⟩,
        fun hn ↦ htook.advances (hready (hpos hn))⟩
      rcases hflat with hnil | hzero
      · rw [hnil, List.length_nil] at hlength
        omega
      · rw [htook.start, hzero]
    rw [if_pos hlt]
    by_cases hless : n < s.recv.size - s.recv.stop - (if s.recv.start = 0 then 1 else 0)
    · rw [if_pos hless]
      exact hfrom (Or.inl ⟨by omega, by omega, hroom⟩) (Or.inl rfl) (Nat.add_zero n) id
    · rw [if_neg hless]
      split at hless
      · next hzero =>
        rw [if_pos hzero]
        exact hfrom (Or.inl ⟨by omega, by omega, by omega⟩) (Or.inl (by omega)) (by omega)
          (by omega)
      · next hzero =>
        rw [if_neg hzero]
        exact hfrom (Or.inl ⟨by omega, by omega, by omega⟩)
          (Or.inr ⟨by omega, by omega, by omega⟩) (by omega) (by omega)
  · rw [if_neg hlt]
    by_cases hgt : s.recv.stop < s.recv.start
    · have hlength := h.length_of_lt hgt
      obtain ⟨ret, t, bs, hrun, htook, hbs, hready⟩ := run_recvInto _ n 0 h rfl
        (Or.inr ⟨hgt, by omega⟩) (Or.inl rfl)
      rw [if_pos hgt]
      refine ⟨ret, t, hrun, ⟨bs, htook.toGained, hbs, fun hflat ↦ ?_⟩,
        fun hpos ↦ htook.advances (hready hpos)⟩
      exact absurd (hflat.start_le h) (Nat.not_le.mpr hgt)
    · have hlength := h.length_of_le (Nat.not_lt.mp hgt)
      obtain rfl : queue = [] := List.length_eq_zero_iff.mp (by omega)
      rw [if_neg hgt]
      exact receives_reset s (Or.inr (by omega))

/-- `ReadFromNetworkToBuffer` with a maximal size. -/
theorem contract_readFromNetworkToBufferMax {realloc : Realloc} (h : s.recv.Holds queue)
    (hgrow : GrowsRight s.recv n) :
    Contract (fun t ↦ t = s) (readFromNetworkToBufferMax realloc n)
      (fun ret t ↦ Receives s queue n t ∧ (ret = true → Advances s n t))
      fun f _ ↦ f = .sizeOverflow := by
  have hprepare := @contract_prepareBuffer s .recv queue n realloc h hgrow
  refine hprepare.bind fun ret ↦ ?_
  rintro t ⟨r, rfl, hholds, hsame, hroom⟩
  have hflat (hflat : Flat s.recv queue) : Flat r queue := by
    rcases hflat with hnil | hzero
    · exact Or.inl hnil
    · exact Or.inr ((hsame (by rw [show s.ring .recv = s.recv from rfl]; omega)).trans hzero)
  cases ret with
  | false =>
    rw [if_pos rfl]
    refine ⟨⟨[], ⟨?_, (List.append_nil _).symm, rfl, rfl, rfl, rfl⟩, Nat.zero_le _, fun hs ↦ ?_⟩,
      fun hret ↦ by cases hret⟩
    · rw [List.append_nil]
      exact hholds
    · rw [List.append_nil]
      exact hflat hs
  | true =>
    rw [if_neg (by decide)]
    obtain ⟨ret, t, hrun, ⟨bs, hgained, hbs, hkeeps⟩, hadvances⟩ :=
      receives_room (s := s.setRing r .recv) (n := n) hholds (hroom rfl)
    rw [hrun]
    exact ⟨⟨bs, ⟨hgained.recv, hgained.received, hgained.flow, hgained.send, hgained.acceptances,
      hgained.sent⟩, hbs, fun hs ↦ hkeeps (hflat hs)⟩, fun _ ↦ hadvances⟩

/-- `ReadFromNetworkToBuffer`. -/
theorem run_readFromNetworkToBuffer (h : s.recv.Holds queue) :
    ∃ ret t bs, readFromNetworkToBuffer.run s = .ok ret t ∧ Gained s queue bs t := by
  have hstart := h.valid.start
  have hstop := h.valid.stop
  have hwrap : s.setRing (wrapStop (s.ring .recv)) .recv = s := by
    rw [show s.ring .recv = s.recv from rfl, wrapStop_eq hstop]
    rfl
  rw [readFromNetworkToBuffer, EStateM.run_bind, run_movePtrs, hwrap]
  dsimp only
  rw [EStateM.run_bind, EStateM.run_get]
  dsimp only
  by_cases hlt : s.recv.start < s.recv.stop
  · have hlength := h.length_of_le (Nat.le_of_lt hlt)
    rw [if_pos hlt]
    obtain ⟨ret, t, bs, hrun, htook, -, -⟩ := run_recvInto _
      (s.recv.size - s.recv.stop - (if s.recv.start = 0 then 1 else 0)) 0 h rfl
      (Or.inl ⟨by omega, by omega, by split <;> omega⟩) (Or.inl rfl)
    exact ⟨ret, t, bs, hrun, htook.toGained⟩
  · rw [if_neg hlt]
    by_cases hgt : s.recv.stop < s.recv.start
    · obtain ⟨ret, t, bs, hrun, htook, -⟩ := run_recvInto _
        (s.recv.start - s.recv.stop - 1) 0 h rfl (Or.inr ⟨hgt, by omega⟩) (Or.inl rfl)
      rw [if_pos hgt]
      exact ⟨ret, t, bs, hrun, htook.toGained⟩
    · have hlength := h.length_of_le (Nat.not_lt.mp hgt)
      obtain rfl : queue = [] := List.length_eq_zero_iff.mp (by omega)
      obtain ⟨ret, t, hrun, ⟨bs, hgained, -, -⟩, -⟩ :=
        receives_reset (n := s.recv.size - 1) s (by omega)
      rw [if_neg hgt]
      exact ⟨ret, t, bs, hrun, hgained⟩

/-! ### Taking out -/

/-- `ReadN`: the front of the queue, if there is as much. -/
theorem run_readN (h : s.recv.Holds queue) (n : Nat) :
    (n ≤ queue.length ∧ queue ≠ [] → ∃ r, (readN n).run s =
      .ok (some (queue.take n)) { s with recv := r } ∧ r.Holds (queue.drop n)) ∧
    (¬(n ≤ queue.length ∧ queue ≠ []) → (readN n).run s = .ok none s) := by
  have hstart := h.valid.start
  have hnil : queue ≠ [] ↔ 0 < queue.length := List.length_pos_iff.symm
  rw [hnil, readN, EStateM.run_bind, EStateM.run_get]
  dsimp only
  rcases Nat.lt_trichotomy s.recv.start s.recv.stop with hlt | heq | hgt
  · have hle := Nat.le_of_lt hlt
    have hlength := h.length_of_le hle
    by_cases hn : n ≤ s.recv.stop - s.recv.start
    · rw [if_pos ⟨hlt, hn⟩]
      refine ⟨fun _ ↦ ?_, fun hno ↦ absurd ⟨by omega, by omega⟩ hno⟩
      have hload := h.load_of_le (i := 0) (n := n) hle (by omega)
      have hcopy := run_copyFrom_recv hload
      rw [Nat.add_zero] at hcopy
      rw [EStateM.run_bind, hcopy]
      exact ⟨_, rfl, h.drop_of_le hle (by omega)⟩
    · rw [if_neg (by omega), if_neg (by omega)]
      exact ⟨fun hyes ↦ absurd hyes.1 (by omega), fun _ ↦ rfl⟩
  · have hlength := h.length_of_le (Nat.le_of_eq heq)
    rw [if_neg (by omega), if_neg (by omega)]
    exact ⟨fun hyes ↦ absurd hyes.2 (by omega), fun _ ↦ rfl⟩
  · have hlength := h.length_of_lt hgt
    rw [if_neg (by omega)]
    by_cases hn : n ≤ s.recv.size - (s.recv.start - s.recv.stop)
    · rw [if_pos ⟨hgt, hn⟩]
      refine ⟨fun _ ↦ ?_, fun hno ↦ absurd ⟨by omega, by omega⟩ hno⟩
      by_cases hupper : n ≤ s.recv.size - s.recv.start
      · have hcopy := run_copyFrom_recv
          (h.load_upper (i := 0) (n := n) hgt (by omega))
        rw [Nat.add_zero] at hcopy
        have hdrop := h.drop_upper (n := n) hgt (by omega)
        rw [← wrapStart_advance] at hdrop
        rw [if_pos hupper, EStateM.run_bind, hcopy]
        exact ⟨_, rfl, hdrop⟩
      · have hcopy := run_copyFrom_recv
          (h.load_upper (i := 0) (n := s.recv.size - s.recv.start) hgt (by omega))
        have hcopy' := run_copyFrom_recv (h.load_lower
          (i := s.recv.size - s.recv.start) (n := n - (s.recv.size - s.recv.start)) hgt
            (by omega) (by omega))
        have hzero : s.recv.start + (s.recv.size - s.recv.start) - s.recv.size = 0 := by omega
        have hall : queue.take n = (queue.drop 0).take (s.recv.size - s.recv.start) ++
            (queue.drop (s.recv.size - s.recv.start)).take (n - (s.recv.size - s.recv.start)) := by
          rw [List.drop_zero, ← List.take_add]
          congr 1
          omega
        have hdrop := h.drop_lower (n := n) hgt (by omega) (by omega)
        have hnext : s.recv.start + n - s.recv.size = n - (s.recv.size - s.recv.start) := by omega
        rw [Nat.add_zero] at hcopy
        rw [hzero] at hcopy'
        rw [hnext] at hdrop
        rw [if_neg hupper, EStateM.run_bind, hcopy]
        dsimp only
        rw [EStateM.run_bind, hcopy', hall]
        exact ⟨_, rfl, hdrop⟩
    · rw [if_neg (by omega)]
      exact ⟨fun hyes ↦ absurd hyes.1 (by omega), fun _ ↦ rfl⟩

/-- The sums that `LookAheadN` computes are `int`s. -/
def LooksRight (s : CiSocket) (n i : Nat) : Prop :=
  (s.recv.start ≠ s.recv.stop → i + n < 2 ^ 31) ∧
    (s.recv.stop < s.recv.start → i + n ≤ dataSize s.recv → s.recv.start + i < 2 ^ 31)

/-- From a queue that does not go round the end, one sum decides. -/
theorem Flat.looksRight {i : Nat} (hflat : Flat s.recv queue) (h : s.recv.Holds queue)
    (hsum : i + n < 2 ^ 31) : LooksRight s n i :=
  ⟨fun _ ↦ hsum, fun hlt ↦ absurd hlt (Nat.not_lt.mpr (hflat.start_le h))⟩

/-- `LookAheadN`: a part of the queue, if there is as much; nothing changes. -/
theorem run_lookAheadN (h : s.recv.Holds queue) {n i : Nat} (hlooks : LooksRight s n i) :
    (lookAheadN n i).run s = .ok
      (if i + n ≤ queue.length ∧ queue ≠ [] then some ((queue.drop i).take n) else none) s := by
  obtain ⟨hsum, hptr⟩ := hlooks
  have hstart := h.valid.start
  have hnil : queue ≠ [] ↔ 0 < queue.length := List.length_pos_iff.symm
  rw [lookAheadN, EStateM.run_bind, EStateM.run_get]
  dsimp only
  rw [if_neg fun hover ↦ Nat.not_lt.mpr hover.2 (hsum hover.1)]
  rcases Nat.lt_trichotomy s.recv.start s.recv.stop with hlt | heq | hgt
  · have hle := Nat.le_of_lt hlt
    have hlength := h.length_of_le hle
    by_cases hn : i + n ≤ s.recv.stop - s.recv.start
    · have hhas : i + n ≤ queue.length ∧ queue ≠ [] := ⟨by omega, hnil.mpr (by omega)⟩
      rw [if_pos hhas, if_pos ⟨hlt, hn⟩, EStateM.run_bind,
        run_copyFrom_recv (h.load_of_le hle hhas.1)]
      rfl
    · rw [if_neg (by omega), if_neg (by omega), if_neg (by omega)]
      rfl
  · have hlength := h.length_of_le (Nat.le_of_eq heq)
    rw [if_neg (by omega), if_neg (by omega), if_neg (by rw [hnil]; omega)]
    rfl
  · have hlength := h.length_of_lt hgt
    rw [if_neg (by omega)]
    by_cases hn : i + n ≤ s.recv.size - (s.recv.start - s.recv.stop)
    · have hhas : i + n ≤ queue.length ∧ queue ≠ [] := ⟨by omega, hnil.mpr (by omega)⟩
      have hsize : dataSize s.recv = s.recv.size - (s.recv.start - s.recv.stop) := by
        rw [dataSize_eq h]
        omega
      rw [if_pos hhas, if_pos ⟨hgt, hn⟩, if_neg (Nat.not_le.mpr (hptr hgt (hsize ▸ hn)))]
      by_cases hupper : s.recv.start + i + n ≤ s.recv.size
      · rw [if_pos hupper, EStateM.run_bind,
          run_copyFrom_recv (h.load_upper hgt hupper)]
        rfl
      · rw [if_neg hupper]
        by_cases hsplit : s.recv.start + i < s.recv.size
        · have hcopy := run_copyFrom_recv (h.load_upper (i := i)
            (n := s.recv.size - (s.recv.start + i)) hgt (by omega))
          have hcopy' := run_copyFrom_recv (h.load_lower
            (i := s.recv.size - s.recv.start) (n := n - (s.recv.size - (s.recv.start + i))) hgt
              (by omega) (by omega))
          have hzero : s.recv.start + (s.recv.size - s.recv.start) - s.recv.size = 0 := by omega
          have hnext : i + (s.recv.size - (s.recv.start + i)) = s.recv.size - s.recv.start := by
            omega
          have hall : (queue.drop i).take n =
              (queue.drop i).take (s.recv.size - (s.recv.start + i)) ++
                (queue.drop (s.recv.size - s.recv.start)).take
                  (n - (s.recv.size - (s.recv.start + i))) := by
            rw [← hnext, ← List.drop_drop, ← List.take_add]
            congr 1
            omega
          rw [hzero] at hcopy'
          rw [if_pos hsplit, EStateM.run_bind, hcopy]
          dsimp only
          rw [EStateM.run_bind, hcopy', hall]
          rfl
        · rw [if_neg hsplit, EStateM.run_bind,
            run_copyFrom_recv (h.load_lower hgt (by omega) (by omega))]
          rfl
    · rw [if_neg (by omega), if_neg (by omega)]
      rfl

end HeartbeatSpec.Socket
