import HeartbeatSpec.Socket.Receiving

/-!
# When a buffer grows right

Library `Socket`. `PrepareRecvBuffer` and `PrepareSendBuffer` make a buffer larger by as many bytes
as are missing, and move that many from its upper part up, however many there are in it,
`examples/Externals/CiUtils/Src/CiSocket.cpp:1022–1046,1397–1421`. So more or fewer are moved than
there are, unless the two numbers happen to be the same.
-/

namespace HeartbeatSpec.Socket
open HeartbeatSpec.Base

variable {s : CiSocket} {side : Side} {r : RingBuffer UInt8} {n : Nat}

/-- The bytes by which the buffer is made larger. -/
def needSize (r : RingBuffer UInt8) (n : Nat) : Nat := n - (r.size - dataSize r) + 1

theorem run_copyTo_none {ptr : Nat} {bs : List UInt8} (h : (s.ring side).store ptr bs = none) :
    (copyTo side ptr bs).run s = .error .outOfBounds s := by
  rw [copyTo, EStateM.run_bind, EStateM.run_get]
  dsimp only
  rw [h]
  rfl

/-- A larger buffer that goes round its end, and what is moved in it: either beyond its new end, or
within it. -/
theorem run_prepareBuffer_of_lt (fresh : Nat → UInt8)
    (hlt : (s.ring side).stop < (s.ring side).start)
    (hstart : (s.ring side).start < (s.ring side).size)
    (hfull : (s.ring side).size - dataSize (s.ring side) ≤ n)
    (hint : (s.ring side).size + needSize (s.ring side) n < 2 ^ 31) :
    ((s.ring side).size < (s.ring side).start + needSize (s.ring side) n →
      ∃ t, (prepareBuffer side (some fresh) n).run s = .error .outOfBounds t) ∧
    ((s.ring side).start + needSize (s.ring side) n ≤ (s.ring side).size →
      (prepareBuffer side (some fresh) n).run s =
        .ok true (s.setRing ((s.ring side).shift (needSize (s.ring side) n) fresh) side)) := by
  generalize hneed : needSize (s.ring side) n = need at hint ⊢
  have hload : ((s.ring side).grow need fresh).load (s.ring side).start need =
      some (cellsFrom ((s.ring side).grow need fresh).cells (s.ring side).start need) :=
    RingBuffer.load_eq (Nat.add_le_add_right (Nat.le_of_lt hstart) need)
  have hrun : (prepareBuffer side (some fresh) n).run s = (do
      copyTo side ((s.ring side).start + need)
        (cellsFrom ((s.ring side).grow need fresh).cells (s.ring side).start need)
      movePtrs side fun r ↦ { r with start := r.start + need }
      pure true : Call Bool).run (s.setRing ((s.ring side).grow need fresh) side) := by
    rw [prepareBuffer, EStateM.run_bind, EStateM.run_get]
    dsimp only
    rw [if_neg (Nat.not_lt.mpr hfull), ← needSize, hneed, if_neg (Nat.not_le.mpr hint),
      EStateM.run_bind, run_movePtrs]
    dsimp only
    rw [if_pos hlt, EStateM.run_bind, run_copyFrom (by rw [CiSocket.ring_setRing]; exact hload)]
  rw [hrun, EStateM.run_bind]
  constructor
  · intro hbeyond
    have hstore : ((s.ring side).grow need fresh).store ((s.ring side).start + need)
        (cellsFrom ((s.ring side).grow need fresh).cells (s.ring side).start need) = none := by
      apply if_neg
      rw [length_cellsFrom]
      show ¬(s.ring side).start + need + need ≤ (s.ring side).size + need
      omega
    rw [run_copyTo_none (by rw [CiSocket.ring_setRing]; exact hstore)]
    exact ⟨_, rfl⟩
  · intro hwithin
    have hstore := @RingBuffer.store_eq UInt8
      (cellsFrom ((s.ring side).grow need fresh).cells (s.ring side).start need)
      ((s.ring side).start + need) ((s.ring side).grow need fresh)
      (by rw [length_cellsFrom]; exact Nat.add_le_add_right hwithin need)
    rw [run_copyTo (by rw [CiSocket.ring_setRing]; exact hstore)]
    dsimp only
    rw [EStateM.run_bind, run_movePtrs, CiSocket.ring_setRing, CiSocket.setRing_setRing,
      CiSocket.setRing_setRing]
    rfl

/-- Without making room, or in a buffer that does not go round its end, nothing is moved. -/
theorem run_prepareBuffer_of_le (fresh : Nat → UInt8)
    (hplain : n < (s.ring side).size - dataSize (s.ring side) ∨
      (s.ring side).start ≤ (s.ring side).stop)
    (hint : (s.ring side).size - dataSize (s.ring side) ≤ n →
      (s.ring side).size + needSize (s.ring side) n < 2 ^ 31) :
    ∃ t, (prepareBuffer side (some fresh) n).run s = .ok true t ∧
      (t = s ∨ (s.ring side).start ≤ (s.ring side).stop ∧
        t = s.setRing ((s.ring side).grow (needSize (s.ring side) n) fresh) side) := by
  rw [prepareBuffer, EStateM.run_bind, EStateM.run_get]
  dsimp only
  by_cases hroom : n < (s.ring side).size - dataSize (s.ring side)
  · rw [if_pos hroom]
    exact ⟨s, rfl, Or.inl rfl⟩
  · have hle := hplain.resolve_left hroom
    rw [if_neg hroom, ← needSize, if_neg (Nat.not_le.mpr (hint (Nat.not_lt.mp hroom))),
      EStateM.run_bind, run_movePtrs]
    dsimp only
    rw [if_neg (Nat.not_lt.mpr hle)]
    exact ⟨_, rfl, Or.inr ⟨hle, rfl⟩⟩

/-- Where fewer bytes are moved than there are, some of them are lost. -/
theorem contents_shift_ne {start stop size need : Nat} (hlt : stop < start)
    (hneed : 0 < need) (hfew : start + need < size) :
    let r : RingBuffer UInt8 := ⟨fun k ↦ if k = start + need then 1 else 0, size, start, stop⟩
    (r.shift need fun _ ↦ 0).contents ≠ r.contents := by
  intro r heq
  rw [RingBuffer.contents_shift hlt (Nat.le_of_lt hfew), RingBuffer.contents_of_lt hlt] at heq
  have hupper : r.size - r.start = need + (size - start - need) := by
    show size - start = _
    omega
  -- the byte behind those that are moved
  rw [hupper, ← cellsFrom_append, List.append_left_inj, List.append_right_inj] at heq
  have hbyte := congrArg (·[0]?) heq
  rw [cellsFrom, cellsFrom, List.getElem?_map, List.getElem?_map,
    List.getElem?_range' (by omega), List.getElem?_range' (by omega)] at hbyte
  have hold : r.cells (start + need + 0) = 1 := if_pos rfl
  have hnew : (r.grow need fun _ ↦ 0).cells (start + need + need + 0) = 0 := by
    show (if start + need + need + 0 < size then
      if start + need + need + 0 = start + need then 1 else 0 else 0 : UInt8) = 0
    rw [if_neg (show start + need + need + 0 ≠ start + need by omega), ite_self]
  simp only [Option.map_some, Option.some.injEq] at hbyte
  exact absurd ((hnew.symm.trans hbyte).trans hold) (by decide)

/-- Where `realloc` succeeds and the new size is an `int`, making room keeps whatever is in the
buffer exactly if no room has to be made, or the buffer does not go round its end, or as many bytes
are missing as are in its upper part. -/
theorem growth_keeps_iff (side : Side) (hvalid : r.Valid)
    (hint : r.size - dataSize r ≤ n → r.size + needSize r n < 2 ^ 31) :
    (∀ (s : CiSocket) (cells fresh : Nat → UInt8), s.ring side = { r with cells := cells } →
      ∃ t, (prepareBuffer side (some fresh) n).run s = .ok true t ∧
        (t.ring side).contents = (s.ring side).contents) ↔ GrowsRight r n := by
  constructor
  · intro hkeeps
    by_contra hwrong
    simp only [GrowsRight, not_or, Nat.not_lt, Nat.not_le] at hwrong
    obtain ⟨hfull, hlt, hmany⟩ := hwrong
    have hstart : r.start < r.size := hvalid.start.resolve_left (by omega)
    rw [← needSize] at hmany
    rcases Nat.lt_or_gt_of_ne hmany with hfew | hbeyond
    · obtain ⟨s, hs⟩ : ∃ s : CiSocket, s.ring side =
          { r with cells := fun k ↦ if k = r.start + needSize r n then 1 else 0 } :=
        ⟨(CiSocket.new 0 0 0 0 [] []).setRing _ side, CiSocket.ring_setRing _ _ _⟩
      obtain ⟨t, hrun, hsame⟩ := hkeeps s _ (fun _ ↦ 0) hs
      have hmoved := (run_prepareBuffer_of_lt (n := n) (fun _ ↦ 0) (by rwa [hs]) (by rwa [hs])
        (by rw [hs]; exact hfull) (by rw [hs]; exact hint hfull)).2
        (by rw [hs]; exact Nat.le_of_lt hfew)
      rw [hmoved, EStateM.Result.ok.injEq] at hrun
      rw [← hrun.2, CiSocket.ring_setRing, hs] at hsame
      exact contents_shift_ne hlt (Nat.succ_pos _) hfew hsame
    · obtain ⟨s, hs⟩ : ∃ s : CiSocket, s.ring side = r :=
        ⟨(CiSocket.new 0 0 0 0 [] []).setRing r side, CiSocket.ring_setRing _ _ _⟩
      obtain ⟨t, hrun, _⟩ := hkeeps s r.cells (fun _ ↦ 0) hs
      obtain ⟨u, hfault⟩ := (run_prepareBuffer_of_lt (n := n) (fun _ ↦ 0) (by rwa [hs])
        (by rwa [hs]) (by rw [hs]; exact hfull) (by rw [hs]; exact hint hfull)).1
        (by rw [hs]; exact hbeyond)
      rw [hfault] at hrun
      cases hrun
  · intro hgrow s cells fresh hring
    have hholds : (s.ring side).Holds (s.ring side).contents :=
      ⟨by rw [hring]; exact ⟨hvalid.start, hvalid.stop⟩, rfl⟩
    have hint' : (s.ring side).size - dataSize (s.ring side) ≤ n →
        (s.ring side).size + needSize (s.ring side) n < 2 ^ 31 := by
      rw [hring]
      exact hint
    by_cases hplain : n < (s.ring side).size - dataSize (s.ring side) ∨
        (s.ring side).start ≤ (s.ring side).stop
    · obtain ⟨t, hrun, rfl | ⟨hle, rfl⟩⟩ := run_prepareBuffer_of_le fresh hplain hint'
      · exact ⟨_, hrun, rfl⟩
      · refine ⟨_, hrun, ?_⟩
        rw [CiSocket.ring_setRing]
        exact (hholds.grow_of_le hle).contents
    · obtain ⟨hfull, hlt⟩ := not_or.mp hplain
      rw [Nat.not_lt] at hfull
      rw [Nat.not_le] at hlt
      have hmany : (s.ring side).start + needSize (s.ring side) n = (s.ring side).size := by
        rw [hring] at hfull hlt ⊢
        rcases hgrow with h | h | h
        · exact absurd h (Nat.not_lt.mpr hfull)
        · exact absurd h (Nat.not_le.mpr hlt)
        · exact h
      refine ⟨_, (run_prepareBuffer_of_lt fresh hlt ?_ hfull (hint' hfull)).2 (Nat.le_of_eq hmany),
        ?_⟩
      · exact hholds.valid.start.resolve_left (Nat.ne_of_gt (Nat.zero_lt_of_lt hlt))
      · rw [CiSocket.ring_setRing]
        exact (hholds.shift hlt hmany).contents

/-- Three bytes at the end of a buffer of eight, and two at its beginning: room for four more cannot
be made. -/
theorem growth_keeps_iff_eight :
    ¬∀ (s : CiSocket) (cells fresh : Nat → UInt8), s.recv = ⟨cells, 8, 5, 2⟩ →
      ∃ t, (prepareRecvBuffer (some fresh) 4).run s = .ok true t ∧
        t.recv.contents = s.recv.contents :=
  fun h ↦ absurd ((@growth_keeps_iff ⟨fun _ ↦ 0, 8, 5, 2⟩ 4 .recv
    ⟨by decide, by decide⟩ (by decide)).1 h) (by unfold GrowsRight; decide)

end HeartbeatSpec.Socket
