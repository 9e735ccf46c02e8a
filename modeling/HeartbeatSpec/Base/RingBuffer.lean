import Mathlib.Data.List.Basic

/-!
# Ring buffers

Library `Base`. A block of cells with a start and a stop index holds a queue: the cells between
the two, going round the end of the block where the stop index is before the start index. One cell
is always left free, so that a full queue is not taken for an empty one.
-/

namespace HeartbeatSpec.Base

universe u

variable {β : Type u}

/-! ### Cells -/

/-- The `n` cells from index `i` on. -/
def cellsFrom (f : Nat → β) (i n : Nat) : List β := (List.range' i n).map f

/-- The cells from index `i` on are overwritten. -/
def overwrite (f : Nat → β) (i : Nat) (bs : List β) : Nat → β :=
  fun k ↦ if i ≤ k then bs.getD (k - i) (f k) else f k

variable {f g : Nat → β} {bs : List β} {i j m n : Nat}

@[simp] theorem length_cellsFrom (f : Nat → β) (i n : Nat) : (cellsFrom f i n).length = n := by
  simp [cellsFrom]

@[simp] theorem cellsFrom_zero (f : Nat → β) (i : Nat) : cellsFrom f i 0 = [] := rfl

theorem cellsFrom_append (f : Nat → β) (i m n : Nat) :
    cellsFrom f i m ++ cellsFrom f (i + m) n = cellsFrom f i (m + n) := by
  rw [cellsFrom, cellsFrom, cellsFrom, ← List.map_append, List.range'_append_1]

theorem take_cellsFrom (h : m ≤ n) : (cellsFrom f i n).take m = cellsFrom f i m := by
  obtain ⟨k, rfl⟩ := Nat.exists_eq_add_of_le h
  rw [← cellsFrom_append]
  exact List.take_left' (length_cellsFrom f i m)

theorem drop_cellsFrom (h : m ≤ n) : (cellsFrom f i n).drop m = cellsFrom f (i + m) (n - m) := by
  obtain ⟨k, rfl⟩ := Nat.exists_eq_add_of_le h
  rw [← cellsFrom_append, Nat.add_sub_cancel_left]
  exact List.drop_left' (length_cellsFrom f i m)

theorem cellsFrom_congr (h : ∀ k, i ≤ k → k < i + n → f k = g k) :
    cellsFrom f i n = cellsFrom g i n := by
  apply List.map_congr_left
  intro k hk
  rw [List.mem_range'_1] at hk
  exact h k hk.1 hk.2

theorem overwrite_of_lt {k : Nat} (h : k < i) : overwrite f i bs k = f k :=
  if_neg (Nat.not_le.mpr h)

theorem overwrite_of_le {k : Nat} (h : i + bs.length ≤ k) : overwrite f i bs k = f k := by
  rw [overwrite]
  split
  · rw [List.getD_eq_getElem?_getD, List.getElem?_eq_none (by omega), Option.getD_none]
  · rfl

/-- Cells beside the overwritten ones are as they were. -/
theorem cellsFrom_overwrite_of_disjoint (h : i + bs.length ≤ j ∨ j + n ≤ i) :
    cellsFrom (overwrite f i bs) j n = cellsFrom f j n := by
  apply cellsFrom_congr
  intro k hk hlt
  rcases h with h | h
  · exact overwrite_of_le (by omega)
  · exact overwrite_of_lt (by omega)

/-- The overwritten cells hold what was written. -/
theorem cellsFrom_overwrite (f : Nat → β) (i : Nat) (bs : List β) :
    cellsFrom (overwrite f i bs) i bs.length = bs := by
  apply List.ext_getElem (length_cellsFrom _ _ _)
  intro k hk hbs
  simp only [cellsFrom, List.getElem_map, List.getElem_range', Nat.one_mul, overwrite]
  rw [if_pos (Nat.le_add_right i k), Nat.add_sub_cancel_left]
  exact (List.getElem_eq_getD _).symm

/-! ### Rings -/

/-- A block of cells with the two indices of its queue. -/
structure RingBuffer (β : Type u) where
  cells : Nat → β
  size : Nat
  start : Nat
  stop : Nat

namespace RingBuffer

/-- Read cells, all of which have to be in the block. -/
def load (r : RingBuffer β) (i n : Nat) : Option (List β) :=
  if i + n ≤ r.size then some (cellsFrom r.cells i n) else none

/-- Overwrite cells, all of which have to be in the block. -/
def store (r : RingBuffer β) (i : Nat) (bs : List β) : Option (RingBuffer β) :=
  if i + bs.length ≤ r.size then some { r with cells := overwrite r.cells i bs } else none

/-- The queue. -/
def contents (r : RingBuffer β) : List β :=
  if r.start ≤ r.stop then cellsFrom r.cells r.start (r.stop - r.start)
  else cellsFrom r.cells r.start (r.size - r.start) ++ cellsFrom r.cells 0 r.stop

/-- The indices are in the block. -/
structure Valid (r : RingBuffer β) : Prop where
  start : r.start = 0 ∨ r.start < r.size
  stop : r.stop = 0 ∨ r.stop < r.size

/-- The ring holds this queue. -/
structure Holds (r : RingBuffer β) (bs : List β) : Prop where
  valid : r.Valid
  contents : r.contents = bs

variable {r : RingBuffer β}

theorem load_eq (h : i + n ≤ r.size) : r.load i n = some (cellsFrom r.cells i n) := if_pos h

theorem store_eq (h : i + bs.length ≤ r.size) :
    r.store i bs = some { r with cells := overwrite r.cells i bs } := if_pos h

theorem contents_of_le (h : r.start ≤ r.stop) :
    r.contents = cellsFrom r.cells r.start (r.stop - r.start) := if_pos h

theorem contents_of_lt (h : r.stop < r.start) :
    r.contents = cellsFrom r.cells r.start (r.size - r.start) ++ cellsFrom r.cells 0 r.stop :=
  if_neg (Nat.not_le.mpr h)

/-- An empty ring. -/
theorem holds_nil (hvalid : r.Valid) (h : r.start = r.stop) : r.Holds [] := by
  refine ⟨hvalid, ?_⟩
  rw [contents_of_le (Nat.le_of_eq h), h, Nat.sub_self]
  rfl

namespace Holds

variable {queue : List β}

theorem length_of_le (h : r.Holds queue) (hle : r.start ≤ r.stop) :
    queue.length = r.stop - r.start := by
  rw [← h.contents, contents_of_le hle, length_cellsFrom]

theorem length_of_lt (h : r.Holds queue) (hlt : r.stop < r.start) :
    queue.length = r.size - r.start + r.stop := by
  rw [← h.contents, contents_of_lt hlt, List.length_append, length_cellsFrom, length_cellsFrom]

/-- One cell is free, unless there is none at all. -/
theorem length_lt (h : r.Holds queue) (hsize : 0 < r.size) : queue.length < r.size := by
  have hstart := h.valid.start
  have hstop := h.valid.stop
  rcases Nat.lt_or_ge r.stop r.start with hlt | hle
  · rw [h.length_of_lt hlt]
    omega
  · rw [h.length_of_le hle]
    omega

/-! ### Putting in -/

/-- What is stored behind the queue, up to the end of the block at most, is put into it; an index at
the end of the block goes to its beginning. -/
theorem store_upper (h : r.Holds queue) (hle : r.start ≤ r.stop)
    (hfit : r.stop + bs.length ≤ r.size) (hfree : queue.length + bs.length < r.size) :
    Holds ⟨overwrite r.cells r.stop bs, r.size, r.start,
      if r.stop + bs.length = r.size then 0 else r.stop + bs.length⟩ (queue ++ bs) := by
  have hlength := h.length_of_le hle
  have hstart := h.valid.start
  have hstop := h.valid.stop
  have hall : cellsFrom (overwrite r.cells r.stop bs) r.start (r.stop - r.start + bs.length) =
      queue ++ bs := by
    rw [← cellsFrom_append, cellsFrom_overwrite_of_disjoint (Or.inr (by omega)),
      ← contents_of_le hle, h.contents, Nat.add_sub_cancel' hle, cellsFrom_overwrite]
  split
  · rename_i hend
    refine ⟨⟨?_, Or.inl rfl⟩, ?_⟩
    · dsimp only
      omega
    · rw [contents_of_lt (by dsimp only; omega), ← hall]
      dsimp only
      rw [cellsFrom_zero, List.append_nil]
      congr 1
      omega
  · refine ⟨⟨hstart, ?_⟩, ?_⟩
    · dsimp only
      omega
    · rw [contents_of_le (by dsimp only; omega), ← hall]
      dsimp only
      congr 1
      omega

/-- What is stored behind a queue that goes round the end is put into it. -/
theorem store_lower (h : r.Holds queue) (hlt : r.stop < r.start)
    (hfree : r.stop + bs.length < r.start) :
    Holds ⟨overwrite r.cells r.stop bs, r.size, r.start, r.stop + bs.length⟩ (queue ++ bs) := by
  have hstart := h.valid.start
  refine ⟨⟨hstart, ?_⟩, ?_⟩
  · dsimp only
    omega
  · rw [contents_of_lt hfree, ← h.contents, contents_of_lt hlt]
    dsimp only
    rw [cellsFrom_overwrite_of_disjoint (Or.inl (Nat.le_of_lt hfree)), List.append_assoc,
      ← cellsFrom_append, cellsFrom_overwrite_of_disjoint (Or.inr (by omega)), Nat.zero_add,
      cellsFrom_overwrite]

/-! ### Taking out -/

/-- The front of a queue. -/
theorem load_of_le (h : r.Holds queue) (hle : r.start ≤ r.stop) (hfit : i + n ≤ queue.length) :
    r.load (r.start + i) n = some ((queue.drop i).take n) := by
  have hstop := h.valid.stop
  rw [h.length_of_le hle] at hfit
  rw [load_eq (by omega), ← h.contents, contents_of_le hle, drop_cellsFrom (by omega),
    take_cellsFrom (by omega)]

/-- The front of a queue that goes round the end, up to the end of the block at most. -/
theorem load_upper (h : r.Holds queue) (hlt : r.stop < r.start)
    (hfit : r.start + i + n ≤ r.size) : r.load (r.start + i) n = some ((queue.drop i).take n) := by
  rw [load_eq hfit, ← h.contents, contents_of_lt hlt, List.drop_append_of_le_length
    (by rw [length_cellsFrom]; omega), drop_cellsFrom (by omega), List.take_append_of_le_length
    (by rw [length_cellsFrom]; omega), take_cellsFrom (by omega)]

/-- What is behind the end of the block. -/
theorem load_lower (h : r.Holds queue) (hlt : r.stop < r.start) (hend : r.size ≤ r.start + i)
    (hfit : i + n ≤ queue.length) :
    r.load (r.start + i - r.size) n = some ((queue.drop i).take n) := by
  have hstart := h.valid.start
  have hstop := h.valid.stop
  rw [h.length_of_lt hlt] at hfit
  have hdrop : queue.drop i = (cellsFrom r.cells 0 r.stop).drop (r.start + i - r.size) := by
    rw [← h.contents, contents_of_lt hlt, List.drop_append, length_cellsFrom,
      List.drop_eq_nil_of_le (by rw [length_cellsFrom]; omega), List.nil_append]
    congr 1
    omega
  rw [load_eq (by omega), hdrop, drop_cellsFrom (by omega), take_cellsFrom (by omega),
    Nat.zero_add]

/-- Moving the start index takes the front out. -/
theorem drop_of_le (h : r.Holds queue) (hle : r.start ≤ r.stop) (hfit : n ≤ queue.length) :
    Holds { r with start := r.start + n } (queue.drop n) := by
  have hstart := h.valid.start
  have hstop := h.valid.stop
  rw [h.length_of_le hle] at hfit
  refine ⟨⟨?_, hstop⟩, ?_⟩
  · dsimp only
    omega
  · rw [contents_of_le (by dsimp only; omega), ← h.contents, contents_of_le hle,
      drop_cellsFrom hfit]
    dsimp only
    congr 1
    omega

/-- An index that comes to the end of the block goes to its beginning. -/
theorem drop_upper (h : r.Holds queue) (hlt : r.stop < r.start) (hfit : r.start + n ≤ r.size) :
    Holds { r with start := if r.start + n = r.size then 0 else r.start + n }
      (queue.drop n) := by
  have hstart := h.valid.start
  have hstop := h.valid.stop
  have hdrop : queue.drop n =
      cellsFrom r.cells (r.start + n) (r.size - (r.start + n)) ++ cellsFrom r.cells 0 r.stop := by
    rw [← h.contents, contents_of_lt hlt, List.drop_append_of_le_length
      (by rw [length_cellsFrom]; omega), drop_cellsFrom (by omega), Nat.sub_sub]
  rw [hdrop]
  split
  · rename_i hend
    refine ⟨⟨Or.inl rfl, hstop⟩, ?_⟩
    rw [contents_of_le (Nat.zero_le _), hend, Nat.sub_self]
    rfl
  · refine ⟨⟨?_, hstop⟩, ?_⟩
    · dsimp only
      omega
    · exact contents_of_lt (by dsimp only; omega)

/-- The front may end behind the end of the block. -/
theorem drop_lower (h : r.Holds queue) (hlt : r.stop < r.start) (hend : r.size ≤ r.start + n)
    (hfit : n ≤ queue.length) :
    Holds { r with start := r.start + n - r.size } (queue.drop n) := by
  have hstart := h.valid.start
  have hstop := h.valid.stop
  rw [h.length_of_lt hlt] at hfit
  refine ⟨⟨?_, hstop⟩, ?_⟩
  · dsimp only
    omega
  · rw [contents_of_le (by dsimp only; omega), ← h.contents, contents_of_lt hlt, List.drop_append,
      length_cellsFrom, List.drop_eq_nil_of_le (by rw [length_cellsFrom]; omega), List.nil_append,
      drop_cellsFrom (by omega), Nat.zero_add]
    dsimp only
    congr 1 <;> omega

end Holds

/-! ### Growing -/

/-- A larger block: the cells that have been there are kept. -/
def grow (n : Nat) (fresh : Nat → β) (r : RingBuffer β) : RingBuffer β :=
  { r with cells := fun k ↦ if k < r.size then r.cells k else fresh k, size := r.size + n }

variable {fresh : Nat → β}

theorem cellsFrom_grow (h : i + m ≤ r.size) :
    cellsFrom (r.grow n fresh).cells i m = cellsFrom r.cells i m := by
  apply cellsFrom_congr
  intro k _ hk
  exact if_pos (by omega)

/-- A queue that does not go round the end is kept. -/
theorem Holds.grow_of_le {queue : List β} (h : r.Holds queue) (hle : r.start ≤ r.stop) :
    (r.grow n fresh).Holds queue := by
  have hstart := h.valid.start
  have hstop := h.valid.stop
  refine ⟨⟨?_, ?_⟩, ?_⟩
  · show r.start = 0 ∨ r.start < r.size + n
    omega
  · show r.stop = 0 ∨ r.stop < r.size + n
    omega
  · rw [← h.contents, contents_of_le hle]
    have hfit : r.start + (r.stop - r.start) ≤ r.size := by omega
    exact (if_pos hle).trans (cellsFrom_grow hfit)

/-- A larger block, in which `n` cells from the start index on have been moved up by `n`. -/
def shift (n : Nat) (fresh : Nat → β) (r : RingBuffer β) : RingBuffer β :=
  { r.grow n fresh with
    cells := overwrite (r.grow n fresh).cells (r.start + n)
      (cellsFrom (r.grow n fresh).cells r.start n)
    start := r.start + n }

/-- Only the cells that have been moved are the front of the queue; behind them is what was there
before. -/
theorem contents_shift (hlt : r.stop < r.start) (hn : r.start + n ≤ r.size) :
    (r.shift n fresh).contents = cellsFrom r.cells r.start n ++
      cellsFrom (r.grow n fresh).cells (r.start + n + n) (r.size - r.start - n) ++
        cellsFrom r.cells 0 r.stop := by
  have hupper : (r.shift n fresh).size - (r.shift n fresh).start =
      n + (r.size - r.start - n) := by
    show r.size + n - (r.start + n) = _
    omega
  have hmoved :
      cellsFrom (r.shift n fresh).cells (r.start + n) n = cellsFrom r.cells r.start n := by
    have h := cellsFrom_overwrite (r.grow n fresh).cells (r.start + n)
      (cellsFrom (r.grow n fresh).cells r.start n)
    rw [length_cellsFrom, cellsFrom_grow hn] at h
    rw [shift, cellsFrom_grow hn]
    exact h
  have hbehind : cellsFrom (r.shift n fresh).cells (r.start + n + n) (r.size - r.start - n) =
      cellsFrom (r.grow n fresh).cells (r.start + n + n) (r.size - r.start - n) :=
    cellsFrom_overwrite_of_disjoint (Or.inl (Nat.le_of_eq (by rw [length_cellsFrom])))
  have hlower : cellsFrom (r.shift n fresh).cells 0 r.stop = cellsFrom r.cells 0 r.stop := by
    rw [← @cellsFrom_grow β 0 r.stop n r fresh (by omega)]
    exact cellsFrom_overwrite_of_disjoint (Or.inr (by omega))
  rw [contents_of_lt (show r.stop < r.start + n by omega), hupper, ← cellsFrom_append]
  exact congrArg₂ (· ++ ·) (congrArg₂ (· ++ ·) hmoved hbehind) hlower

/-- A queue that goes round the end is kept if the larger block is larger by just what is in the
upper part of the queue. -/
theorem Holds.shift {queue : List β} (h : r.Holds queue) (hlt : r.stop < r.start)
    (hn : r.start + n = r.size) : (r.shift n fresh).Holds queue := by
  have hstart := h.valid.start
  refine ⟨⟨?_, ?_⟩, ?_⟩
  · show r.start + n = 0 ∨ r.start + n < r.size + n
    omega
  · show r.stop = 0 ∨ r.stop < r.size + n
    omega
  · have hnone : r.size - r.start - n = 0 := by omega
    have hupper : r.size - r.start = n := by omega
    rw [contents_shift hlt (Nat.le_of_eq hn), hnone, cellsFrom_zero, List.append_nil, ← h.contents,
      contents_of_lt hlt, hupper]

end RingBuffer

end HeartbeatSpec.Base
