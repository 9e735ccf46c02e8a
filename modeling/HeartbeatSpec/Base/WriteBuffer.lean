import Mathlib.Data.List.Basic

/-!
# Presized buffers filled through a moving pointer

Library `Base`. Storage of a fixed size whose cells start uninitialised and are written in
blocks. A write outside the storage is not defined. The buffer remembers the extent of every
write, so that a filled buffer can be shown to have been filled by adjacent writes.
-/

namespace HeartbeatSpec.Base

universe u

variable {β : Type u}

/-- Cells of fixed-size storage (`none` before the first write) and the extents written so
far, as offset and length, in order. -/
structure WriteBuffer (β : Type u) where
  cells : List (Option β)
  extents : List (Nat × Nat)

/-- Each extent starts where the one before it ended; the first starts at `start` and the
last ends at `stop`. -/
def Adjacent : Nat → List (Nat × Nat) → Nat → Prop
  | start, [], stop => start = stop
  | start, (off, len) :: rest, stop => off = start ∧ Adjacent (off + len) rest stop

/-- Adjacent extents can be continued where they end. -/
theorem Adjacent.snoc {start stop : Nat} {exts : List (Nat × Nat)}
    (h : Adjacent start exts stop) (len : Nat) :
    Adjacent start (exts ++ [(stop, len)]) (stop + len) := by
  induction exts generalizing start with
  | nil =>
    cases h
    exact ⟨rfl, rfl⟩
  | cons e rest ih => exact ⟨h.1, ih h.2⟩

namespace WriteBuffer

/-- Storage of `n` uninitialised cells. -/
def alloc (n : Nat) : WriteBuffer β := ⟨List.replicate n none, []⟩

/-- Number of cells. -/
def size (b : WriteBuffer β) : Nat := b.cells.length

/-- Copy a block to the cells from `p` on; undefined outside the storage. -/
def write (b : WriteBuffer β) (p : Nat) (bs : List β) : Option (WriteBuffer β) :=
  if p + bs.length ≤ b.size then
    some ⟨b.cells.take p ++ bs.map some ++ b.cells.drop (p + bs.length),
      b.extents ++ [(p, bs.length)]⟩
  else none

/-- All the cells, once each of them has been written. -/
def contents (b : WriteBuffer β) : Option (List β) := b.cells.mapM id

/-- Write blocks one behind the other, the first at `p`. -/
def writeAll (b : WriteBuffer β) (p : Nat) : List (List β) → Option (WriteBuffer β)
  | [] => some b
  | bs :: rest => (b.write p bs).bind fun b' ↦ b'.writeAll (p + bs.length) rest

/-- The cells up to the pointer hold `done`, by adjacent writes from the start, and `free`
cells behind it are untouched. -/
structure Filled (done : List β) (free : Nat) (b : WriteBuffer β) : Prop where
  cells_eq : b.cells = done.map some ++ List.replicate free none
  adjacent : Adjacent 0 b.extents done.length

/-- Fresh storage is filled up to its start. -/
theorem filled_alloc (n : Nat) : Filled ([] : List β) n (alloc n) :=
  ⟨rfl, rfl⟩

namespace Filled

variable {done : List β} {free : Nat} {b : WriteBuffer β}

/-- The written and the untouched cells are all the cells. -/
theorem size_eq (h : Filled done free b) : b.size = done.length + free := by
  rw [size, h.cells_eq, List.length_append, List.length_map, List.length_replicate]

/-- A block that fits is written at the pointer. -/
theorem write (h : Filled done free b) (bs : List β) (hfit : bs.length ≤ free) :
    ∃ b', b.write done.length bs = some b' ∧ Filled (done ++ bs) (free - bs.length) b' := by
  have hsize := h.size_eq
  have hlen : (done.map some).length = done.length := List.length_map some
  refine ⟨_, if_pos (by omega), ?_, ?_⟩
  · change b.cells.take done.length ++ bs.map some ++ b.cells.drop (done.length + bs.length) = _
    rw [h.cells_eq, ← hlen, List.take_left, List.drop_append,
      List.drop_of_length_le (by omega), List.nil_append, Nat.add_sub_cancel_left,
      List.drop_replicate, List.map_append]
  · rw [List.length_append]
    exact h.adjacent.snoc bs.length

/-- A block that does not fit is not written. -/
theorem write_eq_none (h : Filled done free b) {bs : List β} (hover : free < bs.length) :
    b.write done.length bs = none := by
  have hsize := h.size_eq
  exact if_neg (by omega)

/-- Blocks that fit together are all written, one behind the other. -/
theorem writeAll (h : Filled done free b) (chunks : List (List β))
    (hfit : chunks.flatten.length ≤ free) :
    ∃ b', b.writeAll done.length chunks = some b' ∧
      Filled (done ++ chunks.flatten) (free - chunks.flatten.length) b' := by
  induction chunks generalizing done free b with
  | nil => exact ⟨b, rfl, by simpa using h⟩
  | cons bs rest ih =>
    rw [List.flatten_cons, List.length_append] at hfit
    obtain ⟨b₁, hw, hb₁⟩ := h.write bs (by omega)
    obtain ⟨b₂, hr, hb₂⟩ := ih hb₁ (by omega)
    refine ⟨b₂, ?_, ?_⟩
    · rw [WriteBuffer.writeAll, hw, Option.bind_some, ← List.length_append, hr]
    · rw [List.flatten_cons, List.length_append, ← List.append_assoc, ← Nat.sub_sub]
      exact hb₂

/-- Blocks that do not fit together run out of the storage. -/
theorem writeAll_eq_none (h : Filled done free b) {chunks : List (List β)}
    (hover : free < chunks.flatten.length) : b.writeAll done.length chunks = none := by
  induction chunks generalizing done free b with
  | nil => simp at hover
  | cons bs rest ih =>
    rw [List.flatten_cons, List.length_append] at hover
    by_cases hbs : free < bs.length
    · rw [WriteBuffer.writeAll, h.write_eq_none hbs, Option.bind_none]
    · obtain ⟨b₁, hw, hb₁⟩ := h.write bs (by omega)
      rw [WriteBuffer.writeAll, hw, Option.bind_some, ← List.length_append]
      exact ih hb₁ (by omega)

/-- Once no cell is left, the buffer holds exactly what was written. -/
theorem contents_eq (h : Filled done 0 b) : b.contents = some done := by
  rw [contents, h.cells_eq, List.replicate_zero, List.append_nil]
  have key (xs : List β) : (xs.map some).mapM id = some xs := by
    induction xs with
    | nil => rfl
    | cons x xs ih => simp [ih]
  exact key done

end Filled

/-- Blocks of exactly the storage's size fill it, by adjacent writes from its first cell to
its last. -/
theorem writeAll_alloc {n : Nat} {chunks : List (List β)} (h : chunks.flatten.length = n) :
    ∃ b, (alloc n).writeAll 0 chunks = some b ∧ b.size = n ∧
      b.contents = some chunks.flatten ∧ Adjacent 0 b.extents n := by
  obtain ⟨b, hw, hb⟩ := (filled_alloc n).writeAll chunks (by omega)
  rw [List.nil_append, h, Nat.sub_self] at hb
  have hs := hb.size_eq
  have ha := hb.adjacent
  rw [h] at hs ha
  exact ⟨b, hw, hs, hb.contents_eq, ha⟩

/-- Blocks of more than the storage's size run out of it. -/
theorem writeAll_alloc_eq_none {n : Nat} {chunks : List (List β)}
    (h : n < chunks.flatten.length) : (alloc n).writeAll 0 chunks = none :=
  (filled_alloc n).writeAll_eq_none h

end WriteBuffer
end HeartbeatSpec.Base
