import Mathlib.Logic.Function.Basic
import Mathlib.Data.List.Induction

/-!
# Chains of doubly linked cells

Library `Base`. Cells live at addresses, a pointer is an address or null. A chain is described by
the entries that it holds, each an address with the item that is kept there. Chains come apart and
together at their seams, and a change of one end is all that either needs.
-/

namespace HeartbeatSpec.Base

universe u v

/-- A cell, linked in both directions. -/
structure Cell (ι : Type u) (α : Type v) where
  previous : Option ι
  next : Option ι
  item : α

/-- The allocated cells. -/
abbrev Cells (ι : Type u) (α : Type v) := ι → Option (Cell ι α)

/-- An item with the address of its cell. -/
abbrev Entry (ι : Type u) (α : Type v) := ι × α

variable {ι : Type u} {α : Type v} {h h' : Cells ι α} {before after : Option ι}
  {es es' : List (Entry ι α)} {e : Entry ι α}

/-- The address of the first entry, or of what follows it. -/
def firstOr (after : Option ι) : List (Entry ι α) → Option ι
  | [] => after
  | e :: _ => some e.1

/-- The address of the last entry, or of what precedes it. -/
def lastOr (before : Option ι) : List (Entry ι α) → Option ι
  | [] => before
  | e :: es => lastOr (some e.1) es

/-- The addresses of entries. -/
def addresses (es : List (Entry ι α)) : List ι := es.map Prod.fst

@[simp] theorem addresses_nil : addresses ([] : List (Entry ι α)) = [] := rfl

@[simp] theorem addresses_cons : addresses (e :: es) = e.1 :: addresses es := rfl

@[simp] theorem addresses_append : addresses (es ++ es') = addresses es ++ addresses es' :=
  List.map_append

@[simp] theorem firstOr_append : firstOr after (es ++ es') = firstOr (firstOr after es') es := by
  cases es <;> rfl

@[simp] theorem lastOr_append : lastOr before (es ++ es') = lastOr (lastOr before es) es' := by
  induction es generalizing before with
  | nil => rfl
  | cons e es ih => exact ih

/-- The cells of the entries hold their items and are linked to one another, to `before` and to
`after`. -/
def Linked (h : Cells ι α) (before after : Option ι) : List (Entry ι α) → Prop
  | [] => True
  | e :: es => h e.1 = some ⟨before, firstOr after es, e.2⟩ ∧ Linked h (some e.1) after es

@[simp] theorem linked_nil : Linked h before after [] := trivial

@[simp] theorem linked_cons : Linked h before after (e :: es) ↔
    h e.1 = some ⟨before, firstOr after es, e.2⟩ ∧ Linked h (some e.1) after es := Iff.rfl

/-- Two chains that meet are one. -/
theorem linked_append : Linked h before after (es ++ es') ↔
    Linked h before (firstOr after es') es ∧ Linked h (lastOr before es) after es' := by
  induction es generalizing before with
  | nil => simp [lastOr]
  | cons e es ih => simp [ih, lastOr, and_assoc]

/-- A chain depends on its own cells only. -/
theorem Linked.congr (hl : Linked h before after es) (heq : ∀ p ∈ addresses es, h' p = h p) :
    Linked h' before after es := by
  induction es generalizing before with
  | nil => trivial
  | cons e es ih =>
    obtain ⟨hcell, hrest⟩ := hl
    constructor
    · rw [heq e.1 (by simp)]
      exact hcell
    · exact ih hrest fun p hp ↦ heq p (List.mem_cons_of_mem _ hp)

/-- The cell of an entry in the middle. -/
theorem Linked.cell (hl : Linked h before after (es ++ e :: es')) :
    h e.1 = some ⟨lastOr before es, firstOr after es', e.2⟩ :=
  (linked_append.mp hl).2.1

section Update

variable [DecidableEq ι]

/-- Another cell is changed. -/
theorem Linked.update_of_notMem (hl : Linked h before after es) {p : ι} (hp : p ∉ addresses es)
    (c : Option (Cell ι α)) : Linked (Function.update h p c) before after es := by
  apply hl.congr
  intro q hq
  have hne : q ≠ p := by
    rintro rfl
    exact hp hq
  exact Function.update_of_ne hne c h

/-- What follows the last entry is changed. -/
theorem Linked.retarget_next (hl : Linked h before after (es ++ [e])) (hnew : e.1 ∉ addresses es)
    (after' : Option ι) :
    Linked (Function.update h e.1 (some ⟨lastOr before es, after', e.2⟩)) before after'
      (es ++ [e]) := by
  obtain ⟨hfront, -⟩ := linked_append.mp hl
  rw [linked_append]
  constructor
  · exact hfront.update_of_notMem hnew _
  · exact ⟨Function.update_self .., trivial⟩

/-- What precedes the first entry is changed. -/
theorem Linked.retarget_previous (hl : Linked h before after (e :: es))
    (hnew : e.1 ∉ addresses es) (before' : Option ι) :
    Linked (Function.update h e.1 (some ⟨before', firstOr after es, e.2⟩)) before' after
      (e :: es) := by
  constructor
  · exact Function.update_self ..
  · exact hl.2.update_of_notMem hnew _

/-- The item of an entry is changed. -/
theorem Linked.set_item (hl : Linked h before after (es ++ e :: es'))
    (hfront : e.1 ∉ addresses es) (hback : e.1 ∉ addresses es') (x : α) :
    Linked (Function.update h e.1 (some ⟨lastOr before es, firstOr after es', x⟩)) before after
      (es ++ (e.1, x) :: es') := by
  obtain ⟨hbefore, -, hafter⟩ := linked_append.mp hl
  rw [linked_append]
  refine ⟨hbefore.update_of_notMem hfront _, ?_, hafter.update_of_notMem hback _⟩
  exact Function.update_self ..

end Update

/-! ### Walking along a chain -/

/-- The entries met when the cells are followed from `p` on, at most `n`. -/
def walk (h : Cells ι α) : Nat → Option ι → List (Entry ι α)
  | n + 1, some p =>
    match h p with
    | some c => (p, c.item) :: walk h n c.next
    | none => []
  | _, _ => []

@[simp] theorem walk_none (n : Nat) : walk h n none = [] := by
  cases n <;> rfl

/-- A chain is walked from its first entry to its last. -/
theorem Linked.walk_eq (hl : Linked h before none es) {n : Nat} (hn : es.length ≤ n) :
    walk h n (firstOr none es) = es := by
  induction es generalizing before n with
  | nil => exact walk_none n
  | cons e es ih =>
    obtain ⟨hcell, hrest⟩ := hl
    cases n with
    | zero => cases hn
    | succ n =>
      rw [firstOr, walk, hcell]
      dsimp only
      rw [ih hrest (Nat.le_of_succ_le_succ hn)]

end HeartbeatSpec.Base
