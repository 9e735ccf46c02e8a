import Mathlib.Data.Finset.Max
import Mathlib.Order.SuccPred.Basic

/-!
# Estimates of a maximum

Library `Base`. A bound on the members of a changing set that is kept without ever searching the
set. An addition raises the bound to the new member; a removal at or above it guesses that the
largest member left is the predecessor of the removed one. The guess may be too large, and may
even raise the bound, but it stays between the members and what has been added before.
-/

namespace HeartbeatSpec.Base

universe u

variable {α : Type u} [LinearOrder α]

/-- The bound after an addition. -/
def raise (bound a : α) : α := if bound < a then a else bound

/-- The bound after a removal. -/
def lower [PredOrder α] (bound a : α) : α := if bound ≤ a then Order.pred a else bound

/-- No member is above the bound, and the bound is not above everything that has been added; as
long as that is nothing, it is where it started. -/
structure Estimates (start : α) (members : Set α) (added : Finset α) (bound : α) : Prop where
  above : ∀ a ∈ members, a ≤ bound
  below : added = ∅ ∧ bound = start ∨ ∃ a ∈ added, bound ≤ a

namespace Estimates

variable {start bound a : α} {members members' : Set α} {added : Finset α}

/-- Nothing has been added yet. -/
theorem of_empty (start : α) (h : ∀ a, a ∉ members) : Estimates start members ∅ start where
  above a ha := absurd ha (h a)
  below := Or.inl ⟨rfl, rfl⟩

/-- The bound is at most the largest that has been added. -/
theorem le_max' (h : Estimates start members added bound) (hadded : added.Nonempty) :
    bound ≤ added.max' hadded := by
  rcases h.below with ⟨hempty, -⟩ | ⟨a, ha, hle⟩
  · exact absurd hempty hadded.ne_empty
  · exact le_trans hle (added.le_max' a ha)

/-- An addition, which may also be dropped, at or above the start. -/
theorem raise (h : Estimates start members added bound) (hstart : start ≤ a)
    (hmem : ∀ b ∈ members', b = a ∨ b ∈ members) :
    Estimates start members' (insert a added) (raise bound a) := by
  unfold Base.raise
  split
  · next hlt =>
    constructor
    · intro b hb
      rcases hmem b hb with rfl | hb
      · exact le_refl b
      · exact le_trans (h.above b hb) (le_of_lt hlt)
    · exact Or.inr ⟨a, Finset.mem_insert_self a added, le_refl a⟩
  · next hle =>
    rw [not_lt] at hle
    constructor
    · intro b hb
      rcases hmem b hb with rfl | hb
      · exact hle
      · exact h.above b hb
    · right
      rcases h.below with ⟨-, rfl⟩ | ⟨b, hb, hbound⟩
      · exact ⟨a, Finset.mem_insert_self a added, hstart⟩
      · exact ⟨b, Finset.mem_insert_of_mem hb, hbound⟩

/-- A removal of what has been added before, whether or not it is still a member. -/
theorem lower [PredOrder α] (h : Estimates start members added bound) (ha : a ∈ added)
    (hmem : ∀ b ∈ members', b ∈ members ∧ b ≠ a) :
    Estimates start members' added (lower bound a) := by
  unfold Base.lower
  split
  · next hle =>
    constructor
    · intro b hb
      obtain ⟨hb, hne⟩ := hmem b hb
      have hlt : b < a := lt_of_le_of_ne (le_trans (h.above b hb) hle) hne
      exact Order.le_pred_of_lt hlt
    · exact Or.inr ⟨a, ha, Order.pred_le a⟩
  · exact ⟨fun b hb ↦ h.above b (hmem b hb).1, h.below⟩

end Estimates
end HeartbeatSpec.Base
