import Mathlib.Data.Multiset.MapFold
import Mathlib.Data.Multiset.Range
import Mathlib.Logic.Function.Basic

/-!
# Slots of an array in use

Library `Base`. An array keeps its items in its first slots, in any order. What matters of it is
the multiset of these items; appending one and putting the last in the place of another are
insertion and removal there.
-/

namespace HeartbeatSpec.Base

universe u v

variable {α : Type u} {β : Type v}

/-- What the first `n` slots hold. -/
def contents (f : Nat → α) (n : Nat) : Multiset α := (Multiset.range n).map f

@[simp] theorem card_contents (f : Nat → α) (n : Nat) : (contents f n).card = n := by
  rw [contents, Multiset.card_map, Multiset.card_range]

@[simp] theorem contents_zero (f : Nat → α) : contents f 0 = 0 := rfl

/-- One slot more. -/
theorem contents_succ (f : Nat → α) (n : Nat) : contents f (n + 1) = f n ::ₘ contents f n := by
  rw [contents, Multiset.range_succ, Multiset.map_cons]
  rfl

theorem mem_contents {f : Nat → α} {n : Nat} {a : α} : a ∈ contents f n ↔ ∃ i < n, f i = a := by
  simp [contents]

/-- Only slots in use matter. -/
theorem contents_congr {f g : Nat → α} {n : Nat} (h : ∀ i < n, f i = g i) :
    contents f n = contents g n := by
  apply Multiset.map_congr rfl
  intro i hi
  exact h i (Multiset.mem_range.mp hi)

/-- A field of each item. -/
theorem map_contents (g : α → β) (f : Nat → α) (n : Nat) :
    (contents f n).map g = contents (fun i ↦ g (f i)) n :=
  Multiset.map_map g f (Multiset.range n)

/-- A slot out of use is written. -/
theorem contents_update_of_le {f : Nat → α} {i n : Nat} (h : n ≤ i) (a : α) :
    contents (Function.update f i a) n = contents f n := by
  apply contents_congr
  intro j hj
  have hne : j ≠ i := by omega
  exact Function.update_of_ne hne a f

/-- A slot in use is written. -/
theorem contents_update {f : Nat → α} {i n : Nat} (h : i < n) (a : α) :
    f i ::ₘ contents (Function.update f i a) n = a ::ₘ contents f n := by
  induction n with
  | zero => omega
  | succ n ih =>
    rw [contents_succ, contents_succ]
    by_cases hin : i = n
    · subst hin
      rw [Function.update_self, contents_update_of_le (Nat.le_refl i), Multiset.cons_swap]
    · rw [Function.update_of_ne (Ne.symm hin), Multiset.cons_swap, ih (by omega),
        Multiset.cons_swap]

/-- The last slot goes out of use, and its item takes the place of another. -/
theorem contents_swapRemove {f : Nat → α} {i n : Nat} (h : i < n + 1) :
    f i ::ₘ contents (if i ≠ n then Function.update f i (f n) else f) n = contents f (n + 1) := by
  rw [contents_succ]
  split
  · next hne => exact contents_update (by omega) (f n)
  · next heq => rw [not_not.mp heq]

/-- No item occurs twice exactly if no two slots in use hold the same. -/
theorem nodup_contents_iff {f : Nat → α} {n : Nat} :
    (contents f n).Nodup ↔ ∀ i < n, ∀ j < n, f i = f j → i = j := by
  rw [contents, Multiset.nodup_map_iff_inj_on (Multiset.nodup_range n)]
  simp only [Multiset.mem_range]

end HeartbeatSpec.Base
