import Mathlib.Data.Finset.Basic
import Mathlib.Data.Finset.Dedup

/-!
# Ledgers of acquired and released resources

Library `Base`. What a program acquires and releases, in order. What is held at the end is
what has leaked; a ledger is balanced if only what is held is ever released.
-/

namespace HeartbeatSpec.Base

universe u

variable {α : Type u} [DecidableEq α]

/-- One entry of a ledger. -/
inductive LedgerEntry (α : Type u) where
  | acquire (a : α)
  | release (a : α)
  deriving DecidableEq

/-- What is held after one entry more. -/
def LedgerEntry.post (held : Finset α) : LedgerEntry α → Finset α
  | acquire a => insert a held
  | release a => held.erase a

/-- What is held after the entries of a ledger. -/
def heldAfter (held : Finset α) (es : List (LedgerEntry α)) : Finset α :=
  es.foldl LedgerEntry.post held

/-- Only what is held is released. -/
def Balanced : Finset α → List (LedgerEntry α) → Prop
  | _, [] => True
  | held, .acquire a :: es => Balanced (insert a held) es
  | held, .release a :: es => a ∈ held ∧ Balanced (held.erase a) es

/-- One ledger after another. -/
theorem heldAfter_append (held : Finset α) (es fs : List (LedgerEntry α)) :
    heldAfter held (es ++ fs) = heldAfter (heldAfter held es) fs :=
  List.foldl_append

/-- A ledger that goes on is balanced if both parts are. -/
theorem balanced_append {held : Finset α} {es fs : List (LedgerEntry α)} :
    Balanced held (es ++ fs) ↔ Balanced held es ∧ Balanced (heldAfter held es) fs := by
  induction es generalizing held with
  | nil => exact (and_iff_right trivial).symm
  | cons e es ih =>
    cases e with
    | acquire a => exact ih
    | release a => exact (and_congr_right' ih).trans and_assoc.symm

/-- Releasing everything in a list takes it from what is held. -/
theorem heldAfter_releases (held : Finset α) (as : List α) :
    heldAfter held (as.map .release) = held \ as.toFinset := by
  induction as generalizing held with
  | nil => simp [heldAfter]
  | cons a as ih =>
    change heldAfter (held.erase a) (as.map .release) = _
    rw [ih, List.toFinset_cons, Finset.sdiff_insert, Finset.erase_sdiff_comm]

/-- Releasing the members of a list once each is balanced if they are all held. -/
theorem balanced_releases {held : Finset α} {as : List α} (hnodup : as.Nodup) :
    Balanced held (as.map .release) ↔ ∀ a ∈ as, a ∈ held := by
  induction as generalizing held with
  | nil => simp [Balanced]
  | cons a as ih =>
    obtain ⟨hnotin, hnodup⟩ := List.nodup_cons.mp hnodup
    rw [List.forall_mem_cons]
    change a ∈ held ∧ Balanced (held.erase a) (as.map .release) ↔ _
    rw [ih hnodup]
    refine and_congr_right fun _ ↦ forall₂_congr fun b hb ↦ ?_
    have hne : b ≠ a := by
      rintro rfl
      exact hnotin hb
    rw [Finset.mem_erase, and_iff_right hne]

end HeartbeatSpec.Base
