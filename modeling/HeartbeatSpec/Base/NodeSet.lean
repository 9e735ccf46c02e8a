import Mathlib.Data.List.Basic
import Mathlib.Order.Lattice

/-!
# Ordered sets with stable iterators

Library `Base`. A set is kept in ascending order, each member in a node of its own. An iterator
is a node, or past the end. Removing a member takes its node away for good and leaves every
other node where it is.
-/

namespace HeartbeatSpec.Base

universe u

variable {α : Type u}

/-- A member in its node. Nodes are told apart by `id`, also where the member is the same. -/
structure Node (α : Type u) where
  val : α
  id : Nat
  deriving DecidableEq

/-- A position in an ordered set: a node, or past the end. -/
abbrev Iterator (α : Type u) := Option (Node α)

/-- The nodes in ascending order; `next` has not been the `id` of any node yet. -/
structure NodeSet (α : Type u) [LinearOrder α] where
  nodes : List (Node α)
  next : Nat
  ascending : nodes.Pairwise fun m n ↦ m.val < n.val
  fresh : ∀ n ∈ nodes, n.id < next

namespace NodeSet

variable [LinearOrder α]

/-- No members. -/
def empty : NodeSet α := ⟨[], 0, List.Pairwise.nil, by simp⟩

/-- The members in ascending order. -/
def members (s : NodeSet α) : List α := s.nodes.map Node.val

/-- A member more, in a new node unless it has one. -/
def insert (a : α) (s : NodeSet α) : NodeSet α :=
  if h : a ∈ s.members then s
  else
    { nodes := s.nodes.filter (·.val < a) ++ ⟨a, s.next⟩ :: s.nodes.filter (a < ·.val)
      next := s.next + 1
      ascending := by
        rw [List.pairwise_append, List.pairwise_cons]
        refine ⟨s.ascending.filter _, ⟨?_, s.ascending.filter _⟩, ?_⟩
        · intro n hn
          simpa using (List.mem_filter.mp hn).2
        · intro m hm n hn
          have hma : m.val < a := by simpa using (List.mem_filter.mp hm).2
          rcases List.mem_cons.mp hn with rfl | hn
          · exact hma
          · have han : a < n.val := by simpa using (List.mem_filter.mp hn).2
            exact lt_trans hma han
      fresh := by
        intro n hn
        rcases List.mem_append.mp hn with hn | hn
        · exact Nat.lt_succ_of_lt (s.fresh n (List.mem_filter.mp hn).1)
        · rcases List.mem_cons.mp hn with rfl | hn
          · exact Nat.lt_succ_self _
          · exact Nat.lt_succ_of_lt (s.fresh n (List.mem_filter.mp hn).1) }

/-- A member less. -/
def erase (a : α) (s : NodeSet α) : NodeSet α where
  nodes := s.nodes.filter (·.val ≠ a)
  next := s.next
  ascending := s.ascending.filter _
  fresh n hn := s.fresh n (List.mem_filter.mp hn).1

/-- All members go. -/
def clear (s : NodeSet α) : NodeSet α := ⟨[], s.next, List.Pairwise.nil, by simp⟩

/-- The iterator to the first member. -/
def begin (s : NodeSet α) : Iterator α := s.nodes.head?

/-- The member at an iterator, if there is one. -/
def deref (s : NodeSet α) (it : Iterator α) : Option α :=
  match it with
  | some n => if n ∈ s.nodes then some n.val else none
  | none => none

/-- The iterator to the next member, or past the end; none where the iterator has no member. -/
def advance (s : NodeSet α) (it : Iterator α) : Option (Iterator α) :=
  match it with
  | some n => if n ∈ s.nodes then some (s.nodes.find? (n.val < ·.val)) else none
  | none => none

variable {s : NodeSet α} {n : Node α} {pre post : List (Node α)} {a : α}

theorem nodup_members (s : NodeSet α) : s.members.Nodup := by
  rw [members, List.Nodup, List.pairwise_map]
  exact s.ascending.imp ne_of_lt

theorem deref_of_mem (h : n ∈ s.nodes) : s.deref (some n) = some n.val := if_pos h

/-- From a member, the next is the first of those behind it. -/
theorem advance_of_split (h : s.nodes = pre ++ n :: post) :
    s.advance (some n) = some post.head? := by
  have hasc := s.ascending
  rw [h, List.pairwise_append, List.pairwise_cons] at hasc
  obtain ⟨-, ⟨hpost, -⟩, hpre⟩ := hasc
  have hbefore : pre.find? (n.val < ·.val) = none := by
    rw [List.find?_eq_none]
    intro m hm
    have hlt := hpre m hm n List.mem_cons_self
    simpa using le_of_lt hlt
  have hbehind : post.find? (n.val < ·.val) = post.head? := by
    cases post with
    | nil => rfl
    | cons m rest => simp [hpost m List.mem_cons_self]
  simp [advance, h, List.find?_append, hbefore, hbehind]

/-! ### Which iterators stay valid -/

/-- Removing a member takes away the node it was in, and no other. -/
theorem mem_nodes_erase : n ∈ (s.erase a).nodes ↔ n ∈ s.nodes ∧ n.val ≠ a := by
  simp [erase]

/-- An iterator to a member that has been removed cannot be advanced. -/
theorem advance_erase (n : Node α) : (s.erase n.val).advance (some n) = none := by
  have hnot : n ∉ (s.erase n.val).nodes := fun hn ↦ (mem_nodes_erase.mp hn).2 rfl
  exact if_neg hnot

end NodeSet
end HeartbeatSpec.Base
