import HeartbeatSpec.Base.Slots
import HeartbeatSpec.Legacy.PollTable

/-!
# Entries of the poll table

Library `Legacy`. The entries in use as a multiset, and what each function on the table does to
it, `legacy_compatible/legacy_support.cpp:492–572`. Deletion moves an entry, but as a multiset
the table only loses one.
-/

namespace HeartbeatSpec.Legacy
open HeartbeatSpec.Base

/-- A descriptor with the events it is registered for. -/
structure Registration where
  fd : Int
  events : UInt16
  deriving DecidableEq, Repr

/-- What an entry registers. -/
def PollFd.registration (e : PollFd) : Registration := ⟨e.fd, e.events⟩

namespace PollTable

variable {t : PollTable} {i : Nat} {sockfd : Int}

/-- The entries in use. -/
def entries (t : PollTable) : Multiset PollFd := contents t.fds t.count

/-- What they register. -/
def registrations (t : PollTable) : Multiset Registration := t.entries.map PollFd.registration

/-- The descriptors they hold. -/
def descriptors (t : PollTable) : Multiset Int := t.entries.map PollFd.fd

@[simp] theorem card_entries (t : PollTable) : t.entries.card = t.count := card_contents _ _

@[simp] theorem card_registrations (t : PollTable) : t.registrations.card = t.count := by
  rw [registrations, Multiset.card_map, card_entries]

@[simp] theorem entries_empty : empty.entries = 0 := rfl

theorem map_fd_registrations (t : PollTable) : t.registrations.map (·.fd) = t.descriptors :=
  Multiset.map_map _ _ t.entries

theorem mem_descriptors : sockfd ∈ t.descriptors ↔ ∃ i < t.count, (t.fds i).fd = sockfd := by
  rw [descriptors, entries, map_contents]
  exact mem_contents

/-- No descriptor has two entries. -/
theorem nodup_descriptors_iff :
    t.descriptors.Nodup ↔ ∀ i < t.count, ∀ j < t.count, (t.fds i).fd = (t.fds j).fd → i = j := by
  rw [descriptors, entries, map_contents]
  exact nodup_contents_iff

/-! ### Changes of the table -/

/-- A registration without room, or of no descriptor, fails. -/
theorem pollFDAdd_fails (h : ¬(sockfd ≠ invalidSocket ∧ t.count < maxFDSize)) :
    pollFDAdd sockfd t = (false, t) := by
  unfold pollFDAdd
  split
  · rfl
  · next hvalid => rw [dif_neg fun hroom ↦ h ⟨hvalid, hroom⟩]

/-- Any other succeeds, and adds an entry. -/
theorem pollFDAdd_succeeds (hvalid : sockfd ≠ invalidSocket) (hroom : t.count < maxFDSize) :
    pollFDAdd sockfd t =
      (true, ⟨Function.update t.fds t.count ⟨sockfd, readMask, 0⟩, t.count + 1, hroom⟩) := by
  rw [pollFDAdd, if_neg hvalid, dif_pos hroom]

theorem entries_pollFDAdd (hvalid : sockfd ≠ invalidSocket) (hroom : t.count < maxFDSize) :
    (pollFDAdd sockfd t).2.entries = ⟨sockfd, readMask, 0⟩ ::ₘ t.entries := by
  rw [pollFDAdd_succeeds hvalid hroom, entries, contents_succ]
  dsimp only
  rw [Function.update_self, contents_update_of_le (Nat.le_refl t.count)]
  rfl

theorem descriptors_pollFDAdd (hvalid : sockfd ≠ invalidSocket) (hroom : t.count < maxFDSize) :
    (pollFDAdd sockfd t).2.descriptors = sockfd ::ₘ t.descriptors := by
  rw [descriptors, entries_pollFDAdd hvalid hroom, Multiset.map_cons]
  rfl

/-- Removal takes the entry from the table, and no other. -/
theorem entries_removeAt (h : i < t.count) : t.fds i ::ₘ (t.removeAt i).entries = t.entries := by
  have hlast : t.count - 1 + 1 = t.count := by omega
  have hrest := contents_swapRemove (f := t.fds) (i := i) (n := t.count - 1) (by omega)
  rw [hlast] at hrest
  rw [entries, removeAt, contents_update_of_le (Nat.le_refl _)]
  exact hrest

/-- The descriptor of a removed entry goes, and no other. -/
theorem descriptors_removeAt (h : i < t.count) :
    (t.fds i).fd ::ₘ (t.removeAt i).descriptors = t.descriptors := by
  rw [descriptors, ← Multiset.map_cons, entries_removeAt h]
  rfl

/-- Deletion removes the first entry that holds the descriptor; without one it fails. -/
theorem pollFDDelete_cases (sockfd : Int) (t : PollTable) :
    (sockfd ≠ invalidSocket ∧ ∃ i < t.count, (t.fds i).fd = sockfd ∧
      pollFDDelete sockfd t = (true, t.removeAt i)) ∨
    ((sockfd = invalidSocket ∨ sockfd ∉ t.descriptors) ∧
      pollFDDelete sockfd t = (false, t)) := by
  unfold pollFDDelete
  split
  · next hinvalid => exact Or.inr ⟨Or.inl hinvalid, rfl⟩
  next hvalid =>
  cases hfind : (List.range t.count).find? fun i ↦ (t.fds i).fd = sockfd with
  | some i =>
    left
    have hmem := List.mem_of_find?_eq_some hfind
    have hfd := List.find?_some hfind
    exact ⟨hvalid, i, List.mem_range.mp hmem, of_decide_eq_true hfd, rfl⟩
  | none =>
    right
    refine ⟨Or.inr ?_, rfl⟩
    intro hmem
    obtain ⟨i, hi, hfd⟩ := mem_descriptors.mp hmem
    have hnone := List.find?_eq_none.mp hfind i (List.mem_range.mpr hi)
    exact hnone (decide_eq_true hfd)

/-- Deletion takes one occurrence of the descriptor. -/
theorem descriptors_pollFDDelete (h : sockfd ≠ invalidSocket) (t : PollTable) :
    (pollFDDelete sockfd t).2.descriptors = t.descriptors.erase sockfd := by
  obtain ⟨-, i, hi, hfd, heq⟩ | ⟨hnone, heq⟩ := pollFDDelete_cases sockfd t
  · rw [heq, ← descriptors_removeAt hi, hfd, Multiset.erase_cons_head]
  · rw [heq, Multiset.erase_of_notMem (hnone.resolve_left h)]

/-- Where no descriptor has two entries, the one at `i` is removed with its descriptor. -/
theorem pollFDDelete_of_nodup (hnodup : t.descriptors.Nodup) (hi : i < t.count)
    (hvalid : (t.fds i).fd ≠ invalidSocket) :
    pollFDDelete (t.fds i).fd t = (true, t.removeAt i) := by
  obtain ⟨-, j, hj, hfd, heq⟩ | ⟨hnone, -⟩ := pollFDDelete_cases (t.fds i).fd t
  · rw [heq, nodup_descriptors_iff.mp hnodup j hj i hi hfd]
  · rcases hnone with hinvalid | hnotin
    · exact absurd hinvalid hvalid
    · exact absurd (mem_descriptors.mpr ⟨i, hi, rfl⟩) hnotin

@[simp] theorem count_removeAt (t : PollTable) (i : Nat) : (t.removeAt i).count = t.count - 1 := rfl

/-- Other entries than the last stay where they are. -/
theorem fds_removeAt {j : Nat} (hi : j ≠ i) (hlast : j < t.count - 1) :
    (t.removeAt i).fds j = t.fds j := by
  unfold removeAt
  dsimp only
  rw [Function.update_of_ne (by omega)]
  split
  · exact Function.update_of_ne hi _ _
  · rfl

/-- Where no descriptor has two entries, that stays so. -/
theorem nodup_descriptors_removeAt (hnodup : t.descriptors.Nodup) (hi : i < t.count) :
    (t.removeAt i).descriptors.Nodup := by
  rw [← descriptors_removeAt hi] at hnodup
  exact (Multiset.nodup_cons.mp hnodup).2

/-- An entry in use is replaced. -/
theorem entries_setEntry (h : i < t.count) (e : PollFd) :
    t.fds i ::ₘ (t.setEntry i e).entries = e ::ₘ t.entries :=
  contents_update h e

/-- Clearing returned events leaves every descriptor where it is. -/
@[simp] theorem fd_clearRevents (t : PollTable) (i j : Nat) :
    ((t.clearRevents i).fds j).fd = (t.fds j).fd := by
  unfold clearRevents setEntry
  dsimp only
  by_cases h : j = i
  · subst h
    rw [Function.update_self]
  · rw [Function.update_of_ne h]

@[simp] theorem count_clearRevents (t : PollTable) (i : Nat) :
    (t.clearRevents i).count = t.count := rfl

/-- Other entries keep their returned events. -/
theorem fds_clearRevents {j : Nat} (h : j ≠ i) : (t.clearRevents i).fds j = t.fds j :=
  Function.update_of_ne h _ _

/-- So does `poll`. -/
@[simp] theorem fd_report (t : PollTable) (revents : Nat → UInt16) (j : Nat) :
    ((t.report revents).fds j).fd = (t.fds j).fd := by
  unfold report
  dsimp only
  split <;> rfl

@[simp] theorem descriptors_clearRevents (t : PollTable) (i : Nat) :
    (t.clearRevents i).descriptors = t.descriptors := by
  rw [descriptors, descriptors, entries, entries, map_contents, map_contents]
  exact contents_congr fun j _ ↦ fd_clearRevents t i j

@[simp] theorem descriptors_report (t : PollTable) (revents : Nat → UInt16) :
    (t.report revents).descriptors = t.descriptors := by
  rw [descriptors, descriptors, entries, entries, map_contents, map_contents]
  exact contents_congr fun j _ ↦ fd_report t revents j

/-! ### Well-formed tables -/

/-- Entries in use hold a descriptor, and the others are unused. -/
structure WellFormed (t : PollTable) : Prop where
  live : ∀ i < t.count, (t.fds i).fd ≠ invalidSocket
  unused : ∀ i, t.count ≤ i → t.fds i = .unused

/-- The table of a new thread. -/
theorem wellFormed_empty : WellFormed empty where
  live i hi := by
    cases hi
  unused _ _ := rfl

/-- Registration keeps the table well-formed. -/
theorem WellFormed.pollFDAdd (h : t.WellFormed) (sockfd : Int) :
    (pollFDAdd sockfd t).2.WellFormed := by
  by_cases hadd : sockfd ≠ invalidSocket ∧ t.count < maxFDSize
  · rw [pollFDAdd_succeeds hadd.1 hadd.2]
    constructor
    · intro i hi
      dsimp only at hi ⊢
      by_cases hi' : i = t.count
      · subst hi'
        rw [Function.update_self]
        exact hadd.1
      · rw [Function.update_of_ne hi']
        apply h.live
        omega
    · intro i hi
      dsimp only at hi ⊢
      rw [Function.update_of_ne (by omega)]
      apply h.unused
      omega
  · rw [pollFDAdd_fails hadd]
    exact h

/-- So does removal. -/
theorem WellFormed.removeAt (h : t.WellFormed) (hi : i < t.count) :
    (t.removeAt i).WellFormed := by
  constructor
  · intro j hj
    have hmem : ((t.removeAt i).fds j).fd ∈ t.descriptors := by
      rw [← descriptors_removeAt hi]
      exact Multiset.mem_cons_of_mem (mem_descriptors.mpr ⟨j, hj, rfl⟩)
    obtain ⟨k, hk, hfd⟩ := mem_descriptors.mp hmem
    rw [← hfd]
    exact h.live k hk
  · intro j hj
    change t.count - 1 ≤ j at hj
    unfold PollTable.removeAt
    dsimp only
    by_cases hlast : j = t.count - 1
    · rw [hlast, Function.update_self]
    · rw [Function.update_of_ne hlast]
      have hne : j ≠ i := by omega
      split
      · rw [Function.update_of_ne hne]
        exact h.unused j (by omega)
      · exact h.unused j (by omega)

/-- So does a new mask. -/
theorem WellFormed.setEvents (h : t.WellFormed) (hi : i < t.count) (events : UInt16) :
    (t.setEntry i { t.fds i with events := events }).WellFormed := by
  constructor
  · intro j hj
    unfold setEntry
    dsimp only
    by_cases hji : j = i
    · subst hji
      rw [Function.update_self]
      exact h.live j hj
    · rw [Function.update_of_ne hji]
      exact h.live j hj
  · intro j hj
    have hji : j ≠ i := by
      change t.count ≤ j at hj
      omega
    exact (Function.update_of_ne hji _ _).trans (h.unused j hj)

end PollTable

/-! ### One entry handled -/

/-- The table after an entry has been handled: it has been dropped, or only cleared. -/
def Settled (t : PollTable) (i : Nat) (t' : PollTable) : Prop :=
  t' = t.clearRevents i ∨ t' = (t.clearRevents i).removeAt i

namespace Settled

variable {t t' : PollTable} {i : Nat}

theorem count_le (h : Settled t i t') : t'.count ≤ t.count := by
  rcases h with rfl | rfl
  · exact Nat.le_refl _
  · exact Nat.sub_le _ _

/-- The entries behind stay where they are. -/
theorem fds (h : Settled t i t') {j : Nat} (hj : i < j) (hlt : j < t'.count) :
    t'.fds j = t.fds j := by
  have hji : j ≠ i := by omega
  rcases h with rfl | rfl
  · exact PollTable.fds_clearRevents hji
  · rw [PollTable.fds_removeAt hji hlt, PollTable.fds_clearRevents hji]

theorem nodup (h : Settled t i t') (hnodup : t.descriptors.Nodup) (hi : i < t.count) :
    t'.descriptors.Nodup := by
  have hcleared : (t.clearRevents i).descriptors.Nodup := by
    rw [PollTable.descriptors_clearRevents]
    exact hnodup
  rcases h with rfl | rfl
  · exact hcleared
  · exact PollTable.nodup_descriptors_removeAt hcleared hi

end Settled

end HeartbeatSpec.Legacy
