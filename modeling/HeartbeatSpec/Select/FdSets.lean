import Mathlib.Algebra.Group.Int.Defs
import Mathlib.Data.List.Nodup
import HeartbeatSpec.Legacy.PollTable

/-!
# The socket sets

Library `Select`. `m_fdSetAllRead`, `m_fdSetRead` and `m_iMaximumSocket` of
`cihb::CNetworkThread`, select build, `legacy_compatible/legacy_support.h:159–161`, with the
functions that register and deregister descriptors,
`legacy_compatible/legacy_support.cpp:453–487`.
-/

namespace HeartbeatSpec.Select
open HeartbeatSpec.Legacy (invalidSocket)

/-- `FD_SETSIZE`, `legacy_compatible/legacy_support.h:4`. -/
def fdSetSize : Nat := 1024

/-- `(unsigned int)sockfd`, the socket of a descriptor. -/
def unsignedInt (sockfd : Int) : Int := sockfd % 2 ^ 32

/-- A non-negative `int` is its own socket. -/
theorem unsignedInt_of_nonneg {sockfd : Int} (h : 0 ≤ sockfd) (hlt : sockfd < 2 ^ 31) :
    unsignedInt sockfd = sockfd := by
  unfold unsignedInt
  omega

/-- An `fd_set`: the sockets in its array, in the order they came in, each once. -/
structure FdSet where
  fdArray : List Int
  nodup : fdArray.Nodup
  length_le : fdArray.length ≤ fdSetSize

namespace FdSet

/-- `FD_ZERO`. -/
def zero : FdSet := ⟨[], List.nodup_nil, Nat.zero_le _⟩

/-- `FD_SET`. A set without room is left as it is. -/
def set (sock : Int) (s : FdSet) : FdSet :=
  if h : sock ∉ s.fdArray ∧ s.fdArray.length < fdSetSize then
    { fdArray := s.fdArray.concat sock
      nodup := s.nodup.concat h.1
      length_le := by
        rw [List.length_concat]
        exact h.2 }
  else s

/-- `FD_CLR`. -/
def clr (sock : Int) (s : FdSet) : FdSet where
  fdArray := s.fdArray.erase sock
  nodup := s.nodup.erase sock
  length_le := Nat.le_trans List.length_erase_le s.length_le

/-- `FD_ISSET`. -/
def isSet (sock : Int) (s : FdSet) : Bool := sock ∈ s.fdArray

/-- What `select` leaves of a set: the sockets below `nfds` that are ready. Winsock does not look
at `nfds`, and leaves no fewer. -/
def select (nfds : Int) (ready : Int → Bool) (s : FdSet) : FdSet where
  fdArray := s.fdArray.filter fun sock ↦ sock < nfds && ready sock
  nodup := s.nodup.filter _
  length_le := Nat.le_trans (List.length_filter_le _ _) s.length_le

/-- Nothing but the socket is added. -/
theorem mem_set {sock fd : Int} {s : FdSet} (h : fd ∈ (s.set sock).fdArray) :
    fd = sock ∨ fd ∈ s.fdArray := by
  unfold set at h
  split at h
  · simp only [List.concat_eq_append, List.mem_append, List.mem_singleton] at h
    exact h.symm
  · exact Or.inr h

theorem mem_clr {sock fd : Int} {s : FdSet} :
    fd ∈ (s.clr sock).fdArray ↔ fd ∈ s.fdArray ∧ fd ≠ sock := by
  rw [clr, s.nodup.mem_erase_iff]
  exact and_comm

@[simp] theorem mem_select {nfds fd : Int} {ready : Int → Bool} {s : FdSet} :
    fd ∈ (s.select nfds ready).fdArray ↔ fd ∈ s.fdArray ∧ fd < nfds ∧ ready fd = true := by
  simp [select]

end FdSet

/-- The sets of registered and of readable sockets, and the estimate of the largest registered
one. -/
structure FdSets where
  fdSetAllRead : FdSet
  fdSetRead : FdSet
  maximumSocket : Int

namespace FdSets

/-- The sets of a new or an exited thread,
`legacy_compatible/legacy_support.cpp:416–420,600–604`. -/
def zero : FdSets := ⟨.zero, .zero, invalidSocket⟩

/-- `FDSetAdd`, `legacy_compatible/legacy_support.cpp:456–469`. -/
def fdSetAdd (sockfd : Int) (s : FdSets) : Bool × FdSets :=
  if sockfd = invalidSocket then (false, s)
  else
    (true, { s with
      fdSetAllRead := s.fdSetAllRead.set (unsignedInt sockfd)
      maximumSocket := if s.maximumSocket < sockfd then sockfd else s.maximumSocket })

/-- `FDSetDelete`, `legacy_compatible/legacy_support.cpp:471–487`. -/
def fdSetDelete (sockfd : Int) (s : FdSets) : Bool × FdSets :=
  if sockfd = invalidSocket then (false, s)
  else
    (true, { s with
      fdSetAllRead := s.fdSetAllRead.clr (unsignedInt sockfd)
      maximumSocket := if s.maximumSocket ≤ sockfd then sockfd - 1 else s.maximumSocket })

/-- What is registered is copied for `select`, `legacy_compatible/legacy_support.cpp:647–649`. -/
def copy (s : FdSets) : FdSets := { s with fdSetRead := s.fdSetAllRead }

/-- What `select` does to the copy, `legacy_compatible/legacy_support.cpp:651`. -/
def select (ready : Int → Bool) (s : FdSets) : FdSets :=
  { s with fdSetRead := s.fdSetRead.select (s.maximumSocket + 1) ready }

/-- A descriptor is registered as readable: `FD_ISSET` on `m_fdSetRead`, with a `SOCKET` of 32
bits. -/
def isReadable (sockfd : Int) (s : FdSets) : Bool := s.fdSetRead.isSet (unsignedInt sockfd)

end FdSets
end HeartbeatSpec.Select
