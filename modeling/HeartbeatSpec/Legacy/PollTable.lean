import Mathlib.Data.List.Basic
import Mathlib.Logic.Function.Basic

/-!
# The poll table

Library `Legacy`. `m_PollFds` and `m_iPollFdCount` of `cihb::CNetworkThread`, poll build,
`legacy_compatible/legacy_support.h:168–170`, with the functions that register and
deregister descriptors, `legacy_compatible/legacy_support.cpp:492–572`. The array is the
function on its indices below `maxFDSize`; every access is at an index below the count.
-/

namespace HeartbeatSpec.Legacy

/-- `NU_INVALID_SOCKET`, `legacy_compatible/legacy_support.cpp:111–113`. -/
def invalidSocket : Int := -1

/-- `NETWORK_THREAD_FD_SETSIZE`, `legacy_compatible/legacy_support.cpp:410`. -/
def maxFDSize : Nat := 1024

/-- `POLLIN | POLLRDNORM | POLLRDBAND | POLLPRI`. -/
def readMask : UInt16 := 0x0001 ||| 0x0040 ||| 0x0080 ||| 0x0002

/-- `struct pollfd`. -/
structure PollFd where
  fd : Int
  events : UInt16
  revents : UInt16
  deriving DecidableEq, Repr

/-- An entry that holds no descriptor. -/
def PollFd.unused : PollFd := ⟨invalidSocket, 0, 0⟩

/-- The array with the number of its entries in use. -/
structure PollTable where
  fds : Nat → PollFd
  count : Nat
  count_le : count ≤ maxFDSize

namespace PollTable

/-- The table of a new or an exited thread,
`legacy_compatible/legacy_support.cpp:423–431,608–615`. -/
def empty : PollTable := ⟨fun _ ↦ .unused, 0, Nat.zero_le _⟩

/-- Replace one entry. -/
def setEntry (t : PollTable) (i : Nat) (e : PollFd) : PollTable :=
  { t with fds := Function.update t.fds i e }

/-- `PollFDAdd`, `legacy_compatible/legacy_support.cpp:492–511`. -/
def pollFDAdd (sockfd : Int) (t : PollTable) : Bool × PollTable :=
  if sockfd = invalidSocket then (false, t)
  else if h : t.count < maxFDSize then
    (true, ⟨Function.update t.fds t.count ⟨sockfd, readMask, 0⟩, t.count + 1, h⟩)
  else (false, t)

/-- The entry at `i` goes: the last entry takes its place, unless it is the last itself. -/
def removeAt (t : PollTable) (i : Nat) : PollTable :=
  let last := t.count - 1
  let moved := if i ≠ last then Function.update t.fds i (t.fds last) else t.fds
  ⟨Function.update moved last .unused, last, Nat.le_trans (Nat.sub_le _ _) t.count_le⟩

/-- `PollFDDelete`, `legacy_compatible/legacy_support.cpp:513–542`. -/
def pollFDDelete (sockfd : Int) (t : PollTable) : Bool × PollTable :=
  if sockfd = invalidSocket then (false, t)
  else
    match (List.range t.count).find? fun i ↦ (t.fds i).fd = sockfd with
    | some i => (true, t.removeAt i)
    | none => (false, t)

/-- `PollFDEnable` on the entry at `i`, `legacy_compatible/legacy_support.cpp:544–557`. -/
def pollFDEnable (i : Option Nat) (t : PollTable) : Bool × PollTable :=
  match i with
  | none => (false, t)
  | some i =>
    if (t.fds i).fd = invalidSocket then (false, t)
    else (true, t.setEntry i { t.fds i with events := (t.fds i).events ||| readMask })

/-- `PollFDDisable` on the entry at `i`, `legacy_compatible/legacy_support.cpp:559–572`. -/
def pollFDDisable (i : Option Nat) (t : PollTable) : Bool × PollTable :=
  match i with
  | none => (false, t)
  | some i =>
    if (t.fds i).fd = invalidSocket then (false, t)
    else (true, t.setEntry i { t.fds i with events := (t.fds i).events &&& ~~~readMask })

/-- What `poll` does to the table: it sets the returned events of the entries in use. -/
def report (revents : Nat → UInt16) (t : PollTable) : PollTable :=
  { t with fds := fun i ↦ if i < t.count then { t.fds i with revents := revents i } else t.fds i }

/-- The entry at `i` is ready to be read. -/
def Readable (t : PollTable) (i : Nat) : Prop :=
  (t.fds i).fd ≠ invalidSocket ∧ (t.fds i).revents &&& readMask ≠ 0

instance (t : PollTable) (i : Nat) : Decidable (t.Readable i) :=
  inferInstanceAs (Decidable (_ ∧ _))

/-- Clear the returned events of the entry at `i`. -/
def clearRevents (i : Nat) (t : PollTable) : PollTable :=
  t.setEntry i { t.fds i with revents := 0 }

/-- A registration succeeds if there is room. -/
theorem pollFDAdd_fst {sockfd : Int} (h : sockfd ≠ invalidSocket) (t : PollTable) :
    (pollFDAdd sockfd t).1 = decide (t.count < maxFDSize) := by
  rw [pollFDAdd, if_neg h]
  split
  · next hroom => exact (decide_eq_true hroom).symm
  · next hroom => exact (decide_eq_false hroom).symm

/-! ### A table with one descriptor -/

/-- The table holds exactly one descriptor, registered for reading. -/
structure Sole (sockfd : Int) (t : PollTable) : Prop where
  count_eq : t.count = 1
  fd_eq : (t.fds 0).fd = sockfd
  events_eq : (t.fds 0).events = readMask

/-- The first registration succeeds. -/
theorem pollFDAdd_empty {sockfd : Int} (h : sockfd ≠ invalidSocket) :
    (pollFDAdd sockfd empty).1 = true ∧ Sole sockfd (pollFDAdd sockfd empty).2 := by
  have hcount : empty.count < maxFDSize := by decide
  rw [pollFDAdd, if_neg h, dif_pos hcount]
  exact ⟨rfl, rfl, by simp [empty], by simp [empty]⟩

/-- `poll` leaves the registrations alone. -/
theorem Sole.report {sockfd : Int} {t : PollTable} (h : Sole sockfd t) (revents : Nat → UInt16) :
    Sole sockfd (t.report revents) where
  count_eq := h.count_eq
  fd_eq := by
    simp only [PollTable.report]
    split <;> exact h.fd_eq
  events_eq := by
    simp only [PollTable.report]
    split <;> exact h.events_eq

/-- The entry is ready to be read if `poll` returns one of the events it is registered for. -/
theorem Sole.readable_report {sockfd : Int} {t : PollTable} (h : Sole sockfd t)
    (hvalid : sockfd ≠ invalidSocket) {revents : Nat → UInt16} (hr : revents 0 &&& readMask ≠ 0) :
    (t.report revents).Readable 0 := by
  have hlt : 0 < t.count := h.count_eq ▸ Nat.one_pos
  constructor
  · rw [(h.report revents).fd_eq]
    exact hvalid
  · simp only [PollTable.report, if_pos hlt]
    exact hr

/-- Clearing returned events leaves the registrations alone. -/
theorem Sole.clearRevents {sockfd : Int} {t : PollTable} (h : Sole sockfd t) :
    Sole sockfd (t.clearRevents 0) where
  count_eq := h.count_eq
  fd_eq := by simp [PollTable.clearRevents, setEntry, h.fd_eq]
  events_eq := by simp [PollTable.clearRevents, setEntry, h.events_eq]

end PollTable
end HeartbeatSpec.Legacy
