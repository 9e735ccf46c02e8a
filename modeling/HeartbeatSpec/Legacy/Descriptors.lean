import HeartbeatSpec.Base.Ledger
import HeartbeatSpec.Legacy.Calls

/-!
# Descriptors

Library `Legacy`. The ledger of a record: `socket` hands a descriptor to the object, and
`nu_disconnect` gives it back. `ExitInstance` gives back what is in `m_ReadSockets`,
`legacy_compatible/legacy_support.cpp:595–622`.
-/

namespace HeartbeatSpec.Legacy
open HeartbeatSpec.Base HeartbeatSpec.Thread

variable {δ : Type}

/-- What an event does to the descriptors of the object. -/
def SysEvent.ledgerEntry : SysEvent → Option (LedgerEntry Int)
  | .socket ret => if ret < 0 then none else some (.acquire ret)
  | .close sockfd => some (.release sockfd)
  | _ => none

/-- The ledger of a record. -/
def ledger (trace : List SysEvent) : List (LedgerEntry Int) := trace.filterMap SysEvent.ledgerEntry

/-- The descriptors that have been opened and not closed. -/
def openDescriptors (trace : List SysEvent) : Finset Int := heldAfter ∅ (ledger trace)

/-- The ledger of a record that goes on. -/
theorem ledger_append (es fs : List SysEvent) : ledger (es ++ fs) = ledger es ++ ledger fs :=
  List.filterMap_append

/-- One event more. -/
theorem openDescriptors_snoc (trace : List SysEvent) (ev : SysEvent) :
    openDescriptors (trace ++ [ev]) =
      (ev.ledgerEntry.map fun entry ↦ entry.post (openDescriptors trace)).getD
        (openDescriptors trace) := by
  rw [openDescriptors, ledger_append, heldAfter_append]
  cases hev : ev.ledgerEntry <;> simp [ledger, hev, heldAfter, openDescriptors]

/-- An event that is neither `socket` nor `nu_disconnect`. -/
theorem openDescriptors_snoc_of_none (trace : List SysEvent) {ev : SysEvent}
    (h : ev.ledgerEntry = none) : openDescriptors (trace ++ [ev]) = openDescriptors trace := by
  rw [openDescriptors_snoc, h]
  rfl

/-- Calls of other threads leave the ledger. -/
theorem ledger_clients (calls : List ClientCall) : ledger (calls.map .client) = [] := by
  induction calls with
  | nil => rfl
  | cons call rest ih => exact ih

/-- Closing each member of a list. -/
theorem ledger_closes (socks : List Int) : ledger (socks.map .close) = socks.map .release := by
  induction socks with
  | nil => rfl
  | cons sock rest ih => exact congrArg _ ih

/-- The object after `ExitInstance`. -/
def exited (w : World δ) : World δ :=
  { w with
    thread := { w.thread with readSockets := ∅, pollFds := .empty, eventsCount := 0 }
    trace := w.trace ++ w.thread.socketsInOrder.map .close }

/-- Descriptors are closed one after another. -/
theorem run_forM_nuDisconnect (socks : List Int) (w : World δ) :
    (socks.forM (nuDisconnect : Int → Call δ Unit)).run w =
      .ok () { w with trace := w.trace ++ socks.map .close } := by
  induction socks generalizing w with
  | nil =>
    rw [List.map_nil, List.append_nil]
    rfl
  | cons sock rest ih =>
    rw [List.map_cons, List.append_cons]
    exact ih (w.record (.close sock))

/-- `ExitInstance` closes the read sockets and empties the tables. -/
theorem run_exitInstance (w : World δ) : exitInstance.run w = .ok true (exited w) := by
  rw [exitInstance, EStateM.run_bind, EStateM.run_get]
  show EStateM.run (_ >>= _) w = _
  rw [EStateM.run_bind, run_forM_nuDisconnect]
  rfl

/-- After it the descriptors are left that are not in `m_ReadSockets`. -/
theorem openDescriptors_exited (w : World δ) :
    openDescriptors (exited w).trace = openDescriptors w.trace \ w.thread.readSockets := by
  rw [openDescriptors, exited, ledger_append, heldAfter_append, ledger_closes, heldAfter_releases,
    NetworkThread.toFinset_socketsInOrder]
  rfl

end HeartbeatSpec.Legacy
