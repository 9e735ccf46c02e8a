import HeartbeatSpec.Base.Runs
import HeartbeatSpec.Legacy.Responser

/-!
# Histories of a responder

Library `Legacy`. One responder with the members that start and end its runs, `m_ciThreadHandle`
and `m_semExit`, and what its owner does with it one thing after another: run it here or in a
thread that is waited for, fail to create a thread, call `EndThread` and `SetProcess` functions
in between (`legacy_compatible/legacy_support.cpp:222–339`).
-/

namespace HeartbeatSpec.Legacy
open HeartbeatSpec.Base HeartbeatSpec.Thread

/-- A responder as an object of class `CCiThread2`. -/
structure Runner where
  world : World Responser
  ciThreadHandle : Nat
  semExit : Nat

namespace Runner

/-- A constructed object, `legacy_compatible/legacy_support.cpp:245–251`. -/
def new (w : World Responser) : Runner := ⟨w, 0, 1⟩

/-- `PrepareRunning`, `legacy_compatible/legacy_support.cpp:332–339`; `none` where it waits. -/
def prepareRunning (r : Runner) : Option Runner :=
  if 0 < r.semExit then
    some { r with world := r.world.prepareRunning, semExit := r.semExit - 1 }
  else none

/-- The loop around `ThreadProc` up to `n` turns, with the `NotifyExit` that follows its end. -/
def loop (e : Endian) (n : Nat) (r : Runner) : EStateM.Result Fault Runner Bool :=
  match ((Responser.threadClass e).runLoop n).run r.world with
  | .ok true w => .ok true { r with world := w, semExit := r.semExit + 1 }
  | .ok false w => .ok false { r with world := w }
  | .error f w => .error f { r with world := w }

/-- `RunThreadHere` up to `n` turns of its loop, with its result once it has returned;
`legacy_compatible/legacy_support.cpp:292–311`. -/
def runThreadHere (e : Endian) (n : Nat) (r : Runner) :
    Option (EStateM.Result Fault Runner (Option Bool)) :=
  if r.ciThreadHandle ≠ 0 then some (.ok (some false) r)
  else
    r.prepareRunning.map fun r ↦
      match r.loop e n with
      | .ok true r => .ok (some true) r
      | .ok false r => .ok none r
      | .error f r => .error f r

/-- `CreateThread` with the id that `pthread_create` stores, if it succeeds,
`legacy_compatible/legacy_support.cpp:258–290`. -/
def createThread (id : Option Nat) (r : Runner) : Option (Bool × Runner) :=
  if r.ciThreadHandle ≠ 0 then some (false, r)
  else
    r.prepareRunning.map fun r ↦
      match id with
      | some id => (true, { r with ciThreadHandle := id })
      | none =>
        (false,
          ⟨r.world.withThread fun th ↦ { th with bExit := true }, 0, r.semExit + 1⟩)

/-- `WaitUntilExit`, `legacy_compatible/legacy_support.cpp:318–327`; `none` where it waits. -/
def waitUntilExit (r : Runner) : Option Runner :=
  if r.ciThreadHandle ≠ 0 then
    if 0 < r.semExit then some { r with ciThreadHandle := 0 } else none
  else some r

end Runner

/-- What the owner of a responder does. A run is given with the turns that its loop makes. -/
inductive HistoryStep where
  | runThreadHere (turns : Nat)
  | createThread (id turns : Nat)
  | createFails
  | clients (calls : List ClientCall)
  deriving DecidableEq, Repr

/-- The turns of a run. -/
def HistoryStep.turns : HistoryStep → Option Nat
  | runThreadHere turns => some turns
  | createThread _ turns => some turns
  | _ => none

/-- One step of a history: a run that ends, a creation that fails, or calls between runs. The
worker of `CreateThread` makes its whole run before the `WaitUntilExit` that follows returns. -/
def historyStep (e : Endian) (r : Runner) : HistoryStep → Option Runner
  | .runThreadHere turns =>
    match r.runThreadHere e turns with
    | some (.ok (some true) r') => some r'
    | _ => none
  | .createThread id turns =>
    match r.createThread (some id) with
    | some (true, r') =>
      match r'.loop e turns with
      | .ok true r'' => r''.waitUntilExit
      | _ => none
    | _ => none
  | .createFails => (r.createThread none).map Prod.snd
  | .clients calls =>
    some { r with world := clientCalls Responser.setProcessState calls r.world }

/-- Nobody runs the object. -/
structure Runner.Idle (r : Runner) : Prop where
  handle : r.ciThreadHandle = 0
  semExit : r.semExit = 1

/-- Nobody runs a constructed object. -/
theorem Runner.idle_new (w : World Responser) : (Runner.new w).Idle := ⟨rfl, rfl⟩

variable {e : Endian} {r r' : Runner}

/-- An idle object is prepared at once. -/
theorem Runner.Idle.prepareRunning_eq (h : r.Idle) :
    r.prepareRunning = some ⟨r.world.prepareRunning, 0, 0⟩ := by
  rw [Runner.prepareRunning, if_pos (by rw [h.semExit]; exact Nat.one_pos), h.handle, h.semExit]

/-- A loop that has ended is one of the thread class. -/
theorem Runner.loop_eq_ok_true {n : Nat} (h : r.loop e n = .ok true r') :
    ((Responser.threadClass e).runLoop n).run r.world = .ok true r'.world ∧
      r'.ciThreadHandle = r.ciThreadHandle ∧ r'.semExit = r.semExit + 1 := by
  unfold Runner.loop at h
  split at h
  · next hr =>
    cases h
    exact ⟨hr, rfl, rfl⟩
  · cases h
  · cases h

/-- A run in a history is a run that ends, and leaves the object idle. -/
theorem historyStep_run {l : HistoryStep} {n : Nat} (hidle : r.Idle) (hl : l.turns = some n)
    (h : historyStep e r l = some r') :
    Responser.runThreadHere e n r.world = .ok true r'.world ∧ r'.Idle := by
  cases l with
  | runThreadHere turns =>
    cases hl
    simp only [historyStep, Runner.runThreadHere, hidle.handle, ne_eq, not_true_eq_false, if_false,
      hidle.prepareRunning_eq, Option.map_some] at h
    cases hloop : Runner.loop e n ⟨r.world.prepareRunning, 0, 0⟩ with
    | error f r'' =>
      rw [hloop] at h
      cases h
    | ok ended r'' =>
      rw [hloop] at h
      cases ended with
      | false => cases h
      | true =>
        cases h
        obtain ⟨hrun, hhandle, hsem⟩ := Runner.loop_eq_ok_true hloop
        exact ⟨hrun, hhandle, hsem⟩
  | createThread id turns =>
    cases hl
    simp only [historyStep, Runner.createThread, hidle.handle, ne_eq, not_true_eq_false, if_false,
      hidle.prepareRunning_eq, Option.map_some] at h
    cases hloop : Runner.loop e n ⟨r.world.prepareRunning, id, 0⟩ with
    | error f r'' =>
      rw [hloop] at h
      cases h
    | ok ended r'' =>
      rw [hloop] at h
      cases ended with
      | false => cases h
      | true =>
        obtain ⟨hrun, hhandle, hsem⟩ := Runner.loop_eq_ok_true hloop
        have hsem' : r''.semExit = 1 := hsem
        simp only [Runner.waitUntilExit, hsem', Nat.one_pos, if_true] at h
        split at h
        · cases h
          exact ⟨hrun, rfl, rfl⟩
        · next hzero =>
          cases h
          exact ⟨hrun, not_not.mp hzero, hsem'⟩
  | createFails => cases hl
  | clients calls => cases hl

/-- Anything else in a history changes only what other threads may change, and the flag and
state that the next `PrepareRunning` sets anew. -/
theorem historyStep_other {l : HistoryStep} (hidle : r.Idle) (hl : l.turns = none)
    (h : historyStep e r l = some r') :
    ((∃ calls, r'.world = clientCalls Responser.setProcessState calls r.world) ∨
      r'.world = r.world.prepareRunning.withThread fun th ↦ { th with bExit := true }) ∧
      r'.Idle := by
  cases l with
  | runThreadHere turns => cases hl
  | createThread id turns => cases hl
  | createFails =>
    simp only [historyStep, Runner.createThread, hidle.handle, ne_eq, not_true_eq_false, if_false,
      hidle.prepareRunning_eq, Option.map_some] at h
    cases h
    exact ⟨Or.inr rfl, rfl, rfl⟩
  | clients calls =>
    cases h
    exact ⟨Or.inl ⟨calls, rfl⟩, hidle.handle, hidle.semExit⟩

end HeartbeatSpec.Legacy
