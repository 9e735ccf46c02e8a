import HeartbeatSpec.Base.Lockstep
import HeartbeatSpec.Legacy.NetworkThread

/-!
# Network threads in lockstep

Library `Legacy`. Two objects, possibly of different subclasses, whose threads differ at most in
their state and which the environment answers alike. The event loop keeps any such relation
that survives its own changes; the handlers of a subclass enter only through one readable entry.
-/

namespace HeartbeatSpec.Legacy
open HeartbeatSpec.Base

variable {δ δ' : Type}

/-- A relation of two objects survives what the event loop and `ExitInstance` change. -/
structure LoopLockstep (R : World δ → World δ' → Prop) : Prop where
  thread : ∀ v u, R v u → u.thread = { v.thread with state := u.thread.state }
  env : ∀ v u, R v u → u.env = v.env
  next : ∀ v u, R v u → R v.next u.next
  record : ∀ ev v u, R v u → R (v.record ev) (u.record ev)
  sockets : ∀ (readSockets : Finset Int) (pollFds : PollTable) (eventsCount : Int) v u, R v u →
    R (v.withThread fun th ↦
        { th with readSockets := readSockets, pollFds := pollFds, eventsCount := eventsCount })
      (u.withThread fun th ↦
        { th with readSockets := readSockets, pollFds := pollFds, eventsCount := eventsCount })

namespace LoopLockstep

variable {R : World δ → World δ' → Prop} {ov : Overrides δ} {ov' : Overrides δ'}

theorem emit (h : LoopLockstep R) (ev : SysEvent) :
    Alike R (emit ev : Call δ Unit) (emit ev : Call δ' Unit) :=
  Alike.modify fun v u ↦ h.record ev v u

theorem consult (h : LoopLockstep R) :
    Alike R (consult : Call δ Outcome) (consult : Call δ' Outcome) := by
  apply Alike.modifyGet
  intro v u hvu
  exact ⟨congrArg (· 0) (h.env v u hvu).symm, h.next v u hvu⟩

/-- A change of the sockets that does not look at the state. -/
private theorem withThread (h : LoopLockstep R) {f : NetworkThread → NetworkThread}
    (hstate : ∀ th st, f { th with state := st } = { f th with state := st })
    (hsockets : ∀ th, f th =
      { th with
        readSockets := (f th).readSockets
        pollFds := (f th).pollFds
        eventsCount := (f th).eventsCount })
    {v : World δ} {u : World δ'} (hvu : R v u) : R (v.withThread f) (u.withThread f) := by
  have hv : v.withThread f = v.withThread fun th ↦
      { th with
        readSockets := (f v.thread).readSockets
        pollFds := (f v.thread).pollFds
        eventsCount := (f v.thread).eventsCount } :=
    congrArg (fun th ↦ { v with thread := th }) (hsockets v.thread)
  have hu : u.withThread f = u.withThread fun th ↦
      { th with
        readSockets := (f v.thread).readSockets
        pollFds := (f v.thread).pollFds
        eventsCount := (f v.thread).eventsCount } := by
    refine congrArg (fun th ↦ ({ u with thread := th } : World δ')) ?_
    rw [hsockets u.thread, h.thread v u hvu, hstate]
  rw [hv, hu]
  exact h.sockets _ _ _ v u hvu

theorem modifyThread (h : LoopLockstep R) {f : NetworkThread → NetworkThread}
    (hstate : ∀ th st, f { th with state := st } = { f th with state := st } := by
      exact fun _ _ ↦ rfl)
    (hsockets : ∀ th, f th =
      { th with
        readSockets := (f th).readSockets
        pollFds := (f th).pollFds
        eventsCount := (f th).eventsCount } := by
      exact fun _ ↦ rfl) :
    Alike R (modifyThread f : Call δ Unit) (modifyThread f : Call δ' Unit) :=
  Alike.modify fun _ _ ↦ h.withThread hstate hsockets

theorem onTable (h : LoopLockstep R) (f : PollTable → Bool × PollTable) :
    Alike R (onTable f : Call δ Bool) (onTable f : Call δ' Bool) := by
  apply Alike.modifyGet
  intro v u hvu
  constructor
  · rw [h.thread v u hvu]
  · exact h.withThread (f := fun th ↦ { th with pollFds := (f th.pollFds).2 })
      (fun _ _ ↦ rfl) (fun _ ↦ rfl) hvu

theorem fdAt (h : LoopLockstep R) (i : Nat) :
    Alike R (fdAt i : Call δ Int) (fdAt i : Call δ' Int) := by
  apply Alike.get_bind
  intro v u hvu
  rw [h.thread v u hvu]
  exact Alike.pure _

theorem addReadSocket (h : LoopLockstep R) (sockfd : Int) :
    Alike R (addReadSocket sockfd : Call δ Bool) (addReadSocket sockfd : Call δ' Bool) := by
  apply Alike.ite
  · intro _
    exact Alike.pure _
  · intro _
    exact h.modifyThread.bind fun _ ↦ Alike.pure _

/-- `ExitInstance` is alike. -/
theorem exitInstance (h : LoopLockstep R) :
    Alike R (exitInstance : Call δ Bool) (exitInstance : Call δ' Bool) := by
  apply Alike.get_bind
  intro v u hvu
  rw [h.thread v u hvu]
  refine (Alike.forM (fun sock ↦ h.emit _) _).bind fun _ ↦ ?_
  exact h.modifyThread.bind fun _ ↦ Alike.pure _

/-- The loop over the entries is alike if the handling of a readable entry is. -/
theorem processFrom (h : LoopLockstep R)
    (hentry : ∀ i v u, R v u → v.thread.pollFds.Readable i →
      AlikeAt R (processEntry ov i) (processEntry ov' i) v u) (turns i : Nat) :
    Alike R (processFrom ov turns i) (processFrom ov' turns i) := by
  induction turns generalizing i with
  | zero => exact Alike.pure _
  | succ turns ih =>
    intro v u hvu
    change AlikeAt R (if i < v.thread.pollFds.count then _ else _)
      (if i < u.thread.pollFds.count then _ else _) v u
    rw [h.thread v u hvu]
    refine AlikeAt.ite (fun _ ↦ AlikeAt.ite (fun hread ↦ ?_) fun _ ↦ ih (i + 1) v u hvu)
      fun _ ↦ Alike.pure () v u hvu
    refine (hentry i v u hvu hread).bind fun _ ↦ h.modifyThread.bind fun _ ↦ ?_
    apply Alike.get_bind
    intro v' u' hvu'
    rw [h.thread v' u' hvu']
    exact Alike.ite (fun _ ↦ Alike.pure _) fun _ ↦ ih (i + 1)

/-- Waiting is alike. -/
theorem waitNetworkEvent (h : LoopLockstep R) :
    Alike R (waitNetworkEvent : Call δ Bool) (waitNetworkEvent : Call δ' Bool) := by
  apply Alike.get_bind
  intro v u hvu
  rw [h.thread v u hvu]
  refine h.consult.bind fun o ↦ (h.emit _).bind fun _ ↦ ?_
  refine Alike.ite (fun _ ↦ Alike.ite (fun _ ↦ ?_) fun _ ↦ ?_) fun _ ↦ ?_
  · exact h.modifyThread.bind fun _ ↦ Alike.pure _
  · exact (h.emit _).bind fun _ ↦ h.modifyThread.bind fun _ ↦ Alike.pure _
  · exact h.modifyThread.bind fun _ ↦ Alike.pure _

/-- `ProcessReadEvent` is alike. -/
theorem processReadEvent (h : LoopLockstep R)
    (hentry : ∀ i v u, R v u → v.thread.pollFds.Readable i →
      AlikeAt R (processEntry ov i) (processEntry ov' i) v u) :
    Alike R (processReadEvent ov) (processReadEvent ov') :=
  (h.processFrom hentry _ _).bind fun _ ↦ Alike.pure _

/-- `Run` is alike. -/
theorem run (h : LoopLockstep R) (hothers : Alike R ov.others ov'.others)
    (hentry : ∀ i v u, R v u → v.thread.pollFds.Readable i →
      AlikeAt R (processEntry ov i) (processEntry ov' i) v u) : Alike R (run ov) (run ov') := by
  refine hothers.bind fun _ ↦ Alike.get_bind fun v u hvu ↦ ?_
  rw [h.thread v u hvu]
  refine Alike.ite (fun _ ↦ ?_) fun _ ↦ Alike.pure _
  refine h.waitNetworkEvent.bind fun b ↦ Alike.ite (fun _ ↦ ?_) fun _ ↦ Alike.pure _
  refine hothers.bind fun _ ↦ Alike.get_bind fun v' u' hvu' ↦ Alike.get_bind fun v'' u'' hvu'' ↦ ?_
  rw [h.thread v' u' hvu', h.thread v'' u'' hvu'']
  refine Alike.ite (fun _ ↦ ?_) fun _ ↦ Alike.pure _
  exact (h.processReadEvent hentry).bind fun _ ↦ Alike.pure _

end LoopLockstep
end HeartbeatSpec.Legacy
