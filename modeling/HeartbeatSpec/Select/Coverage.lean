import Mathlib.Data.Int.SuccPred
import HeartbeatSpec.Base.Estimate
import HeartbeatSpec.Base.Runs
import HeartbeatSpec.Select.NetworkThread

/-!
# What `select` looks at

Library `Select`. `m_iMaximumSocket` is the first argument of `select` but for one, and is kept
without a search: `FDSetDelete` guesses it, `legacy_compatible/legacy_support.cpp:479–484`. The
guess stays between the registered descriptors and those added since the last reset, so that
`select` looks at every registered one.
-/

namespace HeartbeatSpec.Select
open HeartbeatSpec.Base
open HeartbeatSpec.Legacy (invalidSocket)

variable {δ : Type}

/-- What is done with the socket sets. -/
inductive SetCall where
  | fdSetAdd (sockfd : Int)
  | fdSetDelete (sockfd : Int)
  | exitInstance
  deriving DecidableEq, Repr

namespace SetCall

/-- The member function that is called. -/
def call : SetCall → Call δ Bool
  | fdSetAdd sockfd => onSets (FdSets.fdSetAdd sockfd)
  | fdSetDelete sockfd => onSets (FdSets.fdSetDelete sockfd)
  | exitInstance => Select.exitInstance

/-- A descriptor is an `int` that is not negative; what is deleted has been added since the last
reset, and may have been deleted again. -/
def Allowed (added : Finset Int) : SetCall → Prop
  | fdSetAdd sockfd => 0 ≤ sockfd ∧ sockfd < 2 ^ 31
  | fdSetDelete sockfd => sockfd ∈ added
  | exitInstance => True

instance (added : Finset Int) : (l : SetCall) → Decidable (l.Allowed added)
  | fdSetAdd _ => inferInstanceAs (Decidable (_ ∧ _))
  | fdSetDelete sockfd => inferInstanceAs (Decidable (sockfd ∈ added))
  | exitInstance => inferInstanceAs (Decidable True)

/-- The descriptors added since the last reset, one call later. -/
def addedAfter (added : Finset Int) : SetCall → Finset Int
  | fdSetAdd sockfd => insert sockfd added
  | fdSetDelete _ => added
  | exitInstance => ∅

end SetCall

/-- A network thread with the descriptors added since the last reset. -/
structure Registrar (δ : Type) where
  world : World δ
  added : Finset Int

/-- One call. -/
def setStep (r : Registrar δ) (l : SetCall) : Option (Registrar δ) :=
  if l.Allowed r.added then
    match l.call.run r.world with
    | .ok _ w => some ⟨w, l.addedAfter r.added⟩
    | .error _ _ => none
  else none

/-! ### The estimate -/

/-- `m_iMaximumSocket` bounds what is registered, and is bounded by what has been added. -/
def FdSets.Estimated (added : Finset Int) (s : FdSets) : Prop :=
  Estimates invalidSocket {fd | fd ∈ s.fdSetAllRead.fdArray} added s.maximumSocket

namespace FdSets.Estimated

variable {added : Finset Int} {s : FdSets} {sockfd : Int}

theorem zero : FdSets.zero.Estimated ∅ := Estimates.of_empty _ fun _ ↦ List.not_mem_nil

theorem fdSetAdd (h : s.Estimated added) (hnonneg : 0 ≤ sockfd) (hlt : sockfd < 2 ^ 31) :
    (s.fdSetAdd sockfd).2.Estimated (insert sockfd added) := by
  have hvalid : invalidSocket < sockfd := by
    unfold invalidSocket
    omega
  rw [FdSets.fdSetAdd, if_neg (ne_of_gt hvalid)]
  refine Estimates.raise h (le_of_lt hvalid) fun fd hfd ↦ ?_
  have hmem := FdSet.mem_set hfd
  rwa [unsignedInt_of_nonneg hnonneg hlt] at hmem

theorem fdSetDelete (h : s.Estimated added) (hadded : sockfd ∈ added) (hnonneg : 0 ≤ sockfd)
    (hlt : sockfd < 2 ^ 31) : (s.fdSetDelete sockfd).2.Estimated added := by
  have hvalid : sockfd ≠ invalidSocket := by
    unfold invalidSocket
    omega
  have hmem (fd : Int) (hfd : fd ∈ (s.fdSetAllRead.clr (unsignedInt sockfd)).fdArray) :
      fd ∈ s.fdSetAllRead.fdArray ∧ fd ≠ sockfd := by
    rw [FdSet.mem_clr, unsignedInt_of_nonneg hnonneg hlt] at hfd
    exact hfd
  have hlower := Estimates.lower h hadded hmem
  rw [Base.lower, Order.pred_eq_sub_one] at hlower
  rw [FdSets.fdSetDelete, if_neg hvalid]
  exact hlower

end FdSets.Estimated

/-- The estimate, for descriptors that are not negative. -/
structure Covered (r : Registrar δ) : Prop where
  range : ∀ sockfd ∈ r.added, 0 ≤ sockfd ∧ sockfd < 2 ^ 31
  estimated : r.world.thread.fdSets.Estimated r.added

/-- `ExitInstance` returns, with the sets as they are in a new thread. -/
theorem contract_exitInstance :
    Contract (fun _ ↦ True) (exitInstance : Call δ Bool)
      (fun b w ↦ b = true ∧ w.thread.fdSets = .zero) fun _ _ ↦ False := by
  refine Contract.get_bind fun w _ ↦ ?_
  have hclose : Keeps (fun _ ↦ True) (fun _ _ ↦ False)
      (w.thread.readSockets.members.forM (nuDisconnect : Int → Call δ Unit)) :=
    Keeps.forM (fun sockfd ↦ Keeps.modify (f := World.record (.close sockfd)) fun _ h ↦ h) _
  refine Contract.bind (Contract.mono hclose (fun _ _ ↦ trivial) (fun _ _ h ↦ h) fun _ _ h ↦ h)
    fun _ ↦ ?_
  refine Contract.bind (Q := fun _ v ↦ v.thread.fdSets = .zero) (Contract.modify fun _ _ ↦ rfl)
    fun _ ↦ ?_
  exact Contract.pure fun _ h ↦ ⟨rfl, h⟩

/-- Every call keeps the estimate. -/
theorem covered_step {r r' : Registrar δ} {l : SetCall} (h : Covered r)
    (hstep : setStep r l = some r') : Covered r' := by
  unfold setStep at hstep
  split at hstep
  · next hallowed =>
    cases l with
    | fdSetAdd sockfd =>
      cases hstep
      constructor
      · intro fd hfd
        rcases Finset.mem_insert.mp hfd with rfl | hfd
        · exact hallowed
        · exact h.range fd hfd
      · exact h.estimated.fdSetAdd hallowed.1 hallowed.2
    | fdSetDelete sockfd =>
      cases hstep
      obtain ⟨hnonneg, hlt⟩ := h.range sockfd hallowed
      exact ⟨h.range, h.estimated.fdSetDelete hallowed hnonneg hlt⟩
    | exitInstance =>
      have hexit := contract_exitInstance r.world trivial
      change (match exitInstance.run r.world with
        | .ok _ w => some ⟨w, ∅⟩
        | .error _ _ => none) = some r' at hstep
      cases hrun : exitInstance.run r.world with
      | error f w =>
        rw [hrun] at hexit
        exact hexit.elim
      | ok b w =>
        rw [hrun] at hexit hstep
        cases hstep
        constructor
        · intro fd hfd
          cases hfd
        · change w.thread.fdSets.Estimated ∅
          rw [hexit.2]
          exact FdSets.Estimated.zero
  · cases hstep

/-! ### What is reported -/

/-- Where the estimate bounds the registered sockets, `select` reports every one that is ready. -/
theorem mem_waitNetworkEvent {w : World δ} (hret : 0 ≤ (w.env 0).ret)
    (hbound : ∀ fd ∈ w.thread.fdSets.fdSetAllRead.fdArray, fd ≤ w.thread.fdSets.maximumSocket) :
    ∃ w', waitNetworkEvent.run w = .ok true w' ∧
      ∀ fd ∈ w.thread.fdSets.fdSetAllRead.fdArray, (w.env 0).ready fd = true →
        fd ∈ w'.thread.fdSets.fdSetRead.fdArray := by
  have hreturns : ¬(w.env 0).ret < 0 := by omega
  simp only [waitNetworkEvent, EStateM.run_bind, run_modifyThread, EStateM.run_get, run_consult,
    run_emit]
  have henv : (w.withThread fun th ↦ { th with fdSets := th.fdSets.copy }).env 0 = w.env 0 := rfl
  rw [henv, if_neg hreturns]
  refine ⟨_, rfl, fun fd hfd hready ↦ ?_⟩
  have hle := hbound fd hfd
  apply FdSet.mem_select.mpr
  exact ⟨hfd, Int.lt_add_one_of_le hle, hready⟩

/-- From a new thread, whatever is added, deleted and reset: every registered descriptor is at
most `m_iMaximumSocket`, which is at most the largest descriptor added since the last reset, and
`select` leaves no registered descriptor out. -/
theorem select_covers {r r' : Registrar δ} {tr : List (Transition (Registrar δ) SetCall)}
    {timeoutMillisec : Int} (hnew : r.world.thread = .new timeoutMillisec) (hadded : r.added = ∅)
    (h : Runs setStep r tr r') :
    (∀ fd ∈ r'.world.thread.fdSets.fdSetAllRead.fdArray,
      fd ≤ r'.world.thread.fdSets.maximumSocket) ∧
    (∀ hne : r'.added.Nonempty, r'.world.thread.fdSets.maximumSocket ≤ r'.added.max' hne) ∧
    (0 ≤ (r'.world.env 0).ret → ∃ w', waitNetworkEvent.run r'.world = .ok true w' ∧
      ∀ fd ∈ r'.world.thread.fdSets.fdSetAllRead.fdArray, (r'.world.env 0).ready fd = true →
        fd ∈ w'.thread.fdSets.fdSetRead.fdArray) := by
  have hstart : Covered r := by
    constructor
    · rw [hadded]
      intro fd hfd
      cases hfd
    · rw [hnew, hadded]
      exact FdSets.Estimated.zero
  obtain ⟨hcovered, -⟩ := h.invariant (fun _ _ _ hr hstep ↦ covered_step hr hstep) hstart
  refine ⟨hcovered.estimated.above, hcovered.estimated.le_max', fun hret ↦ ?_⟩
  exact mem_waitNetworkEvent hret hcovered.estimated.above

/-- A registrar that nothing has been added to, where every socket is always ready. -/
def newRegistrar : Registrar Unit := ⟨⟨.new 1000, (), fun _ ↦ ⟨1, false, fun _ ↦ true⟩, []⟩, ∅⟩

/-- The largest descriptor is deleted twice. -/
def guessedCalls : List SetCall :=
  [.fdSetAdd 5, .fdSetAdd 9, .fdSetDelete 9, .fdSetDelete 9, .fdSetAdd 7, .fdSetDelete 5]

/-- The guess is above the one descriptor left, and below the deleted one. -/
theorem select_covers_guessed :
    ∃ r', Runs setStep newRegistrar (trace setStep newRegistrar guessedCalls) r' ∧
      (r'.world.thread.fdSets.fdSetAllRead.fdArray, r'.world.thread.fdSets.maximumSocket) =
        ([7], 8) ∧
      (∀ fd ∈ r'.world.thread.fdSets.fdSetAllRead.fdArray,
        fd ≤ r'.world.thread.fdSets.maximumSocket) ∧
      ∀ hne : r'.added.Nonempty, r'.world.thread.fdSets.maximumSocket ≤ r'.added.max' hne := by
  obtain ⟨r', hr', hguess⟩ : ∃ r', exec setStep newRegistrar guessedCalls = some r' ∧
      (r'.world.thread.fdSets.fdSetAllRead.fdArray, r'.world.thread.fdSets.maximumSocket) =
        ([7], 8) :=
    Option.map_eq_some_iff.mp (by decide +kernel)
  have hruns := Runs.of_exec hr'
  have hcovers := select_covers rfl rfl hruns
  exact ⟨r', hruns, hguess, hcovers.1, hcovers.2.1⟩

end HeartbeatSpec.Select
