import HeartbeatSpec.Legacy.Scripted
import HeartbeatSpec.Select.NetworkThread

/-!
# Iterating the sockets while they are dropped

Library `Select`. `ProcessReadEvent` walks `m_ReadSockets` with an iterator,
`legacy_compatible/legacy_support.cpp:682`, and `OnReadSocketError` erases the member that the
iterator is at, two calls down, `legacy_compatible/legacy_support.cpp:591,766`. The iterator is
then advanced unless the count of events is used up.
-/

namespace HeartbeatSpec.Select
open HeartbeatSpec.Base
open HeartbeatSpec.Legacy (Script invalidSocket)

/-! ### Iterators -/

section Iterators

variable {δ : Type} {n : Node Int}

/-- A descriptor is handled when it comes up. -/
def NetworkThread.ready (th : NetworkThread) (sockfd : Int) : Bool :=
  sockfd ≠ invalidSocket && th.fdSets.isReadable sockfd

theorem run_deref {w : World δ} (h : n ∈ w.thread.readSockets.nodes) :
    (deref (some n)).run w = .ok n.val w := by
  rw [deref, EStateM.run_bind, EStateM.run_get]
  dsimp only
  rw [NodeSet.deref_of_mem h]
  rfl

theorem run_isReadable {w : World δ} (h : n ∈ w.thread.readSockets.nodes) :
    (isReadable (some n)).run w = .ok (w.thread.ready n.val) w := by
  rw [isReadable, EStateM.run_bind, run_deref h, NetworkThread.ready]
  dsimp only
  split
  · next hvalid =>
    rw [EStateM.run_bind, run_deref h, decide_eq_true hvalid]
    rfl
  · next hinvalid =>
    rw [decide_eq_false hinvalid]
    rfl

theorem run_advance_of_split {w : World δ} {pre post : List (Node Int)}
    (h : w.thread.readSockets.nodes = pre ++ n :: post) :
    (advance (some n)).run w = .ok post.head? w := by
  rw [advance, EStateM.run_bind, EStateM.run_get]
  dsimp only
  rw [NodeSet.advance_of_split h]
  rfl

/-- The iterator to a member that is gone cannot be advanced. -/
theorem run_advance_of_erased {w : World δ} {sockets : NodeSet Int}
    (h : w.thread.readSockets = sockets.erase n.val) :
    (advance (some n)).run w = .error .invalidIterator w := by
  rw [advance, EStateM.run_bind, EStateM.run_get]
  dsimp only
  rw [h, NodeSet.advance_erase]
  rfl

end Iterators

/-! ### Handlers -/

/-- Handlers that return what is scripted, under the `OnReadSocketError` of `CNetworkThread`. The
descriptors that `ReceiveIntMessage` is called for are recorded. -/
def scripted (s : Script) : Overrides (List Int) where
  receiveIntMessage sockfd := do
    modify fun w ↦ { w with own := w.own ++ [sockfd] }
    pure (s.receiveIntMessage sockfd)
  onMessage sockfd iMessage := pure (s.onMessage sockfd iMessage)
  onReadSocketError := onReadSocketError
  others := pure ()

/-- The ready members of `m_ReadSockets`, in the order in which it is iterated. -/
def NetworkThread.readySockets (th : NetworkThread) : List Int :=
  th.readSockets.members.filter th.ready

/-- None of them comes up twice. -/
theorem NetworkThread.nodup_readySockets (th : NetworkThread) : th.readySockets.Nodup :=
  th.readSockets.nodup_members.filter _

/-- The pass returns, which it does not with an iterator whose member is gone, and it has called
`ReceiveIntMessage` once for each ready member in turn until the count of events was used up. -/
def IteratesSafely (s : Script) (w : World (List Int)) : Prop :=
  ∀ turns, w.thread.readSockets.nodes.length ≤ turns →
    ∃ w', (processReadEvent (scripted s) turns).run w = .ok true w' ∧
      w'.own = w.own ++ w.thread.readySockets.take w.thread.eventsCount.toNat

/-! ### One member -/

section Member

variable {δ : Type}

/-- The object after `DisableSocket`. -/
def disabled (sockfd : Int) (w : World δ) : World δ :=
  (w.withThread fun th ↦ { th with fdSets := (th.fdSets.fdSetDelete sockfd).2 }).record
    (.close sockfd)

/-- The object after `OnReadSocketError`. -/
def dropped (sockfd : Int) (w : World δ) : World δ :=
  (disabled sockfd w).withThread fun th ↦ { th with readSockets := th.readSockets.erase sockfd }

theorem run_disableSocket {sockfd : Int} (h : sockfd ≠ invalidSocket) (w : World δ) :
    (disableSocket sockfd).run w = .ok true (disabled sockfd w) := by
  rw [disableSocket, if_neg h]
  rfl

theorem run_onReadSocketError {sockfd : Int} (h : sockfd ≠ invalidSocket) (w : World δ) :
    (onReadSocketError sockfd).run w = .ok true (dropped sockfd w) := by
  rw [onReadSocketError, if_neg h, EStateM.run_bind, run_disableSocket h]
  dsimp only
  rw [deleteReadSocket, if_neg h]
  rfl

/-- One event less is left. -/
def counted (w : World δ) : World δ :=
  w.withThread fun th ↦ { th with eventsCount := th.eventsCount - 1 }

end Member

/-- The object after `ReceiveIntMessage`. -/
def received (sockfd : Int) (w : World (List Int)) : World (List Int) :=
  { w with own := w.own ++ [sockfd] }

/-- The object after a ready member has been handled. -/
def serviced (s : Script) (sockfd : Int) (w : World (List Int)) : World (List Int) :=
  if s.fails sockfd then dropped sockfd (received sockfd w) else received sockfd w

theorem eventsCount_serviced (s : Script) (sockfd : Int) (w : World (List Int)) :
    (serviced s sockfd w).thread.eventsCount = w.thread.eventsCount := by
  unfold serviced
  split <;> rfl

theorem own_serviced (s : Script) (sockfd : Int) (w : World (List Int)) :
    (serviced s sockfd w).own = w.own ++ [sockfd] := by
  unfold serviced
  split <;> rfl

/-- A ready member is received from, and dropped if a call for it fails. -/
theorem run_processMember (s : Script) {n : Node Int} {w : World (List Int)}
    (h : n ∈ w.thread.readSockets.nodes) (hvalid : n.val ≠ invalidSocket) :
    (processMember (scripted s) (some n)).run w = .ok () (serviced s n.val w) := by
  have hmem : n ∈ (received n.val w).thread.readSockets.nodes := h
  have hreceive : ((scripted s).receiveIntMessage n.val).run w =
      .ok (s.receiveIntMessage n.val) (received n.val w) := rfl
  have hdrop : EStateM.run (do
      let sockfd ← deref (some n)
      let _ ← onReadSocketError sockfd
      pure ()) (received n.val w) = .ok () (dropped n.val (received n.val w)) := by
    rw [EStateM.run_bind, run_deref hmem]
    dsimp only
    rw [EStateM.run_bind, run_onReadSocketError hvalid]
    rfl
  rw [processMember, EStateM.run_bind, run_deref h]
  dsimp only
  rw [EStateM.run_bind, hreceive]
  cases hrec : s.receiveIntMessage n.val with
  | none =>
    have hfails : s.fails n.val = true := by simp [Script.fails, hrec]
    rw [serviced, if_pos hfails]
    exact hdrop
  | some iMessage =>
    dsimp only
    rw [EStateM.run_bind, run_deref hmem]
    dsimp only [scripted]
    rw [EStateM.run_bind, EStateM.run_pure]
    dsimp only
    split
    · next hfalse =>
      have hfails : s.fails n.val = true := by simp [Script.fails, hrec, hfalse]
      rw [serviced, if_pos hfails]
      exact hdrop
    · next htrue =>
      have hfails : ¬s.fails n.val = true := by simpa [Script.fails, hrec] using htrue
      rw [serviced, if_neg hfails]
      rfl

/-! ### The pass -/

/-- One turn of the loop at a member. -/
theorem run_processFrom_succ {δ : Type} (ov : Overrides δ) (turns : Nat) {w : World δ}
    {n : Node Int} (h : n ∈ w.thread.readSockets.nodes) :
    (processFrom ov (turns + 1) (some n)).run w =
      if w.thread.ready n.val then
        match (processMember ov (some n)).run w with
        | .ok _ v =>
          if (counted v).thread.eventsCount ≤ 0 then .ok () (counted v)
          else (advance (some n) >>= processFrom ov turns).run (counted v)
        | .error f v => .error f v
      else (advance (some n) >>= processFrom ov turns).run w := by
  rw [processFrom, EStateM.run_bind, run_isReadable h]
  dsimp only
  split
  · rw [EStateM.run_bind]
    cases (processMember ov (some n)).run w with
    | error f v => rfl
    | ok u v =>
      dsimp only
      rw [EStateM.run_bind]
      change EStateM.run (if (counted v).thread.eventsCount ≤ 0 then _ else _) (counted v) = _
      split <;> rfl
  · rfl

/-- A member that is not ready is passed over. -/
theorem run_processFrom_skip (s : Script) (turns : Nat) {pre rest : List (Node Int)} {n : Node Int}
    {w : World (List Int)} (hnodes : w.thread.readSockets.nodes = pre ++ n :: rest)
    (hready : ¬w.thread.ready n.val = true) :
    (processFrom (scripted s) (turns + 1) (some n)).run w =
      (processFrom (scripted s) turns rest.head?).run w := by
  have hmem : n ∈ w.thread.readSockets.nodes := by simp [hnodes]
  rw [run_processFrom_succ _ _ hmem, if_neg hready, EStateM.run_bind, run_advance_of_split hnodes]

/-- A ready member is handled. With no event left the loop ends there; otherwise the iterator is
lost if the member has been dropped. -/
theorem run_processFrom_ready (s : Script) (turns k : Nat) {pre rest : List (Node Int)}
    {n : Node Int} {w : World (List Int)}
    (hnodes : w.thread.readSockets.nodes = pre ++ n :: rest) (hready : w.thread.ready n.val = true)
    (hevents : w.thread.eventsCount = k + 1) :
    (processFrom (scripted s) (turns + 1) (some n)).run w =
      if k = 0 then .ok () (counted (serviced s n.val w))
      else if s.fails n.val then .error .invalidIterator (counted (serviced s n.val w))
      else (processFrom (scripted s) turns rest.head?).run (counted (received n.val w)) := by
  have hmem : n ∈ w.thread.readSockets.nodes := by simp [hnodes]
  have hvalid : n.val ≠ invalidSocket := by
    simp only [NetworkThread.ready, Bool.and_eq_true, decide_eq_true_eq] at hready
    exact hready.1
  have hleft : (counted (serviced s n.val w)).thread.eventsCount = k := by
    have hsame := eventsCount_serviced s n.val w
    change (serviced s n.val w).thread.eventsCount - 1 = k
    omega
  rw [run_processFrom_succ _ _ hmem, if_pos hready, run_processMember s hmem hvalid]
  dsimp only
  rw [hleft]
  by_cases hk : k = 0
  · have hnone : (k : Int) ≤ 0 := by omega
    rw [if_pos hnone, if_pos hk]
  · have hsome : ¬(k : Int) ≤ 0 := by omega
    rw [if_neg hsome, if_neg hk, EStateM.run_bind]
    by_cases hfails : s.fails n.val = true
    · have herased : (counted (serviced s n.val w)).thread.readSockets =
          w.thread.readSockets.erase n.val := by
        rw [serviced, if_pos hfails]
        rfl
      rw [if_pos hfails, run_advance_of_erased herased]
    · have hkept : (counted (received n.val w)).thread.readSockets.nodes = pre ++ n :: rest :=
        hnodes
      rw [if_neg hfails, serviced, if_neg hfails, run_advance_of_split hkept]

/-- The descriptors that the loop handles among the nodes it has before it. -/
def NetworkThread.readyAmong (th : NetworkThread) (nodes : List (Node Int)) : List Int :=
  (nodes.map Node.val).filter th.ready

/-- The loop from the first of the nodes `rest` on, with `k + 1` events left: it handles that many
ready members if none of them but the last fails, and loses its iterator otherwise. -/
theorem processFrom_spec (s : Script) {pre rest : List (Node Int)} {turns k : Nat}
    {w : World (List Int)} (hnodes : w.thread.readSockets.nodes = pre ++ rest)
    (hturns : rest.length ≤ turns) (hevents : w.thread.eventsCount = k + 1) :
    ((∀ sockfd ∈ (w.thread.readyAmong rest).take k, s.fails sockfd = false) →
      ∃ w', (processFrom (scripted s) turns rest.head?).run w = .ok () w' ∧
        w'.own = w.own ++ (w.thread.readyAmong rest).take (k + 1)) ∧
    ((∃ sockfd ∈ (w.thread.readyAmong rest).take k, s.fails sockfd = true) →
      ∃ w', (processFrom (scripted s) turns rest.head?).run w = .error .invalidIterator w') := by
  induction rest generalizing pre turns k w with
  | nil =>
    constructor
    · intro _
      exact ⟨w, by cases turns <;> rfl, (List.append_nil _).symm⟩
    · rintro ⟨sockfd, hmem, -⟩
      simp [NetworkThread.readyAmong] at hmem
  | cons n rest ih =>
    obtain ⟨turns, rfl⟩ : ∃ m, turns = m + 1 := ⟨turns - 1, by simp at hturns; omega⟩
    have hlength : rest.length ≤ turns := by simpa using hturns
    have hrest : w.thread.readSockets.nodes = (pre ++ [n]) ++ rest := by simp [hnodes]
    rw [List.head?_cons]
    by_cases hready : w.thread.ready n.val = true
    · have hamong : w.thread.readyAmong (n :: rest) = n.val :: w.thread.readyAmong rest := by
        simp [NetworkThread.readyAmong, hready]
      rw [run_processFrom_ready s turns k hnodes hready hevents, hamong, List.take_succ_cons]
      cases k with
      | zero =>
        constructor
        · intro _
          exact ⟨_, rfl, own_serviced s n.val w⟩
        · rintro ⟨sockfd, hsockfd, -⟩
          cases hsockfd
      | succ k =>
        rw [if_neg (Nat.succ_ne_zero k), List.take_succ_cons, List.forall_mem_cons]
        by_cases hfails : s.fails n.val = true
        · rw [if_pos hfails]
          constructor
          · rintro ⟨hfalse, -⟩
            cases hfails.symm.trans hfalse
          · intro _
            exact ⟨_, rfl⟩
        · have hleft : (counted (received n.val w)).thread.eventsCount = k + 1 := by
            change w.thread.eventsCount - 1 = k + 1
            omega
          rw [if_neg hfails]
          obtain ⟨hsafe, hlost⟩ := ih (w := counted (received n.val w)) hrest hlength hleft
          constructor
          · rintro ⟨-, hall⟩
            obtain ⟨w', hrun, hown⟩ := hsafe hall
            refine ⟨w', hrun, ?_⟩
            rw [hown]
            exact List.append_assoc _ _ _
          · rintro ⟨sockfd, hsockfd, hsockfd_fails⟩
            rcases List.mem_cons.mp hsockfd with rfl | hsockfd
            · exact absurd hsockfd_fails hfails
            · exact hlost ⟨sockfd, hsockfd, hsockfd_fails⟩
    · have hamong : w.thread.readyAmong (n :: rest) = w.thread.readyAmong rest := by
        simp [NetworkThread.readyAmong, hready]
      rw [run_processFrom_skip s turns hnodes hready, hamong]
      exact ih hrest hlength hevents

/-- The whole pass, with `k + 1` events: it loses its iterator exactly if a ready member before
the last that counts fails. -/
theorem processReadEvent_spec (s : Script) {turns k : Nat} {w : World (List Int)}
    (hturns : w.thread.readSockets.nodes.length ≤ turns) (hevents : w.thread.eventsCount = k + 1) :
    ((∀ sockfd ∈ w.thread.readySockets.take k, s.fails sockfd = false) →
      ∃ w', (processReadEvent (scripted s) turns).run w = .ok true w' ∧
        w'.own = w.own ++ w.thread.readySockets.take (k + 1)) ∧
    ((∃ sockfd ∈ w.thread.readySockets.take k, s.fails sockfd = true) →
      ∃ w', (processReadEvent (scripted s) turns).run w = .error .invalidIterator w') := by
  have hpass := processFrom_spec s (List.nil_append w.thread.readSockets.nodes).symm hturns hevents
  rw [processReadEvent, EStateM.run_bind, EStateM.run_get]
  dsimp only
  rw [EStateM.run_bind]
  constructor
  · intro hall
    obtain ⟨w', hrun, hown⟩ := hpass.1 hall
    rw [NodeSet.begin, hrun]
    exact ⟨w', rfl, hown⟩
  · intro hfails
    obtain ⟨w', hrun⟩ := hpass.2 hfails
    rw [NodeSet.begin, hrun]
    exact ⟨w', rfl⟩

/-- `ProcessReadEvent` iterates safely exactly if no ready member fails that comes before the one
with which the count of events is used up. -/
theorem iterates_safely_iff (s : Script) {w : World (List Int)}
    (hevents : 0 < w.thread.eventsCount) :
    IteratesSafely s w ↔
      ∀ sockfd ∈ w.thread.readySockets.take (w.thread.eventsCount.toNat - 1),
        s.fails sockfd = false := by
  obtain ⟨k, hk⟩ : ∃ k : Nat, w.thread.eventsCount = k + 1 :=
    ⟨w.thread.eventsCount.toNat - 1, by omega⟩
  have htoNat : w.thread.eventsCount.toNat = k + 1 := by omega
  rw [htoNat, Nat.add_sub_cancel]
  constructor
  · intro hsafe sockfd hmem
    rw [← Bool.not_eq_true]
    intro hfails
    obtain ⟨w', hok, -⟩ := hsafe _ (Nat.le_refl _)
    obtain ⟨w'', herror⟩ := (processReadEvent_spec s (Nat.le_refl _) hk).2 ⟨sockfd, hmem, hfails⟩
    cases hok.symm.trans herror
  · intro hall turns hturns
    rw [htoNat]
    exact (processReadEvent_spec s hturns hk).1 hall

/-- Two registered descriptors, both found ready by `select`. -/
def bothReady : World (List Int) where
  thread :=
    { NetworkThread.new 1000 with
      readSockets := (NodeSet.empty.insert 3).insert 4
      fdSets := ((FdSets.zero.fdSetAdd 3).2.fdSetAdd 4).2.copy
      eventsCount := 2 }
  own := []
  env _ := ⟨0, false, fun _ ↦ false⟩
  trace := []

/-- The second may fail: with it the count of events is used up. -/
theorem iterates_safely_iff_last : IteratesSafely (Script.failing 4) bothReady :=
  (iterates_safely_iff (Script.failing 4) (by decide)).mpr (by decide)

/-- The first may not. -/
theorem iterates_erased :
    ¬∀ (s : Script) (w : World (List Int)), 0 < w.thread.eventsCount → IteratesSafely s w := by
  intro hall
  obtain ⟨w', hok, -⟩ := hall (Script.failing 3) bothReady (by decide) 2 (by decide)
  have htwo : bothReady.thread.readSockets.nodes.length ≤ 2 := by decide
  obtain ⟨w'', herror⟩ := (processReadEvent_spec (Script.failing 3) (k := 1) htwo rfl).2
    ⟨3, by decide, rfl⟩
  cases hok.symm.trans herror

end HeartbeatSpec.Select
