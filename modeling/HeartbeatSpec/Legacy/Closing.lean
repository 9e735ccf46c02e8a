import HeartbeatSpec.Base.Runs
import HeartbeatSpec.Legacy.Descriptors
import HeartbeatSpec.Legacy.Scripted

/-!
# Closing each descriptor once

Library `Legacy`. A network thread closes descriptors in `DisableSocket`, in `OnReadSocketError`
through it, in `ExitInstance` and in its destructor. `DisableSocket` leaves the closed descriptor
in `m_ReadSockets`, `legacy_compatible/legacy_support.cpp:740–757`, where nothing marks it as
closed.
-/

namespace HeartbeatSpec.Legacy
open HeartbeatSpec.Base

variable {δ : Type}

/-- What is done with a network thread. `register` is `AddReadSocket` and `PollFDAdd` for a
descriptor just obtained, and `processReadEvent` comes with what `poll` has reported. -/
inductive CloseStep where
  | register (sockfd : Int)
  | disableSocket (sockfd : Int)
  | onReadSocketError (sockfd : Int)
  | processReadEvent (s : Script) (revents : Nat → UInt16) (eventsCount : Int)
  | exitInstance
  | destructor

/-- `CNetworkThread::~CNetworkThread`, `legacy_compatible/legacy_support.cpp:438–441`. -/
def destructor : Call δ Unit := do
  (← get).thread.socketsInOrder.forM nuDisconnect

namespace CloseStep

/-- The calls of a step. -/
def call : CloseStep → Call δ Unit
  | register sockfd => do
    emit (.socket sockfd)
    let _ ← addReadSocket sockfd
    let _ ← onTable (PollTable.pollFDAdd sockfd)
  | disableSocket sockfd => do
    let _ ← Legacy.disableSocket sockfd
  | onReadSocketError sockfd => do
    let _ ← Legacy.onReadSocketError sockfd
  | processReadEvent s revents eventsCount => do
    modifyThread fun th ↦
      { th with pollFds := th.pollFds.report revents, eventsCount := eventsCount }
    let _ ← Legacy.processReadEvent (scripted s)
  | exitInstance => do
    let _ ← Legacy.exitInstance
  | destructor => Legacy.destructor

/-- The operating system hands out only descriptors that are not open, and a registered
descriptor is given to `DisableSocket` or `OnReadSocketError` only while it is open. -/
def Allowed (w : World δ) : CloseStep → Prop
  | register sockfd => 0 ≤ sockfd ∧ sockfd ∉ openDescriptors w.trace
  | disableSocket sockfd | onReadSocketError sockfd => sockfd ∈ openDescriptors w.trace
  | _ => True

instance (w : World δ) : (l : CloseStep) → Decidable (l.Allowed w)
  | register _ => inferInstanceAs (Decidable (_ ∧ _))
  | disableSocket sockfd | onReadSocketError sockfd =>
    inferInstanceAs (Decidable (sockfd ∈ openDescriptors w.trace))
  | processReadEvent _ _ _ | exitInstance | destructor => inferInstanceAs (Decidable True)

/-- The descriptors given to `DisableSocket` since the last `ExitInstance` and not registered
anew, one step later. -/
def disabledAfter (disabled : Finset Int) : CloseStep → Finset Int
  | register sockfd => disabled.erase sockfd
  | disableSocket sockfd => insert sockfd disabled
  | exitInstance => ∅
  | _ => disabled

/-- The step closes everything in `m_ReadSockets`. -/
def closesAll : CloseStep → Bool
  | exitInstance | destructor => true
  | _ => false

/-- The step ends the object. -/
def destroys : CloseStep → Bool
  | destructor => true
  | _ => false

end CloseStep

/-- A network thread with what has been disabled in it, and whether it is gone. -/
structure Holder (δ : Type) where
  world : World δ
  disabled : Finset Int
  destroyed : Bool

/-- An object that holds nothing yet. -/
def Holder.new (timeoutMillisec : Int) (own : δ) (env : Nat → Outcome) : Holder δ :=
  ⟨⟨.new timeoutMillisec, own, env, []⟩, ∅, false⟩

/-- One step. -/
def closeStep (h : Holder δ) (l : CloseStep) : Option (Holder δ) :=
  if h.destroyed = false ∧ l.Allowed h.world then
    match l.call.run h.world with
    | .ok _ w => some ⟨w, l.disabledAfter h.disabled, l.destroys⟩
    | .error _ _ => none
  else none

/-! ### What the steps do -/

/-- The object after a descriptor has been obtained and registered. -/
def registered (sockfd : Int) (w : World δ) : World δ :=
  (w.record (.socket sockfd)).withThread fun th ↦
    { th with
      readSockets := insert sockfd th.readSockets
      pollFds := (th.pollFds.pollFDAdd sockfd).2 }

/-- The object after its destructor. -/
def destructed (w : World δ) : World δ :=
  { w with trace := w.trace ++ w.thread.socketsInOrder.map .close }

theorem run_register {sockfd : Int} (h : sockfd ≠ invalidSocket) (w : World δ) :
    (CloseStep.register sockfd).call.run w = .ok () (registered sockfd w) := by
  rw [CloseStep.call, EStateM.run_bind, run_emit]
  dsimp only
  rw [EStateM.run_bind, addReadSocket, if_neg h]
  rfl

theorem run_destructor (w : World δ) : destructor.run w = .ok () (destructed w) :=
  run_forM_nuDisconnect _ w

/-! ### What is open -/

/-- Nothing has been closed that was not open; what is in `m_ReadSockets` is open or disabled;
and the poll table holds open descriptors, each once. -/
structure Orderly (disabled : Finset Int) (w : World δ) : Prop where
  balanced : Balanced ∅ (ledger w.trace)
  nonneg : ∀ sockfd ∈ openDescriptors w.trace, 0 ≤ sockfd
  sockets : w.thread.readSockets = openDescriptors w.trace ∪ disabled
  disjoint : Disjoint (openDescriptors w.trace) disabled
  nodup : w.thread.pollFds.descriptors.Nodup
  polled : ∀ sockfd ∈ w.thread.pollFds.descriptors, sockfd ∈ openDescriptors w.trace

namespace Orderly

variable {d : Finset Int} {w : World δ} {sockfd : Int}

theorem valid (h : Orderly d w) (hopen : sockfd ∈ openDescriptors w.trace) :
    sockfd ≠ invalidSocket := by
  have hnonneg := h.nonneg sockfd hopen
  unfold invalidSocket
  omega

/-- A change of the table that keeps its descriptors. -/
theorem withTable (h : Orderly d w) {v : World δ} (htrace : v.trace = w.trace)
    (hsockets : v.thread.readSockets = w.thread.readSockets)
    (htable : v.thread.pollFds.descriptors = w.thread.pollFds.descriptors) : Orderly d v := by
  constructor
  · rw [htrace]
    exact h.balanced
  · rw [htrace]
    exact h.nonneg
  · rw [htrace, hsockets]
    exact h.sockets
  · rw [htrace]
    exact h.disjoint
  · rw [htable]
    exact h.nodup
  · rw [htrace, htable]
    exact h.polled

private theorem openDescriptors_disabled (sockfd : Int) (w : World δ) :
    openDescriptors (disabled sockfd w).trace = (openDescriptors w.trace).erase sockfd :=
  openDescriptors_snoc w.trace (.close sockfd)

/-- Closing an open descriptor keeps the balance, and takes it from the table. -/
private theorem close (h : Orderly d w) (hopen : sockfd ∈ openDescriptors w.trace) :
    Balanced ∅ (ledger (disabled sockfd w).trace) ∧
      (disabled sockfd w).thread.pollFds.descriptors.Nodup ∧
      ∀ fd ∈ (disabled sockfd w).thread.pollFds.descriptors,
        fd ∈ (openDescriptors w.trace).erase sockfd := by
  have htable : (disabled sockfd w).thread.pollFds.descriptors =
      w.thread.pollFds.descriptors.erase sockfd :=
    PollTable.descriptors_pollFDDelete (h.valid hopen) w.thread.pollFds
  refine ⟨?_, ?_, ?_⟩
  · change Balanced ∅ (ledger (w.trace ++ [.close sockfd]))
    rw [ledger_append, balanced_append]
    exact ⟨h.balanced, hopen, trivial⟩
  · rw [htable]
    exact h.nodup.erase sockfd
  · intro fd hfd
    rw [htable, h.nodup.mem_erase_iff] at hfd
    exact Finset.mem_erase.mpr ⟨hfd.1, h.polled fd hfd.2⟩

/-- `DisableSocket` leaves the descriptor in `m_ReadSockets`. -/
theorem of_disabled (h : Orderly d w) (hopen : sockfd ∈ openDescriptors w.trace) :
    Orderly (insert sockfd d) (disabled sockfd w) := by
  obtain ⟨hbalanced, hnodup, hpolled⟩ := h.close hopen
  have htrace := openDescriptors_disabled sockfd w
  constructor
  · exact hbalanced
  · intro fd hfd
    rw [htrace] at hfd
    exact h.nonneg fd (Finset.mem_of_mem_erase hfd)
  · change w.thread.readSockets = _
    rw [htrace, h.sockets, Finset.union_insert, ← Finset.insert_union, Finset.insert_erase hopen]
  · rw [htrace, Finset.disjoint_insert_right]
    exact ⟨Finset.notMem_erase sockfd _, h.disjoint.mono_left (Finset.erase_subset sockfd _)⟩
  · exact hnodup
  · rw [htrace]
    exact hpolled

/-- `OnReadSocketError` takes it out. -/
theorem of_dropped (h : Orderly d w) (hopen : sockfd ∈ openDescriptors w.trace) :
    Orderly d (dropped sockfd w) := by
  obtain ⟨hbalanced, hnodup, hpolled⟩ := h.close hopen
  have htrace : openDescriptors (dropped sockfd w).trace = (openDescriptors w.trace).erase sockfd :=
    openDescriptors_disabled sockfd w
  have hnotin : sockfd ∉ d := Finset.disjoint_left.mp h.disjoint hopen
  constructor
  · exact hbalanced
  · intro fd hfd
    rw [htrace] at hfd
    exact h.nonneg fd (Finset.mem_of_mem_erase hfd)
  · change w.thread.readSockets.erase sockfd = _
    rw [htrace, h.sockets, Finset.erase_union_distrib, Finset.erase_eq_of_notMem hnotin]
  · rw [htrace]
    exact h.disjoint.mono_left (Finset.erase_subset sockfd _)
  · exact hnodup
  · rw [htrace]
    exact hpolled

/-- A registration is of a descriptor that is open from then on. -/
theorem of_registered (h : Orderly d w) (hnonneg : 0 ≤ sockfd)
    (hnew : sockfd ∉ openDescriptors w.trace) : Orderly (d.erase sockfd) (registered sockfd w) := by
  have hvalid : sockfd ≠ invalidSocket := by
    unfold invalidSocket
    omega
  have hentry : (SysEvent.socket sockfd).ledgerEntry = some (.acquire sockfd) :=
    if_neg (by omega)
  have hledger : ledger [.socket sockfd] = [.acquire sockfd] := by
    simp only [ledger, List.filterMap_cons, hentry, List.filterMap_nil]
  have htrace : openDescriptors (registered sockfd w).trace =
      insert sockfd (openDescriptors w.trace) := by
    change openDescriptors (w.trace ++ [.socket sockfd]) = _
    rw [openDescriptors_snoc, hentry]
    rfl
  have hunpolled : sockfd ∉ w.thread.pollFds.descriptors := fun hmem ↦ hnew (h.polled sockfd hmem)
  constructor
  · change Balanced ∅ (ledger (w.trace ++ [.socket sockfd]))
    rw [ledger_append, balanced_append, hledger]
    exact ⟨h.balanced, trivial⟩
  · intro fd hfd
    rw [htrace] at hfd
    rcases Finset.mem_insert.mp hfd with rfl | hfd
    · exact hnonneg
    · exact h.nonneg fd hfd
  · change insert sockfd w.thread.readSockets = _
    rw [htrace, h.sockets, Finset.insert_union]
    ext fd
    simp only [Finset.mem_insert, Finset.mem_union, Finset.mem_erase]
    by_cases hfd : fd = sockfd
    · simp [hfd]
    · simp [hfd]
  · rw [htrace, Finset.disjoint_insert_left]
    exact ⟨Finset.notMem_erase sockfd d, h.disjoint.mono_right (Finset.erase_subset sockfd d)⟩
  · change (w.thread.pollFds.pollFDAdd sockfd).2.descriptors.Nodup
    by_cases hroom : w.thread.pollFds.count < maxFDSize
    · rw [PollTable.descriptors_pollFDAdd hvalid hroom]
      exact Multiset.nodup_cons.mpr ⟨hunpolled, h.nodup⟩
    · rw [PollTable.pollFDAdd_fails fun hadd ↦ hroom hadd.2]
      exact h.nodup
  · intro fd hfd
    change fd ∈ (w.thread.pollFds.pollFDAdd sockfd).2.descriptors at hfd
    rw [htrace]
    by_cases hroom : w.thread.pollFds.count < maxFDSize
    · rw [PollTable.descriptors_pollFDAdd hvalid hroom] at hfd
      rcases Multiset.mem_cons.mp hfd with rfl | hfd
      · exact Finset.mem_insert_self fd _
      · exact Finset.mem_insert_of_mem (h.polled fd hfd)
    · rw [PollTable.pollFDAdd_fails fun hadd ↦ hroom hadd.2] at hfd
      exact Finset.mem_insert_of_mem (h.polled fd hfd)

/-- Closing all of `m_ReadSockets` keeps the balance exactly if nothing has been disabled. -/
theorem balanced_exited_iff (h : Orderly d w) :
    Balanced ∅ (ledger (exited w).trace) ↔ d = ∅ := by
  change Balanced ∅ (ledger (w.trace ++ w.thread.socketsInOrder.map .close)) ↔ _
  rw [ledger_append, balanced_append, and_iff_right h.balanced, ledger_closes,
    balanced_releases w.thread.nodup_socketsInOrder]
  simp only [NetworkThread.mem_socketsInOrder]
  rw [h.sockets]
  constructor
  · intro hall
    rw [Finset.eq_empty_iff_forall_notMem]
    intro fd hfd
    exact Finset.disjoint_left.mp h.disjoint (hall fd (Finset.mem_union_right _ hfd)) hfd
  · rintro rfl fd hfd
    rw [Finset.union_empty] at hfd
    exact hfd

/-- After `ExitInstance` nothing is registered. -/
theorem of_exited (h : Orderly ∅ w) : Orderly ∅ (exited w) := by
  have hopen : openDescriptors (exited w).trace = ∅ := by
    rw [openDescriptors_exited, h.sockets, Finset.union_empty, Finset.sdiff_self]
  constructor
  · exact h.balanced_exited_iff.mpr rfl
  · rw [hopen]
    intro fd hfd
    cases hfd
  · rw [hopen]
    rfl
  · rw [hopen]
    exact Finset.disjoint_empty_left ∅
  · exact Multiset.nodup_zero
  · intro fd hfd
    cases hfd

/-- Handling a readable entry drops an open descriptor at most. -/
theorem of_serviced (h : Orderly d w) (s : Script) {i : Nat} (hi : i < w.thread.pollFds.count) :
    Orderly d (serviced s i w) := by
  have hcleared : Orderly d (w.clearedAt i) :=
    h.withTable rfl rfl (PollTable.descriptors_clearRevents _ i)
  unfold serviced
  split
  · exact hcleared.of_dropped (h.polled _ (PollTable.mem_descriptors.mpr ⟨i, hi, rfl⟩))
  · exact hcleared

/-- So does a whole pass. -/
theorem of_processReadEvent (h : Orderly d w) (s : Script) :
    ∃ w', (processReadEvent (scripted s)).run w = .ok true w' ∧ Orderly d w' := by
  have hpass := @contract_processFrom _ (fun _ _ ↦ False) (scripted s) (fun _ ↦ Orderly d)
    (Orderly d)
    (fun i ↦ Contract.of_run fun v hv ↦ by
      refine ⟨(), _, run_processEntry_scripted s hv.2.2.1, ?_⟩
      have hnext : Orderly d (handled (serviced s i v)) :=
        (hv.1.of_serviced s hv.2.1).withTable rfl rfl rfl
      split <;> exact hnext)
    (fun _ _ hv _ _ ↦ hv) (fun _ _ hv _ ↦ hv) maxFDSize 0 (Nat.le_refl _) w h
  rw [processReadEvent, EStateM.run_bind]
  cases hrun : (processFrom (scripted s) maxFDSize 0).run w with
  | ok a w' =>
    rw [hrun] at hpass
    exact ⟨w', rfl, hpass⟩
  | error f w' =>
    rw [hrun] at hpass
    exact hpass.elim

end Orderly
/-! ### Runs -/

/-- From an orderly object, a step keeps the balance exactly if it closes nothing that has been
disabled, and leaves the object orderly then, unless it ends it. -/
theorem closeStep_balanced_iff {h h' : Holder δ} {l : CloseStep}
    (horderly : Orderly h.disabled h.world) (hstep : closeStep h l = some h') :
    (Balanced ∅ (ledger h'.world.trace) ↔ (l.closesAll = true → h.disabled = ∅)) ∧
      ((l.closesAll = true → h.disabled = ∅) → h'.destroyed = false →
        Orderly h'.disabled h'.world) := by
  unfold closeStep at hstep
  split at hstep
  · next hallowed =>
    -- Any step that closes only what it is given leaves the object orderly.
    have hsome {w' : World δ} (hrun : l.call.run h.world = .ok () w')
        (hw' : Orderly (l.disabledAfter h.disabled) w') (hcloses : l.closesAll = false) :
        (Balanced ∅ (ledger h'.world.trace) ↔ (l.closesAll = true → h.disabled = ∅)) ∧
          ((l.closesAll = true → h.disabled = ∅) → h'.destroyed = false →
            Orderly h'.disabled h'.world) := by
      rw [hrun] at hstep
      cases hstep
      refine ⟨iff_of_true hw'.balanced fun hc ↦ ?_, fun _ _ ↦ hw'⟩
      rw [hcloses] at hc
      cases hc
    cases l with
    | register sockfd =>
      have hw' := horderly.of_registered hallowed.2.1 hallowed.2.2
      refine hsome (run_register ?_ h.world) hw' rfl
      have hnonneg : 0 ≤ sockfd := hallowed.2.1
      unfold invalidSocket
      omega
    | disableSocket sockfd =>
      have hw' := horderly.of_disabled hallowed.2
      refine hsome ?_ hw' rfl
      rw [CloseStep.call, EStateM.run_bind, run_disableSocket (horderly.valid hallowed.2)]
      rfl
    | onReadSocketError sockfd =>
      have hw' := horderly.of_dropped hallowed.2
      refine hsome ?_ hw' rfl
      rw [CloseStep.call, EStateM.run_bind, run_onReadSocketError (horderly.valid hallowed.2)]
      rfl
    | processReadEvent s revents eventsCount =>
      have hreported : Orderly h.disabled (h.world.withThread fun th ↦
          { th with pollFds := th.pollFds.report revents, eventsCount := eventsCount }) :=
        horderly.withTable rfl rfl (PollTable.descriptors_report _ revents)
      obtain ⟨w', hrun, hw'⟩ := hreported.of_processReadEvent s
      refine hsome ?_ hw' rfl
      rw [CloseStep.call, EStateM.run_bind, run_modifyThread]
      dsimp only
      rw [EStateM.run_bind, hrun]
      rfl
    | exitInstance =>
      have hrun : (CloseStep.exitInstance.call : Call δ Unit).run h.world =
          .ok () (exited h.world) := by
        rw [CloseStep.call, EStateM.run_bind, run_exitInstance]
        rfl
      rw [hrun] at hstep
      cases hstep
      refine ⟨horderly.balanced_exited_iff.trans (imp_iff_right rfl).symm, fun hdisabled _ ↦ ?_⟩
      rw [hdisabled rfl] at horderly
      exact horderly.of_exited
    | destructor =>
      have hrun : (CloseStep.destructor.call : Call δ Unit).run h.world =
          .ok () (destructed h.world) := run_destructor h.world
      rw [hrun] at hstep
      cases hstep
      refine ⟨horderly.balanced_exited_iff.trans (imp_iff_right rfl).symm, fun _ hgone ↦ ?_⟩
      cases hgone
  · cases hstep

/-- No descriptor is closed twice: in every sequence of steps, whatever is closed is open if and
only if `ExitInstance` and the destructor come only when every descriptor given to
`DisableSocket` since the last `ExitInstance` has been registered anew. -/
theorem closes_once_iff {timeoutMillisec : Int} {own : δ} {env : Nat → Outcome}
    {tr : List (Transition (Holder δ) CloseStep)} {h : Holder δ}
    (hruns : Runs closeStep (Holder.new timeoutMillisec own env) tr h) :
    (∀ x ∈ tr, Balanced ∅ (ledger x.target.world.trace)) ↔
      ∀ x ∈ tr, x.label.closesAll = true → x.source.disabled = ∅ := by
  have horderly {s t : Holder δ} {l : CloseStep}
      (hs : s.destroyed = false → Orderly s.disabled s.world) (hstep : closeStep s l = some t) :
      Orderly s.disabled s.world := by
    unfold closeStep at hstep
    split at hstep
    · next hallowed => exact hs hallowed.1
    · cases hstep
  refine hruns.forall_iff_of_kept (I := fun s ↦ s.destroyed = false → Orderly s.disabled s.world)
    (C := fun s l _ ↦ l.closesAll = true → s.disabled = ∅)
    (P := fun _ _ t ↦ Balanced ∅ (ledger t.world.trace)) ?_ ?_ ?_
  · intro s l t hs hstep hc
    exact (closeStep_balanced_iff (horderly hs hstep) hstep).2 hc
  · intro s l t hs hstep
    exact (closeStep_balanced_iff (horderly hs hstep) hstep).1
  · intro _
    constructor
    · trivial
    · intro fd hfd
      cases hfd
    · rfl
    · exact Finset.disjoint_empty_left ∅
    · exact Multiset.nodup_zero
    · intro fd hfd
      cases hfd

/-- A new object without members of its own, for runs on fixed inputs. -/
def newHolder : Holder Unit := .new 1000 () newThread.env

/-- One descriptor is dropped when it fails, another is closed at the end. -/
def droppedSteps : List CloseStep :=
  [.register 3, .register 4, .processReadEvent (.failing 3) (fun _ ↦ readMask) 2, .exitInstance,
    .destructor]

/-- Each of them is closed once. -/
theorem closes_once_iff_dropped :
    ∃ h, Runs closeStep newHolder (trace closeStep newHolder droppedSteps) h ∧
      h.world.trace = [.socket 3, .socket 4, .close 3, .close 4] ∧
      ((∀ x ∈ trace closeStep newHolder droppedSteps, Balanced ∅ (ledger x.target.world.trace)) ↔
        ∀ x ∈ trace closeStep newHolder droppedSteps,
          x.label.closesAll = true → x.source.disabled = ∅) := by
  have hrun : (exec closeStep newHolder droppedSteps).map (fun h ↦ h.world.trace) =
      some [.socket 3, .socket 4, .close 3, .close 4] := by
    decide +kernel
  obtain ⟨h, hh, htrace⟩ := Option.map_eq_some_iff.mp hrun
  have hruns := Runs.of_exec hh
  exact ⟨h, hruns, htrace, closes_once_iff hruns⟩

/-- A disabled descriptor is closed again by `ExitInstance`. -/
theorem closes_twice :
    ¬∀ tr h, Runs closeStep newHolder tr h →
      ∀ x ∈ tr, Balanced ∅ (ledger x.target.world.trace) := by
  intro hall
  obtain ⟨h, hh, htrace⟩ : ∃ h, exec closeStep newHolder [.register 3, .disableSocket 3] = some h ∧
      (closeStep h .exitInstance).map (fun h ↦ h.world.trace) =
        some [.socket 3, .close 3, .close 3] := by
    have hrun : ((exec closeStep newHolder [.register 3, .disableSocket 3]).bind fun h ↦
        (closeStep h .exitInstance).map (fun h ↦ h.world.trace)) =
          some [.socket 3, .close 3, .close 3] := by
      decide +kernel
    exact Option.bind_eq_some_iff.mp hrun
  obtain ⟨h', hexit, htrace'⟩ := Option.map_eq_some_iff.mp htrace
  have hbalanced := hall _ h' ((Runs.of_exec hh).snoc hexit) _
    (List.mem_append_right _ (List.mem_singleton_self _))
  rw [htrace'] at hbalanced
  exact absurd hbalanced.2.1 (by decide)

end HeartbeatSpec.Legacy
