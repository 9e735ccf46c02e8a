import HeartbeatSpec.Legacy.Calls
import HeartbeatSpec.Legacy.EventLoop
import HeartbeatSpec.Legacy.Recorder

/-!
# Scripted handlers

Library `Legacy`. Handlers that leave the object alone and whose results are given for each
descriptor, under the `OnReadSocketError` of `CNetworkThread`.
-/

namespace HeartbeatSpec.Legacy
open HeartbeatSpec.Base

variable {δ : Type}

/-- What `ReceiveIntMessage` and `OnMessage` return for each descriptor. -/
structure Script where
  receiveIntMessage : Int → Option Int32
  onMessage : Int → Int32 → Bool

/-- Every call for this descriptor fails, and no other. -/
def Script.failing (sockfd : Int) : Script where
  receiveIntMessage fd := if fd = sockfd then none else some 0
  onMessage _ _ := true

/-- A call for the descriptor returns false. -/
def Script.fails (s : Script) (sockfd : Int) : Bool :=
  match s.receiveIntMessage sockfd with
  | none => true
  | some iMessage => !s.onMessage sockfd iMessage

/-- The handlers that return what is scripted. -/
def scripted (s : Script) : Overrides δ where
  receiveIntMessage sockfd := pure (s.receiveIntMessage sockfd)
  onMessage sockfd iMessage := pure (s.onMessage sockfd iMessage)
  onReadSocketError := onReadSocketError
  others := pure ()

/-- The object after `DisableSocket`. -/
def disabled (sockfd : Int) (w : World δ) : World δ :=
  (w.withThread fun th ↦ { th with pollFds := (th.pollFds.pollFDDelete sockfd).2 }).record
    (.close sockfd)

/-- The object after `OnReadSocketError`. -/
def dropped (sockfd : Int) (w : World δ) : World δ :=
  (disabled sockfd w).withThread fun th ↦ { th with readSockets := th.readSockets.erase sockfd }

theorem run_disableSocket {sockfd : Int} (h : sockfd ≠ invalidSocket) (w : World δ) :
    (disableSocket sockfd).run w = .ok true (disabled sockfd w) := by
  rw [disableSocket, if_neg h]
  rfl

theorem run_onReadSocketError {sockfd : Int} (h : sockfd ≠ invalidSocket) (w : World δ) :
    (onReadSocketError sockfd).run w = .ok true (dropped sockfd w) := by
  rw [onReadSocketError, if_neg h, EStateM.run_bind, run_disableSocket h]
  dsimp only
  rw [deleteReadSocket, if_neg h]
  rfl

/-- The descriptor in the slot is reported. -/
theorem run_onReadSocketError_slot {i : Nat} {w : World δ} (h : w.slot i ≠ invalidSocket) :
    EStateM.run (do
      let fd ← fdAt i
      let _ ← onReadSocketError fd
      pure ()) w = .ok () (dropped (w.slot i) w) := by
  rw [EStateM.run_bind, run_fdAt]
  dsimp only
  have hrun : (onReadSocketError (w.thread.pollFds.fds i).fd).run w =
      .ok true (dropped (w.slot i) w) := run_onReadSocketError h w
  rw [EStateM.run_bind, hrun]
  rfl

/-- The object after a readable entry has been handled. -/
def serviced (s : Script) (i : Nat) (w : World δ) : World δ :=
  if s.fails (w.slot i) then dropped (w.slot i) (w.clearedAt i) else w.clearedAt i

/-- The table after a readable entry has been handled, where no descriptor has two entries. -/
theorem pollFds_serviced (s : Script) {i : Nat} {w : World δ}
    (hnodup : w.thread.pollFds.descriptors.Nodup) (hi : i < w.thread.pollFds.count)
    (hvalid : w.slot i ≠ invalidSocket) :
    (serviced s i w).thread.pollFds =
      if s.fails (w.slot i) then (w.thread.pollFds.clearRevents i).removeAt i
      else w.thread.pollFds.clearRevents i := by
  have hfd : ((w.thread.pollFds.clearRevents i).fds i).fd = w.slot i :=
    PollTable.fd_clearRevents w.thread.pollFds i i
  have hdelete := PollTable.pollFDDelete_of_nodup (t := w.thread.pollFds.clearRevents i) (i := i)
    (by rwa [PollTable.descriptors_clearRevents]) hi (by rwa [hfd])
  rw [hfd] at hdelete
  unfold serviced
  split
  · exact congrArg Prod.snd hdelete
  · rfl

theorem eventsCount_serviced (s : Script) (i : Nat) (w : World δ) :
    (serviced s i w).thread.eventsCount = w.thread.eventsCount := by
  unfold serviced
  split <;> rfl

/-- A readable entry is handled by the script, and dropped if a call fails. -/
theorem run_processEntry_scripted (s : Script) {i : Nat} {w : World δ}
    (hvalid : w.slot i ≠ invalidSocket) :
    (processEntry (scripted s) i).run w = .ok () (serviced s i w) := by
  have hclear : (modifyThread fun th ↦
      { th with pollFds := th.pollFds.clearRevents i }).run w = .ok () (w.clearedAt i) := rfl
  have hslot : ((w.clearedAt i).thread.pollFds.fds i).fd = w.slot i := slot_clearedAt i w
  have hdrop := run_onReadSocketError_slot (w := w.clearedAt i) (i := i)
    ((slot_clearedAt i w).symm ▸ hvalid)
  rw [slot_clearedAt] at hdrop
  rw [processEntry, EStateM.run_bind, hclear]
  dsimp only
  rw [EStateM.run_bind, run_fdAt]
  dsimp only
  rw [hslot]
  dsimp only [scripted]
  cases hrec : s.receiveIntMessage (w.slot i) with
  | none =>
    have hfails : s.fails (w.slot i) = true := by rw [Script.fails, hrec]
    rw [serviced, if_pos hfails]
    exact hdrop
  | some iMessage =>
    have hfails : s.fails (w.slot i) = !s.onMessage (w.slot i) iMessage := by
      rw [Script.fails, hrec]
    change EStateM.run (do
      let fd ← fdAt i
      let ret ← pure (s.onMessage fd iMessage)
      if ret = false then do
        let fd ← fdAt i
        let _ ← onReadSocketError fd
        pure ()
      else pure ()) (w.clearedAt i) = _
    rw [EStateM.run_bind, run_fdAt, hslot]
    dsimp only
    rw [EStateM.run_bind, EStateM.run_pure, serviced, hfails]
    dsimp only
    cases s.onMessage (w.slot i) iMessage with
    | true => rfl
    | false => exact hdrop

/-- The descriptors that `ReceiveIntMessage` has been called for. -/
def receives (calls : List HandlerEvent) : List Int :=
  calls.filterMap fun
    | .receive sockfd => some sockfd
    | _ => none

theorem receives_append (calls calls' : List HandlerEvent) :
    receives (calls ++ calls') = receives calls ++ receives calls' :=
  List.filterMap_append

private theorem receives_recording {α : Type} {socks added : List Int}
    {before : List HandlerEvent} (hbefore : receives before = added)
    {after : α → List HandlerEvent} (hafter : ∀ a, receives (after a) = []) (x : Call δ α) :
    Contract (fun w ↦ receives w.own.calls = socks) (recording before after x)
      (fun _ w ↦ receives w.own.calls = socks ++ added)
      fun _ w ↦ receives w.own.calls = socks ++ added := by
  intro w hw
  rw [run_recording]
  cases x.run w.plain with
  | ok a v =>
    change receives (w.own.calls ++ before ++ after a) = socks ++ added
    rw [receives_append, receives_append, hbefore, hafter, List.append_nil, hw]
  | error f v =>
    change receives (w.own.calls ++ before) = socks ++ added
    rw [receives_append, hbefore, hw]

private theorem keeps_receives {α : Type} {socks : List Int} {before : List HandlerEvent}
    (hbefore : receives before = []) {after : α → List HandlerEvent}
    (hafter : ∀ a, receives (after a) = []) (x : Call δ α) :
    Keeps (fun w ↦ receives w.own.calls = socks) (fun _ w ↦ receives w.own.calls = socks)
      (recording before after x) := by
  intro w hw
  have h := receives_recording hbefore hafter x w hw
  simpa only [List.append_nil] using h

/-- `ReceiveIntMessage` is called once for an entry, for the descriptor that it holds. -/
theorem receives_processEntry (ov : Overrides δ) (i : Nat) (socks : List Int) (sockfd : Int) :
    Contract (fun w ↦ receives w.own.calls = socks ∧ w.slot i = sockfd)
      (processEntry (recorded ov) i) (fun _ w ↦ receives w.own.calls = socks ++ [sockfd])
      fun _ w ↦ receives w.own.calls = socks ++ [sockfd] := by
  refine Contract.bind (Q := fun _ w ↦ receives w.own.calls = socks ∧ w.slot i = sockfd)
    (Contract.modify fun w hw ↦ ⟨hw.1, (slot_clearedAt i w).trans hw.2⟩) fun _ ↦ ?_
  refine Contract.get_bind fun w hw ↦ ?_
  obtain ⟨hsocks, rfl⟩ := hw
  refine Contract.bind ((receives_recording rfl (fun _ ↦ rfl) _).at_state hsocks) fun msg ↦ ?_
  have hreport : Keeps (fun v ↦ receives v.own.calls = socks ++ [w.slot i])
      (fun _ v ↦ receives v.own.calls = socks ++ [w.slot i]) (do
        let fd ← fdAt i
        let _ ← recording [.error fd] (fun _ ↦ []) (ov.onReadSocketError fd)
        pure ()) :=
    Keeps.get_bind fun v ↦ (keeps_receives rfl (fun _ ↦ rfl) _).bind fun _ ↦ Keeps.pure _
  cases msg with
  | none => exact hreport
  | some iMessage =>
    refine Keeps.get_bind fun v ↦ (keeps_receives rfl (fun _ ↦ rfl) _).bind fun ret ↦ ?_
    exact Keeps.ite hreport (Keeps.pure _)

/-- The same entry with the calls recorded. -/
theorem run_processEntry_recorded (s : Script) {i : Nat} {w : World (Recorded δ)}
    (hvalid : w.slot i ≠ invalidSocket) :
    ∃ w', (processEntry (recorded (scripted s)) i).run w = .ok () w' ∧
      w'.plain = serviced s i w.plain ∧
      receives w'.own.calls = receives w.own.calls ++ [w.slot i] := by
  have hplain := run_processEntry_scripted s (i := i) (w := w.plain) hvalid
  have halike := alike_recorded_processEntry (scripted s) i w w.plain rfl
  have hreceives := receives_processEntry (scripted s) i _ _ w ⟨rfl, rfl⟩
  cases hrun : (processEntry (recorded (scripted s)) i).run w with
  | error f w' =>
    rw [hrun] at halike
    obtain ⟨u, hu, -⟩ := halike
    cases hplain.symm.trans hu
  | ok a w' =>
    rw [hrun] at halike hreceives
    obtain ⟨u, hu, hstripped⟩ := halike
    cases hplain.symm.trans hu
    exact ⟨w', rfl, hstripped.symm, hreceives⟩

end HeartbeatSpec.Legacy
