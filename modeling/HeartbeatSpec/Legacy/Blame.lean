import HeartbeatSpec.Base.Runs
import HeartbeatSpec.Legacy.Calls
import HeartbeatSpec.Legacy.EventLoop
import HeartbeatSpec.Legacy.Recorder

/-!
# Who is blamed for a failure

Library `Legacy`. `ProcessReadEvent` reads the descriptor of an entry anew for each call of a
handler, `legacy_compatible/legacy_support.cpp:713–727`. A handler that changes the entry makes
it deliver a message, or report an error, for a descriptor that has to do with neither.
-/

namespace HeartbeatSpec.Legacy
open HeartbeatSpec.Base

variable {δ : Type}

/-- A call for the descriptor has returned false. -/
def HandlerEvent.Fails (sockfd : Int) : HandlerEvent → Prop
  | received fd none => fd = sockfd
  | handled fd _ false => fd = sockfd
  | _ => False

/-- What has to come before a call: a message is one that has just been received from the
descriptor, and an error is of a descriptor for which a call has failed. -/
def Justified (calls : List HandlerEvent) : HandlerEvent → Prop
  | .message sockfd iMessage => calls.getLast? = some (.received sockfd (some iMessage))
  | .error sockfd => sockfd ≠ invalidSocket ∧ ∃ ev ∈ calls, ev.Fails sockfd
  | _ => True

/-- Every call is justified by those before it. -/
def Fair (calls : List HandlerEvent) : Prop :=
  ∀ pre ev post, calls = pre ++ ev :: post → Justified pre ev

theorem fair_nil : Fair [] := by
  intro pre ev post h
  simp at h

theorem fair_snoc {calls : List HandlerEvent} {ev : HandlerEvent} :
    Fair (calls ++ [ev]) ↔ Fair calls ∧ Justified calls ev := by
  constructor
  · intro h
    constructor
    · intro pre e post hpre
      apply h pre e (post ++ [ev])
      rw [hpre, List.append_assoc, List.cons_append]
    · exact h calls ev [] rfl
  · rintro ⟨hcalls, hev⟩ pre e post hpre
    rcases snoc_eq_append_cons hpre with ⟨rfl, rfl⟩ | ⟨rest, -, hrest⟩
    · rw [List.append_cancel_right hpre.symm]
      exact hev
    · exact hcalls pre e rest hrest

/-- A record that goes on was fair before. -/
theorem Fair.of_prefix {calls calls' : List HandlerEvent} (h : Fair calls')
    (hp : calls <+: calls') : Fair calls := by
  obtain ⟨rest, rfl⟩ := hp
  intro pre ev post hpre
  apply h pre ev (post ++ rest)
  rw [hpre, List.append_assoc, List.cons_append]

/-- A fair record in which no call for the invalid descriptor has failed. -/
structure Sound (calls : List HandlerEvent) : Prop where
  fair : Fair calls
  valid : ∀ ev ∈ calls, ∀ sockfd, ev.Fails sockfd → sockfd ≠ invalidSocket

theorem sound_nil : Sound [] where
  fair := fair_nil
  valid := by simp

/-- An event that blames nobody, or a valid descriptor. -/
theorem Sound.snoc {calls : List HandlerEvent} (h : Sound calls) {ev : HandlerEvent}
    (hev : Justified calls ev) (hvalid : ∀ sockfd, ev.Fails sockfd → sockfd ≠ invalidSocket) :
    Sound (calls ++ [ev]) where
  fair := fair_snoc.mpr ⟨h.fair, hev⟩
  valid := by
    intro e he
    rcases List.mem_append.mp he with he | he
    · exact h.valid e he
    · rw [List.mem_singleton.mp he]
      exact hvalid

/-- One call more is sound exactly if it is justified. -/
theorem Sound.snoc_iff {calls : List HandlerEvent} (h : Sound calls) {ev : HandlerEvent}
    {p : Prop} (hp : Justified calls ev ↔ p) (hvalid : ∀ sockfd, ¬ev.Fails sockfd) :
    (p → Sound (calls ++ [ev])) ∧ (Fair (calls ++ [ev]) → p) := by
  constructor
  · intro hev
    exact h.snoc (hp.mpr hev) fun sockfd hfails ↦ absurd hfails (hvalid sockfd)
  · intro hfair
    exact hp.mp (fair_snoc.mp hfair).2

/-! ### One entry -/

/-- A descriptor that may be reported when a call for `sockfd` has failed. -/
def Blamed (calls : List HandlerEvent) (sockfd fd : Int) : Prop :=
  fd = sockfd ∨ ∃ ev ∈ calls, ev.Fails fd

/-- The handlers called for the entry at `i` leave its descriptor in the slot, as far as it is
looked at again; where a failure is reported, the slot may hold another that has failed. -/
def KeepsSlot (ov : Overrides δ) (i : Nat) (w : World (Recorded δ)) : Prop :=
  match (ov.receiveIntMessage (w.slot i)).run (w.clearedAt i).plain with
  | .ok (some iMessage) v =>
    v.slot i = w.slot i ∧
      match (ov.onMessage (w.slot i) iMessage).run v with
      | .ok false v' => Blamed w.own.calls (w.slot i) (v'.slot i)
      | _ => True
  | .ok none v => Blamed w.own.calls (w.slot i) (v.slot i)
  | .error _ _ => True

/-- After events among which the one failure is of `sockfd`, an error is justified if it is of a
descriptor that may be reported. -/
theorem justified_error_iff {calls extra : List HandlerEvent} (h : Sound calls) {sockfd fd : Int}
    (hvalid : sockfd ≠ invalidSocket)
    (hextra : ∀ fd, (∃ ev ∈ extra, ev.Fails fd) ↔ fd = sockfd) :
    Justified (calls ++ extra) (.error fd) ↔ Blamed calls sockfd fd := by
  constructor
  · rintro ⟨-, ev, hev, hfails⟩
    rcases List.mem_append.mp hev with hev | hev
    · exact Or.inr ⟨ev, hev, hfails⟩
    · exact Or.inl ((hextra fd).mp ⟨ev, hev, hfails⟩)
  · rintro (rfl | ⟨ev, hev, hfails⟩)
    · obtain ⟨ev, hev, hfails⟩ := (hextra fd).mpr rfl
      exact ⟨hvalid, ev, List.mem_append_right _ hev, hfails⟩
    · exact ⟨h.valid ev hev fd hfails, ev, List.mem_append_left _ hev, hfails⟩

/-- Reporting an error adds the call for the descriptor that is in the slot. -/
theorem calls_onReadSocketError (ov : Overrides δ) (i : Nat) (u : World (Recorded δ)) :
    (World.after (EStateM.run (do
      let fd ← fdAt i
      let _ ← recording [.error fd] (fun _ ↦ []) (ov.onReadSocketError fd)
      pure ()) u)).own.calls = u.own.calls ++ [.error (u.slot i)] := by
  rw [EStateM.run_bind, run_fdAt]
  dsimp only
  rw [EStateM.run_bind, run_recording]
  cases (ov.onReadSocketError (u.thread.pollFds.fds i).fd).run u.plain with
  | ok b v => exact List.append_nil _
  | error f v => rfl

/-- Delivering a message adds the call for the descriptor that is in the slot, and if it fails,
an error for the one that is in the slot then. -/
theorem calls_onMessage (ov : Overrides δ) (i : Nat) (iMessage : Int32) (u : World (Recorded δ)) :
    (World.after (EStateM.run (do
      let fd ← fdAt i
      let ret ← recording [.message fd iMessage] (fun ret ↦ [.handled fd iMessage ret])
        (ov.onMessage fd iMessage)
      if ret = false then do
        let fd ← fdAt i
        let _ ← recording [.error fd] (fun _ ↦ []) (ov.onReadSocketError fd)
        pure ()
      else pure ()) u)).own.calls =
      match (ov.onMessage (u.slot i) iMessage).run u.plain with
      | .ok false v =>
        u.own.calls ++ [.message (u.slot i) iMessage] ++ [.handled (u.slot i) iMessage false] ++
          [.error (v.slot i)]
      | .ok true _ =>
        u.own.calls ++ [.message (u.slot i) iMessage] ++ [.handled (u.slot i) iMessage true]
      | .error _ _ => u.own.calls ++ [.message (u.slot i) iMessage] := by
  rw [EStateM.run_bind, run_fdAt]
  dsimp only
  rw [EStateM.run_bind, run_recording]
  cases hm : (ov.onMessage (u.slot i) iMessage).run u.plain with
  | error f v =>
    have hm' : (ov.onMessage (u.thread.pollFds.fds i).fd iMessage).run u.plain = .error f v := hm
    rw [hm']
    rfl
  | ok ret v =>
    have hm' : (ov.onMessage (u.thread.pollFds.fds i).fd iMessage).run u.plain = .ok ret v := hm
    rw [hm']
    cases ret with
    | true => rfl
    | false => exact calls_onReadSocketError ov i _

section Entry
open HandlerEvent

variable {calls : List HandlerEvent} {sockfd fd : Int}

theorem Sound.called (h : Sound calls) (sockfd : Int) : Sound (calls ++ [receive sockfd]) :=
  h.snoc trivial fun _ h ↦ h.elim

/-- After a failed receive, an error is fair exactly if it is of a descriptor to be blamed. -/
theorem Sound.error_of_none (h : Sound calls) (hvalid : sockfd ≠ invalidSocket) :
    (Blamed calls sockfd fd →
      Sound (calls ++ [receive sockfd] ++ [received sockfd none] ++ [error fd])) ∧
    (Fair (calls ++ [receive sockfd] ++ [received sockfd none] ++ [error fd]) →
      Blamed calls sockfd fd) := by
  have hfailed : Sound (calls ++ [receive sockfd] ++ [received sockfd none]) := by
    refine (h.called sockfd).snoc trivial ?_
    rintro _ rfl
    exact hvalid
  have hjust : Justified (calls ++ [receive sockfd] ++ [received sockfd none]) (error fd) ↔
      Blamed calls sockfd fd := by
    rw [List.append_assoc]
    apply justified_error_iff h hvalid
    intro fd
    simp [Fails, eq_comm]
  exact hfailed.snoc_iff hjust fun _ h ↦ h

/-- A message is fair exactly if it is for the descriptor that it has been received from. -/
theorem Sound.message_of_some (h : Sound calls) (iMessage : Int32) :
    (fd = sockfd → Sound (calls ++ [receive sockfd] ++ [received sockfd (some iMessage)] ++
      [message fd iMessage])) ∧
    (Fair (calls ++ [receive sockfd] ++ [received sockfd (some iMessage)] ++
      [message fd iMessage]) → fd = sockfd) := by
  have hreceived : Sound (calls ++ [receive sockfd] ++ [received sockfd (some iMessage)]) :=
    (h.called sockfd).snoc trivial fun _ h ↦ h.elim
  have hjust : Justified (calls ++ [receive sockfd] ++ [received sockfd (some iMessage)])
      (message fd iMessage) ↔ fd = sockfd := by
    simp only [Justified, List.getLast?_append, List.getLast?_singleton, Option.some_or,
      Option.some.injEq, received.injEq, and_true]
    exact eq_comm
  exact hreceived.snoc_iff hjust fun _ h ↦ h

/-- So is an error after the message's handler has returned false. -/
theorem Sound.error_of_false (h : Sound calls) (hvalid : sockfd ≠ invalidSocket)
    {iMessage : Int32} :
    (Blamed calls sockfd fd → Sound (calls ++ [receive sockfd] ++
      [received sockfd (some iMessage)] ++ [message sockfd iMessage] ++
      [HandlerEvent.handled sockfd iMessage false] ++ [error fd])) ∧
    (Fair (calls ++ [receive sockfd] ++ [received sockfd (some iMessage)] ++
      [message sockfd iMessage] ++ [HandlerEvent.handled sockfd iMessage false] ++
      [error fd]) → Blamed calls sockfd fd) := by
  have hhandled : Sound (calls ++ [receive sockfd] ++ [received sockfd (some iMessage)] ++
      [message sockfd iMessage] ++ [HandlerEvent.handled sockfd iMessage false]) := by
    refine ((h.message_of_some iMessage).1 rfl).snoc trivial ?_
    rintro _ rfl
    exact hvalid
  have hjust : Justified (calls ++ [receive sockfd] ++ [received sockfd (some iMessage)] ++
      [message sockfd iMessage] ++ [HandlerEvent.handled sockfd iMessage false]) (error fd) ↔
        Blamed calls sockfd fd := by
    simp only [List.append_assoc, List.cons_append, List.nil_append]
    apply justified_error_iff h hvalid
    intro fd
    simp [Fails, eq_comm]
  exact hhandled.snoc_iff hjust fun _ h ↦ h

end Entry

/-- The calls for one entry are fair exactly if the handlers keep its slot. -/
theorem fair_processEntry (ov : Overrides δ) {i : Nat} {w : World (Recorded δ)}
    (hs : Sound w.own.calls) (hvalid : w.slot i ≠ invalidSocket) :
    (KeepsSlot ov i w → Sound (World.after ((processEntry (recorded ov) i).run w)).own.calls) ∧
      (Fair (World.after ((processEntry (recorded ov) i).run w)).own.calls → KeepsSlot ov i w) := by
  have hclear : (modifyThread fun th ↦
      { th with pollFds := th.pollFds.clearRevents i }).run w = .ok () (w.clearedAt i) := rfl
  have hslot : ((w.clearedAt i).thread.pollFds.fds i).fd = w.slot i := slot_clearedAt i w
  have hown : (w.clearedAt i).own.calls = w.own.calls := rfl
  rw [processEntry, EStateM.run_bind, hclear]
  dsimp only
  rw [EStateM.run_bind, run_fdAt]
  dsimp only
  rw [hslot, EStateM.run_bind, recorded, run_recording, hown]
  unfold KeepsSlot
  cases (ov.receiveIntMessage (w.slot i)).run (w.clearedAt i).plain with
  | error f v => exact ⟨fun _ ↦ hs.called _, fun _ ↦ trivial⟩
  | ok msg v =>
    cases msg with
    | none =>
      dsimp only
      rw [calls_onReadSocketError]
      exact hs.error_of_none hvalid
    | some iMessage =>
      dsimp only
      rw [calls_onMessage]
      have hslot' (calls : List HandlerEvent) : (v.recorded calls).slot i = v.slot i := rfl
      rw [hslot', plain_recorded]
      -- The slot has to be kept for the message before it matters for the error.
      by_cases hkept : v.slot i = w.slot i
      · rw [hkept, and_iff_right rfl]
        have hmessage := (hs.message_of_some iMessage).1 (Eq.refl (w.slot i))
        cases (ov.onMessage (w.slot i) iMessage).run v with
        | error f v' => exact ⟨fun _ ↦ hmessage, fun _ ↦ trivial⟩
        | ok ret v' =>
          cases ret with
          | true => exact ⟨fun _ ↦ hmessage.snoc trivial fun _ h ↦ h.elim, fun _ ↦ trivial⟩
          | false => exact hs.error_of_false hvalid
      · constructor
        · rintro ⟨hkept', -⟩
          exact absurd hkept' hkept
        · intro hfair
          apply absurd _ hkept
          apply (hs.message_of_some iMessage).2
          split at hfair
          · exact hfair.of_prefix ((List.prefix_append _ _).trans (List.prefix_append _ _))
          · exact hfair.of_prefix (List.prefix_append _ _)
          · exact hfair

/-! ### The pass over the table -/

/-- The readable entries that the loop handles from the entry at `i` on, each with the object as
it is then. -/
def visits (ov : Overrides δ) : Nat → Nat → World (Recorded δ) → List (Nat × World (Recorded δ))
  | 0, _, _ => []
  | turns + 1, i, w =>
    if i < w.thread.pollFds.count then
      if w.thread.pollFds.Readable i then
        (i, w) ::
          match (processEntry (recorded ov) i).run w with
          | .ok _ v =>
            if (handled v).thread.eventsCount ≤ 0 then [] else visits ov turns (i + 1) (handled v)
          | .error _ _ => []
      else visits ov turns (i + 1) w
    else []

/-- Recording only adds to the record. -/
theorem keeps_recording {α : Type} (calls before : List HandlerEvent)
    (after : α → List HandlerEvent) (x : Call δ α) :
    Keeps (fun w ↦ calls <+: w.own.calls) (fun _ w ↦ calls <+: w.own.calls)
      (recording before after x) := by
  intro w hw
  rw [run_recording]
  cases x.run w.plain with
  | ok a v => exact hw.trans ((List.prefix_append _ _).trans (List.prefix_append _ _))
  | error f v => exact hw.trans (List.prefix_append _ _)

/-- The handlers of an entry only add to the record. -/
theorem keeps_calls_processEntry (ov : Overrides δ) (calls : List HandlerEvent) (i : Nat) :
    Keeps (fun w ↦ calls <+: w.own.calls) (fun _ w ↦ calls <+: w.own.calls)
      (processEntry (recorded ov) i) := by
  refine (keeps_modifyThread fun _ hw ↦ hw).bind fun _ ↦ Keeps.get_bind fun w ↦ ?_
  refine (keeps_recording _ _ _ _).bind fun msg ↦ ?_
  have hreport : Keeps (fun w ↦ calls <+: w.own.calls) (fun _ w ↦ calls <+: w.own.calls) (do
      let fd ← fdAt i
      let _ ← recording [.error fd] (fun _ ↦ []) (ov.onReadSocketError fd)
      pure ()) := by
    exact Keeps.get_bind fun w ↦ (keeps_recording _ _ _ _).bind fun _ ↦ Keeps.pure _
  cases msg with
  | none => exact hreport
  | some iMessage =>
    refine Keeps.get_bind fun w ↦ (keeps_recording _ _ _ _).bind fun ret ↦ ?_
    exact Keeps.ite hreport (Keeps.pure _)

/-- So does the rest of the pass. -/
theorem prefix_calls_processFrom (ov : Overrides δ) {turns i : Nat}
    (hturns : maxFDSize ≤ turns + i) (w : World (Recorded δ)) :
    w.own.calls <+: (World.after ((processFrom (recorded ov) turns i).run w)).own.calls := by
  have hloop : Contract (fun v ↦ w.own.calls <+: v.own.calls) (processFrom (recorded ov) turns i)
      (fun _ v ↦ w.own.calls <+: v.own.calls) fun _ v ↦ w.own.calls <+: v.own.calls := by
    refine contract_processFrom (J := fun _ (v : World (Recorded δ)) ↦ w.own.calls <+: v.own.calls)
      (Q := fun (v : World (Recorded δ)) ↦ w.own.calls <+: v.own.calls) (fun i ↦ ?_)
      (fun _ _ hv _ _ ↦ hv) (fun _ _ hv _ ↦ hv) turns i hturns
    refine Contract.mono (keeps_calls_processEntry ov w.own.calls i) (fun _ hv ↦ hv.1)
      (fun _ v hv ↦ ?_) fun _ _ hv ↦ hv
    split <;> exact hv
  exact World.after_of_keeps hloop (List.prefix_refl _)

/-- The pass is fair exactly if in every visit the handlers keep the slot. -/
theorem fair_processFrom (ov : Overrides δ) {turns i : Nat} (hturns : maxFDSize ≤ turns + i)
    {w : World (Recorded δ)} (hs : Sound w.own.calls) :
    Fair (World.after ((processFrom (recorded ov) turns i).run w)).own.calls ↔
      ∀ x ∈ visits ov turns i w, KeepsSlot ov x.1 x.2 := by
  induction turns generalizing i w with
  | zero => exact iff_of_true hs.fair fun x hx ↦ absurd hx List.not_mem_nil
  | succ turns ih =>
    have hturns' : maxFDSize ≤ turns + (i + 1) := by omega
    rw [run_processFrom_succ, visits]
    split
    · split
      · next hlt hread =>
        have hentry := fair_processEntry ov hs hread.1
        have hlast (v : World (Recorded δ))
            (h : (KeepsSlot ov i w → Sound v.own.calls) ∧ (Fair v.own.calls → KeepsSlot ov i w)) :
            Fair v.own.calls ↔ KeepsSlot ov i w ∧
              ∀ x ∈ ([] : List (Nat × World (Recorded δ))), KeepsSlot ov x.1 x.2 := by
          rw [and_iff_left fun x hx ↦ absurd hx List.not_mem_nil]
          exact ⟨h.2, fun hkeeps ↦ (h.1 hkeeps).fair⟩
        rw [List.forall_mem_cons]
        cases hr : (processEntry (recorded ov) i).run w with
        | error f v =>
          rw [hr] at hentry
          exact hlast v hentry
        | ok u v =>
          rw [hr] at hentry
          dsimp only
          split
          · exact hlast v hentry
          · have hprefix := prefix_calls_processFrom ov hturns' (handled v)
            constructor
            · intro hfair
              have hkeeps := hentry.2 (hfair.of_prefix hprefix)
              exact ⟨hkeeps, (ih hturns' (w := handled v) (hentry.1 hkeeps)).mp hfair⟩
            · rintro ⟨hkeeps, hrest⟩
              exact (ih hturns' (w := handled v) (hentry.1 hkeeps)).mpr hrest
      · exact ih hturns' hs
    · exact iff_of_true hs.fair fun x hx ↦ absurd hx List.not_mem_nil

/-- `ProcessReadEvent` delivers messages for, and punishes, the right descriptors exactly if the
handlers that it calls for an entry leave the descriptor in its slot. -/
theorem blames_failed_iff (ov : Overrides δ) (w : World δ) :
    Fair (World.after ((processReadEvent (recorded ov)).run (w.recorded []))).own.calls ↔
      ∀ x ∈ visits ov maxFDSize 0 (w.recorded []), KeepsSlot ov x.1 x.2 := by
  rw [← fair_processFrom ov (Nat.le_refl maxFDSize) (w := w.recorded []) sound_nil,
    processReadEvent, EStateM.run_bind]
  cases (processFrom (recorded ov) maxFDSize 0).run (w.recorded []) <;> rfl

/-- A subclass whose `ReceiveIntMessage` disables the socket before it fails. -/
def disabling : Overrides Unit where
  receiveIntMessage sockfd := do
    let _ ← disableSocket sockfd
    pure none
  onMessage _ _ := pure true
  onReadSocketError := onReadSocketError
  others := pure ()

/-- Two registered descriptors, of which `poll` has found the first readable. -/
def firstReadable : World Unit :=
  newThread.withThread fun th ↦
    { th with
      pollFds := (PollTable.pollFDAdd 4 (PollTable.pollFDAdd 3 .empty).2).2.report fun i ↦
        if i = 0 then readMask else 0
      eventsCount := 1 }

/-- The second is punished for the first. -/
theorem blames_other :
    ¬∀ (ov : Overrides Unit) (w : World Unit), w.thread.pollFds.descriptors.Nodup →
      Fair (World.after ((processReadEvent (recorded ov)).run (w.recorded []))).own.calls := by
  intro hall
  have hcalls : (World.after ((processReadEvent (recorded disabling)).run
      (firstReadable.recorded []))).own.calls = [.receive 3, .received 3 none, .error 4] := by
    decide +kernel
  have hfair := hall disabling firstReadable (by decide +kernel)
  rw [hcalls] at hfair
  obtain ⟨-, ev, hev, hfails⟩ := hfair [.receive 3, .received 3 none] (.error 4) [] rfl
  rcases List.mem_cons.mp hev with rfl | hev
  · exact hfails
  · rw [List.mem_singleton.mp hev] at hfails
    have hsame : (3 : Int) = 4 := hfails
    omega

end HeartbeatSpec.Legacy
