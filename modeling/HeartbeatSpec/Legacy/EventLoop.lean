import HeartbeatSpec.Legacy.Entries
import HeartbeatSpec.Legacy.NetworkThread

/-!
# Invariants of the event loop

Library `Legacy`. What an invariant has to survive to hold through
`CNetworkThread::Run`: the changes that waiting makes, the calls of other threads, and the
handling of one readable entry. The handlers of a subclass enter only through the last.
-/

namespace HeartbeatSpec.Legacy
open HeartbeatSpec.Base HeartbeatSpec.Thread

variable {δ : Type} {I : World δ → Prop} {E : Fault → World δ → Prop} {ov : Overrides δ}

/-- The events that waiting for the network records. -/
def SysEvent.IsWait : SysEvent → Prop
  | .poll _ _ _ | .msleep _ => True
  | _ => False

/-- An invariant survives what the event loop itself changes. -/
structure LoopInvariant (I : World δ → Prop) : Prop where
  next : ∀ w, I w → I w.next
  record : ∀ ev w, ev.IsWait → I w → I (w.record ev)
  eventsCount : ∀ (count : NetworkThread → Int) w, I w →
    I (w.withThread fun th ↦ { th with eventsCount := count th })
  report : ∀ revents (count : Int) w, I w →
    I (w.withThread fun th ↦
      { th with pollFds := th.pollFds.report revents, eventsCount := count })

/-- What the handling of readable entries and the calls of other threads have to keep. -/
structure HandlersKeep (I : World δ → Prop) (E : Fault → World δ → Prop) (ov : Overrides δ) :
    Prop where
  others : Keeps I E ov.others
  entry : ∀ i, Contract
    (fun w ↦ I w ∧ i < w.thread.pollFds.count ∧ w.thread.pollFds.Readable i)
    (processEntry ov i) (fun _ ↦ I) E

/-- Recording an event keeps what it keeps. -/
theorem keeps_emit {ev : SysEvent} (h : ∀ w, I w → I (w.record ev)) :
    Keeps I E (emit ev : Call δ Unit) :=
  Keeps.modify h

/-- Asking the environment keeps what its answer keeps. -/
theorem keeps_consult (h : ∀ w, I w → I w.next) : Keeps I E (consult : Call δ Outcome) :=
  Keeps.modifyGet h

/-- Changing members of the thread keeps what the change keeps. -/
theorem keeps_modifyThread {f : NetworkThread → NetworkThread}
    (h : ∀ w, I w → I (w.withThread f)) : Keeps I E (modifyThread f : Call δ Unit) :=
  Keeps.modify h

/-- Changing the poll table keeps what the change keeps. -/
theorem keeps_onTable {f : PollTable → Bool × PollTable}
    (h : ∀ w, I w → I (w.withThread fun th ↦ { th with pollFds := (f th.pollFds).2 })) :
    Keeps I E (onTable f : Call δ Bool) :=
  Keeps.modifyGet h

/-- A call that keeps an invariant, however it is left, leaves the object with it. -/
theorem World.after_of_keeps {α : Type} {x : Call δ α}
    (h : Keeps I (fun _ ↦ I) x) {w : World δ} (hw : I w) : I (World.after (x.run w)) := by
  cases hx : x.run w with
  | ok a t => exact h.of_ok hw hx
  | error f t => exact h.of_error hw hx

/-- `Run` never fails. -/
theorem run_returns_true (ov : Overrides δ) :
    Contract (fun _ ↦ True) (Legacy.run ov) (fun b _ ↦ b = true) fun _ _ ↦ True := by
  have hany {α : Type} (x : Call δ α) :
      Contract (fun _ ↦ True) x (fun _ _ ↦ True) fun _ _ ↦ True := by
    intro w _
    cases x.run w <;> trivial
  refine (hany _).bind fun _ ↦ (hany _).bind fun w ↦ Contract.ite (fun _ ↦ ?_) fun _ ↦ ?_
  · refine (hany _).bind fun b ↦ Contract.ite (fun _ ↦ ?_) fun _ ↦ Contract.pure fun _ _ ↦ rfl
    refine (hany _).bind fun _ ↦ (hany _).bind fun v ↦ (hany _).bind fun v' ↦ ?_
    refine Contract.ite (fun _ ↦ ?_) fun _ ↦ Contract.pure fun _ _ ↦ rfl
    exact (hany _).bind fun _ ↦ Contract.pure fun _ _ ↦ rfl
  · exact Contract.pure fun _ _ ↦ rfl

/-- The returned events of an entry are cleared, `legacy_compatible/legacy_support.cpp:713`. -/
def World.clearedAt (i : Nat) (w : World δ) : World δ :=
  w.withThread fun th ↦ { th with pollFds := th.pollFds.clearRevents i }

/-- The descriptor in the slot at `i`. -/
def World.slot (i : Nat) (w : World δ) : Int := (w.thread.pollFds.fds i).fd

theorem slot_clearedAt (i : Nat) (w : World δ) : (w.clearedAt i).slot i = w.slot i :=
  PollTable.fd_clearRevents w.thread.pollFds i i

/-- One descriptor less is left to be handled. -/
def handled (w : World δ) : World δ :=
  w.withThread fun th ↦ { th with eventsCount := th.eventsCount - 1 }

/-- One turn of the loop over the entries. -/
theorem run_processFrom_succ (ov : Overrides δ) (turns i : Nat) (w : World δ) :
    (processFrom ov (turns + 1) i).run w =
      if i < w.thread.pollFds.count then
        if w.thread.pollFds.Readable i then
          match (processEntry ov i).run w with
          | .ok _ v =>
            if (handled v).thread.eventsCount ≤ 0 then .ok () (handled v)
            else (processFrom ov turns (i + 1)).run (handled v)
          | .error f v => .error f v
        else (processFrom ov turns (i + 1)).run w
      else .ok () w := by
  rw [processFrom, EStateM.run_bind, EStateM.run_get]
  dsimp only
  split
  · split
    · rw [EStateM.run_bind]
      cases (processEntry ov i).run w with
      | error f v => rfl
      | ok u v =>
        dsimp only
        rw [EStateM.run_bind]
        change EStateM.run (if (handled v).thread.eventsCount ≤ 0 then _ else _) (handled v) = _
        split <;> rfl
    · rfl
  · rfl

/-- The loop rule: `J i` holds whenever the loop comes to the entry at `i`, and `Q` when it
ends, at the end of the table or at a count of events that is used up. -/
theorem contract_processFrom {J : Nat → World δ → Prop} {Q : World δ → Prop}
    (hentry : ∀ i, Contract
      (fun w ↦ J i w ∧ i < w.thread.pollFds.count ∧ w.thread.pollFds.Readable i)
      (processEntry ov i)
      (fun _ w ↦ if w.thread.eventsCount - 1 ≤ 0 then Q (handled w) else J (i + 1) (handled w)) E)
    (hskip : ∀ i w, J i w → i < w.thread.pollFds.count → ¬w.thread.pollFds.Readable i →
      J (i + 1) w)
    (hend : ∀ i w, J i w → w.thread.pollFds.count ≤ i → Q w) (turns i : Nat)
    (hturns : maxFDSize ≤ turns + i) : Contract (J i) (processFrom ov turns i) (fun _ ↦ Q) E := by
  induction turns generalizing i with
  | zero =>
    refine Contract.pure fun w hw ↦ hend i w hw ?_
    have hle := w.thread.pollFds.count_le
    omega
  | succ turns ih =>
    have hrest := ih (i + 1) (by omega)
    refine Contract.get_bind fun w hw ↦ Contract.ite (fun hlt ↦ ?_) fun hge ↦ ?_
    · refine Contract.ite (fun hread ↦ ?_) fun hread ↦ ?_
      · refine ((hentry i).at_state ⟨hw, hlt, hread⟩).bind fun _ ↦ ?_
        refine Contract.bind (Q := fun _ v ↦ if v.thread.eventsCount ≤ 0 then Q v else J (i + 1) v)
          (Contract.modify fun v hv ↦ hv) fun _ ↦ Contract.get_bind fun v hv ↦ ?_
        refine Contract.ite (fun hle ↦ ?_) fun hgt ↦ ?_
        · rw [if_pos hle] at hv
          exact Contract.pure fun u hu ↦ hu ▸ hv
        · rw [if_neg hgt] at hv
          exact hrest.at_state hv
      · exact hrest.at_state (hskip i w hw hlt hread)
    · exact Contract.pure fun v hv ↦ hv ▸ hend i w hw (by omega)

/-- The loop over the entries keeps what the handlers and the counting of entries keep. -/
theorem keeps_processFrom
    (hcount : ∀ (count : NetworkThread → Int) w, I w →
      I (w.withThread fun th ↦ { th with eventsCount := count th }))
    (hov : HandlersKeep I E ov) : Keeps I E (processFrom ov maxFDSize 0) := by
  refine contract_processFrom (J := fun _ ↦ I) (fun i ↦ ?_) (fun _ _ hw _ _ ↦ hw)
    (fun _ _ hw _ ↦ hw) maxFDSize 0 (Nat.le_refl _)
  refine (hov.entry i).mono (fun _ hw ↦ hw) (fun _ w hw ↦ ?_) fun _ _ hw ↦ hw
  split <;> exact hcount _ w hw

namespace LoopInvariant

/-- Waiting keeps the invariant. -/
theorem waitNetworkEvent (h : LoopInvariant I) : Keeps I E waitNetworkEvent := by
  refine Keeps.get_bind fun w₀ ↦ ?_
  refine (keeps_consult h.next).bind fun o ↦ ?_
  refine (keeps_emit ?_).bind fun _ ↦ Keeps.ite (Keeps.ite ?_ ?_) ?_
  · exact fun w ↦ h.record _ w trivial
  · exact (keeps_modifyThread (h.eventsCount _)).bind fun _ ↦ Keeps.pure _
  · refine (keeps_emit ?_).bind fun _ ↦ ?_
    · exact fun w ↦ h.record _ w trivial
    · exact (keeps_modifyThread (h.eventsCount _)).bind fun _ ↦ Keeps.pure _
  · exact (keeps_modifyThread (h.report _ _)).bind fun _ ↦ Keeps.pure _

/-- `Run` keeps the invariant. -/
theorem run (h : LoopInvariant I) (hov : HandlersKeep I E ov) : Keeps I E (run ov) := by
  refine hov.others.bind fun _ ↦ Keeps.get_bind fun w ↦ Keeps.ite ?_ (Keeps.pure _)
  refine h.waitNetworkEvent.bind fun b ↦ Keeps.ite ?_ (Keeps.pure _)
  refine hov.others.bind fun _ ↦ Keeps.get_bind fun v ↦ Keeps.get_bind fun v' ↦ ?_
  refine Keeps.ite ?_ (Keeps.pure _)
  exact ((keeps_processFrom h.eventsCount hov).bind fun _ ↦ Keeps.pure _).bind fun _ ↦ Keeps.pure _

end LoopInvariant
end HeartbeatSpec.Legacy
