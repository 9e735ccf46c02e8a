import Mathlib.Order.Interval.Finset.Nat
import Mathlib.Order.Nat
import Mathlib.Data.Nat.Count
import HeartbeatSpec.Legacy.Scripted

/-!
# Which entries a pass services

Library `Legacy`. `ProcessReadEvent` walks the table by index while dropping a failing entry moves
the last one into its place, `legacy_compatible/legacy_support.cpp:707–733`. The entry that is
moved is not looked at again, so that each failure hides one entry more from the pass.
-/

namespace HeartbeatSpec.Legacy
open HeartbeatSpec.Base

variable {δ : Type}

/-- How many readable entries before the one at `p` fail. -/
def failingBefore (s : Script) (t : PollTable) (p : Nat) : Nat :=
  Nat.count (fun j ↦ t.Readable j ∧ s.fails (t.fds j).fd = true) p

/-- The pass reaches the entry at `p` before the end of the table has come down to it. -/
def Reached (s : Script) (t : PollTable) (p : Nat) : Prop := p + failingBefore s t p < t.count

theorem failingBefore_succ (s : Script) (t : PollTable) (p : Nat) :
    failingBefore s t (p + 1) =
      failingBefore s t p + if t.Readable p ∧ s.fails (t.fds p).fd = true then 1 else 0 :=
  Nat.count_succ _ p

/-- Entries behind one that is not reached are not reached. -/
theorem Reached.of_le {s : Script} {t : PollTable} {p q : Nat} (h : Reached s t q) (hpq : p ≤ q) :
    Reached s t p := by
  have hmono : failingBefore s t p ≤ failingBefore s t q := Nat.count_monotone _ hpq
  unfold Reached at *
  omega

/-- The pass over `t` has come to the entry at `i`: the entries from there on are still in place,
and `ReceiveIntMessage` has been called once for each readable one before. -/
structure Passing (s : Script) (t : PollTable) (i : Nat) (v : World (Recorded δ)) : Prop where
  count : v.thread.pollFds.count + failingBefore s t i = t.count
  same : ∀ j, i ≤ j → j < v.thread.pollFds.count → v.thread.pollFds.fds j = t.fds j
  nodup : v.thread.pollFds.descriptors.Nodup
  reached : ∀ p < i, Reached s t p
  events : (Nat.count t.Readable t.count : Int) ≤
    v.thread.eventsCount + Nat.count t.Readable i
  received : ∃ ps : List Nat, receives v.own.calls = ps.map (fun p ↦ (t.fds p).fd) ∧ ps.Nodup ∧
    ∀ p, p ∈ ps ↔ p < i ∧ t.Readable p

/-- `ReceiveIntMessage` has been called once for each readable entry that is reached. -/
def Serviced (s : Script) (t : PollTable) (v : World (Recorded δ)) : Prop :=
  ∃ ps : List Nat, receives v.own.calls = ps.map (fun p ↦ (t.fds p).fd) ∧ ps.Nodup ∧
    ∀ p, p ∈ ps ↔ p < t.count ∧ t.Readable p ∧ Reached s t p

namespace Passing

variable {s : Script} {t : PollTable} {i : Nat} {v : World (Recorded δ)}

/-- The entry that the pass has come to is reached. -/
theorem reached_self (h : Passing s t i v) (hi : i < v.thread.pollFds.count) : Reached s t i := by
  have hcount := h.count
  unfold Reached
  omega

theorem reached_succ (h : Passing s t i v) (hi : i < v.thread.pollFds.count) :
    ∀ p < i + 1, Reached s t p := by
  intro p hp
  rcases Nat.lt_succ_iff_lt_or_eq.mp hp with hp | rfl
  · exact h.reached p hp
  · exact h.reached_self hi

/-- At the end of the table, and when the events are used up, every readable entry that is
reached has been serviced. -/
theorem finished (h : Passing s t i v)
    (hend : v.thread.pollFds.count ≤ i ∨ v.thread.eventsCount ≤ 0) : Serviced s t v := by
  obtain ⟨ps, hreceives, hnodup, hps⟩ := h.received
  refine ⟨ps, hreceives, hnodup, fun p ↦ ?_⟩
  rw [hps]
  constructor
  · rintro ⟨hp, hread⟩
    have hreached := h.reached p hp
    refine ⟨?_, hread, hreached⟩
    unfold Reached at hreached
    omega
  · rintro ⟨hp, hread, hreached⟩
    refine ⟨?_, hread⟩
    by_contra hge
    rcases hend with hend | hend
    · have hi := hreached.of_le (Nat.le_of_not_lt hge)
      have hcount := h.count
      unfold Reached at hi
      omega
    · have hevents := h.events
      have hlt : Nat.count t.Readable i < Nat.count t.Readable t.count := by
        have hstrict := Nat.count_strict_mono hread hp
        have hmono := Nat.count_monotone t.Readable (Nat.le_of_not_lt hge)
        omega
      omega

/-- An entry that is not readable is passed by. -/
theorem skip (h : Passing s t i v) (hi : i < v.thread.pollFds.count)
    (hread : ¬v.thread.pollFds.Readable i) : Passing s t (i + 1) v := by
  have hread' : ¬t.Readable i := by
    unfold PollTable.Readable at hread ⊢
    rw [← h.same i (Nat.le_refl i) hi]
    exact hread
  have hfailing : failingBefore s t (i + 1) = failingBefore s t i := by
    rw [failingBefore_succ, if_neg fun hc ↦ hread' hc.1, Nat.add_zero]
  have hcount : Nat.count t.Readable (i + 1) = Nat.count t.Readable i := by
    rw [Nat.count_succ, if_neg hread', Nat.add_zero]
  obtain ⟨ps, hreceives, hnodup, hps⟩ := h.received
  constructor
  · rw [hfailing]
    exact h.count
  · intro j hj hlt
    exact h.same j (by omega) hlt
  · exact h.nodup
  · exact h.reached_succ hi
  · rw [hcount]
    exact h.events
  · refine ⟨ps, hreceives, hnodup, fun p ↦ ?_⟩
    rw [hps]
    constructor
    · rintro ⟨hp, hp'⟩
      exact ⟨by omega, hp'⟩
    · rintro ⟨hp, hp'⟩
      refine ⟨?_, hp'⟩
      rcases Nat.lt_succ_iff_lt_or_eq.mp hp with hp | rfl
      · exact hp
      · exact absurd hp' hread'

/-- A readable entry is serviced, and leaves the entries behind it in place. -/
theorem entry (h : Passing s t i v) (hi : i < v.thread.pollFds.count)
    (hread : v.thread.pollFds.Readable i) :
    ∃ v', (processEntry (recorded (scripted s)) i).run v = .ok () v' ∧
      Passing s t (i + 1) (handled v') := by
  obtain ⟨v', hrun, hplain, hreceives'⟩ := run_processEntry_recorded s (w := v) (i := i) hread.1
  refine ⟨v', hrun, ?_⟩
  have hthread : v'.thread = (Legacy.serviced s i v.plain).thread := congrArg World.thread hplain
  have htable := pollFds_serviced s (w := v.plain) h.nodup hi hread.1
  have hsame : v.thread.pollFds.fds i = t.fds i := h.same i (Nat.le_refl i) hi
  have hslot : v.slot i = (t.fds i).fd := congrArg PollFd.fd hsame
  have hread' : t.Readable i := by
    unfold PollTable.Readable at hread ⊢
    rw [← hsame]
    exact hread
  have hslot' : v.plain.slot i = (t.fds i).fd := hslot
  rw [← hthread, hslot'] at htable
  change v'.thread.pollFds = if s.fails (t.fds i).fd = true then
    (v.thread.pollFds.clearRevents i).removeAt i else v.thread.pollFds.clearRevents i at htable
  have hsettled : Settled v.thread.pollFds i v'.thread.pollFds := by
    rw [htable]
    split
    · exact Or.inr rfl
    · exact Or.inl rfl
  obtain ⟨ps, hreceives, hps_nodup, hps⟩ := h.received
  constructor
  · change v'.thread.pollFds.count + _ = _
    have hcount := h.count
    rw [htable, failingBefore_succ]
    by_cases hfails : s.fails (t.fds i).fd = true
    · rw [if_pos hfails, if_pos ⟨hread', hfails⟩, PollTable.count_removeAt,
        PollTable.count_clearRevents]
      omega
    · rw [if_neg hfails, if_neg fun hc ↦ hfails hc.2, PollTable.count_clearRevents]
      omega
  · intro j hj hlt
    have hlt' := Nat.lt_of_lt_of_le hlt hsettled.count_le
    exact (hsettled.fds hj hlt).trans (h.same j (by omega) hlt')
  · exact hsettled.nodup h.nodup hi
  · exact h.reached_succ hi
  · change _ ≤ v'.thread.eventsCount - 1 + _
    have hevents := h.events
    have hsame' : v'.thread.eventsCount = v.thread.eventsCount :=
      (congrArg NetworkThread.eventsCount hthread).trans (eventsCount_serviced s i v.plain)
    rw [hsame', Nat.count_succ, if_pos hread']
    omega
  · refine ⟨ps ++ [i], ?_, ?_, fun p ↦ ?_⟩
    · change receives v'.own.calls = _
      rw [hreceives', hreceives, hslot, List.map_append]
      rfl
    · rw [← List.concat_eq_append]
      apply hps_nodup.concat
      exact fun hi ↦ Nat.lt_irrefl i ((hps i).mp hi).1
    · rw [List.mem_append, List.mem_singleton, hps]
      constructor
      · rintro (⟨hp, hp'⟩ | rfl)
        · exact ⟨by omega, hp'⟩
        · exact ⟨by omega, hread'⟩
      · rintro ⟨hp, hp'⟩
        rcases Nat.lt_succ_iff_lt_or_eq.mp hp with hp | rfl
        · exact Or.inl ⟨hp, hp'⟩
        · exact Or.inr rfl

end Passing

/-- A pass over distinct descriptors services each readable entry that it reaches once, and no
other. -/
theorem serviced_processReadEvent (s : Script) (w : World δ)
    (hdistinct : w.thread.pollFds.descriptors.Nodup)
    (hevents : (Nat.count w.thread.pollFds.Readable w.thread.pollFds.count : Int) ≤
      w.thread.eventsCount) :
    ∃ w', (processReadEvent (recorded (scripted s))).run (w.recorded []) = .ok true w' ∧
      Serviced s w.thread.pollFds w' := by
  have hstart : Passing s w.thread.pollFds 0 (w.recorded []) := by
    constructor
    · rfl
    · intro j _ _
      rfl
    · exact hdistinct
    · intro p hp
      omega
    · rw [Nat.count_zero, Int.natCast_zero, Int.add_zero]
      exact hevents
    · exact ⟨[], rfl, List.nodup_nil, by simp⟩
  have hpass := @contract_processFrom _ (fun _ _ ↦ False) (recorded (scripted s))
    (Passing s w.thread.pollFds) (Serviced s w.thread.pollFds)
    (fun i ↦ Contract.of_run fun v hv ↦ by
      obtain ⟨v', hrun, hnext⟩ := hv.1.entry hv.2.1 hv.2.2
      refine ⟨(), v', hrun, ?_⟩
      split
      · next hused => exact hnext.finished (Or.inr hused)
      · exact hnext)
    (fun _ _ hv hlt hread ↦ hv.skip hlt hread) (fun _ _ hv hend ↦ hv.finished (Or.inl hend))
    maxFDSize 0 (Nat.le_refl _) (w.recorded []) hstart
  rw [processReadEvent, EStateM.run_bind]
  cases hrun : (processFrom (recorded (scripted s)) maxFDSize 0).run (w.recorded []) with
  | ok a w' =>
    rw [hrun] at hpass
    exact ⟨w', rfl, hpass⟩
  | error f w' =>
    rw [hrun] at hpass
    exact hpass.elim

/-- The descriptor has a readable entry. -/
def PollTable.Ready (t : PollTable) (sockfd : Int) : Prop :=
  ∃ p < t.count, t.Readable p ∧ (t.fds p).fd = sockfd

/-- `ReceiveIntMessage` is called once for each readable descriptor, and for no other, exactly if
every readable entry is reached. -/
theorem Serviced.each_once_iff {s : Script} {t : PollTable} {v : World (Recorded δ)}
    (h : Serviced s t v) (hdistinct : t.descriptors.Nodup) :
    (∀ sockfd, (t.Ready sockfd → (receives v.own.calls).count sockfd = 1) ∧
        (¬t.Ready sockfd → (receives v.own.calls).count sockfd = 0)) ↔
      ∀ p < t.count, t.Readable p → Reached s t p := by
  obtain ⟨ps, hreceives, hnodup, hps⟩ := h
  have hinj := PollTable.nodup_descriptors_iff.mp hdistinct
  rw [hreceives]
  constructor
  · intro honce p hp hread
    have hcount := (honce (t.fds p).fd).1 ⟨p, hp, hread, rfl⟩
    have hmem : (t.fds p).fd ∈ ps.map fun p ↦ (t.fds p).fd := by
      apply List.count_pos_iff.mp
      omega
    obtain ⟨q, hq, hfd⟩ := List.mem_map.mp hmem
    obtain ⟨hqlt, -, hreached⟩ := (hps q).mp hq
    rw [← hinj q hqlt p hp hfd]
    exact hreached
  · intro hall sockfd
    constructor
    · rintro ⟨p, hp, hread, rfl⟩
      apply List.count_eq_one_of_mem
      · apply hnodup.map_on
        intro p hp q hq hfd
        exact hinj p ((hps p).mp hp).1 q ((hps q).mp hq).1 hfd
      · exact List.mem_map_of_mem ((hps p).mpr ⟨hp, hread, hall p hp hread⟩)
    · intro hready
      apply List.count_eq_zero_of_not_mem
      intro hmem
      obtain ⟨p, hp, hfd⟩ := List.mem_map.mp hmem
      obtain ⟨hlt, hread, -⟩ := (hps p).mp hp
      exact hready ⟨p, hlt, hread, hfd⟩

/-- A pass over distinct descriptors, with the count of events that `poll` returns, services every
ready descriptor exactly once if and only if no readable entry is hidden by the failures of the
readable ones before it. -/
theorem services_each_once_iff (s : Script) (w : World δ)
    (hdistinct : w.thread.pollFds.descriptors.Nodup)
    (hevents : w.thread.eventsCount =
      Nat.count (fun i ↦ (w.thread.pollFds.fds i).revents ≠ 0) w.thread.pollFds.count) :
    ∃ w', (processReadEvent (recorded (scripted s))).run (w.recorded []) = .ok true w' ∧
      ((∀ sockfd,
          (w.thread.pollFds.Ready sockfd → (receives w'.own.calls).count sockfd = 1) ∧
          (¬w.thread.pollFds.Ready sockfd → (receives w'.own.calls).count sockfd = 0)) ↔
        ∀ p < w.thread.pollFds.count, w.thread.pollFds.Readable p →
          Reached s w.thread.pollFds p) := by
  have hle : Nat.count w.thread.pollFds.Readable w.thread.pollFds.count ≤
      Nat.count (fun i ↦ (w.thread.pollFds.fds i).revents ≠ 0) w.thread.pollFds.count := by
    apply Nat.count_mono_left
    intro i _ hread hzero
    apply hread.2
    rw [hzero]
    rfl
  obtain ⟨w', hrun, hserviced⟩ := serviced_processReadEvent s w hdistinct (by omega)
  exact ⟨w', hrun, hserviced.each_once_iff hdistinct⟩

/-- Two registered descriptors that `poll` has both found readable. -/
def bothReadable : World Unit :=
  newThread.withThread fun th ↦
    { th with
      pollFds := (PollTable.pollFDAdd 4 (PollTable.pollFDAdd 3 .empty).2).2.report fun _ ↦ readMask
      eventsCount := 2 }

/-- Both are serviced if only the second fails. -/
theorem services_each_once_iff_second :
    (∀ p < 2, Reached (.failing 4) bothReadable.thread.pollFds p) ∧
      ∃ w', (processReadEvent (recorded (scripted (.failing 4)))).run
          (bothReadable.recorded []) = .ok true w' ∧
        ((∀ sockfd,
            (bothReadable.thread.pollFds.Ready sockfd → (receives w'.own.calls).count sockfd = 1) ∧
            (¬bothReadable.thread.pollFds.Ready sockfd →
              (receives w'.own.calls).count sockfd = 0)) ↔
          ∀ p < bothReadable.thread.pollFds.count, bothReadable.thread.pollFds.Readable p →
            Reached (.failing 4) bothReadable.thread.pollFds p) := by
  constructor
  · unfold Reached failingBefore
    decide +kernel
  · exact services_each_once_iff _ bothReadable (by decide +kernel) (by decide +kernel)

/-- The second is not serviced if the first fails. -/
theorem hides_entry :
    ¬∀ (s : Script) (w : World Unit), w.thread.pollFds.descriptors.Nodup →
      w.thread.eventsCount =
        Nat.count (fun i ↦ (w.thread.pollFds.fds i).revents ≠ 0) w.thread.pollFds.count →
      ∀ sockfd, w.thread.pollFds.Ready sockfd →
        (receives (World.after ((processReadEvent (recorded (scripted s))).run
          (w.recorded []))).own.calls).count sockfd = 1 := by
  intro hall
  have hcount : (receives (World.after ((processReadEvent (recorded (scripted
      (.failing 3)))).run (bothReadable.recorded []))).own.calls).count 4 = 0 := by
    decide +kernel
  have hone := hall (.failing 3) bothReadable (by decide +kernel)
    (by decide +kernel) 4 ⟨1, by decide, by decide +kernel, by decide +kernel⟩
  omega

end HeartbeatSpec.Legacy
