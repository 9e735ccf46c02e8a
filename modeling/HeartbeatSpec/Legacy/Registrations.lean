import HeartbeatSpec.Base.Runs
import HeartbeatSpec.Legacy.Descriptors
import HeartbeatSpec.Legacy.Entries

/-!
# The poll table as a registry

Library `Legacy`. What the poll table is for is a bounded multiset of registrations. Every call
on the table, and `ExitInstance`, makes one step of this registry, with the same result.
-/

namespace HeartbeatSpec.Legacy
open HeartbeatSpec.Base

variable {δ : Type}

/-! ### The registry -/

/-- What can be asked of a registry. A mask is changed in one registration. -/
inductive RegistryOp where
  | add (sockfd : Int)
  | delete (sockfd : Int)
  | enable (r : Registration)
  | disable (r : Registration)
  | clear

/-- One step of a registry of at most `maxFDSize` registrations, with its result. -/
inductive RegistryStep : Multiset Registration → RegistryOp → Bool → Multiset Registration → Prop
  | add {rs : Multiset Registration} {sockfd : Int} (hvalid : sockfd ≠ invalidSocket)
      (hroom : rs.card < maxFDSize) :
      RegistryStep rs (.add sockfd) true (⟨sockfd, readMask⟩ ::ₘ rs)
  | addRefused {rs : Multiset Registration} {sockfd : Int}
      (h : sockfd = invalidSocket ∨ maxFDSize ≤ rs.card) : RegistryStep rs (.add sockfd) false rs
  | delete {rs : Multiset Registration} (sockfd : Int) (events : UInt16) :
      RegistryStep (⟨sockfd, events⟩ ::ₘ rs) (.delete sockfd) true rs
  | deleteRefused {rs : Multiset Registration} {sockfd : Int} (h : ∀ r ∈ rs, r.fd ≠ sockfd) :
      RegistryStep rs (.delete sockfd) false rs
  | enable (r : Registration) {rs : Multiset Registration} :
      RegistryStep (r ::ₘ rs) (.enable r) true ({ r with events := r.events ||| readMask } ::ₘ rs)
  | disable (r : Registration) {rs : Multiset Registration} :
      RegistryStep (r ::ₘ rs) (.disable r) true
        ({ r with events := r.events &&& ~~~readMask } ::ₘ rs)
  | clear {rs : Multiset Registration} : RegistryStep rs .clear true 0

/-! ### Calls on the table -/

/-- A call on the table, or `ExitInstance`. `PollFDEnable` and `PollFDDisable` are given the
index of the entry they get a pointer to. -/
inductive TableCall where
  | pollFDAdd (sockfd : Int)
  | pollFDDelete (sockfd : Int)
  | pollFDEnable (i : Nat)
  | pollFDDisable (i : Nat)
  | exitInstance
  deriving DecidableEq, Repr

namespace TableCall

/-- The call itself. -/
def call : TableCall → Call δ Bool
  | pollFDAdd sockfd => onTable (PollTable.pollFDAdd sockfd)
  | pollFDDelete sockfd => onTable (PollTable.pollFDDelete sockfd)
  | pollFDEnable i => onTable (PollTable.pollFDEnable (some i))
  | pollFDDisable i => onTable (PollTable.pollFDDisable (some i))
  | exitInstance => Legacy.exitInstance

/-- A pointer is to an entry in use. -/
def Live (t : PollTable) : TableCall → Prop
  | pollFDEnable i | pollFDDisable i => i < t.count
  | _ => True

instance (t : PollTable) : (c : TableCall) → Decidable (c.Live t)
  | pollFDEnable i | pollFDDisable i => inferInstanceAs (Decidable (i < t.count))
  | pollFDAdd _ | pollFDDelete _ | exitInstance => inferInstanceAs (Decidable True)

/-- What the call asks of the registry. -/
def op (t : PollTable) : TableCall → RegistryOp
  | pollFDAdd sockfd => .add sockfd
  | pollFDDelete sockfd => .delete sockfd
  | pollFDEnable i => .enable (t.fds i).registration
  | pollFDDisable i => .disable (t.fds i).registration
  | exitInstance => .clear

/-- The result and the table after the call. -/
def apply (t : PollTable) : TableCall → Bool × PollTable
  | pollFDAdd sockfd => t.pollFDAdd sockfd
  | pollFDDelete sockfd => t.pollFDDelete sockfd
  | pollFDEnable i => t.pollFDEnable (some i)
  | pollFDDisable i => t.pollFDDisable (some i)
  | exitInstance => (true, .empty)

/-- A call returns, and only the table matters for its result and for the table after it. -/
theorem run_call (c : TableCall) (w : World δ) :
    ∃ w', c.call.run w = .ok (c.apply w.thread.pollFds).1 w' ∧
      w'.thread.pollFds = (c.apply w.thread.pollFds).2 := by
  cases c with
  | exitInstance => exact ⟨exited w, run_exitInstance w, rfl⟩
  | pollFDAdd sockfd => exact ⟨_, rfl, rfl⟩
  | pollFDDelete sockfd => exact ⟨_, rfl, rfl⟩
  | pollFDEnable i => exact ⟨_, rfl, rfl⟩
  | pollFDDisable i => exact ⟨_, rfl, rfl⟩

end TableCall

/-- One call, given with its result. -/
def tableStep (w : World δ) (l : TableCall × Bool) : Option (World δ) :=
  if l.1.Live w.thread.pollFds then
    match l.1.call.run w with
    | .ok b w' => if b = l.2 then some w' else none
    | .error _ _ => none
  else none

theorem tableStep_eq_some {w w' : World δ} {l : TableCall × Bool} (h : tableStep w l = some w') :
    l.1.Live w.thread.pollFds ∧
      l.1.apply w.thread.pollFds = (l.2, w'.thread.pollFds) := by
  unfold tableStep at h
  obtain ⟨v, hrun, hv⟩ := l.1.run_call w
  rw [hrun] at h
  dsimp only at h
  split at h
  · next hlive =>
    split at h
    · next hb =>
      cases h
      exact ⟨hlive, Prod.ext hb hv.symm⟩
    · cases h
  · cases h

/-! ### The table is a registry -/

/-- What holds of every call, from the table before it to the table after it. -/
structure TableLaw (t : PollTable) (l : TableCall × Bool) (t' : PollTable) : Prop where
  refines : RegistryStep t.registrations (l.1.op t) l.2 t'.registrations
  wellFormed : t'.WellFormed
  add_iff : ∀ sockfd, l.1 = .pollFDAdd sockfd →
    (l.2 = true ↔ sockfd ≠ invalidSocket ∧ t.registrations.card < maxFDSize)
  delete_iff : ∀ sockfd, l.1 = .pollFDDelete sockfd → (l.2 = true ↔ sockfd ∈ t.descriptors)
  unchanged : l.2 = false → t' = t

namespace TableLaw

variable {t : PollTable}

theorem pollFDAdd (h : t.WellFormed) (sockfd : Int) :
    TableLaw t (.pollFDAdd sockfd, (t.pollFDAdd sockfd).1) (t.pollFDAdd sockfd).2 := by
  by_cases hadd : sockfd ≠ invalidSocket ∧ t.count < maxFDSize
  · have hentries := PollTable.entries_pollFDAdd hadd.1 hadd.2
    have hwf := h.pollFDAdd sockfd
    have hstep : RegistryStep t.registrations (.add sockfd) true
        (t.pollFDAdd sockfd).2.registrations := by
      rw [PollTable.registrations, PollTable.registrations, hentries, Multiset.map_cons]
      apply RegistryStep.add hadd.1
      rw [Multiset.card_map, PollTable.card_entries]
      exact hadd.2
    have hresult : (t.pollFDAdd sockfd).1 = true := by
      rw [PollTable.pollFDAdd_succeeds hadd.1 hadd.2]
    rw [hresult]
    refine ⟨hstep, hwf, ?_, ?_, ?_⟩
    · intro fd hfd
      cases hfd
      rw [PollTable.card_registrations]
      exact iff_of_true rfl hadd
    · intro fd hfd
      cases hfd
    · intro hfalse
      cases hfalse
  · rw [PollTable.pollFDAdd_fails hadd]
    refine ⟨?_, h, ?_, ?_, fun _ ↦ rfl⟩
    · apply RegistryStep.addRefused
      rw [PollTable.card_registrations]
      omega
    · intro fd hfd
      cases hfd
      rw [PollTable.card_registrations]
      exact iff_of_false Bool.false_ne_true hadd
    · intro fd hfd
      cases hfd

theorem pollFDDelete (h : t.WellFormed) (sockfd : Int) :
    TableLaw t (.pollFDDelete sockfd, (t.pollFDDelete sockfd).1) (t.pollFDDelete sockfd).2 := by
  obtain ⟨hvalid, i, hi, hfd, heq⟩ | ⟨hnone, heq⟩ := PollTable.pollFDDelete_cases sockfd t
  · rw [heq]
    refine ⟨?_, h.removeAt hi, ?_, ?_, ?_⟩
    · have hsplit := congrArg (Multiset.map PollFd.registration) (PollTable.entries_removeAt hi)
      rw [Multiset.map_cons, PollFd.registration, hfd] at hsplit
      change RegistryStep (t.entries.map _) _ _ _
      rw [← hsplit]
      exact RegistryStep.delete sockfd _
    · intro fd hfd'
      cases hfd'
    · intro fd hfd'
      cases hfd'
      exact iff_of_true rfl (PollTable.mem_descriptors.mpr ⟨i, hi, hfd⟩)
    · intro hfalse
      cases hfalse
  · have hnotin : sockfd ∉ t.descriptors := by
      obtain hinvalid | hnotin := hnone
      · intro hmem
        obtain ⟨i, hi, hfd⟩ := PollTable.mem_descriptors.mp hmem
        exact h.live i hi (hfd.trans hinvalid)
      · exact hnotin
    rw [heq]
    refine ⟨?_, h, ?_, ?_, fun _ ↦ rfl⟩
    · apply RegistryStep.deleteRefused
      intro r hr hfd
      apply hnotin
      rw [← PollTable.map_fd_registrations]
      exact Multiset.mem_map.mpr ⟨r, hr, hfd⟩
    · intro fd hfd
      cases hfd
    · intro fd hfd
      cases hfd
      exact iff_of_false Bool.false_ne_true hnotin

/-- A mask is changed in its own registration. -/
private theorem registrations_setEvents {i : Nat} (hi : i < t.count) (events : UInt16) :
    ∃ rs, t.registrations = (t.fds i).registration ::ₘ rs ∧
      (t.setEntry i { t.fds i with events := events }).registrations =
        ⟨(t.fds i).fd, events⟩ ::ₘ rs := by
  obtain ⟨rest, hrest⟩ : ∃ rest, t.entries = t.fds i ::ₘ rest :=
    Multiset.exists_cons_of_mem (mem_contents.mpr ⟨i, hi, rfl⟩)
  refine ⟨rest.map PollFd.registration, ?_, ?_⟩
  · rw [PollTable.registrations, hrest, Multiset.map_cons]
  · have hset := PollTable.entries_setEntry hi { t.fds i with events := events }
    rw [hrest, Multiset.cons_swap, Multiset.cons_inj_right] at hset
    rw [PollTable.registrations, hset, Multiset.map_cons]
    rfl

theorem pollFDEnable (h : t.WellFormed) {i : Nat} (hi : i < t.count) :
    TableLaw t (.pollFDEnable i, (t.pollFDEnable (some i)).1) (t.pollFDEnable (some i)).2 := by
  rw [PollTable.pollFDEnable, if_neg (h.live i hi)]
  obtain ⟨rs, hrs, hrs'⟩ := registrations_setEvents hi ((t.fds i).events ||| readMask)
  refine ⟨?_, h.setEvents hi _, ?_, ?_, ?_⟩
  · rw [hrs, hrs']
    exact RegistryStep.enable (t.fds i).registration
  · intro fd hfd
    cases hfd
  · intro fd hfd
    cases hfd
  · intro hfalse
    cases hfalse

theorem pollFDDisable (h : t.WellFormed) {i : Nat} (hi : i < t.count) :
    TableLaw t (.pollFDDisable i, (t.pollFDDisable (some i)).1) (t.pollFDDisable (some i)).2 := by
  rw [PollTable.pollFDDisable, if_neg (h.live i hi)]
  obtain ⟨rs, hrs, hrs'⟩ := registrations_setEvents hi ((t.fds i).events &&& ~~~readMask)
  refine ⟨?_, h.setEvents hi _, ?_, ?_, ?_⟩
  · rw [hrs, hrs']
    exact RegistryStep.disable (t.fds i).registration
  · intro fd hfd
    cases hfd
  · intro fd hfd
    cases hfd
  · intro hfalse
    cases hfalse

/-- Every call on a well-formed table makes a step of the registry. -/
theorem of_apply (h : t.WellFormed) {c : TableCall} (hlive : c.Live t) :
    TableLaw t (c, (c.apply t).1) (c.apply t).2 := by
  cases c with
  | pollFDAdd sockfd => exact pollFDAdd h sockfd
  | pollFDDelete sockfd => exact pollFDDelete h sockfd
  | pollFDEnable i => exact pollFDEnable h hlive
  | pollFDDisable i => exact pollFDDisable h hlive
  | exitInstance =>
    refine ⟨RegistryStep.clear, PollTable.wellFormed_empty, ?_, ?_, ?_⟩
    · intro fd hfd
      cases hfd
    · intro fd hfd
      cases hfd
    · intro hfalse
      cases hfalse

end TableLaw

/-! ### Runs -/

/-- The descriptors of the successful additions and of the successful deletions since the last
`ExitInstance`, one call more. -/
def tallyStep (s : Multiset Int × Multiset Int) : TableCall × Bool → Multiset Int × Multiset Int
  | (.pollFDAdd sockfd, true) => (sockfd ::ₘ s.1, s.2)
  | (.pollFDDelete sockfd, true) => (s.1, sockfd ::ₘ s.2)
  | (.exitInstance, _) => (0, 0)
  | _ => s

/-- The descriptors added and deleted since the last `ExitInstance`. -/
def tally (ls : List (TableCall × Bool)) : Multiset Int × Multiset Int := ls.foldl tallyStep (0, 0)

/-- A registry holds what has been added and not deleted. -/
theorem tallyStep_eq {rs rs' : Multiset Registration} {t : PollTable} {l : TableCall × Bool}
    {s : Multiset Int × Multiset Int} (h : RegistryStep rs (l.1.op t) l.2 rs')
    (hs : rs.map (·.fd) + s.2 = s.1) :
    rs'.map (·.fd) + (tallyStep s l).2 = (tallyStep s l).1 := by
  obtain ⟨c, b⟩ := l
  cases c with
  | pollFDAdd sockfd =>
    change RegistryStep rs (.add sockfd) b rs' at h
    cases h with
    | add _ _ =>
      change (_ ::ₘ rs).map (·.fd) + s.2 = sockfd ::ₘ s.1
      rw [Multiset.map_cons, Multiset.cons_add, hs]
    | addRefused _ => exact hs
  | pollFDDelete sockfd =>
    change RegistryStep rs (.delete sockfd) b rs' at h
    cases h with
    | delete _ events =>
      change rs'.map (·.fd) + (sockfd ::ₘ s.2) = s.1
      rw [Multiset.map_cons, Multiset.cons_add] at hs
      rw [Multiset.add_cons, hs]
    | deleteRefused _ => exact hs
  | pollFDEnable i =>
    change RegistryStep rs (.enable (t.fds i).registration) b rs' at h
    cases h
    rw [Multiset.map_cons] at hs ⊢
    exact hs
  | pollFDDisable i =>
    change RegistryStep rs (.disable (t.fds i).registration) b rs' at h
    cases h
    rw [Multiset.map_cons] at hs ⊢
    exact hs
  | exitInstance =>
    change RegistryStep rs .clear b rs' at h
    cases h
    rfl

/-- A step from a well-formed table meets the law. -/
theorem tableLaw_of_step {w w' : World δ} {l : TableCall × Bool}
    (hw : w.thread.pollFds.WellFormed) (h : tableStep w l = some w') :
    TableLaw w.thread.pollFds l w'.thread.pollFds := by
  obtain ⟨hlive, happly⟩ := tableStep_eq_some h
  have hlaw := TableLaw.of_apply hw hlive
  rw [happly] at hlaw
  exact hlaw

/-- The table refines a bounded multiset of registrations: from a new thread, every call makes
the registry's step with the registry's result on well-formed tables, and the descriptors in the
table at the end are those added since the last `ExitInstance` less those deleted since. -/
theorem poll_table_law {w w' : World δ} {tr : List (Transition (World δ) (TableCall × Bool))}
    {timeoutMillisec : Int} (hnew : w.thread = .new timeoutMillisec) (h : Runs tableStep w tr w') :
    (∀ x ∈ tr, TableLaw x.source.thread.pollFds x.label x.target.thread.pollFds) ∧
      w'.thread.pollFds.WellFormed ∧ w'.thread.pollFds.count ≤ maxFDSize ∧
      (tally (tr.map (·.label))).2 ≤ (tally (tr.map (·.label))).1 ∧
      w'.thread.pollFds.descriptors =
        (tally (tr.map (·.label))).1 - (tally (tr.map (·.label))).2 := by
  have hlaw : w'.thread.pollFds.WellFormed ∧
      (∀ x ∈ tr, TableLaw x.source.thread.pollFds x.label x.target.thread.pollFds) ∧
      w'.thread.pollFds.registrations.map (·.fd) + (tally (tr.map (·.label))).2 =
        (tally (tr.map (·.label))).1 := by
    induction h with
    | nil =>
      rw [hnew]
      exact ⟨PollTable.wellFormed_empty, by simp, rfl⟩
    | snoc hruns hstep ih =>
      obtain ⟨hwf, hall, htally⟩ := ih
      have hx := tableLaw_of_step hwf hstep
      refine ⟨hx.wellFormed, ?_, ?_⟩
      · intro x hmem
        rcases List.mem_append.mp hmem with hmem | hmem
        · exact hall x hmem
        · rw [List.mem_singleton.mp hmem]
          exact hx
      · rw [List.map_append, tally, List.foldl_append]
        exact tallyStep_eq hx.refines htally
  obtain ⟨hwf, hall, htally⟩ := hlaw
  rw [PollTable.map_fd_registrations] at htally
  refine ⟨hall, hwf, w'.thread.pollFds.count_le, ?_, ?_⟩
  · rw [← htally]
    exact Multiset.le_add_left _ _
  · rw [← htally, Multiset.add_sub_cancel_right]

/-- The second of two registrations is masked, and the first is deleted. -/
def movedCalls : List (TableCall × Bool) :=
  [(.pollFDAdd 3, true), (.pollFDAdd 4, true), (.pollFDDisable 1, true), (.pollFDDelete 3, true),
    (.pollFDDelete 3, false), (.pollFDAdd (-1), false)]

/-- The masked registration has moved to the first slot with its mask. -/
theorem poll_table_law_moved :
    ∃ w', Runs tableStep newThread (trace tableStep newThread movedCalls) w' ∧
      (w'.thread.pollFds.count, (w'.thread.pollFds.fds 0).registration) = (1, ⟨4, 0⟩) ∧
      w'.thread.pollFds.descriptors =
        (tally ((trace tableStep newThread movedCalls).map (·.label))).1 -
          (tally ((trace tableStep newThread movedCalls).map (·.label))).2 := by
  obtain ⟨w', hw', hmoved⟩ : ∃ w', exec tableStep newThread movedCalls = some w' ∧
      (w'.thread.pollFds.count, (w'.thread.pollFds.fds 0).registration) = (1, ⟨4, 0⟩) :=
    Option.map_eq_some_iff.mp (by decide +kernel)
  have hruns := Runs.of_exec hw'
  exact ⟨w', hruns, hmoved, (poll_table_law rfl hruns).2.2.2.2⟩

end HeartbeatSpec.Legacy
