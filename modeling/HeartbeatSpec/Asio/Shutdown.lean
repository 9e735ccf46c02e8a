import HeartbeatSpec.Asio.Handler

/-!
# Shutdown

Library `Asio`. `clear` resets `socket_` (`asio_base/HeartBeatSession.cpp:32–41`), while a
datagram that was received before is still handed to its handler, and an override of
`handle_error` may call `clear` in the middle of one. The handler dereferences the pointer
without a test, so shutdown is safe exactly as long as neither happens.
-/

namespace HeartbeatSpec.Asio
open HeartbeatSpec.Base HeartbeatSpec.Message

/-- A dispatched handler of a datagram finds the socket there, and no `handle_error` that it
calls clears the session. -/
def KeepsSocket (e : Endian) (s : System) (l : Event) : Prop :=
  ∀ send hook, l = .dispatch send hook → ∀ d, s.completed.head? = some (.received d) →
    s.session.socket ≠ none ∧ (Reports e s.session send (d.bytes.take 8) → hook = .returns)

variable {e : Endian} {s t : System}

/-- A step dereferences no null pointer exactly if it keeps the socket for its handler. -/
theorem crashed_step_iff {l : Event} (h : step e s l = some t) :
    t.crashed = false ↔ KeepsSocket e s l := by
  have hcrash := crashed_of_step h
  cases l with
  | complete c =>
    rw [step_complete hcrash] at h
    refine iff_of_true ?_ fun _ _ h ↦ by cases h
    split at h
    · cases h
      cases c <;> exact hcrash
    · cases h
  | dispatch send hook =>
    cases hq : s.completed with
    | nil =>
      rw [step_dispatch_nil hq] at h
      cases h
    | cons c rest =>
      rw [step_dispatch hcrash hq] at h
      cases c with
      | failed ec =>
        obtain ⟨u, hu, hc⟩ := run_handleReadRequest_failed_returns e send hook ec
          { s with completed := rest }
        rw [hu] at h
        cases h
        exact iff_of_true (hc.trans hcrash) fun _ _ _ d hd ↦ by simp [hq] at hd
      | received d =>
        have hcases := run_handleReadRequest_received_cases e send hook d
          { s with completed := rest }
        by_cases hkeep : s.session.socket ≠ none ∧
            (Reports e s.session send (d.bytes.take 8) → hook = .returns)
        · rw [if_pos hkeep] at hcases
          obtain ⟨u, hu, hc⟩ := hcases
          rw [hu] at h
          cases h
          refine iff_of_true (hc.trans hcrash) fun _ _ hl d' hd ↦ ?_
          cases hl
          simp only [hq, List.head?_cons, Option.some.injEq, Completion.received.injEq] at hd
          rw [← hd]
          exact hkeep
        · rw [if_neg hkeep] at hcases
          obtain ⟨u, hu⟩ := hcases
          rw [hu] at h
          cases h
          refine iff_of_false (by simp [settle]) fun hk ↦ hkeep ?_
          exact hk send hook rfl d (by simp [hq])
  | clear close hook =>
    obtain ⟨u, hu, hc, -⟩ := run_clear close hook s
    rw [step_clear hcrash, hu] at h
    cases h
    exact iff_of_true (hc.trans hcrash) fun _ _ h ↦ by cases h
  | setProcess st =>
    rw [step_setProcess hcrash] at h
    cases h
    exact iff_of_true hcrash fun _ _ h ↦ by cases h

/-- In every run of a started session, no step dereferences a null pointer if and only if
every handler of a datagram is dispatched while the socket is there and calls no
`handle_error` that clears the session. -/
theorem shutdown_safe_iff {m : HeartBeatSession} {tr : List (Transition System Event)}
    (h : Runs (step e) (System.started m) tr s) :
    (∀ x ∈ tr, x.target.crashed = false) ↔ ∀ x ∈ tr, KeepsSocket e x.source x.label :=
  h.forall_iff (I := fun _ ↦ True) (C := fun s l _ ↦ KeepsSocket e s l)
    (P := fun _ _ t ↦ t.crashed = false) (fun _ _ _ _ _ ↦ trivial)
    (fun _ _ _ _ hst ↦ crashed_step_iff hst) trivial

/-- The session is cleared while its receive is armed, and the aborted receive is handled. -/
def abortedSchedule : List Event :=
  [.clear none .returns, .dispatch (.sent 0) .returns]

/-- The criterion at a session that is cleared while it waits. -/
theorem shutdown_safe_iff_aborted :
    (exec (step .little) (System.started (.new ⟨[], []⟩ 8090)) abortedSchedule).map
        (fun s ↦ (s.crashed, s.pending)) = some (false, 0) ∧
      ((∀ x ∈ trace (step .little) (System.started (.new ⟨[], []⟩ 8090)) abortedSchedule,
          x.target.crashed = false) ↔
        ∀ x ∈ trace (step .little) (System.started (.new ⟨[], []⟩ 8090)) abortedSchedule,
          KeepsSocket .little x.source x.label) :=
  ⟨by decide, shutdown_safe_iff (Runs.of_exec rfl)⟩

/-- The session is cleared after a request has been received and before it is handled. -/
def lateClearSystem : System :=
  settle ((clear none .returns).run
    (deliver (.received ⟨⟨1, 2⟩, [0, 0, 0, 0, 0, 0, 0, 7]⟩)
      (System.started (.new ⟨[], []⟩ 8090))))

/-- The handler of a request that was received before `clear` dereferences a null pointer. -/
theorem shutdown_crashes :
    ¬∀ tr s, Runs (step .little) (System.started (.new ⟨[], []⟩ 8090)) tr s →
      ∀ x ∈ tr, x.target.crashed = false := by
  intro hall
  obtain ⟨s, hs, hcrashed⟩ :
      ∃ s, exec (step .little) (System.started (.new ⟨[], []⟩ 8090))
        [.complete (.received ⟨⟨1, 2⟩, [0, 0, 0, 0, 0, 0, 0, 7]⟩), .clear none .returns] =
          some s ∧ (step .little s (.dispatch (.sent 20) .returns)).map (·.crashed) = some true :=
    ⟨lateClearSystem, by decide, by decide⟩
  obtain ⟨t, ht, htrue⟩ := Option.map_eq_some_iff.mp hcrashed
  have hfalse := hall _ _ ((Runs.of_exec hs).snoc ht) _
    (List.mem_append_right _ List.mem_cons_self)
  cases htrue.symm.trans hfalse

end HeartbeatSpec.Asio
