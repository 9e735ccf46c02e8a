import HeartbeatSpec.Asio.Handler

/-!
# The receive loop

Library `Asio`. The loop of a started session that nobody clears is kept going by the
handler, which arms the next receive (`asio_base/HeartBeatSession.cpp:88–120`). It does so
for every datagram and every outcome of the reply, and for no receive that failed.
-/

namespace HeartbeatSpec.Asio
open HeartbeatSpec.Base HeartbeatSpec.Message

/-- The event calls no `clear`. -/
def Event.KeepsOpen : Event → Prop
  | .clear _ _ => False
  | .dispatch _ hook => hook = .returns
  | .complete _ | .setProcess _ => True

/-- After a handler has returned, exactly one receive is armed. -/
def Rearms (l : Event) (t : System) : Prop :=
  ∀ send hook, l = .dispatch send hook → t.crashed = false ∧ t.pending = 1

/-- The handler that is dispatched is one of a datagram, not of a failed receive. -/
def DispatchesDatagram (s : System) (l : Event) : Prop :=
  ∀ send hook, l = .dispatch send hook → ∀ ec, s.completed.head? ≠ some (.failed ec)

/-- The socket is there, and at most one receive is armed or completed. -/
structure Live (s : System) : Prop where
  socket : ∃ sock, s.session.socket = some sock
  crashed : s.crashed = false
  one : s.pending + s.completed.length ≤ 1

/-- A started session is live. -/
theorem live_started (m : HeartBeatSession) : Live (System.started m) :=
  ⟨⟨_, rfl⟩, rfl, Nat.le_refl 1⟩

/-- The state in which a successful first `start` leaves a session. -/
theorem run_start (alreadyOpen : ErrorCode) (identity : Identity) (hbPort : UInt16) :
    (start alreadyOpen none none none).run (System.new identity hbPort) =
      .ok () (System.started (.new identity hbPort)) := rfl

variable {e : Endian} {s t : System}

/-- The handler of a datagram answers a request and arms one more receive. -/
theorem run_handleReadRequest_received_returns {sock : UdpSocket}
    (h : s.session.socket = some sock) (e : Endian) (send : SendOutcome) (d : Datagram) :
    ∃ es, (handleReadRequest e send .returns (.received d)).run s =
        .ok () { s with pending := s.pending + 1, trace := s.trace ++ es } ∧
      sends es =
        if requestWord e (d.bytes.take 8) = CiHBMessageType.heartbeatRequest.code then
          [⟨s.session.senderEndpoint,
            responseBytes e s.session (parseRequest e (d.bytes.take 8)).2⟩]
        else [] := by
  obtain ⟨es, hr, hes⟩ := run_handleRequest_returns h e send (d.bytes.take 8)
  refine ⟨es, ?_, hes⟩
  rw [run_handleReadRequest_received, EStateM.run_bind, hr]
  exact run_doReadRequest_some h

/-- A step that calls no `clear` keeps a session live, and re-arms exactly if it dispatches
no failed receive. -/
theorem live_step (hs : Live s) {l : Event} (h : step e s l = some t) (hl : l.KeepsOpen) :
    Live t ∧ (Rearms l t ↔ DispatchesDatagram s l) := by
  obtain ⟨⟨sock, hsock⟩, hcrash, hone⟩ := hs
  cases l with
  | complete c =>
    have hno : Rearms (.complete c) t ↔ DispatchesDatagram s (.complete c) :=
      iff_of_true (fun _ _ h ↦ by cases h) fun _ _ h ↦ by cases h
    refine ⟨?_, hno⟩
    rw [step_complete hcrash] at h
    split at h
    · cases h
      have hlen : s.pending - 1 + (s.completed ++ [c]).length ≤ 1 := by
        rw [List.length_append, List.length_singleton]
        omega
      cases c with
      | received d => exact ⟨⟨sock, hsock⟩, hcrash, hlen⟩
      | failed ec => exact ⟨⟨sock, hsock⟩, hcrash, hlen⟩
    · cases h
  | dispatch send hook =>
    cases hl
    cases hq : s.completed with
    | nil =>
      rw [step_dispatch_nil hq] at h
      cases h
    | cons c rest =>
      rw [step_dispatch hcrash hq] at h
      rw [hq, List.length_cons] at hone
      have hrest : rest = [] := List.eq_nil_of_length_eq_zero (by omega)
      subst hrest
      have hpending : s.pending = 0 := by
        rw [List.length_nil] at hone
        omega
      cases c with
      | received d =>
        obtain ⟨es, hr, -⟩ := run_handleReadRequest_received_returns
          (s := { s with completed := [] }) hsock e send d
        rw [hr] at h
        cases h
        have hp : s.pending + 1 = 1 := by rw [hpending]
        refine ⟨⟨⟨sock, hsock⟩, hcrash, hp.le⟩, ?_⟩
        refine iff_of_true (fun _ _ _ ↦ ⟨hcrash, hp⟩) fun _ _ _ ec ↦ ?_
        simp [hq]
      | failed ec =>
        rw [run_handleReadRequest_failed, run_handleError_returns] at h
        cases h
        have hp : s.pending + 0 ≤ 1 := by rw [hpending]; exact Nat.zero_le 1
        refine ⟨⟨⟨sock, hsock⟩, hcrash, hp⟩, ?_⟩
        refine iff_of_false (fun hre ↦ ?_) fun hd ↦ hd _ _ rfl ec (by simp [hq])
        have hp : s.pending = 1 := (hre _ _ rfl).2
        omega
  | clear close hook => exact hl.elim
  | setProcess st =>
    have hno : Rearms (.setProcess st) t ↔ DispatchesDatagram s (.setProcess st) :=
      iff_of_true (fun _ _ h ↦ by cases h) fun _ _ h ↦ by cases h
    rw [step_setProcess hcrash] at h
    cases h
    exact ⟨⟨⟨sock, hsock⟩, hcrash, hone⟩, hno⟩

/-- In every run of a started session in which nobody calls `clear`, exactly one receive is
armed after each handler if and only if no dispatched handler is one of a failed receive. -/
theorem never_deaf_iff {m : HeartBeatSession} {tr : List (Transition System Event)}
    (h : Runs (step e) (System.started m) tr s) (hopen : ∀ x ∈ tr, x.label.KeepsOpen) :
    (∀ x ∈ tr, Rearms x.label x.target) ↔ ∀ x ∈ tr, DispatchesDatagram x.source x.label := by
  have hrule := h.rule (I := Live) (C := fun _ l _ ↦ l.KeepsOpen)
    (P := fun s l t ↦ Rearms l t ↔ DispatchesDatagram s l)
    (fun _ _ _ hs hst hl ↦ live_step hs hst hl) (live_started m) hopen
  exact forall₂_congr hrule.2

/-- A session that reports no addresses, for runs on fixed inputs. -/
def sampleSession : HeartBeatSession := .new ⟨[], []⟩ 8090

/-- A request arrives and is answered. -/
def answeredSchedule : List Event :=
  [.complete (.received ⟨⟨1, 2⟩, [0, 0, 0, 0, 0, 0, 0, 7]⟩), .dispatch (.sent 20) .returns]

/-- The loop at a session that answers a request. -/
theorem never_deaf_iff_answered :
    (exec (step .little) (System.started sampleSession) answeredSchedule).map
        (fun s ↦ (s.pending, sends s.trace)) =
        some (1, [⟨⟨1, 2⟩, [0, 0, 0, 1, 0, 0, 0, 7, 0, 0, 0, 0, 0, 0, 0, 0, 0, 0, 0, 0]⟩]) ∧
      ((∀ x ∈ trace (step .little) (System.started sampleSession) answeredSchedule,
          Rearms x.label x.target) ↔
        ∀ x ∈ trace (step .little) (System.started sampleSession) answeredSchedule,
          DispatchesDatagram x.source x.label) :=
  ⟨by decide, never_deaf_iff (Runs.of_exec rfl) fun x hx ↦ by
    have hl := label_mem_of_mem_trace hx
    simp only [answeredSchedule, List.mem_cons, List.not_mem_nil, or_false] at hl
    rcases hl with hl | hl <;> rw [hl] <;> trivial⟩

/-- The system in which a receive has failed with error 104, `connection_reset`. -/
def refusedSystem : System :=
  deliver (.failed ⟨104, "Connection reset by peer"⟩) (System.started sampleSession)

/-- A failed receive leaves the session with no receive armed. -/
theorem goes_deaf :
    ¬∀ tr s, Runs (step .little) (System.started sampleSession) tr s →
      (∀ x ∈ tr, x.label.KeepsOpen) → ∀ x ∈ tr, Rearms x.label x.target := by
  intro hall
  have hfirst : step .little (System.started sampleSession)
      (.complete (.failed ⟨104, "Connection reset by peer"⟩)) = some refusedSystem := rfl
  obtain ⟨t, ht, hpending⟩ : ∃ t, step .little refusedSystem (.dispatch (.sent 0) .returns) =
      some t ∧ t.pending = 0 := ⟨_, rfl, rfl⟩
  have hrun := ((Runs.nil (s := System.started sampleSession)).snoc hfirst).snoc ht
  have hre := hall _ _ hrun
    (fun x hx ↦ by
      simp only [List.nil_append, List.cons_append, List.mem_cons, List.not_mem_nil,
        or_false] at hx
      rcases hx with rfl | rfl <;> trivial)
    ⟨refusedSystem, _, t⟩ (List.mem_append_right _ List.mem_cons_self)
  have hone := (hre _ _ rfl).2
  simp only [hpending] at hone
  omega

end HeartbeatSpec.Asio
