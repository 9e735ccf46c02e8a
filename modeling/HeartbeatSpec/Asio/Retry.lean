import HeartbeatSpec.Asio.Handler

/-!
# Starting again

Library `Asio`. `start` opens the socket and then sets it up,
`asio_base/HeartBeatSession.cpp:23–30`, and nothing closes it again when a later call throws. An
attempt can therefore be repeated exactly as long as every one before it was refused its socket. The
legacy responder opens a socket of its own for each attempt,
`legacy_compatible/CiHBResponser.cpp:118–159`.
-/

namespace HeartbeatSpec.Asio
open HeartbeatSpec.Base HeartbeatSpec.Message

/-- What the operating system answers to the calls of one `start`. -/
structure Attempt where
  opening : Option ErrorCode
  setOption : Option ErrorCode
  binding : Option ErrorCode
  deriving DecidableEq, Repr

/-- Every call is granted. -/
def Attempt.granted : Attempt := ⟨none, none, none⟩

/-- `start` with these answers. -/
def Attempt.run (alreadyOpen : ErrorCode) (a : Attempt) : Call Unit :=
  start alreadyOpen a.opening a.setOption a.binding

/-- Where an attempt leaves the session; an exception is caught by the caller. -/
def afterAttempt : EStateM.Result AsioFault System Unit → System
  | .ok _ s => s
  | .error _ s => s

/-- `start` is called. -/
def attemptStep (alreadyOpen : ErrorCode) (s : System) (a : Attempt) : Option System :=
  some (afterAttempt ((a.run alreadyOpen).run s))

/-- The attempt throws. -/
def Throws (alreadyOpen : ErrorCode) (s : System) (a : Attempt) : Prop :=
  ∃ f t, (a.run alreadyOpen).run s = .error f t

/-- An attempt that is granted everything would succeed, and arm a receive. -/
def CanStart (alreadyOpen : ErrorCode) (s : System) : Prop :=
  ∃ t, (Attempt.granted.run alreadyOpen).run s = .ok () t ∧ t.pending = s.pending + 1

/-- The system with its socket open. -/
def System.opened (s : System) : System :=
  { s with session := { s.session with socket := some ⟨true⟩ } }

section Attempts

variable {alreadyOpen : ErrorCode} {s t : System} {sock : UdpSocket} {a : Attempt}

/-- On an open socket every attempt throws. -/
theorem run_attempt_of_open (h : s.session.socket = some sock) (hopen : sock.isOpen = true) :
    (a.run alreadyOpen).run s = .error (.systemError alreadyOpen) s := by
  simp only [Attempt.run, start, EStateM.run_bind, run_derefSocket_some h, hopen, if_true]
  rfl

/-- An attempt that is refused its socket changes nothing. -/
theorem run_attempt_of_refused (h : s.session.socket = some sock) (hclosed : sock.isOpen = false)
    {ec : ErrorCode} (ha : a.opening = some ec) :
    (a.run alreadyOpen).run s = .error (.systemError ec) s := by
  simp only [Attempt.run, start, EStateM.run_bind, run_derefSocket_some h, hclosed, ha,
    Bool.false_eq_true, if_false]
  rfl

/-- Any other attempt leaves the socket open, whether it succeeds or throws. -/
theorem session_attempt_of_opening (h : s.session.socket = some sock)
    (hclosed : sock.isOpen = false) (ha : a.opening = none) :
    (afterAttempt ((a.run alreadyOpen).run s)).session = s.opened.session := by
  simp only [Attempt.run, start, EStateM.run_bind, run_derefSocket_some h, hclosed, ha,
    Bool.false_eq_true, if_false, run_modifySession]
  cases a.setOption with
  | some ec => rfl
  | none =>
    cases a.binding with
    | some ec => rfl
    | none => rfl

/-- A socket that is closed can be started. -/
theorem canStart_iff (h : s.session.socket = some sock) :
    CanStart alreadyOpen s ↔ sock.isOpen = false := by
  constructor
  · rintro ⟨t, ht, -⟩
    apply eq_false_of_ne_true
    intro hopen
    rw [run_attempt_of_open h hopen] at ht
    cases ht
  · intro hclosed
    refine ⟨{ s.opened with pending := s.pending + 1 }, ?_, rfl⟩
    simp only [Attempt.run, Attempt.granted, start, EStateM.run_bind, run_derefSocket_some h,
      hclosed, Bool.false_eq_true, if_false, run_modifySession]
    rfl

/-- What an attempt does to the socket. -/
theorem socket_attemptStep (h : s.session.socket = some sock)
    (hstep : attemptStep alreadyOpen s a = some t) :
    t.session.socket = some ⟨sock.isOpen || a.opening.isNone⟩ := by
  obtain rfl := Option.some.inj hstep
  cases hopen : sock.isOpen with
  | true =>
    rw [run_attempt_of_open h hopen, Bool.true_or, ← hopen]
    exact h
  | false =>
    cases ha : a.opening with
    | some ec =>
      rw [run_attempt_of_refused h hopen ha]
      change s.session.socket = some ⟨false⟩
      rw [h, ← hopen]
    | none =>
      rw [session_attempt_of_opening h hopen ha]
      rfl

/-- A closed session is left as it was exactly if the attempt is refused its socket. -/
theorem unchanged_iff (h : s.session.socket = some ⟨false⟩)
    (hstep : attemptStep alreadyOpen s a = some t) : t = s ↔ a.opening ≠ none := by
  constructor
  · rintro rfl hnone
    have hsocket := socket_attemptStep h hstep
    rw [h, hnone] at hsocket
    cases hsocket
  · intro hrefused
    obtain ⟨ec, hec⟩ := Option.ne_none_iff_exists'.mp hrefused
    rw [attemptStep, run_attempt_of_refused h rfl hec] at hstep
    exact (Option.some.inj hstep).symm

/-! ### Sequences of attempts -/

variable {identity : Identity} {hbPort : UInt16} {tr : List (Transition System Attempt)}

/-- After a sequence of attempts the socket is open exactly if one of them was given it. -/
theorem socket_attempts (h : Runs (attemptStep alreadyOpen) (System.new identity hbPort) tr s) :
    s.session.socket = some ⟨tr.any fun x ↦ x.label.opening.isNone⟩ := by
  induction h with
  | nil => rfl
  | snoc h hstep ih =>
    rw [socket_attemptStep ih hstep, List.any_append, List.any_cons, List.any_nil, Bool.or_false]

/-- After a sequence of attempts a granted one succeeds and arms a receive if and only if each of
them was refused its socket; and they have left the session as it was under the same condition. -/
theorem start_retriable_iff
    (h : Runs (attemptStep alreadyOpen) (System.new identity hbPort) tr s) :
    (CanStart alreadyOpen s ↔ ∀ x ∈ tr, x.label.opening ≠ none) ∧
      ((∀ x ∈ tr, x.target = x.source) ↔ ∀ x ∈ tr, x.label.opening ≠ none) := by
  constructor
  · rw [canStart_iff (socket_attempts h)]
    simp only [List.any_eq_false, Option.isNone_iff_eq_none, ne_eq]
  · refine h.forall_iff_of_kept (I := fun s ↦ s.session.socket = some ⟨false⟩)
      (C := fun _ a _ ↦ a.opening ≠ none) (P := fun s _ t ↦ t = s) (fun s a t hs hst hrefused ↦ ?_)
      (fun s a t hs hst ↦ unchanged_iff hs hst) rfl
    rw [(unchanged_iff hs hst).mpr hrefused]
    exact hs

end Attempts

/-- The error of `open` on an open socket. -/
def alreadyOpenError : ErrorCode := ⟨1, "Already open"⟩

/-- Two attempts are refused a socket, and the next is granted everything. -/
theorem start_retriable_iff_refused :
    ∃ tr s, Runs (attemptStep alreadyOpenError) (System.new ⟨[], []⟩ 8090) tr s ∧
      (∀ x ∈ tr, Throws alreadyOpenError x.source x.label) ∧
      CanStart alreadyOpenError s := by
  have hrefused : attemptStep alreadyOpenError (System.new ⟨[], []⟩ 8090)
      ⟨some ⟨24, "Too many open files"⟩, none, none⟩ = some (System.new ⟨[], []⟩ 8090) := rfl
  have hrun := (Runs.nil.snoc hrefused).snoc hrefused
  refine ⟨_, _, hrun, ?_, (start_retriable_iff hrun).1.mpr ?_⟩
  · intro x hx
    simp only [List.nil_append, List.cons_append, List.mem_cons, List.not_mem_nil, or_false,
      or_self] at hx
    rw [hx]
    exact ⟨_, _, rfl⟩
  · intro x hx
    simp only [List.nil_append, List.cons_append, List.mem_cons, List.not_mem_nil, or_false,
      or_self] at hx
    rw [hx]
    simp

/-- The port is busy. -/
def busyAttempt : Attempt := ⟨none, none, some ⟨98, "Address already in use"⟩⟩

/-- A session that has once found its port busy cannot be started any more. -/
theorem start_not_retriable :
    ¬∀ tr s, Runs (attemptStep alreadyOpenError) (System.new ⟨[], []⟩ 8090) tr s →
      (∀ x ∈ tr, Throws alreadyOpenError x.source x.label) → CanStart alreadyOpenError s := by
  intro hall
  have hbusy : attemptStep alreadyOpenError (System.new ⟨[], []⟩ 8090) busyAttempt =
      some (System.new ⟨[], []⟩ 8090).opened := rfl
  have hstart := hall _ _ (Runs.nil.snoc hbusy) fun x hx ↦ by
    rw [List.mem_singleton.mp hx]
    exact ⟨_, _, rfl⟩
  have hopen : (System.new ⟨[], []⟩ 8090).opened.session.socket = some ⟨true⟩ := rfl
  cases (canStart_iff hopen).mp hstart

end HeartbeatSpec.Asio
