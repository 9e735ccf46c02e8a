import HeartbeatSpec.Asio.Session

/-!
# What a handler does

Library `Asio`. One lemma for each function of the session: when it returns, what it sends,
and what it leaves of the socket and of the armed receives.
-/

namespace HeartbeatSpec.Asio
open HeartbeatSpec.Base HeartbeatSpec.Message

variable {e : Endian} {s : System} {send : SendOutcome} {hook : Hook}

/-- The datagrams given to `send_to`, in order. -/
def sends : List AsioEvent → List Reply
  | [] => []
  | .sendTo bytes dest :: rest => ⟨dest, bytes⟩ :: sends rest
  | .handleError _ _ :: rest => sends rest

/-- Sends of consecutive events are consecutive. -/
theorem sends_append (es fs : List AsioEvent) : sends (es ++ fs) = sends es ++ sends fs := by
  induction es with
  | nil => rfl
  | cons ev es ih => cases ev <;> simp [sends, ih]

/-! ### Runs of the functions -/

/-- Recording returns. -/
@[simp] theorem run_emit (ev : AsioEvent) (s : System) :
    (emit ev).run s = .ok () { s with trace := s.trace ++ [ev] } := rfl

/-- Changing members returns. -/
@[simp] theorem run_modifySession (f : HeartBeatSession → HeartBeatSession) (s : System) :
    (modifySession f).run s = .ok () { s with session := f s.session } := rfl

/-- A default `handle_error` only reports. -/
theorem run_handleError_returns (errorCode : Int32) (errorStr : String) (s : System) :
    (handleError .returns errorCode errorStr).run s =
      .ok () { s with trace := s.trace ++ [.handleError errorCode errorStr] } := rfl

/-- On a null pointer the socket is not there. -/
theorem run_derefSocket_none (h : s.session.socket = none) :
    derefSocket.run s = .error .nullSocket s := by
  simp only [derefSocket, EStateM.run_bind, EStateM.run_get, h]
  rfl

/-- Otherwise it is. -/
theorem run_derefSocket_some {sock : UdpSocket} (h : s.session.socket = some sock) :
    derefSocket.run s = .ok sock s := by
  simp only [derefSocket, EStateM.run_bind, EStateM.run_get, h]
  rfl

/-- No receive is armed on a null pointer. -/
theorem run_doReadRequest_none (h : s.session.socket = none) :
    doReadRequest.run s = .error .nullSocket s := by
  simp only [doReadRequest, EStateM.run_bind, run_derefSocket_none h]

/-- A receive is armed on a socket that is there. -/
theorem run_doReadRequest_some {sock : UdpSocket} (h : s.session.socket = some sock) :
    doReadRequest.run s = .ok () { s with pending := s.pending + 1 } := by
  simp only [doReadRequest, EStateM.run_bind, run_derefSocket_some h]
  rfl

/-- No reply is sent on a null pointer. -/
theorem run_doWriteResponse_none (h : s.session.socket = none) (e : Endian)
    (send : SendOutcome) (hook : Hook) (seq : Int32) :
    (doWriteResponse e send hook seq).run s = .error .nullSocket s := by
  simp only [doWriteResponse, EStateM.run_bind, EStateM.run_get, run_derefSocket_none h]

/-- The response has the size of a reply. -/
theorem length_responseBytes (e : Endian) (m : HeartBeatSession) (seq : Int32) :
    (responseBytes e m seq).length = m.identity.replySize := by
  simp only [responseBytes, List.length_append, length_storeInt, Identity.replySize]
  omega

/-- `send_to` reports an error or a short count. -/
def SendOutcome.Bad (m : HeartBeatSession) : SendOutcome → Prop
  | .failed _ => True
  | .sent n => m.identity.replySize ≠ n

instance (m : HeartBeatSession) (send : SendOutcome) : Decidable (send.Bad m) :=
  match send with
  | .failed _ => inferInstanceAs (Decidable True)
  | .sent _ => inferInstanceAs (Decidable (_ ≠ _))

/-- The state in which a reply has just been given to `send_to`. -/
def System.replied (e : Endian) (seq : Int32) (s : System) : System :=
  { s with trace := s.trace ++ [.sendTo (responseBytes e s.session seq) s.session.senderEndpoint] }

/-- A reply is sent on a socket that is there; `handle_error` is called exactly if `send_to`
reports an error or a short count. -/
theorem run_doWriteResponse_some {sock : UdpSocket} (h : s.session.socket = some sock)
    (e : Endian) (send : SendOutcome) (hook : Hook) (seq : Int32) :
    (¬send.Bad s.session ∧
      (doWriteResponse e send hook seq).run s = .ok () (s.replied e seq)) ∨
    (send.Bad s.session ∧ ∃ errorCode errorStr,
      (doWriteResponse e send hook seq).run s =
        (handleError hook errorCode errorStr).run (s.replied e seq)) := by
  cases send with
  | failed ec =>
    refine Or.inr ⟨trivial, ec.value, fromRemote s.session ec.message, ?_⟩
    simp only [doWriteResponse, EStateM.run_bind, EStateM.run_get, run_derefSocket_some h, run_emit,
      System.replied]
  | sent n =>
    have hlen := length_responseBytes e s.session seq
    by_cases hn : s.session.identity.replySize = n
    · refine Or.inl ⟨not_not.mpr hn, ?_⟩
      simp only [doWriteResponse, EStateM.run_bind, EStateM.run_get, run_derefSocket_some h,
        run_emit]
      rw [if_neg (not_not.mpr (hlen.trans hn))]
      rfl
    · refine Or.inr ⟨hn, Int32.ofNat n, fromRemote s.session "invalid send size", ?_⟩
      simp only [doWriteResponse, EStateM.run_bind, EStateM.run_get, run_derefSocket_some h,
        run_emit]
      rw [if_pos fun h ↦ hn (hlen.symm.trans h)]
      rfl

/-! ### Steps -/

/-- A crashed system makes no step. -/
theorem crashed_of_step {l : Event} {t : System} (h : step e s l = some t) :
    s.crashed = false := by
  unfold step at h
  split at h
  · cases h
  · next hc => exact eq_false_of_ne_true hc

/-- The step of a completion. -/
theorem step_complete (hc : s.crashed = false) (c : Completion) :
    step e s (.complete c) = if 0 < s.pending then some (deliver c s) else none := by
  unfold step
  rw [if_neg (Bool.eq_false_iff.mp hc)]

/-- The step of a dispatched handler. -/
theorem step_dispatch (hc : s.crashed = false) {c : Completion} {rest : List Completion}
    (hq : s.completed = c :: rest) (send : SendOutcome) (hook : Hook) :
    step e s (.dispatch send hook) =
      some (settle ((handleReadRequest e send hook c).run { s with completed := rest })) := by
  unfold step
  rw [if_neg (Bool.eq_false_iff.mp hc)]
  simp only [hq]

/-- Without a completion no handler is dispatched. -/
theorem step_dispatch_nil (hq : s.completed = []) (send : SendOutcome) (hook : Hook) :
    step e s (.dispatch send hook) = none := by
  unfold step
  split
  · rfl
  · rw [hq]

/-- The step of a call of `clear`. -/
theorem step_clear (hc : s.crashed = false) (close : Option ErrorCode) (hook : Hook) :
    step e s (.clear close hook) = some (settle ((clear close hook).run s)) := by
  unfold step
  rw [if_neg (Bool.eq_false_iff.mp hc)]

/-- The step of a call of `SetProcessState`. -/
theorem step_setProcess (hc : s.crashed = false) (st : CiHBState) :
    step e s (.setProcess st) =
      some { s with session := { s.session with processState := st } } := by
  unfold step
  rw [if_neg (Bool.eq_false_iff.mp hc)]
  rfl

/-! ### Calls of `clear` from inside `handle_error` -/

/-- `clear` leaves no socket. -/
theorem run_clearThen {onError : Call Unit}
    (hon : ∀ s, ∃ t, onError.run s = .ok () t ∧ t.crashed = s.crashed) (s : System) :
    ∃ t, (clearThen onError).run s = .ok () t ∧ t.crashed = s.crashed ∧
      t.session.socket = none := by
  cases hs : s.session.socket with
  | none =>
    refine ⟨{ s with session := { s.session with socket := none } }, ?_, rfl, rfl⟩
    simp only [clearThen, EStateM.run_bind, EStateM.run_get, hs]
    rfl
  | some sock =>
    obtain ⟨t, ht, hc⟩ := hon { s with
      session := { s.session with socket := some ⟨false⟩ }
      pending := 0
      completed := s.completed ++ List.replicate s.pending (.failed operationAborted) }
    refine ⟨{ t with session := { t.session with socket := none } }, ?_, hc, rfl⟩
    simp only [clearThen, closeSocket, EStateM.run_bind, EStateM.run_get, hs, Option.isSome_some,
      if_true, EStateM.run_modify, ht, run_modifySession]

private theorem run_pure_crashed (s : System) :
    ∃ t, (pure () : Call Unit).run s = .ok () t ∧ t.crashed = s.crashed :=
  ⟨s, rfl, rfl⟩

/-- An override of `handle_error` returns; if it calls `clear`, no socket is left, and else
nothing has changed. -/
theorem run_hook (hook : Hook) (s : System) :
    ∃ t, hook.run.run s = .ok () t ∧ t.crashed = s.crashed ∧ (hook = .returns → t = s) ∧
      (hook ≠ .returns ∨ s.session.socket = none → t.session.socket = none) := by
  induction hook generalizing s with
  | returns => exact ⟨s, rfl, rfl, fun _ ↦ rfl, by simp⟩
  | clears next ih =>
    obtain ⟨t, ht, hc, hnone⟩ := run_clearThen run_pure_crashed s
    obtain ⟨u, hu, hc', -, hnone'⟩ := ih t
    refine ⟨u, ?_, hc'.trans hc, by simp, fun _ ↦ hnone' (Or.inr hnone)⟩
    simp only [Hook.run, EStateM.run_bind, ht, hu]
  | clearsFailing ec inner next ihi ihn =>
    have hon (s : System) : ∃ t, (do
        emit (.handleError ec.value ec.message)
        inner.run : Call Unit).run s = .ok () t ∧ t.crashed = s.crashed := by
      obtain ⟨v, hv, hc, -⟩ := ihi { s with trace := s.trace ++ [.handleError ec.value ec.message] }
      exact ⟨v, by simp only [EStateM.run_bind, run_emit, hv], hc⟩
    obtain ⟨t, ht, hc, hnone⟩ := run_clearThen hon s
    obtain ⟨u, hu, hc', -, hnone'⟩ := ihn t
    refine ⟨u, ?_, hc'.trans hc, by simp, fun _ ↦ hnone' (Or.inr hnone)⟩
    simp only [Hook.run, EStateM.run_bind, ht, hu]

/-- `handle_error` returns, with the socket that its override leaves. -/
theorem run_handleError (hook : Hook) (errorCode : Int32) (errorStr : String) (s : System) :
    ∃ t, (handleError hook errorCode errorStr).run s = .ok () t ∧ t.crashed = s.crashed ∧
      (t.session.socket = none ↔ hook ≠ .returns ∨ s.session.socket = none) := by
  obtain ⟨t, ht, hc, hsame, hnone⟩ :=
    run_hook hook { s with trace := s.trace ++ [.handleError errorCode errorStr] }
  refine ⟨t, by simp only [handleError, EStateM.run_bind, run_emit, ht], hc, fun h ↦ ?_, hnone⟩
  by_cases hh : hook = .returns
  · rw [hsame hh] at h
    exact Or.inr h
  · exact Or.inl hh

/-- `clear` returns. -/
theorem run_clear (close : Option ErrorCode) (hook : Hook) (s : System) :
    ∃ t, (clear close hook).run s = .ok () t ∧ t.crashed = s.crashed ∧
      t.session.socket = none := by
  cases close with
  | none => exact run_clearThen run_pure_crashed s
  | some ec =>
    refine run_clearThen (fun s ↦ ?_) s
    obtain ⟨t, ht, hc, -⟩ := run_handleError hook ec.value ec.message s
    exact ⟨t, ht, hc⟩

/-! ### The handler -/

/-- Of eight bytes or more the parser reads the sequence number that is there. -/
theorem parseRequest_seq (e : Endian) {bs : List UInt8} (h : 8 ≤ bs.length) :
    (parseRequest e (bs.take 8)).2.toUInt32 = requestSeq bs := by
  have h8 : (bs.take 8).length = 8 := by
    rw [List.length_take]
    omega
  have hword : (((bs.take 8).drop 4).take 4).length = 4 := by
    rw [List.length_take, List.length_drop]
    omega
  have hover : overZeros (((bs.take 8).drop 4).take 4) = ((bs.take 8).drop 4).take 4 := by
    rw [overZeros, hword]
    exact List.append_nil _
  have hgood : decide (4 ≤ (bs.take 8).length) = true := by
    rw [h8]
    rfl
  simp only [parseRequest, IStream.read, if_true, hgood, hover]
  rw [ntohl_loadInt e hword, UInt32.toUInt32_toInt32, requestSeq, List.drop_take, List.take_take]
  rfl

/-- The message type that is parsed from the bytes that are there. -/
def requestWord (e : Endian) (request : List UInt8) : Int32 := (parseRequest e request).1

/-- `handle_error` is called for a request: it is no request, or its reply is not sent. -/
def Reports (e : Endian) (m : HeartBeatSession) (send : SendOutcome) (request : List UInt8) :
    Prop :=
  requestWord e request ≠ CiHBMessageType.heartbeatRequest.code ∨ send.Bad m

instance (e : Endian) (m : HeartBeatSession) (send : SendOutcome) (request : List UInt8) :
    Decidable (Reports e m send request) :=
  inferInstanceAs (Decidable (_ ∨ _))

/-- A request is answered. -/
theorem run_handleRequest_of_request {request : List UInt8}
    (h : requestWord e request = CiHBMessageType.heartbeatRequest.code) (send : SendOutcome)
    (hook : Hook) (s : System) :
    (handleRequest e send hook request).run s =
      (doWriteResponse e send hook (parseRequest e request).2).run s := by
  unfold requestWord at h
  rw [handleRequest, if_pos h]

/-- Anything else is reported. -/
theorem run_handleRequest_of_other {request : List UInt8}
    (h : requestWord e request ≠ CiHBMessageType.heartbeatRequest.code) (send : SendOutcome)
    (hook : Hook) (s : System) :
    (handleRequest e send hook request).run s =
      (handleError hook (requestWord e request) (fromRemote s.session "invalid msg")).run s := by
  unfold requestWord at h ⊢
  rw [handleRequest, if_neg h, EStateM.run_bind, EStateM.run_get]

/-- A request is handled on a socket that is there; the socket is still there afterwards
unless `handle_error` is called and clears the session. -/
theorem run_handleRequest_some {sock : UdpSocket} (h : s.session.socket = some sock)
    (e : Endian) (send : SendOutcome) (hook : Hook) (request : List UInt8) :
    ∃ t, (handleRequest e send hook request).run s = .ok () t ∧ t.crashed = s.crashed ∧
      (t.session.socket = none ↔ Reports e s.session send request ∧ hook ≠ .returns) := by
  have hne : s.session.socket ≠ none := by simp [h]
  by_cases hmsg : requestWord e request = CiHBMessageType.heartbeatRequest.code
  · have hrep : Reports e s.session send request ↔ send.Bad s.session := by
      simp [Reports, hmsg]
    rw [run_handleRequest_of_request hmsg, hrep]
    rcases run_doWriteResponse_some h e send hook (parseRequest e request).2 with
      ⟨hgood, hr⟩ | ⟨hbad, errorCode, errorStr, hr⟩
    · exact ⟨_, hr, rfl, by simp [hgood, System.replied, hne]⟩
    · obtain ⟨t, ht, hc, hiff⟩ := run_handleError hook errorCode errorStr
        (s.replied e (parseRequest e request).2)
      exact ⟨t, hr.trans ht, hc, by simp [hiff, hbad, System.replied, hne]⟩
  · obtain ⟨t, ht, hc, hiff⟩ := run_handleError hook (requestWord e request)
      (fromRemote s.session "invalid msg") s
    exact ⟨t, (run_handleRequest_of_other hmsg send hook s).trans ht, hc,
      by simp [hiff, Reports, hmsg, hne]⟩

/-- With a default `handle_error`, a request is answered once and anything else not at all;
nothing but the record changes. -/
theorem run_handleRequest_returns {sock : UdpSocket} (h : s.session.socket = some sock)
    (e : Endian) (send : SendOutcome) (request : List UInt8) :
    ∃ es, (handleRequest e send .returns request).run s =
        .ok () { s with trace := s.trace ++ es } ∧
      sends es = if requestWord e request = CiHBMessageType.heartbeatRequest.code then
        [⟨s.session.senderEndpoint, responseBytes e s.session (parseRequest e request).2⟩]
        else [] := by
  by_cases hmsg : requestWord e request = CiHBMessageType.heartbeatRequest.code
  · rw [run_handleRequest_of_request hmsg, if_pos hmsg]
    rcases run_doWriteResponse_some h e send .returns (parseRequest e request).2 with
      ⟨-, hr⟩ | ⟨-, errorCode, errorStr, hr⟩
    · exact ⟨_, hr, rfl⟩
    · rw [hr, run_handleError_returns]
      simp only [System.replied, List.append_assoc]
      exact ⟨_, rfl, rfl⟩
  · rw [run_handleRequest_of_other hmsg, run_handleError_returns, if_neg hmsg]
    exact ⟨_, rfl, rfl⟩

/-- The handler of a failed receive reports it and arms no other. -/
theorem run_handleReadRequest_failed (e : Endian) (send : SendOutcome) (hook : Hook)
    (ec : ErrorCode) (s : System) :
    (handleReadRequest e send hook (.failed ec)).run s =
      (handleError hook ec.value (fromRemote s.session ec.message)).run s := by
  simp only [handleReadRequest, EStateM.run_bind, EStateM.run_get]

/-- The handler of a datagram handles it and arms the next receive. -/
theorem run_handleReadRequest_received (e : Endian) (send : SendOutcome) (hook : Hook)
    (d : Datagram) (s : System) :
    (handleReadRequest e send hook (.received d)).run s =
      (handleRequest e send hook (d.bytes.take 8) >>= fun _ ↦ doReadRequest).run s := by
  rw [handleReadRequest, EStateM.run_bind, EStateM.run_get]

/-- The handler of a datagram returns exactly if the socket is there at its start and again
when it arms the next receive; otherwise it dereferences a null pointer. -/
theorem run_handleReadRequest_received_cases (e : Endian) (send : SendOutcome) (hook : Hook)
    (d : Datagram) (s : System) :
    if s.session.socket ≠ none ∧ (Reports e s.session send (d.bytes.take 8) → hook = .returns) then
      ∃ t, (handleReadRequest e send hook (.received d)).run s = .ok () t ∧ t.crashed = s.crashed
    else
      ∃ t, (handleReadRequest e send hook (.received d)).run s = .error .nullSocket t := by
  rw [run_handleReadRequest_received, EStateM.run_bind]
  cases hs : s.session.socket with
  | none =>
    rw [if_neg (by simp)]
    by_cases hmsg : requestWord e (d.bytes.take 8) = CiHBMessageType.heartbeatRequest.code
    · rw [run_handleRequest_of_request hmsg, run_doWriteResponse_none hs]
      exact ⟨_, rfl⟩
    · rw [run_handleRequest_of_other hmsg]
      obtain ⟨t, ht, -, hiff⟩ := run_handleError hook (requestWord e (d.bytes.take 8))
        (fromRemote s.session "invalid msg") s
      rw [ht]
      exact ⟨t, run_doReadRequest_none (hiff.mpr (Or.inr hs))⟩
  | some sock =>
    obtain ⟨t, ht, hc, hiff⟩ := run_handleRequest_some hs e send hook (d.bytes.take 8)
    rw [ht]
    by_cases hclears : Reports e s.session send (d.bytes.take 8) ∧ hook ≠ .returns
    · rw [if_neg fun h ↦ hclears.2 (h.2 hclears.1)]
      exact ⟨t, run_doReadRequest_none (hiff.mpr hclears)⟩
    · obtain ⟨sock', hsock'⟩ := Option.ne_none_iff_exists'.mp fun hn ↦ hclears (hiff.mp hn)
      rw [if_pos ⟨by simp, fun hrep ↦ of_not_not fun hne ↦ hclears ⟨hrep, hne⟩⟩]
      exact ⟨_, run_doReadRequest_some hsock', hc⟩

/-- The handler of a failed receive always returns. -/
theorem run_handleReadRequest_failed_returns (e : Endian) (send : SendOutcome) (hook : Hook)
    (ec : ErrorCode) (s : System) :
    ∃ t, (handleReadRequest e send hook (.failed ec)).run s = .ok () t ∧
      t.crashed = s.crashed := by
  obtain ⟨t, ht, hc, -⟩ := run_handleError hook ec.value (fromRemote s.session ec.message) s
  exact ⟨t, (run_handleReadRequest_failed e send hook ec s).trans ht, hc⟩

end HeartbeatSpec.Asio
