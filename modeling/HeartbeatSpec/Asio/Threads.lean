import Mathlib.Logic.Function.Basic
import HeartbeatSpec.Asio.Handler

/-!
# Threads of the io service

Library `Asio`. A started session that nobody clears, with any number of threads in
`io_service::run`. A receive that has been initiated may store into its buffer and into
`sender_endpoint_` until it completes; its handler then waits for a thread, and makes its
accesses to the session one by one, `asio_base/HeartBeatSession.cpp:80–158`, between the steps of
everybody else. Of all the receives one at most is under way.
-/

namespace HeartbeatSpec.Asio
open HeartbeatSpec.Base HeartbeatSpec.Message

/-- The arguments of a handler: the error, or the number of bytes received. -/
inductive ReadResult where
  | read (n : Nat)
  | failed (ec : ErrorCode)
  deriving DecidableEq, Repr

/-- Where a receive is. -/
inductive ReadStatus where
  | unused
  | outstanding
  | completed (res : ReadResult)
  | dispatched
  deriving DecidableEq, Repr

/-- A receive with its own buffer, and the datagram that it has received. -/
structure ReadOp where
  status : ReadStatus
  buffer : List UInt8
  datagram : Option Datagram
  deriving DecidableEq, Repr

/-- The next thing that `handle_read_request` does. -/
inductive Stage where
  | entered (res : ReadResult)
  | responding (seq : Int32)
  | sending (response : List UInt8)
  | describing (errorCode : Int32) (what : String) (again : Bool)
  | reporting (errorCode : Int32) (errorStr : String) (again : Bool)
  | rearming
  deriving DecidableEq, Repr

/-- Where a thread is: waiting for a handler, in one up to the call that arms the next receive,
or about to leave it. -/
inductive Pc where
  | idle
  | inside (op : Nat) (stage : Stage)
  | leaving
  deriving DecidableEq, Repr

/-- What the handler of a receive has done. -/
structure LogEntry where
  op : Nat
  event : AsioEvent
  deriving DecidableEq, Repr

/-- The session, the receives initiated so far, the last of which is `newest`, and the threads. -/
structure Pool (Tid : Type) where
  session : HeartBeatSession
  ops : Nat → ReadOp
  newest : Nat
  pc : Tid → Pc
  log : List LogEntry

/-- What may happen next: the kernel stores something for a receive, a receive completes, a thread
takes a handler or goes on in it, or the process state is set. -/
inductive PoolEvent (Tid : Type) where
  | store (op : Nat) (bytes : List UInt8) (sender : Endpoint)
  | complete (op : Nat) (c : Completion)
  | dispatch (t : Tid) (op : Nat)
  | advance (t : Tid) (send : SendOutcome)
  | setProcess (st : CiHBState)
  deriving DecidableEq, Repr

/-- A receive that has not been initiated, and one that just has been. -/
def ReadOp.unused : ReadOp := ⟨.unused, [], none⟩

/-- `prepare(8)` and `async_receive_from`, `asio_base/HeartBeatSession.cpp:82–85`. -/
def ReadOp.armed : ReadOp := ⟨.outstanding, [], none⟩

/-- What a completed receive passes to its handler. -/
def Completion.result : Completion → ReadResult
  | received d => .read (min d.bytes.length 8)
  | failed ec => .failed ec

/-- One access of a handler to the session, with what is recorded and where the handler goes on:
`none` once it is done with the session without arming the next receive. -/
def handlerStep (e : Endian) (send : SendOutcome) (m : HeartBeatSession) (buffer : List UInt8) :
    Stage → List AsioEvent × Option Stage
  | .entered (.failed ec) => ([], some (.describing ec.value ec.message false))
  | .entered (.read n) =>
    let request := parseRequest e (buffer.take n)
    if request.1 = CiHBMessageType.heartbeatRequest.code then ([], some (.responding request.2))
    else ([], some (.describing request.1 "invalid msg" true))
  | .responding seq => ([], some (.sending (responseBytes e m seq)))
  | .sending response =>
    ([.sendTo response m.senderEndpoint],
      match send with
      | .failed ec => some (.describing ec.value ec.message true)
      | .sent n =>
        if response.length ≠ n then some (.describing (Int32.ofNat n) "invalid send size" true)
        else some .rearming)
  | .describing errorCode what again => ([], some (.reporting errorCode (fromRemote m what) again))
  | .reporting errorCode errorStr again =>
    ([.handleError errorCode errorStr], if again then some .rearming else none)
  | .rearming => ([], none)

/-- The accesses of a handler one after another, while nobody else changes the session. -/
def accesses (e : Endian) (send : SendOutcome) (m : HeartBeatSession) (buffer : List UInt8) :
    Nat → Stage → List AsioEvent × Option Stage
  | 0, stage => ([], some stage)
  | n + 1, stage =>
    match handlerStep e send m buffer stage with
    | (events, none) => (events, none)
    | (events, some next) =>
      (events ++ (accesses e send m buffer n next).1, (accesses e send m buffer n next).2)

/-- While nobody else touches the session, a handler does in six accesses what
`handle_read_request` does. -/
theorem run_handleReadRequest_eq_accesses {s : System} {sock : UdpSocket}
    (h : s.session.socket = some sock) (e : Endian) (send : SendOutcome) (d : Datagram) :
    ∃ events, accesses e send s.session (d.bytes.take 8) 6
        (.entered (Completion.received d).result) = (events, none) ∧
      (handleReadRequest e send .returns (.received d)).run s =
        .ok () { s with pending := s.pending + 1, trace := s.trace ++ events } := by
  have htake : (d.bytes.take 8).take (min d.bytes.length 8) = d.bytes.take 8 := by
    rw [List.take_take, List.take_eq_take_iff]
    omega
  rw [run_handleReadRequest_received, EStateM.run_bind]
  by_cases hmsg : (parseRequest e (d.bytes.take 8)).1 = CiHBMessageType.heartbeatRequest.code
  · rw [run_handleRequest_of_request hmsg]
    cases send with
    | failed ec =>
      refine ⟨[.sendTo (responseBytes e s.session (parseRequest e (d.bytes.take 8)).2)
        s.session.senderEndpoint, .handleError ec.value (fromRemote s.session ec.message)], ?_, ?_⟩
      · simp [accesses, handlerStep, Completion.result, htake, hmsg]
      · simp only [doWriteResponse, EStateM.run_bind, EStateM.run_get, run_derefSocket_some h,
          run_emit, run_handleError_returns]
        rw [List.append_assoc]
        exact run_doReadRequest_some h
    | sent n =>
      by_cases hn : (responseBytes e s.session (parseRequest e (d.bytes.take 8)).2).length = n
      · refine ⟨[.sendTo (responseBytes e s.session (parseRequest e (d.bytes.take 8)).2)
          s.session.senderEndpoint], ?_, ?_⟩
        · simp [accesses, handlerStep, Completion.result, htake, hmsg, hn]
        · simp only [doWriteResponse, EStateM.run_bind, EStateM.run_get, run_derefSocket_some h,
            run_emit]
          rw [if_neg (not_not.mpr hn)]
          exact run_doReadRequest_some h
      · refine ⟨[.sendTo (responseBytes e s.session (parseRequest e (d.bytes.take 8)).2)
          s.session.senderEndpoint,
          .handleError (Int32.ofNat n) (fromRemote s.session "invalid send size")], ?_, ?_⟩
        · simp [accesses, handlerStep, Completion.result, htake, hmsg, hn]
        · simp only [doWriteResponse, EStateM.run_bind, EStateM.run_get, run_derefSocket_some h,
            run_emit]
          rw [if_pos hn, run_handleError_returns, List.append_assoc]
          exact run_doReadRequest_some h
  · rw [run_handleRequest_of_other hmsg, run_handleError_returns]
    refine ⟨_, ?_, run_doReadRequest_some h⟩
    simp [accesses, handlerStep, Completion.result, htake, hmsg, requestWord]

/-! ### Steps of everybody -/

variable {Tid : Type}

namespace Pool

section Steps

variable [DecidableEq Tid]

/-- A started session, `asio_base/HeartBeatSession.cpp:23–30`: one receive has been initiated. -/
def started (m : HeartBeatSession) : Pool Tid :=
  ⟨m, Function.update (fun _ ↦ .unused) 0 .armed, 0, fun _ ↦ .idle, []⟩

/-- Change one receive. -/
def setOp (op : Nat) (r : ReadOp) (s : Pool Tid) : Pool Tid :=
  { s with ops := Function.update s.ops op r }

/-- Move one thread. -/
def setPc (t : Tid) (p : Pc) (s : Pool Tid) : Pool Tid :=
  { s with pc := Function.update s.pc t p }

/-- The kernel stores bytes and a sender for a receive. -/
def stored (op : Nat) (bytes : List UInt8) (sender : Endpoint) (s : Pool Tid) : Pool Tid :=
  { s.setOp op { s.ops op with buffer := bytes.take 8 } with
    session := { s.session with senderEndpoint := sender } }

/-- A receive completes; one that has received a datagram has stored its bytes and its sender. -/
def completed (op : Nat) (c : Completion) (s : Pool Tid) : Pool Tid :=
  match c with
  | .received d =>
    { s.setOp op ⟨.completed c.result, d.bytes.take 8, some d⟩ with
      session := { s.session with senderEndpoint := d.sender } }
  | .failed _ => s.setOp op { s.ops op with status := .completed c.result }

/-- `do_read_request`, `asio_base/HeartBeatSession.cpp:80–86`. -/
def rearmed (s : Pool Tid) : Pool Tid :=
  { s.setOp (s.newest + 1) .armed with newest := s.newest + 1 }

/-- A thread in the handler of `op` goes on. -/
def advanced (e : Endian) (t : Tid) (send : SendOutcome) (op : Nat) (stage : Stage)
    (s : Pool Tid) : Pool Tid :=
  match handlerStep e send s.session (s.ops op).buffer stage with
  | (events, next) =>
    let s := if stage = .rearming then s.rearmed else s
    { s.setPc t (match next with
        | some stage => .inside op stage
        | none => .leaving) with
      log := s.log ++ events.map (⟨op, ·⟩) }

/-- One step. -/
def step (e : Endian) (s : Pool Tid) : PoolEvent Tid → Option (Pool Tid)
  | .store op bytes sender =>
    if (s.ops op).status = .outstanding then some (s.stored op bytes sender) else none
  | .complete op c =>
    if (s.ops op).status = .outstanding then some (s.completed op c) else none
  | .dispatch t op =>
    match s.pc t, (s.ops op).status with
    | .idle, .completed res =>
      some ((s.setOp op { s.ops op with status := .dispatched }).setPc t
        (.inside op (.entered res)))
    | _, _ => none
  | .advance t send =>
    match s.pc t with
    | .idle => none
    | .inside op stage => some (s.advanced e t send op stage)
    | .leaving => some (s.setPc t .idle)
  | .setProcess st => some { s with session := { s.session with processState := st } }

end Steps

/-! ### One receive at a time -/

/-- Where the newest receive is: outstanding, waiting for its handler, inside the handler on a
thread, or nowhere any more. -/
inductive Baton (Tid : Type) where
  | outstanding
  | waiting (res : ReadResult)
  | inside (t : Tid)
  | nowhere

/-- The status of a receive that is there. -/
def Baton.status : Baton Tid → ReadStatus
  | outstanding => .outstanding
  | waiting res => .completed res
  | inside _ | nowhere => .dispatched

/-- The newest receive is where the baton says, and no other is anywhere. -/
structure HeldBy (s : Pool Tid) (b : Baton Tid) : Prop where
  newest : (s.ops s.newest).status = b.status
  others : ∀ k, k ≠ s.newest → (s.ops k).status = .unused ∨ (s.ops k).status = .dispatched
  inside : ∀ t k stage, s.pc t = .inside k stage → b = .inside t ∧ k = s.newest

theorem heldBy_started (m : HeartBeatSession) :
    HeldBy (Pool.started m : Pool Tid) .outstanding where
  newest := rfl
  others k hk := by
    left
    have hne : k ≠ 0 := hk
    simp [started, Function.update_of_ne hne, ReadOp.unused]
  inside t k stage h := by cases h

namespace HeldBy

variable {s : Pool Tid} {b b' : Baton Tid} {k : Nat}

/-- A receive that is outstanding is the newest. -/
theorem of_outstanding (h : HeldBy s b) (hk : (s.ops k).status = .outstanding) :
    k = s.newest ∧ b = .outstanding := by
  have hnewest : k = s.newest := by
    by_contra hne
    rcases h.others k hne with hk' | hk' <;> rw [hk] at hk' <;> cases hk'
  have hstatus := h.newest
  rw [← hnewest, hk] at hstatus
  refine ⟨hnewest, ?_⟩
  cases b <;> cases hstatus
  rfl

/-- So is one that waits for its handler. -/
theorem of_completed (h : HeldBy s b) {res : ReadResult} (hk : (s.ops k).status = .completed res) :
    k = s.newest ∧ b = .waiting res := by
  have hnewest : k = s.newest := by
    by_contra hne
    rcases h.others k hne with hk' | hk' <;> rw [hk] at hk' <;> cases hk'
  have hstatus := h.newest
  rw [← hnewest, hk] at hstatus
  refine ⟨hnewest, ?_⟩
  cases b <;> cases hstatus
  rfl

/-- The newest receive gets another status, and no thread is inside a handler. -/
theorem setOp (h : HeldBy s b) (hb : ∀ t, b ≠ .inside t) {r : ReadOp} (hr : r.status = b'.status) :
    HeldBy (s.setOp s.newest r) b' where
  newest := by
    change (Function.update s.ops s.newest r s.newest).status = _
    rw [Function.update_self]
    exact hr
  others k hk := by
    have hne : k ≠ s.newest := hk
    change (Function.update s.ops s.newest r k).status = _ ∨
      (Function.update s.ops s.newest r k).status = _
    rw [Function.update_of_ne hne]
    exact h.others k hne
  inside t k stage hpc := absurd (h.inside t k stage hpc).1 (hb t)

variable [DecidableEq Tid]

/-- A thread moves that alone may be inside a handler. -/
theorem setPc (h : HeldBy s b) {t : Tid} (hb : ∀ u, b = .inside u → u = t) {p : Pc}
    (hstatus : b'.status = b.status)
    (hp : ∀ k stage, p = .inside k stage → b' = .inside t ∧ k = s.newest) :
    HeldBy (s.setPc t p) b' where
  newest := h.newest.trans hstatus.symm
  others := h.others
  inside u k stage hpc := by
    by_cases hu : u = t
    · subst hu
      change Function.update s.pc u p u = _ at hpc
      rw [Function.update_self] at hpc
      exact hp k stage hpc
    · change Function.update s.pc t p u = _ at hpc
      rw [Function.update_of_ne hu] at hpc
      exact absurd (hb u (h.inside u k stage hpc).1) hu

/-- The handler on `t` arms the next receive. -/
theorem rearmed {t : Tid} (h : HeldBy s (.inside t)) :
    HeldBy (s.rearmed.setPc t .leaving) .outstanding where
  newest := by
    change (Function.update s.ops (s.newest + 1) ReadOp.armed (s.newest + 1)).status = _
    rw [Function.update_self]
    rfl
  others k hk := by
    have hne : k ≠ s.newest + 1 := hk
    have hsame : (Function.update s.ops (s.newest + 1) ReadOp.armed k) = s.ops k :=
      Function.update_of_ne hne _ _
    change (Function.update s.ops (s.newest + 1) ReadOp.armed k).status = _ ∨
      (Function.update s.ops (s.newest + 1) ReadOp.armed k).status = _
    rw [hsame]
    by_cases hk' : k = s.newest
    · right
      rw [hk']
      exact h.newest
    · exact h.others k hk'
  inside u k stage hpc := by
    by_cases hu : u = t
    · subst hu
      change Function.update s.pc u .leaving u = _ at hpc
      rw [Function.update_self] at hpc
      cases hpc
    · change Function.update s.pc t .leaving u = _ at hpc
      rw [Function.update_of_ne hu] at hpc
      cases (h.inside u k stage hpc).1
      exact absurd rfl hu

end HeldBy

/-- In the handler a thread goes on, or leaves it; only the last step arms a receive. -/
theorem advanced_cases [DecidableEq Tid] (e : Endian) (t : Tid) (send : SendOutcome) (op : Nat)
    (stage : Stage) (s : Pool Tid) :
    (stage = .rearming ∧ s.advanced e t send op stage = s.rearmed.setPc t .leaving) ∨
      stage ≠ .rearming ∧ s.advanced e t send op stage =
        { s.setPc t (match (handlerStep e send s.session (s.ops op).buffer stage).2 with
            | some stage' => .inside op stage'
            | none => .leaving) with
          log := s.log ++
            (handlerStep e send s.session (s.ops op).buffer stage).1.map (⟨op, ·⟩) } := by
  by_cases hstage : stage = .rearming
  · left
    subst hstage
    refine ⟨rfl, ?_⟩
    simp [advanced, handlerStep, rearmed, setPc, setOp]
  · right
    refine ⟨hstage, ?_⟩
    simp [advanced, hstage]

/-- Every step hands the baton on. -/
theorem heldBy_step [DecidableEq Tid] {e : Endian} {s s' : Pool Tid} {b : Baton Tid}
    (h : HeldBy s b) {l : PoolEvent Tid} (hstep : step e s l = some s') : ∃ b', HeldBy s' b' := by
  cases l with
  | store op bytes sender =>
    simp only [step] at hstep
    split at hstep
    · next hout =>
      cases hstep
      obtain ⟨rfl, rfl⟩ := h.of_outstanding hout
      have hset : HeldBy (s.setOp s.newest { s.ops s.newest with buffer := bytes.take 8 })
          .outstanding := h.setOp (by simp) hout
      exact ⟨.outstanding, hset.newest, hset.others, hset.inside⟩
    · cases hstep
  | complete op c =>
    simp only [step] at hstep
    split at hstep
    · next hout =>
      cases hstep
      obtain ⟨rfl, rfl⟩ := h.of_outstanding hout
      cases c with
      | received d =>
        have hset : HeldBy (s.setOp s.newest
            ⟨.completed (Completion.received d).result, d.bytes.take 8, some d⟩)
            (.waiting (Completion.received d).result) := h.setOp (by simp) rfl
        exact ⟨_, hset.newest, hset.others, hset.inside⟩
      | failed ec =>
        exact ⟨.waiting (.failed ec), h.setOp (by simp) rfl⟩
    · cases hstep
  | dispatch t op =>
    simp only [step] at hstep
    split at hstep
    · next res hidle hdone =>
      cases hstep
      obtain ⟨rfl, rfl⟩ := h.of_completed hdone
      have hset : HeldBy (s.setOp s.newest { s.ops s.newest with status := .dispatched })
          .nowhere := h.setOp (by simp) rfl
      refine ⟨.inside t, hset.setPc (by simp) rfl fun k stage hp ↦ ?_⟩
      cases hp
      exact ⟨rfl, rfl⟩
    · cases hstep
  | advance t send =>
    simp only [step] at hstep
    split at hstep
    · cases hstep
    · next op stage hpc =>
      cases hstep
      obtain ⟨rfl, rfl⟩ := h.inside t op stage hpc
      rcases advanced_cases e t send s.newest stage s with ⟨-, hs⟩ | ⟨-, hs⟩
      · rw [hs]
        exact ⟨.outstanding, h.rearmed⟩
      · rw [hs]
        have honly : ∀ u, Baton.inside t = .inside u → u = t := fun u hu ↦ by
          cases hu
          rfl
        cases (handlerStep e send s.session (s.ops s.newest).buffer stage).2 with
        | some stage' =>
          have hset := h.setPc honly (p := .inside s.newest stage') rfl fun k stage hp ↦ by
            cases hp
            exact ⟨rfl, rfl⟩
          exact ⟨_, hset.newest, hset.others, hset.inside⟩
        | none =>
          have hset : HeldBy (s.setPc t .leaving) .nowhere := h.setPc honly rfl fun k stage hp ↦ by
            cases hp
          exact ⟨_, hset.newest, hset.others, hset.inside⟩
    · next hpc =>
      cases hstep
      refine ⟨b, h.newest, h.others, fun u k stage hp ↦ ?_⟩
      by_cases hu : u = t
      · subst hu
        simp [setPc] at hp
      · simp only [setPc, Function.update_of_ne hu] at hp
        exact h.inside u k stage hp
  | setProcess st =>
    cases hstep
    exact ⟨b, h.newest, h.others, h.inside⟩

end Pool
end HeartbeatSpec.Asio
