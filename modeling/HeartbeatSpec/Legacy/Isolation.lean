import HeartbeatSpec.Legacy.Callbacks
import HeartbeatSpec.Legacy.Delivery

/-!
# One reply for one request

Library `Legacy`. A watcher reads the record of a responder and accepts it only if every
received request is answered, before the next receive, by one reply that depends on that
datagram and the current process state alone, and nothing else is answered. Every record of
the legacy responder is accepted, whatever its receive buffer and sender address held before.
-/

namespace HeartbeatSpec.Legacy
open HeartbeatSpec.Base HeartbeatSpec.Message HeartbeatSpec.Thread

/-- The datagram `bytes` to `dest` is the reply to `d` in process state `st`: it goes to the
sender of `d`, has the documented layout, and repeats bytes 4 to 7 of `d`. -/
def IsReplyTo (i : Identity) (st : CiHBState) (d : Datagram) (bytes : List UInt8)
    (dest : Endpoint) : Prop :=
  dest = d.sender ∧ bytes = encodeMessage (i.response st (requestSeq d.bytes)) ∧
    (bytes.drop 4).take 4 = (d.bytes.drop 4).take 4

instance (i : Identity) (st : CiHBState) (d : Datagram) (bytes : List UInt8) (dest : Endpoint) :
    Decidable (IsReplyTo i st d bytes dest) :=
  inferInstanceAs (Decidable (_ ∧ _ ∧ _))

/-- What the watcher knows: the state last set, and the request that waits for its reply. -/
structure Watch where
  state : CiHBState
  awaited : Option Datagram
  deriving DecidableEq, Repr

/-- The request that a received datagram is, if it is one that can be answered. -/
def requestIn (i : Identity) : RecvOutcome → Option Datagram
  | .datagram d => if IsRequest d.bytes ∧ i.Fits then some d else none
  | .other _ _ _ => none

/-- The watcher reads one event. -/
def watchStep (i : Identity) (m : Watch) : SysEvent → Option Watch
  | .recvfrom _ o => if m.awaited = none then some ⟨m.state, requestIn i o⟩ else none
  | .sendto _ bytes dest _ =>
    match m.awaited with
    | some d => if IsReplyTo i m.state d bytes dest then some ⟨m.state, none⟩ else none
    | none => none
  | .client (.setProcess st) => some ⟨st, m.awaited⟩
  | _ => some m

/-- The watcher reads a record. -/
def watch (i : Identity) (m : Watch) (trace : List SysEvent) : Option Watch :=
  trace.foldlM (watchStep i) m

/-- The watcher reads one event more. -/
theorem watch_snoc (i : Identity) (m : Watch) (trace : List SysEvent) (ev : SysEvent) :
    watch i m (trace ++ [ev]) = (watch i m trace).bind fun m' ↦ watchStep i m' ev := by
  rw [watch, List.foldlM_append]
  refine congrArg _ (funext fun m' ↦ ?_)
  rw [List.foldlM_cons]
  cases watchStep i m' ev <;> rfl

/-- In an accepted record every reply is one to the request that waits for it. -/
theorem reply_of_watch {i : Identity} {m m' : Watch} {pre post : List SysEvent} {sockfd ret : Int}
    {bytes : List UInt8} {dest : Endpoint}
    (h : watch i m (pre ++ .sendto sockfd bytes dest ret :: post) = some m') :
    ∃ st d, watch i m pre = some ⟨st, some d⟩ ∧ IsReplyTo i st d bytes dest := by
  rw [watch, List.foldlM_append, Option.bind_eq_bind, Option.bind_eq_some_iff] at h
  obtain ⟨⟨st, awaited⟩, hpre, hrest⟩ := h
  rw [List.foldlM_cons, Option.bind_eq_bind, Option.bind_eq_some_iff] at hrest
  obtain ⟨m₁, hstep, -⟩ := hrest
  cases awaited with
  | none => cases hstep
  | some d =>
    refine ⟨st, d, hpre, ?_⟩
    by_contra hno
    simp only [watchStep, if_neg hno] at hstep
    cases hstep

/-- The watcher, starting from `m`, has accepted the record of a responder and waits for the
reply to `p`; every receive of the environment is a datagram or fails. -/
structure Watched (i : Identity) (m : Watch) (p : Option Datagram) (w : World Responser) :
    Prop where
  trace : watch i m w.trace = some ⟨w.own.processState, p⟩
  identity : w.own.identity = i
  udp : ∀ k, (w.env k).recvfrom.IsUdp

namespace Watched

variable {i : Identity} {m : Watch} {p : Option Datagram} {w : World Responser}

/-- An answer of the environment is no event. -/
theorem next (h : Watched i m p w) : Watched i m p w.next :=
  ⟨h.trace, h.identity, fun k ↦ h.udp (k + 1)⟩

/-- The members of the thread are not watched. -/
theorem withThread (h : Watched i m p w) (f : NetworkThread → NetworkThread) :
    Watched i m p (w.withThread f) :=
  ⟨h.trace, h.identity, h.udp⟩

/-- An event that leaves the watcher as it is. -/
theorem record (h : Watched i m p w) {ev : SysEvent}
    (hev : watchStep i ⟨w.own.processState, p⟩ ev = some ⟨w.own.processState, p⟩) :
    Watched i m p (w.record ev) where
  trace := by
    rw [World.record, watch_snoc, h.trace]
    exact hev
  identity := h.identity
  udp := h.udp

/-- Calls of other threads are followed. -/
theorem clientCalls (h : Watched i m p w) (calls : List ClientCall) :
    Watched i m p (clientCalls Responser.setProcessState calls w) := by
  induction calls generalizing w with
  | nil => exact h
  | cons call rest ih =>
    cases call with
    | endThread => exact ih ((h.withThread _).record rfl)
    | setProcess st =>
      refine ih ⟨?_, h.identity, h.udp⟩
      rw [World.record, watch_snoc, h.trace]
      rfl

/-- So are the calls that other threads make at a point. -/
theorem afterOthers (h : Watched i m p w) : Watched i m p (Responser.afterOthers w) :=
  h.next.clientCalls _

/-- A receive starts the wait for a reply if it is a request. -/
theorem received (h : Watched i m none w) (sockfd : Int) :
    Watched i m (requestIn i (w.env 0).recvfrom) (Responser.received sockfd w) where
  trace := by
    change watch i m (w.trace ++ [.recvfrom sockfd (w.env 0).recvfrom]) = _
    rw [watch_snoc, h.trace]
    rfl
  identity := h.identity
  udp := fun k ↦ h.udp (k + 1)

/-- The awaited reply ends the wait. -/
theorem sentTo {d : Datagram} (h : Watched i m (some d) w) {bytes : List UInt8}
    (hreply : IsReplyTo i w.own.processState d bytes w.own.saRecv) (sockfd : Int) :
    Watched i m none (Responser.sentTo sockfd bytes w) where
  trace := by
    change watch i m (w.trace ++ [.sendto sockfd bytes w.own.saRecv (w.env 0).sendto]) = _
    rw [watch_snoc, h.trace]
    exact if_pos hreply
  identity := h.identity
  udp := fun k ↦ h.udp (k + 1)

end Watched

/-! ### The responder is accepted -/

namespace Responser

variable {i : Identity} {m : Watch}

/-- The handling of a readable entry answers the datagram it receives if and only if that is
a request that can be answered. -/
theorem watched_processEntry (e : Endian) (k : Nat) :
    Contract (fun w ↦ Watched i m none w ∧ k < w.thread.pollFds.count ∧
        w.thread.pollFds.Readable k)
      (processEntry (overrides e) k) (fun _ ↦ Watched i m none)
      (fun _ ↦ Watched i m none) := by
  rintro w ⟨hw, -, hvalid, -⟩
  have hreceived := (show Watched i m none (cleared k w) from hw.withThread _).received
    (w.thread.pollFds.fds k).fd
  change Watched i m (requestIn i (w.env 0).recvfrom) _ at hreceived
  have hudp := hw.udp 0
  cases hrecv : (w.env 0).recvfrom with
  | other ret stored sender =>
    rw [hrecv] at hreceived hudp
    have h8 : ¬RecvOutcome.ret (.other ret stored sender) = 8 := by
      change ret < 0 at hudp
      change ¬ret = 8
      omega
    rw [run_processEntry e k rfl hvalid, hrecv, if_neg fun hc ↦ h8 hc.1]
    exact hreceived
  | datagram d =>
    rw [hrecv, requestIn] at hreceived
    by_cases hreq : IsRequest d.bytes
    · have hreplying := hreceived.afterOthers
      obtain ⟨-, hsa⟩ := own_replying hrecv k (w.thread.pollFds.fds k).fd
      by_cases hfits : i.Fits
      · rw [if_pos ⟨hreq, hfits⟩] at hreplying
        rw [run_processEntry_of_request rfl hvalid hrecv hreq (hw.identity ▸ hfits), hw.identity]
        exact hreplying.sentTo ⟨hsa, rfl, answer_seq i _ hreq.1⟩ _
      · rw [if_neg fun hc ↦ hfits hc.2] at hreplying
        obtain ⟨f, hf⟩ := run_processEntry_of_not_fits (e := e) rfl hvalid hrecv hreq
          (hw.identity ▸ hfits)
        rw [hf]
        exact hreplying
    · rw [if_neg fun hc ↦ hreq hc.1] at hreceived
      rw [run_processEntry_of_not_request rfl hvalid hrecv hreq]
      exact hreceived

/-- The loop changes nothing that is watched. -/
theorem watched_loopInvariant : LoopInvariant (Watched i m none) where
  next _ hw := hw.next
  record ev w hev hw := by
    cases ev <;> first | exact hev.elim | exact hw.record rfl
  eventsCount _ _ hw := hw.withThread _
  report _ _ _ hw := hw.withThread _

/-- Calls of other threads are followed. -/
theorem watched_others : Keeps (Watched i m none) (fun _ ↦ Watched i m none) others :=
  fun _ hw ↦ hw.afterOthers

/-- Neither starting up nor closing down is watched. -/
theorem watched_setupInvariant : SetupInvariant (Watched i m none) where
  next _ hw := hw.next
  record ev w hev hw := by
    cases ev <;> first | exact hev.elim | exact hw.record rfl
  sockets _ _ _ _ hw := hw.withThread _

/-- No part of a run leaves a request unanswered or answers anything else. -/
theorem watched_threadClass (e : Endian) :
    (threadClass e).Keeps (Watched i m none) (fun _ ↦ Watched i m none) where
  initInstance := watched_setupInvariant.initInstance
  run := watched_loopInvariant.run ⟨watched_others, watched_processEntry e⟩
  exitInstance := watched_setupInvariant.exitInstance
  betweenProcs := watched_others
  beforeTest := watched_others
  setState st _ hw := hw.withThread fun th ↦ { th with state := st }

/-- No cross-talk: however a responder was left by what happened before, whatever its receive
buffer and sender address hold, and whatever the environment answers, as long as `recvfrom`
delivers datagrams or fails, the record of any number of turns of a run is accepted: each
request that can be answered is followed, before the next receive, by exactly one reply, and
no other reply is sent. Each reply is determined by the request that waits for it, the current
process state and the addresses of the responder. -/
theorem no_crosstalk (e : Endian) (w : World Responser) (htrace : w.trace = [])
    (hudp : ∀ k, (w.env k).recvfrom.IsUdp) (n : Nat) :
    watch w.own.identity ⟨w.own.processState, none⟩ (World.after (runThreadHere e n w)).trace =
        some ⟨(World.after (runThreadHere e n w)).own.processState, none⟩ ∧
      ∀ pre sockfd bytes dest ret post,
        (World.after (runThreadHere e n w)).trace = pre ++ .sendto sockfd bytes dest ret :: post →
        ∃ st d, watch w.own.identity ⟨w.own.processState, none⟩ pre = some ⟨st, some d⟩ ∧
          IsReplyTo w.own.identity st d bytes dest := by
  have hw : Watched w.own.identity ⟨w.own.processState, none⟩ none w.prepareRunning := by
    refine Watched.withThread ⟨?_, rfl, hudp⟩ _
    rw [htrace]
    rfl
  have hafter : Watched w.own.identity ⟨w.own.processState, none⟩ none
      (World.after (runThreadHere e n w)) :=
    World.after_of_keeps ((watched_threadClass e).runLoop n) hw
  have haccepted := hafter.trace
  refine ⟨haccepted, fun pre sockfd bytes dest ret post heq ↦ ?_⟩
  rw [heq] at haccepted
  exact reply_of_watch haccepted

/-- Two requests are answered one after the other. -/
theorem no_crosstalk_requested :
    sends (World.after (runThreadHere .little 2 (requested ⟨[], []⟩))).trace =
        List.replicate 2 ⟨⟨1, 2⟩, [0, 0, 0, 1, 0, 0, 0, 7, 0, 0, 0, 0, 0, 0, 0, 0, 0, 0, 0, 0]⟩ ∧
      watch ⟨[], []⟩ ⟨.alive, none⟩
          (World.after (runThreadHere .little 2 (requested ⟨[], []⟩))).trace =
        some
          ⟨(World.after (runThreadHere .little 2 (requested ⟨[], []⟩))).own.processState, none⟩ :=
  ⟨by decide +kernel, (no_crosstalk .little (requested ⟨[], []⟩) rfl (fun _ ↦ trivial) 2).1⟩

/-- Not every request is answered: at addresses of `2 ^ 31` bytes one is received and no reply
is attempted. -/
theorem unanswered_oversized :
    ¬∀ (w : World Responser) (n : Nat) (sockfd : Int) (d : Datagram), w.trace = [] →
      (∀ k, (w.env k).recvfrom.IsUdp) → IsRequest d.bytes →
      .recvfrom sockfd (.datagram d) ∈ (World.after (runThreadHere .little n w)).trace →
      sends (World.after (runThreadHere .little n w)).trace ≠ [] := by
  intro hall
  obtain ⟨f, w, hrun, hsends, hrecv⟩ := runThreadHere_requested_of_not_fits .little
    (not_fits_addresses (Nat.le_refl (2 ^ 31)))
  have hanswered := hall (requested (addresses (2 ^ 31))) 1 3
    ⟨⟨1, 2⟩, [0, 0, 0, 0, 0, 0, 0, 7]⟩ rfl (fun _ ↦ trivial) (by decide)
  rw [hrun] at hanswered
  exact hanswered hrecv hsends

end Responser
end HeartbeatSpec.Legacy
