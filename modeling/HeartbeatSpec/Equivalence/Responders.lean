import HeartbeatSpec.Asio.Loop
import HeartbeatSpec.Base.Service
import HeartbeatSpec.Equivalence.Encoders
import HeartbeatSpec.Legacy.Endurance

/-!
# The two responders

Library `Equivalence`. The legacy responder, driven by `Run`, and the asio session, driven by
its receive loop, take the same history of datagrams and `SetProcess` calls. Each is a service
on such histories; the legacy one answers requests of eight bytes or more, the asio one also
shorter datagrams that begin with zero bytes, since its parser never looks at the length.
-/

namespace HeartbeatSpec.Equivalence
open HeartbeatSpec.Base HeartbeatSpec.Message HeartbeatSpec.Asio HeartbeatSpec.Thread
open HeartbeatSpec.Legacy.Responser

/-- An input of a responder; a datagram comes with the results that a reply to it would have at
`sendto` and at `send_to`. -/
inductive Input where
  | datagram (d : Datagram) (nSend : Int) (send : SendOutcome)
  | setProcess (st : CiHBState)
  deriving DecidableEq, Repr

/-- The process state after an input. -/
def Input.stateAfter (st : CiHBState) : Input → CiHBState
  | .datagram _ _ _ => st
  | .setProcess st' => st'

/-- The input is a request, of eight bytes or more. -/
def Input.IsRequest : Input → Prop
  | .datagram d _ _ => Message.IsRequest d.bytes
  | .setProcess _ => False

/-- The input is a datagram of less than eight bytes, of which the first four are zero as far
as they are there. -/
def Input.IsShortZero : Input → Prop
  | .datagram d _ _ => d.bytes.length < 8 ∧ ∀ b ∈ d.bytes.take 4, b = 0
  | .setProcess _ => False

/-! ### The legacy responder -/

/-- The legacy responder takes an input. -/
def legacyInput (e : Endian) : Input → Legacy.Call Legacy.Responser Unit
  | .datagram d nSend _ => do
    modify fun w ↦ { w with env := fun _ ↦ .delivering d nSend }
    let _ ← Legacy.run (overrides e)
  | .setProcess st => modify (Legacy.clientCalls setProcessState [.setProcess st])

/-- What the legacy responder has sent after a history; an exception ends it. -/
def legacyReplies (e : Endian) (w : Legacy.World Legacy.Responser) (inputs : List Input) :
    List Reply :=
  Legacy.sends (Legacy.World.after ((inputs.forM (legacyInput e)).run w)).trace

/-- The legacy responder answers requests, if its addresses leave room for replies. -/
def legacyService (i : Identity) : Service CiHBState Input Reply where
  answer st
    | .datagram d _ _ => if i.Fits then answer i st d else none
    | .setProcess _ => none
  next := Input.stateAfter

variable {e : Endian} {i : Identity} {sockfd : Int} {w : Legacy.World Legacy.Responser}

/-- A datagram is delivered to a call of `Run`. -/
theorem run_legacyInput_datagram (e : Endian) (d : Datagram) (nSend : Int) (send : SendOutcome)
    (w : Legacy.World Legacy.Responser) :
    (legacyInput e (.datagram d nSend send)).run w =
      match (Legacy.run (overrides e)).run { w with env := fun _ ↦ .delivering d nSend } with
      | .ok _ w' => .ok () w'
      | .error f w' => .error f w' := by
  rw [legacyInput, EStateM.run_bind, EStateM.run_modify]
  dsimp only
  rw [EStateM.run_bind]
  cases (Legacy.run (overrides e)).run { w with env := fun _ ↦ .delivering d nSend } <;> rfl

/-- A responder that serves goes on serving whatever is delivered next. -/
theorem serving_delivering (hw : Serving i sockfd w) (d : Datagram) (nSend : Int) :
    Serving i sockfd { w with env := fun _ ↦ .delivering d nSend } where
  __ := hw
  quiet _ := List.not_mem_nil

/-- One input of a responder that serves: it sends what the service answers, and if it goes
on, serves in the next state; if it does not, no reply has room. -/
theorem run_legacyInput (hw : Serving i sockfd w) (input : Input) :
    match (legacyInput e input).run w with
    | .ok _ w' => Serving i sockfd w' ∧
        w'.own.processState = (legacyService i).next w.own.processState input ∧
        Legacy.sends w'.trace = Legacy.sends w.trace ++
          ((legacyService i).answer w.own.processState input).toList
    | .error _ w' => ¬i.Fits ∧ Legacy.sends w'.trace = Legacy.sends w.trace := by
  cases input with
  | setProcess st =>
    refine ⟨(hw.withOwn (r := setProcessState st w.own) rfl).record (by simp), rfl, ?_⟩
    change Legacy.sends (w.trace ++ [_]) = Legacy.sends w.trace ++ []
    rw [Legacy.sends_append]
    rfl
  | datagram d nSend send =>
    have hv := serving_delivering hw d nSend
    have hrun := serving_run e _ hv
    rw [run_legacyInput_datagram]
    generalize hvdef : { w with env := fun _ ↦ Legacy.Outcome.delivering d nSend } = v at hv hrun
    have henv : v.env = fun _ ↦ .delivering d nSend := by rw [← hvdef]
    have htrace : v.trace = w.trace := by rw [← hvdef]
    have hown : v.own = w.own := by rw [← hvdef]
    have hstate : v.own.processState = w.own.processState := by rw [hown]
    have hsends : Legacy.sends (delivered sockfd v).trace = Legacy.sends w.trace := by
      change Legacy.sends (v.trace ++ [_] ++ [_]) = _
      rw [Legacy.sends_append, Legacy.sends_append, htrace]
      exact (List.append_nil _).trans (List.append_nil _)
    by_cases hreq : IsRequest d.bytes
    · by_cases hfits : i.Fits
      · have hr := run_delivering_of_request (e := e) henv hv.bExit hv.sole hv.valid hreq
          (hv.identity ▸ hfits)
        have hanswer : (legacyService i).answer w.own.processState (.datagram d nSend send) =
            some ⟨(delivered sockfd v).own.saRecv, encodeMessage
              (v.own.identity.response v.own.processState (requestSeq d.bytes))⟩ := by
          rw [saRecv_delivered henv, hown, hw.identity]
          exact (if_pos hfits).trans (if_pos hreq)
        rw [hr] at hrun
        rw [hr]
        refine ⟨hrun.2, hstate, ?_⟩
        rw [hanswer, ← hsends]
        exact Legacy.sends_append _ _
      · obtain ⟨f, hr⟩ := run_delivering_of_not_fits (e := e) henv hv.bExit hv.sole hv.valid hreq
          (hv.identity ▸ hfits)
        rw [hr]
        exact ⟨hfits, hsends⟩
    · have hr := run_delivering_of_not_request (e := e) henv hv.bExit hv.sole hv.valid hreq
      have hanswer :
          (legacyService i).answer w.own.processState (.datagram d nSend send) = none := by
        simp only [legacyService, answer, if_neg hreq, ite_self]
      rw [hr] at hrun
      rw [hr]
      refine ⟨hrun.2, hstate, ?_⟩
      rw [hanswer, Option.toList_none, List.append_nil]
      exact hsends

/-- Without room for replies the service answers nothing. -/
theorem outputs_legacyService_of_not_fits (hfits : ¬i.Fits) (st : CiHBState)
    (inputs : List Input) : (legacyService i).outputs st inputs = [] := by
  induction inputs generalizing st with
  | nil => rfl
  | cons input inputs ih =>
    have hanswer : (legacyService i).answer st input = none := by
      cases input with
      | setProcess st' => rfl
      | datagram d nSend send => exact if_neg hfits
    rw [Service.outputs, hanswer, ih]
    rfl

/-- A legacy responder that serves is the legacy service. -/
theorem legacyReplies_eq (hw : Serving i sockfd w) (inputs : List Input) :
    legacyReplies e w inputs =
      Legacy.sends w.trace ++ (legacyService i).outputs w.own.processState inputs := by
  unfold legacyReplies
  induction inputs generalizing w with
  | nil => exact (List.append_nil _).symm
  | cons input inputs ih =>
    have hinput := run_legacyInput (e := e) hw input
    show Legacy.sends (Legacy.World.after ((do
      legacyInput e input
      inputs.forM (legacyInput e)).run w)).trace = _
    rw [EStateM.run_bind]
    cases hr : (legacyInput e input).run w with
    | error f w' =>
      rw [hr] at hinput
      obtain ⟨hfits, hsends⟩ := hinput
      rw [outputs_legacyService_of_not_fits hfits, List.append_nil]
      exact hsends
    | ok u w' =>
      rw [hr] at hinput
      obtain ⟨hw', hstate, hsends⟩ := hinput
      have hrest := ih hw'
      rw [hstate, hsends, List.append_assoc] at hrest
      exact hrest

/-! ### The asio session -/

/-- The asio session takes an input: a datagram completes the armed receive, and its handler is
dispatched. -/
def asioInput : Input → List Event
  | .datagram d _ send => [.complete (.received d), .dispatch send .returns]
  | .setProcess st => [.setProcess st]

/-- What the asio session has sent after a history, if every event of it can happen. -/
def asioReplies (e : Endian) (s : System) (inputs : List Input) : Option (List Reply) :=
  (exec (step e) s (inputs.flatMap asioInput)).map fun t ↦ sends t.trace

/-- The asio session answers whatever its parser takes for a request. -/
def asioService (e : Endian) (i : Identity) : Service CiHBState Input Reply where
  answer st
    | .datagram d _ _ =>
      if requestWord e (d.bytes.take 8) = CiHBMessageType.heartbeatRequest.code then
        some ⟨d.sender,
          responseBytes e ⟨none, i, 0, st, d.sender⟩ (parseRequest e (d.bytes.take 8)).2⟩
      else none
    | .setProcess _ => none
  next := Input.stateAfter

/-- The session waits for a datagram. -/
structure Armed (i : Identity) (s : System) : Prop where
  identity : s.session.identity = i
  socket : s.session.socket = some ⟨true⟩
  pending : s.pending = 1
  completed : s.completed = []
  crashed : s.crashed = false

/-- A started session waits for a datagram. -/
theorem armed_started (m : HeartBeatSession) : Armed m.identity (System.started m) :=
  ⟨rfl, rfl, rfl, rfl, rfl⟩

/-- The session after the handler of a datagram that recorded `es` has armed the next receive. -/
def rearmed (d : Datagram) (es : List AsioEvent) (s : System) : System :=
  { deliver (.received d) s with
    pending := s.pending - 1 + 1
    completed := []
    trace := s.trace ++ es }

/-- One input of a session that waits: it sends what the service answers, and waits in the
next state. -/
theorem exec_asioInput {s : System} (hs : Armed i s) (e : Endian) (input : Input) :
    ∃ t, exec (step e) s (asioInput input) = some t ∧ Armed i t ∧
      t.session.processState = (asioService e i).next s.session.processState input ∧
      sends t.trace =
        sends s.trace ++ ((asioService e i).answer s.session.processState input).toList := by
  cases input with
  | setProcess st =>
    refine ⟨{ s with session := { s.session with processState := st } }, ?_, ?_, rfl, ?_⟩
    · rw [asioInput, exec, step_setProcess hs.crashed]
      rfl
    · exact ⟨hs.identity, hs.socket, hs.pending, hs.completed, hs.crashed⟩
    · exact (List.append_nil _).symm
  | datagram d nSend send =>
    have hdeliver : step e s (.complete (.received d)) = some (deliver (.received d) s) := by
      rw [step_complete hs.crashed, if_pos (by rw [hs.pending]; exact Nat.one_pos)]
    have hqueue : (deliver (.received d) s).completed = [.received d] := by
      show s.completed ++ [.received d] = _
      rw [hs.completed]
      rfl
    obtain ⟨es, hrun, hes⟩ := run_handleReadRequest_received_returns
      (s := { deliver (.received d) s with completed := [] }) hs.socket e send d
    have hdispatch : step e (deliver (.received d) s) (.dispatch send .returns) =
        some (rearmed d es s) := by
      rw [step_dispatch (s := deliver (.received d) s) hs.crashed hqueue, hrun]
      rfl
    refine ⟨rearmed d es s, ?_, ?_, rfl, ?_⟩
    · rw [asioInput, exec, hdeliver, Option.bind_some, exec, hdispatch]
      rfl
    · refine ⟨hs.identity, hs.socket, ?_, rfl, hs.crashed⟩
      show s.pending - 1 + 1 = 1
      rw [hs.pending]
    · have hbytes (seq : Int32) :
          responseBytes e (deliver (.received d) s).session seq =
            responseBytes e ⟨none, i, 0, s.session.processState, d.sender⟩ seq := by
        rw [← hs.identity]
        rfl
      show sends (s.trace ++ es) = _
      rw [sends_append, hes, hbytes]
      by_cases hword : requestWord e (d.bytes.take 8) = CiHBMessageType.heartbeatRequest.code
      · simp only [asioService, if_pos hword, Option.toList_some]
        rfl
      · simp only [asioService, if_neg hword, Option.toList_none]

/-- A session that waits is the asio service. -/
theorem asioReplies_eq {s : System} (hs : Armed i s) (e : Endian) (inputs : List Input) :
    asioReplies e s inputs =
      some (sends s.trace ++ (asioService e i).outputs s.session.processState inputs) := by
  unfold asioReplies
  induction inputs generalizing s with
  | nil => exact congrArg some (List.append_nil _).symm
  | cons input inputs ih =>
    obtain ⟨t, hex, ht, hstate, hsends⟩ := exec_asioInput hs e input
    have hrest := ih ht
    rw [hstate, hsends, List.append_assoc] at hrest
    rw [List.flatMap_cons, exec_append, hex]
    exact hrest

/-! ### Where they agree -/

/-- The parser takes a datagram for a request if the first four bytes that are there are zero. -/
theorem requestWord_eq_request_iff (e : Endian) (bs : List UInt8) :
    requestWord e (bs.take 8) = CiHBMessageType.heartbeatRequest.code ↔
      ∀ b ∈ bs.take 4, b = 0 := by
  have hword : (overZeros (bs.take 4)).length = 4 := by
    rw [overZeros, List.length_append, List.length_replicate, List.length_take]
    omega
  have hparse : requestWord e (bs.take 8) =
      (ntohl e (loadInt e (overZeros (bs.take 4))).toUInt32).toInt32 := by
    have htake : (bs.take 8).take 4 = bs.take 4 := by rw [List.take_take]; rfl
    simp only [requestWord, parseRequest, IStream.read, if_true, htake]
  rw [hparse, ntohl_loadInt e hword]
  refine (ofNat_networkValue_eq_zero_iff hword).trans ?_
  simp only [overZeros, List.mem_append]
  constructor
  · intro h b hb
    exact h b (Or.inl hb)
  · intro h b hb
    rcases hb with hb | hb
    · exact h b hb
    · exact (List.mem_replicate.mp hb).2

/-- The legacy service answers requests, if there is room for replies. -/
theorem legacyService_isSome_iff (i : Identity) (st : CiHBState) (input : Input) :
    ((legacyService i).answer st input).isSome ↔ input.IsRequest ∧ i.Fits := by
  cases input with
  | setProcess st' => exact iff_of_false Bool.false_ne_true And.left
  | datagram d nSend send =>
    simp only [legacyService, answer, Input.IsRequest]
    by_cases hfits : i.Fits
    · by_cases hreq : IsRequest d.bytes <;> simp [hfits, hreq]
    · simp [hfits]

/-- The asio service answers short datagrams of zeros as well. -/
theorem asioService_isSome_iff (e : Endian) (i : Identity) (st : CiHBState) (input : Input) :
    ((asioService e i).answer st input).isSome ↔ input.IsRequest ∨ input.IsShortZero := by
  cases input with
  | setProcess st' => exact iff_of_false Bool.false_ne_true fun h ↦ h.elim id id
  | datagram d nSend send =>
    have hzero : (Input.datagram d nSend send).IsRequest ∨
        (Input.datagram d nSend send).IsShortZero ↔ ∀ b ∈ d.bytes.take 4, b = 0 := by
      simp only [Input.IsRequest, Input.IsShortZero, isRequest_iff]
      constructor
      · intro h
        rcases h with h | h
        · exact h.2
        · exact h.2
      · intro h
        by_cases hlen : 8 ≤ d.bytes.length
        · exact Or.inl ⟨hlen, h⟩
        · exact Or.inr ⟨by omega, h⟩
    rw [hzero, ← requestWord_eq_request_iff e]
    simp only [asioService]
    split
    · next hword => exact iff_of_true rfl hword
    · next hword => exact iff_of_false Bool.false_ne_true hword

/-- Where the legacy service answers, both give the same reply. -/
theorem legacyService_below (e : Endian) (i : Identity) :
    (legacyService i).Below (asioService e i) where
  next_eq := rfl
  answer_eq st input h := by
    obtain ⟨hreq, hfits⟩ := (legacyService_isSome_iff i st input).mp h
    cases input with
    | setProcess st' => exact hreq.elim
    | datagram d nSend send =>
      have hword := (requestWord_eq_request_iff e d.bytes).mpr ((isRequest_iff d.bytes).mp hreq).2
      have hbytes := responseBytes_eq_encodeMessage e ⟨none, i, 0, st, d.sender⟩
        (parseRequest e (d.bytes.take 8)).2 hfits
      rw [parseRequest_seq e hreq.1] at hbytes
      have hlegacy : (legacyService i).answer st (.datagram d nSend send) =
          some ⟨d.sender, encodeMessage (i.response st (requestSeq d.bytes))⟩ :=
        (if_pos hfits).trans (if_pos hreq)
      rw [hlegacy, ← hbytes]
      exact (if_pos hword).symm

/-- The two responders agree on a history exactly if no datagram of less than eight bytes in it
begins with zeros, or is empty, and its requests have replies of `int` size. -/
theorem responders_agree_iff (e e' : Endian) {m : HeartBeatSession}
    (hw : Serving m.identity sockfd w) (hstate : w.own.processState = m.processState)
    (hsends : Legacy.sends w.trace = []) (inputs : List Input) :
    asioReplies e' (System.started m) inputs = some (legacyReplies e w inputs) ↔
      (∀ input ∈ inputs, ¬input.IsShortZero) ∧
        (m.identity.Fits ∨ ∀ input ∈ inputs, ¬input.IsRequest) := by
  have hagree := (legacyService_below e' m.identity).outputs_eq_iff
    (legacyService_isSome_iff m.identity) (asioService_isSome_iff e' m.identity)
    m.processState inputs
  rw [asioReplies_eq (armed_started m), legacyReplies_eq hw, hsends, hstate, Option.some_inj,
    List.nil_append, eq_comm]
  refine hagree.trans ?_
  constructor
  · intro h
    constructor
    · intro input hin hshort
      have hlen := (h input hin (Or.inr hshort)).1
      cases input with
      | setProcess st => exact hshort
      | datagram d nSend send => exact absurd hlen.1 (by have := hshort.1; omega)
    · by_cases hfits : m.identity.Fits
      · exact Or.inl hfits
      · exact Or.inr fun input hin hreq ↦ hfits (h input hin (Or.inl hreq)).2
  · rintro ⟨hshort, hroom⟩ input hin hanswered
    have hreq : input.IsRequest := hanswered.resolve_right (hshort input hin)
    refine ⟨hreq, hroom.resolve_right fun h ↦ h input hin hreq⟩

/-- A legacy responder without addresses that serves, for runs on fixed inputs. -/
def servingSample : Legacy.World Legacy.Responser :=
  (threadClass .little).setState .doneInitInstance
    (Legacy.World.after (firstInit.run (requested ⟨[], []⟩).prepareRunning))

/-- A request, a change of the state, and a request of nine bytes that cannot be answered. -/
def sampleInputs : List Input :=
  [.datagram ⟨⟨1, 2⟩, [0, 0, 0, 0, 0, 0, 0, 7]⟩ 20 (.sent 20), .setProcess .hwError,
    .datagram ⟨⟨3, 4⟩, [0, 0, 0, 0, 255, 0, 0, 7, 1]⟩ (-1) (.failed ⟨101, "unreachable"⟩)]

/-- The responders agree on two requests and a change of the state. -/
theorem responders_agree_iff_requests :
    asioReplies .big (System.started sampleSession) sampleInputs =
      some (legacyReplies .little servingSample sampleInputs) := by
  obtain ⟨sockfd, hserving⟩ := serving_of_firstInit .little
    (w := (requested ⟨[], []⟩).prepareRunning) (starting_fresh fun _ ↦ List.not_mem_nil) rfl
  have hagree := responders_agree_iff .little .big (m := sampleSession) (w := servingSample)
    hserving rfl rfl sampleInputs
  refine hagree.mpr ⟨?_, Or.inl (by decide)⟩
  simp [sampleInputs, Input.IsShortZero]

/-- They do not agree on an empty datagram: the asio session answers it. -/
theorem empty_datagram_differs :
    legacyReplies .little servingSample [.datagram ⟨⟨1, 2⟩, []⟩ 20 (.sent 20)] = [] ∧
      asioReplies .little (System.started sampleSession)
          [.datagram ⟨⟨1, 2⟩, []⟩ 20 (.sent 20)] =
        some [⟨⟨1, 2⟩, [0, 0, 0, 1, 0, 0, 0, 0, 0, 0, 0, 0, 0, 0, 0, 0, 0, 0, 0, 0]⟩] :=
  ⟨by decide +kernel, by decide⟩

end HeartbeatSpec.Equivalence
