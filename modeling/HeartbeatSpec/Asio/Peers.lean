import Mathlib.Data.List.Nodup
import HeartbeatSpec.Asio.Threads

/-!
# Answering the right peer

Library `Asio`. Everything that a handler takes from its buffer and from `sender_endpoint_` it takes
before it arms the next receive, and until then nobody stores there,
`asio_base/HeartBeatSession.cpp:88–120`. A reply therefore goes to the sender of the datagram whose
sequence number it carries, and an error report names that sender.
-/

namespace HeartbeatSpec.Asio
open HeartbeatSpec.Base HeartbeatSpec.Message

variable {Tid : Type}

/-- What a handler passes to `handle_error` describes the sender of its datagram. -/
def NamesSender (d : Datagram) (errorStr : String) : Prop :=
  ∃ m what, m.senderEndpoint = d.sender ∧ errorStr = fromRemote m what

/-- The reply echoes bytes 4 to 7 of the datagram. -/
def Echoes (d : Datagram) (response : List UInt8) : Prop :=
  (response.drop 4).take 4 = (d.bytes.drop 4).take 4

/-- What the handler of a receive that has received `d` may do. -/
def AsioEvent.Right (d : Option Datagram) : AsioEvent → Prop
  | sendTo bytes dest => ∃ d', d = some d' ∧ dest = d'.sender ∧ Echoes d' bytes
  | handleError _ errorStr => ∀ d', d = some d' → NamesSender d' errorStr

/-- The arguments of a handler fit what has been received. -/
def ReadResult.Fits (d : Option Datagram) : ReadResult → Prop
  | read n => ∃ d', d = some d' ∧ 8 ≤ d'.bytes.length ∧ n = 8
  | failed _ => d = none

/-- What a handler has taken from the session so far fits what has been received. -/
def Stage.Fits (d : Option Datagram) : Stage → Prop
  | entered res => res.Fits d
  | responding seq => ∃ d', d = some d' ∧ 8 ≤ d'.bytes.length ∧ seq.toUInt32 = requestSeq d'.bytes
  | sending response => ∃ d', d = some d' ∧ Echoes d' response
  | reporting _ errorStr _ => ∀ d', d = some d' → NamesSender d' errorStr
  | describing _ _ _ | rearming => True

/-- The handler has not come to `send_to`. -/
def Stage.BeforeSend : Stage → Prop
  | entered _ | responding _ | sending _ => True
  | describing _ _ _ | reporting _ _ _ | rearming => False

/-- The receives whose handlers have sent a reply, in order. -/
def answered (log : List LogEntry) : List Nat :=
  log.filterMap fun entry ↦
    match entry.event with
    | .sendTo _ _ => some entry.op
    | .handleError _ _ => none

theorem answered_append (log log' : List LogEntry) :
    answered (log ++ log') = answered log ++ answered log' :=
  List.filterMap_append

theorem mem_answered {log : List LogEntry} {op : Nat} (h : op ∈ answered log) :
    ∃ entry ∈ log, entry.op = op := by
  obtain ⟨entry, hentry, hop⟩ := List.mem_filterMap.mp h
  refine ⟨entry, hentry, ?_⟩
  split at hop
  · exact Option.some.inj hop
  · cases hop

/-- A receive that does not fail receives eight bytes at least. -/
def Completion.Long : Completion → Prop
  | received d => 8 ≤ d.bytes.length
  | failed _ => True

/-- The datagrams that arrive have eight bytes at least. -/
def PoolEvent.Long : PoolEvent Tid → Prop
  | complete _ c => c.Long
  | store _ _ _ | dispatch _ _ | advance _ _ | setProcess _ => True

/-! ### One access -/

section Access

variable {e : Endian} {send : SendOutcome} {m : HeartBeatSession} {buffer : List UInt8}
  {d : Option Datagram} {stage : Stage}

/-- The response to a sequence number has its bytes in network order. -/
theorem responseBytes_seq (e : Endian) (m : HeartBeatSession) (seq : Int32) :
    ((responseBytes e m seq).drop 4).take 4 = networkBytes 4 seq.toUInt32.toNat := by
  simp only [responseBytes, storeInt_htonl, List.append_assoc]
  rw [List.drop_left' (length_networkBytes 4 _), List.take_left' (length_networkBytes 4 _)]

theorem echoes_responseBytes (e : Endian) (m : HeartBeatSession) {d : Datagram} {seq : Int32}
    (hlong : 8 ≤ d.bytes.length) (hseq : seq.toUInt32 = requestSeq d.bytes) :
    Echoes d (responseBytes e m seq) := by
  rw [Echoes, responseBytes_seq, hseq]
  apply networkBytes_ofNat
  rw [List.length_take, List.length_drop]
  omega

/-- A handler that has its datagram in the buffer, and its sender in the session, does right. -/
theorem fits_handlerStep
    (hkept : ∀ d', d = some d' → buffer = d'.bytes.take 8 ∧ m.senderEndpoint = d'.sender)
    (h : stage.Fits d) :
    (∀ ev ∈ (handlerStep e send m buffer stage).1, ev.Right d) ∧
      ∀ next, (handlerStep e send m buffer stage).2 = some next → next.Fits d := by
  cases stage with
  | entered res =>
    cases res with
    | failed ec =>
      refine ⟨fun ev hev ↦ absurd hev List.not_mem_nil, fun next hnext ↦ ?_⟩
      cases hnext
      trivial
    | read n =>
      obtain ⟨d', hd, hlong, rfl⟩ := h
      obtain ⟨hbuffer, -⟩ := hkept d' hd
      simp only [handlerStep]
      split
      · refine ⟨fun ev hev ↦ absurd hev List.not_mem_nil, fun next hnext ↦ ?_⟩
        cases hnext
        refine ⟨d', hd, hlong, ?_⟩
        rw [hbuffer, List.take_take, Nat.min_self]
        exact parseRequest_seq e hlong
      · refine ⟨fun ev hev ↦ absurd hev List.not_mem_nil, fun next hnext ↦ ?_⟩
        cases hnext
        trivial
  | responding seq =>
    obtain ⟨d', hd, hlong, hseq⟩ := h
    refine ⟨fun ev hev ↦ absurd hev List.not_mem_nil, fun next hnext ↦ ?_⟩
    cases hnext
    exact ⟨d', hd, echoes_responseBytes e m hlong hseq⟩
  | sending response =>
    obtain ⟨d', hd, hecho⟩ := h
    constructor
    · intro ev hev
      rw [List.mem_singleton.mp hev]
      exact ⟨d', hd, (hkept d' hd).2, hecho⟩
    · intro next hnext
      simp only [handlerStep] at hnext
      split at hnext
      · cases hnext
        trivial
      · split at hnext <;> cases hnext <;> trivial
  | describing errorCode what again =>
    refine ⟨fun ev hev ↦ absurd hev List.not_mem_nil, fun next hnext ↦ ?_⟩
    cases hnext
    exact fun d' hd ↦ ⟨m, what, (hkept d' hd).2, rfl⟩
  | reporting errorCode errorStr again =>
    constructor
    · intro ev hev
      rw [List.mem_singleton.mp hev]
      exact h
    · intro next hnext
      simp only [handlerStep] at hnext
      split at hnext
      · cases hnext
        trivial
      · cases hnext
  | rearming => exact ⟨fun ev hev ↦ absurd hev List.not_mem_nil, by simp [handlerStep]⟩

/-- The one access that sends a reply. -/
theorem answered_handlerStep (op : Nat) :
    answered ((handlerStep e send m buffer stage).1.map (⟨op, ·⟩)) =
      match stage with
      | .sending _ => [op]
      | _ => [] := by
  cases stage with
  | entered res =>
    cases res with
    | failed ec => rfl
    | read n =>
      simp only [handlerStep]
      split <;> rfl
  | _ => rfl

/-- A handler that has come past `send_to` does not come there again. -/
theorem beforeSend_handlerStep {next : Stage}
    (hnext : (handlerStep e send m buffer stage).2 = some next) (h : next.BeforeSend) :
    stage.BeforeSend ∧ ∀ response, stage ≠ .sending response := by
  cases stage with
  | entered res => exact ⟨trivial, by simp⟩
  | responding seq => exact ⟨trivial, by simp⟩
  | sending response =>
    simp only [handlerStep] at hnext
    split at hnext
    · cases hnext
      exact h.elim
    · split at hnext <;> cases hnext <;> exact h.elim
  | describing errorCode what again =>
    cases hnext
    exact h.elim
  | reporting errorCode errorStr again =>
    simp only [handlerStep] at hnext
    split at hnext
    · cases hnext
      exact h.elim
    · cases hnext
  | rearming => cases hnext

end Access

/-! ### States -/

namespace Pool

/-- The receive waits for its handler. -/
def Waiting (s : Pool Tid) (k : Nat) : Prop := ∃ res, (s.ops k).status = .completed res

/-- What holds of the receives, of the handlers on the threads, and of what they have done. -/
structure Sound (s : Pool Tid) : Prop where
  token : ∃ b, HeldBy s b
  kept : ∀ d, (s.ops s.newest).datagram = some d →
    (s.ops s.newest).buffer = d.bytes.take 8 ∧ s.session.senderEndpoint = d.sender
  empty : (s.ops s.newest).status = .outstanding → (s.ops s.newest).datagram = none
  result : ∀ res, (s.ops s.newest).status = .completed res → res.Fits (s.ops s.newest).datagram
  stage : ∀ t k stage, s.pc t = .inside k stage → stage.Fits (s.ops k).datagram
  older : ∀ entry ∈ s.log, entry.op ≤ s.newest
  silent : (s.ops s.newest).status ≠ .dispatched → ∀ entry ∈ s.log, entry.op ≠ s.newest
  unanswered : ∀ t k stage, s.pc t = .inside k stage → stage.BeforeSend → k ∉ answered s.log
  right : ∀ entry ∈ s.log, entry.event.Right (s.ops entry.op).datagram
  once : (answered s.log).Nodup

theorem sound_started (m : HeartBeatSession) : Sound (Pool.started m : Pool Tid) where
  token := ⟨_, heldBy_started m⟩
  kept d hd := by cases hd
  empty _ := rfl
  result res hres := by cases hres
  stage t k stage h := by cases h
  older entry h := absurd h List.not_mem_nil
  silent _ entry h := absurd h List.not_mem_nil
  unanswered t k stage h := by cases h
  right entry h := absurd h List.not_mem_nil
  once := List.nodup_nil

variable {s : Pool Tid}

/-- While a receive is outstanding or waits, no thread is inside a handler. -/
theorem Sound.not_inside (h : Sound s) {k : Nat}
    (hk : (s.ops k).status = .outstanding ∨ s.Waiting k) {t : Tid} {op : Nat} {stage : Stage} :
    s.pc t ≠ .inside op stage := by
  obtain ⟨b, hb⟩ := h.token
  intro hpc
  have hinside := (hb.inside t op stage hpc).1
  rcases hk with hk | ⟨res, hk⟩
  · rw [(hb.of_outstanding hk).2] at hinside
    cases hinside
  · rw [(hb.of_completed hk).2] at hinside
    cases hinside

/-- An outstanding receive is the newest. -/
theorem Sound.newest_of_outstanding (h : Sound s) {k : Nat}
    (hk : (s.ops k).status = .outstanding) : k = s.newest := by
  obtain ⟨b, hb⟩ := h.token
  exact (hb.of_outstanding hk).1

/-- A change of the newest receive, before its handler is dispatched. -/
theorem Sound.of_newest (h : Sound s) {r : ReadOp} {sender : Endpoint} {s' : Pool Tid}
    (hs' : s' = { s.setOp s.newest r with session := { s.session with senderEndpoint := sender } })
    (hout : (s.ops s.newest).status = .outstanding) (htoken : ∃ b, HeldBy s' b)
    (hkept : ∀ d, r.datagram = some d → r.buffer = d.bytes.take 8 ∧ sender = d.sender)
    (hempty : r.status = .outstanding → r.datagram = none)
    (hresult : ∀ res, r.status = .completed res → res.Fits r.datagram) : Sound s' := by
  have hsilent := h.silent (by simp [hout])
  subst hs'
  have hself : Function.update s.ops s.newest r s.newest = r := Function.update_self _ _ _
  refine ⟨htoken, fun d hd ↦ ?_, fun hs ↦ ?_, fun res hs ↦ ?_, fun t k stage hpc ↦ ?_, h.older,
    fun _ ↦ hsilent, h.unanswered, fun entry hentry ↦ ?_, h.once⟩
  · simp only [setOp, hself] at hd ⊢
    exact hkept d hd
  · simp only [setOp, hself] at hs ⊢
    exact hempty hs
  · simp only [setOp, hself] at hs ⊢
    exact hresult res hs
  · exact absurd hpc (h.not_inside (Or.inl hout))
  · simp only [setOp, Function.update_of_ne (hsilent entry hentry)]
    exact h.right entry hentry

theorem Sound.complete (h : Sound s) {c : Completion} (hlong : c.Long)
    (hout : (s.ops s.newest).status = .outstanding)
    (htoken : ∃ b, HeldBy (s.completed s.newest c) b) : Sound (s.completed s.newest c) := by
  cases c with
  | received d =>
    have h8 : min d.bytes.length 8 = 8 := Nat.min_eq_right hlong
    refine h.of_newest rfl hout htoken (fun d' hd ↦ ?_) (by simp) fun res hres ↦ ?_
    · cases hd
      exact ⟨rfl, rfl⟩
    · cases hres
      exact ⟨d, rfl, hlong, h8⟩
  | failed ec =>
    have hnone := h.empty hout
    have hnever (d : Datagram) : (s.ops s.newest).datagram ≠ some d := by
      simp [hnone]
    have hs' : s.completed s.newest (.failed ec) =
        { s.setOp s.newest
            { s.ops s.newest with status := .completed (Completion.failed ec).result } with
          session := { s.session with senderEndpoint := s.session.senderEndpoint } } := rfl
    refine h.of_newest hs' hout htoken (fun d hd ↦ absurd hd (hnever d)) (by simp) fun res hres ↦ ?_
    cases hres
    exact hnone

section Steps

variable [DecidableEq Tid] {e : Endian} {s' : Pool Tid}

theorem Sound.dispatch (h : Sound s) {t : Tid} {res : ReadResult}
    (hdone : (s.ops s.newest).status = .completed res)
    (hs' : s' = (s.setOp s.newest { s.ops s.newest with status := .dispatched }).setPc t
      (.inside s.newest (.entered res))) (htoken : ∃ b, HeldBy s' b) : Sound s' := by
  have hsilent := h.silent (by simp [hdone])
  have hdatagram (k : Nat) : (s'.ops k).datagram = (s.ops k).datagram := by
    subst hs'
    by_cases hk : k = s.newest
    · simp [setPc, setOp, hk]
    · simp [setPc, setOp, hk]
  have hbuffer : (s'.ops s.newest).buffer = (s.ops s.newest).buffer := by
    subst hs'
    simp [setPc, setOp]
  have hstatus : (s'.ops s.newest).status = .dispatched := by
    subst hs'
    simp [setPc, setOp]
  have hpc {u : Tid} {k : Nat} {stage : Stage} (hu : s'.pc u = .inside k stage) :
      k = s.newest ∧ stage = .entered res := by
    subst hs'
    by_cases hut : u = t
    · subst hut
      simp only [setPc, Function.update_self] at hu
      cases hu
      exact ⟨rfl, rfl⟩
    · simp only [setPc, Function.update_of_ne hut] at hu
      exact absurd hu (h.not_inside (Or.inr ⟨res, hdone⟩))
  have hnewest : s'.newest = s.newest := by rw [hs']; rfl
  have hlog : s'.log = s.log := by rw [hs']; rfl
  have hsession : s'.session = s.session := by rw [hs']; rfl
  constructor
  · exact htoken
  · rw [hnewest, hdatagram, hbuffer, hsession]
    exact h.kept
  · simp [hnewest, hstatus]
  · simp [hnewest, hstatus]
  · intro u k stage hu
    obtain ⟨rfl, rfl⟩ := hpc hu
    rw [hdatagram]
    exact h.result res hdone
  · rw [hlog, hnewest]
    exact h.older
  · rw [hnewest, hstatus]
    intro hne
    exact absurd rfl hne
  · intro u k stage hu _ hmem
    obtain ⟨rfl, -⟩ := hpc hu
    rw [hlog] at hmem
    obtain ⟨entry, hentry, hop⟩ := mem_answered hmem
    exact hsilent entry hentry hop
  · rw [hlog]
    intro entry hentry
    rw [hdatagram]
    exact h.right entry hentry
  · rw [hlog]
    exact h.once

/-- A handler that arms the next receive leaves nothing of the session to be looked at. -/
theorem Sound.rearm (h : Sound s) {t : Tid}
    (hs' : s' = s.rearmed.setPc t .leaving) (htoken : HeldBy s' .outstanding) : Sound s' := by
  have hself : s'.ops s'.newest = .armed := by
    subst hs'
    exact Function.update_self _ _ _
  have hold {k : Nat} (hk : k ≤ s.newest) : s'.ops k = s.ops k := by
    subst hs'
    exact Function.update_of_ne (by omega) _ _
  have hlog : s'.log = s.log := by rw [hs']; rfl
  have hnewest : s'.newest = s.newest + 1 := by rw [hs']; rfl
  have hnot {u : Tid} {k : Nat} {stage : Stage} : s'.pc u ≠ .inside k stage := by
    intro hu
    cases (htoken.inside u k stage hu).1
  constructor
  · exact ⟨_, htoken⟩
  · simp [hself, ReadOp.armed]
  · rw [hself]
    exact fun _ ↦ rfl
  · simp [hself, ReadOp.armed]
  · exact fun u k stage hu ↦ absurd hu hnot
  · rw [hlog, hnewest]
    exact fun entry hentry ↦ Nat.le_succ_of_le (h.older entry hentry)
  · rw [hlog, hnewest]
    intro _ entry hentry
    have hle := h.older entry hentry
    omega
  · exact fun u k stage hu ↦ absurd hu hnot
  · rw [hlog]
    intro entry hentry
    rw [hold (h.older entry hentry)]
    exact h.right entry hentry
  · rw [hlog]
    exact h.once

/-- A handler that goes on before that does right. -/
theorem Sound.advance (h : Sound s) {t : Tid} {stage : Stage} {send : SendOutcome}
    (hpc : s.pc t = .inside s.newest stage)
    (hs' : s' =
      { s.setPc t (match (handlerStep e send s.session (s.ops s.newest).buffer stage).2 with
          | some stage' => .inside s.newest stage'
          | none => .leaving) with
        log := s.log ++
          (handlerStep e send s.session (s.ops s.newest).buffer stage).1.map (⟨s.newest, ·⟩) })
    (htoken : ∃ b, HeldBy s' b) : Sound s' := by
  obtain ⟨hright, hnext⟩ := @fits_handlerStep e send _ _ _ _ h.kept (h.stage t s.newest stage hpc)
  have hbefore := @beforeSend_handlerStep e send s.session (s.ops s.newest).buffer stage
  have hanswered := @answered_handlerStep e send s.session (s.ops s.newest).buffer stage s.newest
  generalize handlerStep e send s.session (s.ops s.newest).buffer stage = r at *
  have hops : s'.ops = s.ops := by rw [hs']; rfl
  have hnewest : s'.newest = s.newest := by rw [hs']; rfl
  have hsession : s'.session = s.session := by rw [hs']; rfl
  have hlog : s'.log = s.log ++ r.1.map (⟨s.newest, ·⟩) := by rw [hs']
  obtain ⟨b, hb⟩ := h.token
  obtain ⟨rfl, -⟩ := hb.inside t s.newest stage hpc
  -- The thread is the only one inside a handler.
  have hinside {u : Tid} {k : Nat} {stage' : Stage} (hu : s'.pc u = .inside k stage') :
      k = s.newest ∧ r.2 = some stage' := by
    rw [hs'] at hu
    by_cases hut : u = t
    · subst hut
      simp only [setPc, Function.update_self] at hu
      split at hu
      · next hr =>
        cases hu
        exact ⟨rfl, hr⟩
      · cases hu
    · simp only [setPc, Function.update_of_ne hut] at hu
      cases (hb.inside u k stage' hu).1
      exact absurd rfl hut
  constructor
  · exact htoken
  · rw [hops, hnewest, hsession]
    exact h.kept
  · rw [hops, hnewest]
    exact h.empty
  · rw [hops, hnewest]
    exact h.result
  · intro u k stage' hu
    obtain ⟨rfl, hr⟩ := hinside hu
    rw [hops]
    exact hnext stage' hr
  · rw [hlog, hnewest]
    intro entry hentry
    rcases List.mem_append.mp hentry with hentry | hentry
    · exact h.older entry hentry
    · obtain ⟨ev, -, rfl⟩ := List.mem_map.mp hentry
      exact Nat.le_refl _
  · rw [hops, hnewest]
    exact fun hne ↦ absurd hb.newest hne
  · intro u k stage' hu hsend
    obtain ⟨rfl, hr⟩ := hinside hu
    obtain ⟨hstage, hnot⟩ := hbefore hr hsend
    have hnone : answered (r.1.map (⟨s.newest, ·⟩)) = [] := by
      rw [hanswered]
      split
      · next response => exact absurd rfl (hnot response)
      · rfl
    rw [hlog, answered_append, hnone, List.append_nil]
    exact h.unanswered t s.newest stage hpc hstage
  · rw [hlog, hops]
    intro entry hentry
    rcases List.mem_append.mp hentry with hentry | hentry
    · exact h.right entry hentry
    · obtain ⟨ev, hev, rfl⟩ := List.mem_map.mp hentry
      exact hright ev hev
  · rw [hlog, answered_append, hanswered]
    split
    · next response =>
      have hfirst := h.unanswered t s.newest _ hpc trivial
      rw [← List.concat_eq_append]
      exact h.once.concat hfirst
    · rw [List.append_nil]
      exact h.once

/-- Every step keeps all this. -/
theorem sound_step (h : Sound s) {l : PoolEvent Tid} (hlong : l.Long)
    (hstep : step e s l = some s') : Sound s' := by
  have htoken : ∃ b, HeldBy s' b := by
    obtain ⟨b, hb⟩ := h.token
    exact heldBy_step hb hstep
  cases l with
  | store op bytes sender =>
    simp only [step] at hstep
    split at hstep
    · next hout =>
      cases hstep
      obtain rfl := h.newest_of_outstanding hout
      have hnone := h.empty hout
      refine h.of_newest (r := { s.ops s.newest with buffer := bytes.take 8 }) rfl hout htoken
        (fun d hd ↦ ?_) (fun _ ↦ hnone) fun res hres ↦ ?_
      · rw [hnone] at hd
        cases hd
      · rw [hout] at hres
        cases hres
    · cases hstep
  | complete op c =>
    simp only [step] at hstep
    split at hstep
    · next hout =>
      cases hstep
      obtain rfl := h.newest_of_outstanding hout
      exact h.complete hlong hout htoken
    · cases hstep
  | dispatch t op =>
    simp only [step] at hstep
    split at hstep
    · next res hidle hdone =>
      cases hstep
      obtain ⟨b, hb⟩ := h.token
      obtain ⟨rfl, -⟩ := hb.of_completed hdone
      exact h.dispatch hdone rfl htoken
    · cases hstep
  | advance t send =>
    simp only [step] at hstep
    split at hstep
    · cases hstep
    · next op stage hpc =>
      cases hstep
      obtain ⟨b, hb⟩ := h.token
      obtain ⟨rfl, rfl⟩ := hb.inside t op stage hpc
      rcases advanced_cases e t send s.newest stage s with ⟨-, hs⟩ | ⟨-, hs⟩
      · rw [hs]
        exact h.rearm rfl hb.rearmed
      · rw [hs] at htoken ⊢
        exact h.advance hpc rfl htoken
    · next hpc =>
      cases hstep
      have hinside {u : Tid} {k : Nat} {stage : Stage}
          (hu : (s.setPc t .idle).pc u = .inside k stage) : s.pc u = .inside k stage := by
        by_cases hut : u = t
        · subst hut
          simp [setPc] at hu
        · simpa only [setPc, Function.update_of_ne hut] using hu
      exact { h with
        token := htoken
        stage := fun u k stage hu ↦ h.stage u k stage (hinside hu)
        unanswered := fun u k stage hu ↦ h.unanswered u k stage (hinside hu) }
  | setProcess st =>
    cases hstep
    exact { h with token := htoken, kept := h.kept }

end Steps

/-! ### Runs -/

/-- The receive waits for its handler, or a thread is in it and has not armed the next. -/
def Handled (s : Pool Tid) (k : Nat) : Prop :=
  s.Waiting k ∨ ∃ t stage, s.pc t = .inside k stage

/-- One receive at a time, and every reply and every report about the datagram that it answers. -/
structure PeerLaw (s : Pool Tid) : Prop where
  one_outstanding : ∀ k k', (s.ops k).status = .outstanding → (s.ops k').status = .outstanding →
    k = k'
  one_handled : ∀ k k', s.Handled k → s.Handled k' → k = k'
  one_thread : ∀ t u k k' stage stage', s.pc t = .inside k stage → s.pc u = .inside k' stage' →
    t = u ∧ ¬s.Waiting k
  not_both : ∀ k k', (s.ops k).status = .outstanding → ¬s.Handled k'
  endpoint_kept : ∀ k d, s.Handled k → (s.ops k).datagram = some d →
    s.session.senderEndpoint = d.sender
  answered_once : (answered s.log).Nodup
  right_peer : ∀ entry ∈ s.log, entry.event.Right (s.ops entry.op).datagram

theorem Sound.newest_of_handled {s : Pool Tid} (h : Sound s) {k : Nat} (hk : s.Handled k) :
    k = s.newest := by
  obtain ⟨b, hb⟩ := h.token
  rcases hk with ⟨res, hk⟩ | ⟨t, stage, hpc⟩
  · exact (hb.of_completed hk).1
  · exact (hb.inside t k stage hpc).2

theorem Sound.peerLaw {s : Pool Tid} (h : Sound s) : PeerLaw s where
  one_outstanding k k' hk hk' :=
    (h.newest_of_outstanding hk).trans (h.newest_of_outstanding hk').symm
  one_handled k k' hk hk' := (h.newest_of_handled hk).trans (h.newest_of_handled hk').symm
  one_thread t u k k' stage stage' ht hu := by
    obtain ⟨b, hb⟩ := h.token
    constructor
    · have hsame := (hb.inside t k stage ht).1.symm.trans (hb.inside u k' stage' hu).1
      cases hsame
      rfl
    · intro hwaiting
      exact h.not_inside (Or.inr hwaiting) ht
  not_both k k' hk hk' := by
    rcases hk' with ⟨res, hk'⟩ | ⟨t, stage, hpc⟩
    · rw [(h.newest_of_outstanding hk).trans (h.newest_of_handled (Or.inl ⟨res, hk'⟩)).symm] at hk
      rw [hk] at hk'
      cases hk'
    · exact h.not_inside (Or.inl hk) hpc
  endpoint_kept k d hk hd := by
    rw [h.newest_of_handled hk] at hd
    exact (h.kept d hd).2
  answered_once := h.once
  right_peer := h.right

/-- In every run of a started session that nobody clears, with any threads, arrivals of datagrams of
at least eight bytes, and outcomes of sends, one receive at most is outstanding or handled, each
datagram is answered at most once, and each answer goes to its own sender. -/
theorem answers_right_peer [DecidableEq Tid] {e : Endian} {m : HeartBeatSession}
    {tr : List (Transition (Pool Tid) (PoolEvent Tid))} {s : Pool Tid}
    (h : Runs (step e) (Pool.started m) tr s) (hlong : ∀ x ∈ tr, x.label.Long) : PeerLaw s := by
  have hrule := h.rule (I := Sound) (C := fun _ l _ ↦ l.Long) (P := fun _ _ _ ↦ True)
    (fun s l t hs hst hl ↦ ⟨sound_step hs hl hst, trivial⟩) (sound_started m) hlong
  exact hrule.1.peerLaw

/-- Two threads: the first answers a request, and while it leaves its handler the next request
arrives and the second thread answers it. -/
def twoRequests : List (PoolEvent (Fin 2)) :=
  [.store 0 [0] ⟨9, 9⟩, .complete 0 (.received ⟨⟨1, 2⟩, [0, 0, 0, 0, 0, 0, 0, 7]⟩),
    .dispatch 0 0, .advance 0 (.sent 20), .advance 0 (.sent 20), .advance 0 (.sent 20),
    .advance 0 (.sent 20), .complete 1 (.received ⟨⟨3, 4⟩, [0, 0, 0, 0, 0, 0, 0, 8]⟩),
    .dispatch 1 1, .advance 0 (.sent 20), .advance 1 (.sent 20), .advance 1 (.sent 20),
    .advance 1 (.sent 20), .advance 1 (.sent 20)]

/-- The two requests are answered to their senders. -/
theorem answers_right_peer_two :
    (exec (step .little) (Pool.started (.new ⟨[], []⟩ 8090)) twoRequests).map
        (fun s ↦ (s.newest, sends (s.log.map (·.event)))) =
        some (2, [⟨⟨1, 2⟩, [0, 0, 0, 1, 0, 0, 0, 7, 0, 0, 0, 0, 0, 0, 0, 0, 0, 0, 0, 0]⟩,
          ⟨⟨3, 4⟩, [0, 0, 0, 1, 0, 0, 0, 8, 0, 0, 0, 0, 0, 0, 0, 0, 0, 0, 0, 0]⟩]) ∧
      ∃ s, exec (step .little) (Pool.started (.new ⟨[], []⟩ 8090)) twoRequests = some s ∧
        PeerLaw s := by
  obtain ⟨s, hs⟩ :
      ∃ s, exec (step .little) (Pool.started (.new ⟨[], []⟩ 8090)) twoRequests = some s := ⟨_, rfl⟩
  refine ⟨by decide +kernel, s, hs, answers_right_peer (Runs.of_exec hs) fun x hx ↦ ?_⟩
  have hall : ∀ l ∈ twoRequests, l.Long := by
    simp [twoRequests, PoolEvent.Long, Completion.Long]
  exact hall x.label (label_mem_of_mem_trace hx)

end Pool
end HeartbeatSpec.Asio
