import HeartbeatSpec.Complex.Lockstep
import HeartbeatSpec.Legacy.Callbacks

/-!
# Replies in a complex and alone

Library `Complex`. `PrepareComplexing` clears the exit flag of the second base only, but
`CNetworkThread::Run` reads the one of the first, which only its own `PrepareRunning` clears. A
complexed responder therefore answers like one that runs alone if that flag happens to be clear
already, and otherwise never polls.
-/

namespace HeartbeatSpec.Complex
open HeartbeatSpec.Base HeartbeatSpec.Legacy HeartbeatSpec.Message HeartbeatSpec.Thread

/-- The number of calls of `poll`. -/
def polls (trace : List SysEvent) : Nat :=
  trace.countP fun
    | .poll _ _ _ => true
    | _ => false

/-- One event more. -/
theorem polls_snoc (trace : List SysEvent) (ev : SysEvent) :
    polls (trace ++ [ev]) = polls trace + polls [ev] :=
  List.countP_append

/-- The replies of `n` ticks in a complex are those of as many turns of the responder alone, and
after a successful `InitInstance` every tick polls. -/
def AnswersAlone (e : Endian) (a : Adapter) (n : Nat) : Prop :=
  sends (Adapter.after ((Adapter.ticks e n).run a.prepareComplexing)).responser.trace =
      sends (World.after (Responser.runThreadHere e n a.responser)).trace ∧
    (Responser.InitSucceeds a.responser →
      ∀ a', (Adapter.ticks e n).run a.prepareComplexing = .ok () a' →
        polls a'.responser.trace = n)

/-! ### The flag is clear: both send the same -/

private theorem counts_clients (calls : List ClientCall) :
    sends (calls.map .client) = [] ∧ polls (calls.map .client) = 0 := by
  induction calls with
  | nil => exact ⟨rfl, rfl⟩
  | cons call rest ih => exact ih

/-- What other threads do sends nothing and polls nothing. -/
private theorem counts_clientCalls (calls : List ClientCall) (w : World Responser) :
    sends (clientCalls Responser.setProcessState calls w).trace = sends w.trace ∧
      polls (clientCalls Responser.setProcessState calls w).trace = polls w.trace := by
  obtain ⟨hsends, hpolls⟩ := counts_clients calls
  rw [trace_clientCalls]
  constructor
  · rw [sends_append, hsends, List.append_nil]
  · exact List.countP_append.trans (congrArg (polls w.trace + ·) hpolls)

/-- In a done state a tick sends nothing. -/
theorem keeps_ticks_of_done (e : Endian) (replies : List Reply) (n : Nat) :
    Keeps (fun a ↦ sends a.responser.trace = replies ∧ a.state.isThreadDone = true)
      (fun _ _ ↦ False) (Adapter.ticks e n) := by
  have hothers : Keeps (fun w ↦ sends w.trace = replies) (fun _ _ ↦ False) Responser.others :=
    fun w hw ↦ (counts_clientCalls (w.env 0).clients w.next).1.trans hw
  induction n with
  | zero => exact Keeps.pure _
  | succ n ih =>
    refine Keeps.bind ?_ fun _ ↦ ih
    refine Keeps.bind (Adapter.contract_onResponser hothers fun _ st ↦ st.isThreadDone = true)
      fun _ ↦ Keeps.get_bind fun _ ↦ Keeps.ite ?_ (Keeps.pure _)
    intro a ha
    rw [(Adapter.threadClass e).threadProc_of_done ha.2]
    exact ha

/-- Twins have the same record. -/
theorem Twins.trace_eq {a : Adapter} {u : World Responser} (h : Twins a u) :
    a.responser.trace = u.trace := by
  rw [h.eq]
  rfl

/-- From twins on, the ticks send what the turns of the responder alone send. -/
theorem sends_ticks_eq (e : Endian) (n : Nat) {a : Adapter} {u : World Responser}
    (h : Twins a u) :
    sends (Adapter.after ((Adapter.ticks e n).run a)).responser.trace =
      sends (World.after (((Responser.threadClass e).runLoop n).run u)).trace := by
  induction n generalizing a u with
  | zero => exact congrArg sends h.trace_eq
  | succ n ih =>
    cases hd : ((Responser.threadClass e).state u).isThreadDone with
    | true =>
      have hstate : a.state.isThreadDone = true := by
        rw [← hd]
        exact congrArg _ ((threadClass_alike e).state a u h)
      have hkeeps := keeps_ticks_of_done e (sends a.responser.trace) (n + 1) a ⟨rfl, hstate⟩
      rw [(Responser.threadClass e).runLoop_of_done hd]
      show _ = sends u.trace
      rw [← h.trace_eq]
      cases hr : (Adapter.ticks e (n + 1)).run a with
      | ok r a' =>
        rw [hr] at hkeeps
        exact hkeeps.1
      | error f a' =>
        rw [hr] at hkeeps
        exact hkeeps.elim
    | false =>
      have htick := alike_tick e a u h
      rw [(Responser.threadClass e).runLoop_succ hd, Adapter.ticks, EStateM.run_bind,
        EStateM.run_bind]
      cases hr : (Adapter.tick e).run a with
      | ok r a' =>
        rw [hr] at htick
        obtain ⟨u', hu, htwins⟩ := htick
        rw [hu]
        exact ih htwins
      | error f a' =>
        rw [hr] at htick
        obtain ⟨u', hu, htwins⟩ := htick
        rw [hu]
        exact congrArg sends htwins.trace_eq

/-! ### The flag is clear: every tick polls -/

/-- The exit flag is clear, nobody sets it, and `poll` has been called `k` times. -/
structure Polled (k : Nat) (w : World Responser) : Prop where
  bExit : w.thread.bExit = false
  quiet : w.Quiet
  polls_eq : polls w.trace = k

namespace Polled

variable {k : Nat} {w : World Responser}

/-- An answer of the environment is no event. -/
theorem next (h : Polled k w) : Polled k w.next := ⟨h.bExit, fun j ↦ h.quiet (j + 1), h.polls_eq⟩

/-- One event more. -/
theorem record (h : Polled k w) {ev : SysEvent} {j : Nat} (hev : polls [ev] = j) :
    Polled (k + j) (w.record ev) where
  bExit := h.bExit
  quiet := h.quiet
  polls_eq := by
    rw [← h.polls_eq, ← hev]
    exact polls_snoc _ _

/-- A change that leaves the exit flag. -/
theorem withThread (h : Polled k w) {f : NetworkThread → NetworkThread}
    (hf : (f w.thread).bExit = w.thread.bExit) : Polled k (w.withThread f) :=
  ⟨hf.trans h.bExit, h.quiet, h.polls_eq⟩

/-- What other threads do at a point. -/
theorem afterOthers (h : Polled k w) : Polled k (Responser.afterOthers w) := by
  have htwin : Twin w.thread.state (Responser.afterOthers w) _ :=
    clientCalls_twin (h.quiet 0) ⟨h.bExit, h.next.quiet, rfl⟩
  refine ⟨htwin.bExit, htwin.quiet, ?_⟩
  exact (counts_clientCalls (w.env 0).clients w.next).2.trans h.polls_eq

end Polled

private theorem polled_handlers (k : Nat) : Responser.HandlerInvariant (Polled k) where
  cleared _ _ h := h.withThread rfl
  received sockfd w h := by
    have hr : Polled k (w.next.record (.recvfrom sockfd (w.env 0).recvfrom)) :=
      h.next.record (j := 0) rfl
    exact ⟨hr.bExit, hr.quiet, hr.polls_eq⟩
  afterOthers _ h := h.afterOthers
  sentTo _ _ _ h := h.next.record (j := 0) rfl

private theorem polled_setup (k : Nat) : SetupInvariant (Polled k) where
  next _ h := h.next
  record ev w hev h := by
    cases ev <;> first | exact hev.elim | exact h.record (j := 0) rfl
  sockets _ _ _ _ h := h.withThread rfl

private theorem polled_waitNetworkEvent (k : Nat) :
    Contract (Polled k) waitNetworkEvent (fun _ ↦ Polled (k + 1)) fun _ ↦ Polled (k + 1) := by
  have hcount (count : NetworkThread → Int) : Keeps (Polled (k + 1)) (fun _ ↦ Polled (k + 1))
      (modifyThread (fun th ↦ { th with eventsCount := count th }) : Call Responser Unit) :=
    keeps_modifyThread fun _ hw ↦ hw.withThread rfl
  refine Contract.get_bind fun v hv ↦ ?_
  refine Contract.bind (Q := fun _ ↦ Polled k) (Contract.modifyGet fun w hw ↦ ?_) fun o ↦ ?_
  · exact hw ▸ hv.next
  refine Contract.bind (Q := fun _ ↦ Polled (k + 1)) (Contract.modify fun w hw ↦ hw.record rfl)
    fun _ ↦ Keeps.ite (Keeps.ite ?_ ?_) ?_
  · exact (hcount _).bind fun _ ↦ Keeps.pure _
  · refine (keeps_emit fun w hw ↦ ?_).bind fun _ ↦ (hcount _).bind fun _ ↦ Keeps.pure _
    exact hw.record (j := 0) rfl
  · exact (keeps_modifyThread fun _ hw ↦ hw.withThread rfl).bind fun _ ↦ Keeps.pure _

/-- `Run` polls once, and returns true. -/
theorem polled_run (e : Endian) (k : Nat) :
    Contract (Polled k) (Legacy.run (Responser.overrides e))
      (fun b w ↦ b = true ∧ Polled (k + 1) w) fun _ _ ↦ True := by
  have hov := (polled_handlers (k + 1)).handlersKeep e
  have hprocess : Keeps (Polled (k + 1)) (fun _ ↦ Polled (k + 1))
      (processFrom (Responser.overrides e) maxFDSize 0) :=
    keeps_processFrom (fun _ _ hw ↦ hw.withThread rfl) hov
  have hrun : Contract (Polled k) (Legacy.run (Responser.overrides e)) (fun _ ↦ Polled (k + 1))
      fun _ ↦ Polled (k + 1) := by
    refine Contract.bind (Q := fun _ ↦ Polled k) (fun w hw ↦ hw.afterOthers) fun _ ↦ ?_
    refine Contract.get_bind fun v hv ↦ Contract.ite (fun _ ↦ ?_) fun h ↦ absurd hv.bExit h
    refine ((polled_waitNetworkEvent k).at_state hv).bind fun b ↦ Keeps.ite ?_ (Keeps.pure _)
    refine hov.others.bind fun _ ↦ Keeps.get_bind fun v' ↦ Keeps.get_bind fun v'' ↦ ?_
    exact Keeps.ite ((hprocess.bind fun _ ↦ Keeps.pure _).bind fun _ ↦ Keeps.pure _)
      (Keeps.pure _)
  exact ((run_returns_true _).and hrun).mono (fun _ hw ↦ ⟨trivial, hw⟩) (fun _ _ hw ↦ hw)
    fun _ _ _ ↦ trivial

/-- The adapter has passed `InitInstance` and polled `k` times. -/
structure Ticking (k : Nat) (a : Adapter) : Prop where
  polled : Polled k a.responser
  running : a.bExit = false
  state : a.state = .doneInitInstance

private theorem ticking_onResponser {α : Type} {x : Call Responser α} {j k : Nat}
    {Q : α → Prop} {E : Fault → World Responser → Prop}
    (h : Contract (Polled j) x (fun r w ↦ Q r ∧ Polled k w) E) :
    Contract (Ticking j) (Adapter.onResponser x) (fun r a ↦ Q r ∧ Ticking k a)
      fun _ _ ↦ True := by
  have hlift := Adapter.contract_onResponser h fun b st ↦ b = false ∧ st = .doneInitInstance
  refine hlift.mono (fun a ha ↦ ⟨ha.polled, ha.running, ha.state⟩) (fun r a ha ↦ ?_)
    fun _ _ _ ↦ trivial
  exact ⟨ha.1.1, ha.1.2, ha.2.1, ha.2.2⟩

private theorem ticking_others (k : Nat) :
    Contract (Ticking k) (Adapter.onResponser Responser.others)
      (fun _ a ↦ True ∧ Ticking k a) fun _ _ ↦ True :=
  ticking_onResponser (E := fun _ _ ↦ True) fun _ hw ↦ ⟨trivial, hw.afterOthers⟩

/-- A call of `ThreadProc` from `DONE_INITINSTANCE` on polls once. -/
theorem ticking_procDoneInitInstance (e : Endian) (k : Nat) :
    Contract (Ticking k) (Adapter.threadClass e).procDoneInitInstance
      (fun _ ↦ Ticking (k + 1)) fun _ _ ↦ True := by
  refine (ticking_others k).bind fun _ ↦ Contract.get_bind fun a ha ↦ ?_
  have hexit : (Adapter.threadClass e).bExit a = false := ha.2.running
  rw [hexit]
  refine Contract.ite (fun _ ↦ ?_) fun h ↦ absurd rfl h
  refine ((ticking_onResponser (polled_run e k)).at_state ha.2).bind fun b ↦ ?_
  refine Contract.ite (fun hb a' ha' ↦ ?_) fun _ ↦ Contract.pure fun _ ha' ↦ ha'.2
  rw [ha'.1] at hb
  exact absurd hb (by decide)

/-- A tick polls once. -/
theorem ticking_tick (e : Endian) (k : Nat) :
    Contract (Ticking k) (Adapter.tick e) (fun _ ↦ Ticking (k + 1)) fun _ _ ↦ True := by
  refine (ticking_others k).bind fun _ ↦ Contract.get_bind fun a ha ↦ ?_
  have hstate : (Adapter.threadClass e).state a = .doneInitInstance := ha.2.state
  rw [if_pos (by rw [ha.2.state]; decide)]
  refine Contract.get_bind fun a' ha' ↦ ?_
  subst ha'
  rw [hstate]
  exact (ticking_procDoneInitInstance e k).at_state ha.2

/-- That many ticks poll that many times. -/
theorem ticking_ticks (e : Endian) (k n : Nat) :
    Contract (Ticking k) (Adapter.ticks e n) (fun _ ↦ Ticking (k + n)) fun _ _ ↦ True := by
  induction n generalizing k with
  | zero => exact Contract.pure fun _ ha ↦ ha
  | succ n ih =>
    refine (ticking_tick e k).bind fun _ ↦ ?_
    rw [Nat.add_comm n 1, ← Nat.add_assoc]
    exact ih (k + 1)

/-! ### The flag is set: nothing is sent or polled -/

/-- The exit flag of the responder is set, and nothing has been sent or polled. -/
structure Silent (w : World Responser) : Prop where
  bExit : w.thread.bExit = true
  sends_eq : sends w.trace = []
  polls_eq : polls w.trace = 0

namespace Silent

variable {w : World Responser}

/-- Any event but a reply or a poll. -/
theorem record (h : Silent w) {ev : SysEvent} (hs : sends [ev] = []) (hp : polls [ev] = 0) :
    Silent (w.record ev) where
  bExit := h.bExit
  sends_eq := by
    show sends (w.trace ++ [ev]) = []
    rw [sends_append, h.sends_eq, hs]
    rfl
  polls_eq := by
    show polls (w.trace ++ [ev]) = 0
    rw [polls_snoc, h.polls_eq, hp]

/-- What other threads do leaves the flag set. -/
theorem afterOthers (h : Silent w) : Silent (Responser.afterOthers w) := by
  have hcalls (calls : List ClientCall) {v : World Responser} (hv : Silent v) :
      Silent (clientCalls Responser.setProcessState calls v) := by
    induction calls generalizing v with
    | nil => exact hv
    | cons call rest ih =>
      cases call with
      | endThread =>
        exact ih (record (w := v.withThread fun th ↦ { th with bExit := true })
          ⟨rfl, hv.sends_eq, hv.polls_eq⟩ rfl rfl)
      | setProcess st =>
        exact ih (record (w := { v with own := v.own.setProcessState st })
          ⟨hv.bExit, hv.sends_eq, hv.polls_eq⟩ rfl rfl)
  exact hcalls _ ⟨h.bExit, h.sends_eq, h.polls_eq⟩

end Silent

private theorem silent_setup : SetupInvariant Silent where
  next _ h := ⟨h.bExit, h.sends_eq, h.polls_eq⟩
  record ev w hev h := by
    cases ev <;> first | exact hev.elim | exact h.record rfl rfl
  sockets _ _ _ _ h := ⟨h.bExit, h.sends_eq, h.polls_eq⟩

private theorem silent_others : Keeps Silent (fun _ _ ↦ False) Responser.others :=
  fun _ hw ↦ hw.afterOthers

/-- `Run` looks at the flag and does nothing. -/
theorem silent_run (e : Endian) :
    Keeps Silent (fun _ _ ↦ False) (Legacy.run (Responser.overrides e)) := by
  refine silent_others.bind fun _ ↦ ?_
  refine Contract.get_bind fun v hv ↦ Contract.ite (fun h ↦ ?_) fun _ ↦ Contract.pure fun w hw ↦ ?_
  · rw [hv.bExit] at h
    exact absurd h (by decide)
  · exact hw ▸ hv

private theorem silent_onResponser {α : Type} {x : Call Responser α}
    (h : Keeps Silent (fun _ _ ↦ False) x) :
    Keeps (fun a ↦ Silent a.responser) (fun _ _ ↦ False) (Adapter.onResponser x) :=
  (Adapter.contract_onResponser h fun _ _ ↦ True).mono (fun _ ha ↦ ⟨ha, trivial⟩)
    (fun _ _ ha ↦ ha.1) fun _ _ ha ↦ ha

private theorem silent_threadClass (e : Endian) :
    (Adapter.threadClass e).Keeps (fun a ↦ Silent a.responser) (fun _ _ ↦ False) where
  initInstance := silent_onResponser silent_setup.initInstance
  run := silent_onResponser (silent_run e)
  exitInstance := silent_onResponser silent_setup.exitInstance
  betweenProcs := silent_onResponser silent_others
  beforeTest := silent_onResponser silent_others
  setState _ _ ha := ha

/-- No tick ever sends or polls. -/
theorem silent_ticks (e : Endian) (n : Nat) :
    Keeps (fun a ↦ Silent a.responser) (fun _ _ ↦ False) (Adapter.ticks e n) := by
  induction n with
  | zero => exact Keeps.pure _
  | succ n ih =>
    refine Keeps.bind ?_ fun _ ↦ ih
    refine (silent_threadClass e).betweenProcs.bind fun _ ↦ Keeps.get_bind fun _ ↦ ?_
    exact Keeps.ite (silent_threadClass e).threadProc (Keeps.pure _)

/-! ### `InitInstance` fails -/

/-- Nothing has been sent, and the thread has stopped. -/
structure Stopped (w : World Responser) : Prop where
  sends_eq : sends w.trace = []
  not_ready : w.thread.state ≠ .ready
  not_running : w.thread.state ≠ .doneInitInstance

private theorem sendsNothing_setup : SetupInvariant fun w : World Responser ↦
    sends w.trace = [] where
  next _ h := h
  record ev w hev h := by
    show sends (w.trace ++ [ev]) = []
    rw [sends_append, h]
    cases ev <;> first | exact hev.elim | rfl
  sockets _ _ _ _ h := h

private theorem stopped_setup : SetupInvariant Stopped where
  next _ h := ⟨h.sends_eq, h.not_ready, h.not_running⟩
  record ev w hev h := ⟨sendsNothing_setup.record ev w hev h.sends_eq, h.not_ready, h.not_running⟩
  sockets _ _ _ _ h := ⟨h.sends_eq, h.not_ready, h.not_running⟩

private theorem stopped_others {E : Fault → World Responser → Prop} :
    Keeps Stopped E Responser.others := by
  intro w hw
  have hstate := state_clientCalls Responser.setProcessState (w.env 0).clients w.next
  refine ⟨(counts_clientCalls _ w.next).1.trans hw.sends_eq, ?_, ?_⟩
  · exact fun h ↦ hw.not_ready (hstate.symm.trans h)
  · exact fun h ↦ hw.not_running (hstate.symm.trans h)

/-- Alone, a responder whose `InitInstance` fails sends nothing. -/
theorem sends_runThreadHere_of_init_failed (e : Endian) {w : World Responser}
    (hsends : sends w.trace = []) (hfail : ¬Responser.InitSucceeds w) (n : Nat) :
    sends (World.after (Responser.runThreadHere e n w)).trace = [] := by
  cases n with
  | zero => exact hsends
  | succ n =>
    obtain ⟨w₀, hinit⟩ := Responser.run_firstInit w.prepareRunning
    rw [decide_eq_false (show ¬Responser.InitSucceeds w.prepareRunning from hfail)] at hinit
    have hturn := (Responser.threadClass e).run_turn_of_init_failed
      (Responser.run_others w.prepareRunning) (state_clientCalls _ _ _) hinit
    have hothers := (counts_clientCalls (w.env 0).clients w.prepareRunning.next).1.trans hsends
    have hw₀ : sends w₀.trace = [] :=
      (sendsNothing_setup.initInstance (E := fun _ _ ↦ True)).of_ok hothers hinit
    have hstopped : Stopped ((Responser.threadClass e).setState .error w₀) :=
      ⟨hw₀, by rintro ⟨⟩, by rintro ⟨⟩⟩
    have hrest := CiThread2Class.keeps_runLoop_of_stopped (c := Responser.threadClass e)
      (J := Stopped) (E := fun _ ↦ Stopped) (fun _ h ↦ ⟨h.not_ready, h.not_running⟩)
      (fun _ _ hready hrunning h ↦ ⟨h.sends_eq, hready, hrunning⟩) stopped_setup.exitInstance
      stopped_others n
    have hafter := World.after_of_keeps hrest hstopped
    rw [Responser.runThreadHere, (Responser.threadClass e).runLoop_succ rfl, EStateM.run_bind,
      hturn]
    exact hafter.sends_eq

/-! ### The equivalence -/

/-- Where the flag is clear, the adapter and its responder alone start as twins. -/
theorem twins_start {a : Adapter} (hexit : a.responser.thread.bExit = false)
    (hquiet : a.responser.Quiet) : Twins a.prepareComplexing a.responser.prepareRunning := by
  refine ⟨⟨hexit, hquiet, ?_⟩, rfl, by rintro ⟨⟩⟩
  show a.responser.withThread (fun th ↦ { th with bExit := false, state := .ready }) =
    a.responser.withThread fun th ↦ { th with state := .ready }
  simp only [World.withThread, hexit]

/-- Where the flag is clear and `InitInstance` succeeds, every tick polls. -/
theorem polls_of_clear (e : Endian) {a a' : Adapter} {n : Nat} (htrace : a.responser.trace = [])
    (hquiet : a.responser.Quiet) (hexit : a.responser.thread.bExit = false)
    (hinit : Responser.InitSucceeds a.responser)
    (hr : (Adapter.ticks e n).run a.prepareComplexing = .ok () a') :
    polls a'.responser.trace = n := by
  cases n with
  | zero =>
    cases hr
    show polls a.responser.trace = 0
    rw [htrace]
    rfl
  | succ n =>
    obtain ⟨w₀, hw₀⟩ := Responser.run_firstInit a.responser
    rw [decide_eq_true hinit] at hw₀
    have hpolled : Polled 0 a.responser := ⟨hexit, hquiet, by rw [htrace]; rfl⟩
    have hpolled₀ : Polled 0 w₀ :=
      ((polled_setup 0).initInstance (E := fun _ _ ↦ True)).of_ok hpolled.afterOthers hw₀
    have hinit' : (Adapter.threadClass e).initInstance.run
        { a.prepareComplexing with responser := Responser.afterOthers a.responser } =
          .ok true { a.prepareComplexing with responser := w₀ } := by
      show Adapter.settle _ (Responser.initInstance.run (Responser.afterOthers a.responser)) = _
      rw [show Responser.initInstance.run (Responser.afterOthers a.responser) = .ok true w₀
        from hw₀]
      rfl
    have hturn := (Adapter.threadClass e).run_turn_of_init (s := a.prepareComplexing) rfl rfl hinit'
    have hfirst := ticking_procDoneInitInstance e 0 ((Adapter.threadClass e).setState
      .doneInitInstance { a.prepareComplexing with responser := w₀ }) ⟨hpolled₀, rfl, rfl⟩
    rw [← hturn, ← Adapter.run_tick e (a := a.prepareComplexing) (by rintro ⟨⟩)] at hfirst
    rw [Adapter.ticks, EStateM.run_bind] at hr
    cases htick : (Adapter.tick e).run a.prepareComplexing with
    | error f a₁ =>
      rw [htick] at hr
      cases hr
    | ok u a₁ =>
      rw [htick] at hr hfirst
      have hrest := (ticking_ticks e 1 n).of_ok hfirst hr
      rw [hrest.polled.polls_eq, Nat.add_comm]

/-- A complexed responder answers like one that runs alone exactly if its own exit flag is clear
when it is complexed, or it never gets as far as polling: nothing has been ticked, or
`InitInstance` fails. -/
theorem answersAlone_iff (e : Endian) (a : Adapter) (n : Nat) (htrace : a.responser.trace = [])
    (hquiet : a.responser.Quiet) :
    AnswersAlone e a n ↔
      a.responser.thread.bExit = false ∨ n = 0 ∨ ¬Responser.InitSucceeds a.responser := by
  have hsends : sends a.responser.trace = [] := by
    rw [htrace]
    rfl
  cases hexit : a.responser.thread.bExit with
  | false =>
    refine iff_of_true ⟨?_, ?_⟩ (Or.inl rfl)
    · exact sends_ticks_eq e n (twins_start hexit hquiet)
    · intro hinit a' hr
      exact polls_of_clear e htrace hquiet hexit hinit hr
  | true =>
    have hsilent : Silent a.prepareComplexing.responser :=
      ⟨hexit, hsends, by show polls a.responser.trace = 0; rw [htrace]; rfl⟩
    have hticks := silent_ticks e n a.prepareComplexing hsilent
    unfold AnswersAlone
    cases hr : (Adapter.ticks e n).run a.prepareComplexing with
    | error f a' =>
      rw [hr] at hticks
      exact hticks.elim
    | ok r a' =>
      rw [hr] at hticks
      have halone : n = 0 ∨ ¬Responser.InitSucceeds a.responser →
          sends (World.after (Responser.runThreadHere e n a.responser)).trace = [] := by
        rintro (rfl | hfail)
        · exact hsends
        · exact sends_runThreadHere_of_init_failed e hsends hfail n
      constructor
      · rintro ⟨-, hpolls⟩
        by_cases hinit : Responser.InitSucceeds a.responser
        · have hn := hpolls hinit a' rfl
          exact Or.inr (Or.inl (hn.symm.trans hticks.polls_eq))
        · exact Or.inr (Or.inr hinit)
      · intro h
        have h' := h.resolve_left (by decide)
        refine ⟨hticks.sends_eq.trans (halone h').symm, fun hinit a'' hr' ↦ ?_⟩
        cases hr'
        exact hticks.polls_eq.trans (h'.resolve_right (not_not.mpr hinit)).symm

/-- An adapter whose responder has passed its own `PrepareRunning` answers like one alone. -/
theorem answersAlone_iff_prepared :
    AnswersAlone .little (Adapter.new (Responser.requested ⟨[], []⟩).prepareRunning) 3 :=
  (answersAlone_iff .little (Adapter.new (Responser.requested ⟨[], []⟩).prepareRunning) 3 rfl
    fun _ ↦ List.not_mem_nil).mpr (Or.inl rfl)

/-- A new adapter does not: in three ticks it polls not once, while alone it answers three
requests. -/
theorem complexed_silent :
    Responser.InitSucceeds (Responser.requested ⟨[], []⟩) ∧
      polls (Adapter.after ((Adapter.ticks .little 3).run
        (Adapter.new (Responser.requested ⟨[], []⟩)).prepareComplexing)).responser.trace = 0 ∧
      sends (Adapter.after ((Adapter.ticks .little 3).run
        (Adapter.new (Responser.requested ⟨[], []⟩)).prepareComplexing)).responser.trace = [] ∧
      sends (World.after
          (Responser.runThreadHere .little 3 (Responser.requested ⟨[], []⟩))).trace =
        List.replicate 3
          ⟨⟨1, 2⟩, [0, 0, 0, 1, 0, 0, 0, 7, 0, 0, 0, 0, 0, 0, 0, 0, 0, 0, 0, 0]⟩ := by
  decide +kernel

end HeartbeatSpec.Complex
