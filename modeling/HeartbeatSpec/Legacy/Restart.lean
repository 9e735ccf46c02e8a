import HeartbeatSpec.Legacy.Rerun

/-!
# Restarting a responder

Library `Legacy`. After any history of completed runs and calls in between, the next run of a
responder is the first run of a new one with the same addresses, port, timeout and process state.
-/

namespace HeartbeatSpec.Legacy
open HeartbeatSpec.Base HeartbeatSpec.Message HeartbeatSpec.Thread

/-- How the next run is started, with the turns that its loop may make; a thread is waited for. -/
inductive NextRun where
  | runThreadHere (turns : Nat)
  | createThread (id turns : Nat)
  deriving DecidableEq, Repr

/-- The next run, with its result once it has ended. -/
def Runner.nextRun (e : Endian) (r : Runner) :
    NextRun → Option (EStateM.Result Fault Runner (Option Bool))
  | .runThreadHere turns => r.runThreadHere e turns
  | .createThread id turns =>
    match r.createThread (some id) with
    | none => none
    | some (false, r') => some (.ok (some false) r')
    | some (true, r') =>
      match r'.loop e turns with
      | .ok true r'' => r''.waitUntilExit.map fun r ↦ .ok (some true) r
      | .ok false r'' => some (.ok none r'')
      | .error f r'' => some (.error f r'')

/-- The object with the answers that the environment is going to give. -/
def Runner.withEnv (env : Nat → Outcome) (r : Runner) : Runner :=
  { r with world := { r.world with env := env } }

/-- The second object does what the first does after `before`, and is left the same. -/
structure Runner.Repeats (before : List SysEvent) (r r' : Runner) : Prop where
  ciThreadHandle : r'.ciThreadHandle = r.ciThreadHandle
  semExit : r'.semExit = r.semExit
  world : Responser.Rerun before r.world r'.world

/-- Two runs with the same result, of which the second does what the first does after `before`. -/
def SameRun (before : List SysEvent) :
    Option (EStateM.Result Fault Runner (Option Bool)) →
      Option (EStateM.Result Fault Runner (Option Bool)) → Prop
  | some (.ok a r), some (.ok b r') => a = b ∧ r.Repeats before r'
  | some (.error f r), some (.error g r') => f = g ∧ r.Repeats before r'
  | none, none => True
  | _, _ => False

namespace Runner.Repeats

variable {before : List SysEvent} {r r' : Runner} {e : Endian}

/-- The loops of two such objects are alike. -/
theorem loop (h : r.Repeats before r') (e : Endian) (n : Nat) :
    match r.loop e n with
    | .ok a s => ∃ s', r'.loop e n = .ok a s' ∧ s.Repeats before s'
    | .error f s => ∃ s', r'.loop e n = .error f s' ∧ s.Repeats before s' := by
  have halike := (Responser.threadClass_rerun e before).runLoop n _ _ h.world
  unfold Runner.loop
  cases hrun : ((Responser.threadClass e).runLoop n).run r.world with
  | error f w =>
    rw [hrun] at halike
    obtain ⟨w', hw', hrel⟩ := halike
    rw [hw']
    exact ⟨_, rfl, h.ciThreadHandle, h.semExit, hrel⟩
  | ok ended w =>
    rw [hrun] at halike
    obtain ⟨w', hw', hrel⟩ := halike
    rw [hw']
    cases ended with
    | false => exact ⟨_, rfl, h.ciThreadHandle, h.semExit, hrel⟩
    | true => exact ⟨_, rfl, h.ciThreadHandle, congrArg (· + 1) h.semExit, hrel⟩

/-- Waiting for the thread is alike. -/
theorem waitUntilExit (h : r.Repeats before r') (hsem : 0 < r.semExit) :
    ∃ s s', r.waitUntilExit = some s ∧ r'.waitUntilExit = some s' ∧ s.Repeats before s' := by
  have hsem' : 0 < r'.semExit := h.semExit ▸ hsem
  unfold Runner.waitUntilExit
  rw [h.ciThreadHandle]
  by_cases hhandle : r.ciThreadHandle = 0
  · rw [if_neg (not_not.mpr hhandle), if_neg (not_not.mpr hhandle)]
    exact ⟨r, r', rfl, rfl, h⟩
  · rw [if_pos hhandle, if_pos hhandle, if_pos hsem, if_pos hsem']
    exact ⟨_, _, rfl, rfl, rfl, h.semExit, h.world⟩

end Runner.Repeats

/-- Two idle objects that `PrepareRunning` leaves alike make the same run. -/
theorem sameRun_nextRun {before : List SysEvent} {r r' : Runner} (hidle : r.Idle)
    (hidle' : r'.Idle)
    (h : Responser.Rerun before r.world.prepareRunning r'.world.prepareRunning) (e : Endian)
    (run : NextRun) : SameRun before (r.nextRun e run) (r'.nextRun e run) := by
  have hstart (id : Nat) : Runner.Repeats before ⟨r.world.prepareRunning, id, 0⟩
      ⟨r'.world.prepareRunning, id, 0⟩ := ⟨rfl, rfl, h⟩
  cases run with
  | runThreadHere turns =>
    have hloop := (hstart 0).loop e turns
    simp only [Runner.nextRun, Runner.runThreadHere, hidle.handle, hidle'.handle, ne_eq,
      not_true_eq_false, if_false, hidle.prepareRunning_eq, hidle'.prepareRunning_eq,
      Option.map_some]
    cases hr : Runner.loop e turns ⟨r.world.prepareRunning, 0, 0⟩ with
    | error f s =>
      rw [hr] at hloop
      obtain ⟨s', hs', hrel⟩ := hloop
      rw [hs']
      exact ⟨rfl, hrel⟩
    | ok ended s =>
      rw [hr] at hloop
      obtain ⟨s', hs', hrel⟩ := hloop
      rw [hs']
      cases ended with
      | false => exact ⟨rfl, hrel⟩
      | true => exact ⟨rfl, hrel⟩
  | createThread id turns =>
    have hloop := (hstart id).loop e turns
    simp only [Runner.nextRun, Runner.createThread, hidle.handle, hidle'.handle, ne_eq,
      not_true_eq_false, if_false, hidle.prepareRunning_eq, hidle'.prepareRunning_eq,
      Option.map_some]
    cases hr : Runner.loop e turns ⟨r.world.prepareRunning, id, 0⟩ with
    | error f s =>
      rw [hr] at hloop
      obtain ⟨s', hs', hrel⟩ := hloop
      rw [hs']
      exact ⟨rfl, hrel⟩
    | ok ended s =>
      rw [hr] at hloop
      obtain ⟨s', hs', hrel⟩ := hloop
      rw [hs']
      cases ended with
      | false => exact ⟨rfl, hrel⟩
      | true =>
        obtain ⟨-, -, hsem⟩ := Runner.loop_eq_ok_true hr
        obtain ⟨v, v', hv, hv', hrel'⟩ := hrel.waitUntilExit (by rw [hsem]; exact Nat.succ_pos _)
        dsimp only
        rw [hv, hv']
        exact ⟨rfl, hrel'⟩

namespace Responser

/-! ### What every history leaves -/

/-- The members that the constructor sets for good. -/
structure Settings (i : Identity) (portNumber : UInt16) (timeoutMillisec : Int)
    (w : World Responser) : Prop where
  identity : w.own.identity = i
  portNumber : w.own.portNumber = portNumber
  timeoutMillisec : w.thread.timeoutMillisec = timeoutMillisec

section Settings

variable {i : Identity} {portNumber : UInt16} {timeoutMillisec : Int} {w : World Responser}

theorem Settings.clientCalls (h : Settings i portNumber timeoutMillisec w)
    (calls : List ClientCall) :
    Settings i portNumber timeoutMillisec (clientCalls setProcessState calls w) := by
  obtain ⟨st, hown⟩ := own_clientCalls calls w
  obtain ⟨b, hthread⟩ := thread_clientCalls setProcessState calls w
  constructor
  · rw [hown]
    exact h.identity
  · rw [hown]
    exact h.portNumber
  · rw [hthread]
    exact h.timeoutMillisec

theorem settings_afterOthers (h : Settings i portNumber timeoutMillisec w) :
    Settings i portNumber timeoutMillisec (afterOthers w) := by
  have hnext : Settings i portNumber timeoutMillisec w.next := ⟨h.1, h.2, h.3⟩
  exact hnext.clientCalls _

theorem settings_loopInvariant : LoopInvariant (Settings i portNumber timeoutMillisec) where
  next _ h := ⟨h.1, h.2, h.3⟩
  record _ _ _ h := ⟨h.1, h.2, h.3⟩
  eventsCount _ _ h := ⟨h.1, h.2, h.3⟩
  report _ _ _ h := ⟨h.1, h.2, h.3⟩

theorem settings_handlerInvariant : HandlerInvariant (Settings i portNumber timeoutMillisec) where
  cleared _ _ h := ⟨h.1, h.2, h.3⟩
  received _ _ h := ⟨h.1, h.2, h.3⟩
  afterOthers _ h := settings_afterOthers h
  sentTo _ _ _ h := ⟨h.1, h.2, h.3⟩

theorem settings_setupInvariant : SetupInvariant (Settings i portNumber timeoutMillisec) where
  next _ h := ⟨h.1, h.2, h.3⟩
  record _ _ _ h := ⟨h.1, h.2, h.3⟩
  sockets _ _ _ _ h := ⟨h.1, h.2, h.3⟩

/-- A run that has ended leaves the settings, and no socket. -/
theorem settings_run {e : Endian} {n : Nat} {t : World Responser}
    (h : Settings i portNumber timeoutMillisec w) (hrun : runThreadHere e n w = .ok true t) :
    Settings i portNumber timeoutMillisec t ∧ Closed t := by
  have hstart : Settings i portNumber timeoutMillisec w.prepareRunning := ⟨h.1, h.2, h.3⟩
  have hinit := settings_setupInvariant.initInstance (E := fun _ _ ↦ False) _
    (settings_afterOthers hstart)
  cases hr : initInstance.run (afterOthers w.prepareRunning) with
  | error f v =>
    rw [hr] at hinit
    exact hinit.elim
  | ok b v =>
    rw [hr] at hinit
    have hexits := exits (I := Settings i portNumber timeoutMillisec) settings_loopInvariant
      settings_handlerInvariant (fun _ h ↦ ⟨h.1, h.2, h.3⟩) (fun _ _ h ↦ ⟨h.1, h.2, h.3⟩) e
    exact hexits.of_runLoop rfl (run_others w.prepareRunning) (state_afterOthers w.prepareRunning)
      hr hinit hrun

variable (i portNumber timeoutMillisec) in
/-- The object can be run again like a new one. -/
structure Restartable (r : Runner) : Prop extends r.Idle where
  closed : Closed r.world
  settings : Settings i portNumber timeoutMillisec r.world

theorem restartable_step {e : Endian} {r r' : Runner} {l : HistoryStep}
    (hr : Restartable i portNumber timeoutMillisec r) (h : historyStep e r l = some r') :
    Restartable i portNumber timeoutMillisec r' := by
  cases hl : l.turns with
  | some n =>
    obtain ⟨hrun, hidle⟩ := historyStep_run hr.toIdle hl h
    obtain ⟨hsettings, hclosed⟩ := settings_run hr.settings hrun
    exact ⟨hidle, hclosed, hsettings⟩
  | none =>
    obtain ⟨⟨calls, hcalls⟩ | hprepared, hidle⟩ := historyStep_other hr.toIdle hl h
    · refine ⟨hidle, ?_, ?_⟩
      · rw [hcalls]
        exact hr.closed.clientCalls _ calls
      · rw [hcalls]
        exact hr.settings.clientCalls calls
    · refine ⟨hidle, ?_, ?_⟩
      · rw [hprepared]
        exact ⟨hr.closed.1, hr.closed.2, hr.closed.3⟩
      · rw [hprepared]
        exact ⟨hr.settings.1, hr.settings.2, hr.settings.3⟩

end Settings

/-! ### The next run -/

/-- A constructed responder whose process state has been set, before its first run. -/
def freshIn (st : CiHBState) (i : Identity) (portNumber : UInt16) (timeoutMillisec : Int)
    (saRecv : Endpoint) (recvBuf : RecvBuf) (env : Nat → Outcome) : World Responser :=
  let w := fresh i portNumber timeoutMillisec saRecv recvBuf env
  { w with own := setProcessState st w.own }

/-- `PrepareRunning` leaves nothing of the history that a run looks at. -/
theorem rerun_prepared {i : Identity} {portNumber : UInt16} {timeoutMillisec : Int} {r : Runner}
    (h : Restartable i portNumber timeoutMillisec r) {env : Nat → Outcome}
    (hwhole : ∀ k, (env k).recvfrom.Whole) (saRecv : Endpoint) (recvBuf : RecvBuf) :
    Rerun r.world.trace (r.withEnv env).world.prepareRunning
      (freshIn r.world.own.processState i portNumber timeoutMillisec saRecv recvBuf
        env).prepareRunning where
  thread := by
    change (⟨false, .ready, ∅, .empty, 0, timeoutMillisec⟩ : NetworkThread) =
      { r.world.thread with bExit := false, state := .ready }
    rw [← h.closed.readSockets, ← h.closed.pollFds, ← h.closed.eventsCount,
      ← h.settings.timeoutMillisec]
  identity := h.settings.identity.symm
  portNumber := h.settings.portNumber.symm
  processState := rfl
  env := rfl
  whole := hwhole
  trace := (List.append_nil _).symm

/-- After every history of a responder, its next run returns the same, does the same and leaves the
same as the first run of a new responder with the same settings and process state. -/
theorem restarted_like_new (e : Endian) {i : Identity} {portNumber : UInt16} {timeoutMillisec : Int}
    {saRecv : Endpoint} {recvBuf : RecvBuf} {env : Nat → Outcome}
    {tr : List (Transition Runner HistoryStep)} {r : Runner}
    (h : Runs (historyStep e) (.new (fresh i portNumber timeoutMillisec saRecv recvBuf env)) tr r)
    {env' : Nat → Outcome} (hwhole : ∀ k, (env' k).recvfrom.Whole) (saRecv' : Endpoint)
    (recvBuf' : RecvBuf) (run : NextRun) :
    SameRun r.world.trace ((r.withEnv env').nextRun e run)
      ((Runner.new (freshIn r.world.own.processState i portNumber timeoutMillisec saRecv' recvBuf'
        env')).nextRun e run) := by
  have hr : Restartable i portNumber timeoutMillisec r := by
    refine (h.invariant (fun _ _ _ hs hst ↦ restartable_step hs hst) ?_).1
    exact ⟨Runner.idle_new _, ⟨rfl, rfl, rfl⟩, ⟨rfl, rfl, rfl⟩⟩
  have hidle : (r.withEnv env').Idle := ⟨hr.handle, hr.semExit⟩
  exact sameRun_nextRun hidle (Runner.idle_new _) (rerun_prepared hr hwhole saRecv' recvBuf') e run

/-- A request arrives and is answered, and then `EndThread` is called. -/
private def oneRequest (k : Nat) : Outcome where
  clients := if k = 11 then [.endThread] else []
  socket := 4
  setsockopt := 0
  bind := 0
  poll := ⟨1, false, fun _ ↦ 1⟩
  recvfrom := .datagram ⟨⟨1, 2⟩, [0, 0, 0, 0, 0, 0, 0, 7]⟩
  sendto := 20

/-- A first run gets no socket. -/
private def noSocket : Outcome where
  clients := []
  socket := -1
  setsockopt := 0
  bind := 0
  poll := ⟨0, false, fun _ ↦ 0⟩
  recvfrom := .other (-1) [] none
  sendto := 0

/-- A responder that has failed to start, and has been told to end and its process state, is started
in a thread, answers a request and ends. -/
theorem restarted_like_new_answered :
    ∃ tr r, Runs (historyStep .little)
        (.new (fresh ⟨[], []⟩ 8090 1000 ⟨0, 0⟩ zeros fun _ ↦ noSocket)) tr r ∧
      r.world.own.processState = .swError ∧
      ((r.withEnv oneRequest).nextRun .little (.createThread 7 3)).map
          (fun | .ok b s => (b, s.world.trace.length) | .error _ _ => (none, 0)) =
        some (some true, 11) ∧
      SameRun r.world.trace ((r.withEnv oneRequest).nextRun .little (.createThread 7 3))
        ((Runner.new (freshIn r.world.own.processState ⟨[], []⟩ 8090 1000 ⟨9, 9⟩ zeros
          oneRequest)).nextRun .little (.createThread 7 3)) := by
  have hrun : (exec (historyStep .little)
      (.new (fresh ⟨[], []⟩ 8090 1000 ⟨0, 0⟩ zeros fun _ ↦ noSocket))
        [.runThreadHere 2, .clients [.endThread, .setProcess .swError]]).map
          (fun r ↦ (r.world.own.processState,
            ((r.withEnv oneRequest).nextRun .little (.createThread 7 3)).map
              (fun | .ok b s => (b, s.world.trace.length) | .error _ _ => (none, 0)))) =
      some (.swError, some (some true, 11)) := by
    decide +kernel
  obtain ⟨r, hr, hboth⟩ := Option.map_eq_some_iff.mp hrun
  obtain ⟨hstate, hresult⟩ := Prod.mk.inj hboth
  have hruns := Runs.of_exec hr
  have hwhole (k : Nat) : (oneRequest k).recvfrom.Whole := RecvOutcome.whole_of_isUdp trivial
  exact ⟨_, r, hruns, hstate, hresult,
    restarted_like_new .little hruns hwhole ⟨9, 9⟩ zeros (.createThread 7 3)⟩

end Responser
end HeartbeatSpec.Legacy
