import HeartbeatSpec.Legacy.Calls

/-!
# The responder in a thread complex

Library `Complex`. `CCiHBResponserWithCiUtils`, which derives from `CCiHBResponser` and from the
vendored `::CCiThread2`, and the calls that a `CCiThreadComplex` makes of it,
`examples/Externals/CiUtils/Src/CiThreadComplex.cpp:66–84`. The two bases each have an exit
flag and a state of their own.
-/

namespace HeartbeatSpec.Complex
open HeartbeatSpec.Base HeartbeatSpec.Legacy HeartbeatSpec.Thread

/-- The adapter: a responder, with the members of `cihb::CCiThread2` in it, and the members of
the second base, `::CCiThread2`. -/
structure Adapter where
  responser : World Responser
  bExit : Bool
  state : CiThread2State

namespace Adapter

/-- The members after construction, `examples/Externals/CiUtils/Src/CiThread2.cpp:47–54`. -/
def new (w : World Responser) : Adapter := ⟨w, true, .ready⟩

/-- `::CCiThread2::PrepareComplexing`, once it has passed the wait,
`examples/Externals/CiUtils/Src/CiThread2.cpp:117–120,158–165`: only the members of the second
base are set. -/
def prepareComplexing (a : Adapter) : Adapter := { a with bExit := false, state := .ready }

/-- The adapter after a function of its responder. -/
def settle (a : Adapter) {α : Type} :
    EStateM.Result Fault (World Responser) α → EStateM.Result Fault Adapter α
  | .ok r w => .ok r { a with responser := w }
  | .error f w => .error f { a with responser := w }

/-- A function of the responder called on the adapter,
`examples/legacy_compatible_complex_with_ciutils/CiHBResponserWithCiUtils.cpp:16–29`. -/
def onResponser {α : Type} (x : Call Responser α) : EStateM Fault Adapter α :=
  fun a ↦ a.settle (x.run a.responser)

/-- The adapter as an object of class `::CCiThread2`. -/
def threadClass (e : Endian) : CiThread2Class Fault Adapter where
  bExit := Adapter.bExit
  state := Adapter.state
  setState st a := { a with state := st }
  initInstance := onResponser Responser.initInstance
  run := onResponser (Legacy.run (Responser.overrides e))
  exitInstance := onResponser exitInstance
  betweenProcs := onResponser Responser.others
  beforeTest := onResponser Responser.others

/-- What `CCiThreadComplex::Run` does with the adapter, after what other threads did. -/
def tick (e : Endian) : EStateM Fault Adapter Unit := do
  (threadClass e).betweenProcs
  if (← get).state ≠ .inactive then (threadClass e).threadProc

/-- That many ticks. -/
def ticks (e : Endian) : Nat → EStateM Fault Adapter Unit
  | 0 => pure ()
  | n + 1 => do
    tick e
    ticks e n

/-- Where a call leaves the adapter. -/
def after {α : Type} : EStateM.Result Fault Adapter α → Adapter
  | .ok _ a => a
  | .error _ a => a

/-- A function of the responder, called on the adapter. -/
theorem run_onResponser {α : Type} (x : Call Responser α) (a : Adapter) :
    (onResponser x).run a = a.settle (x.run a.responser) := rfl

/-- A contract of a function of the responder, on the adapter: the members of the second base
are left alone. -/
theorem contract_onResponser {α : Type} {x : Call Responser α} {P : World Responser → Prop}
    {Q : α → World Responser → Prop} {E : Fault → World Responser → Prop}
    (h : Contract P x Q E) (K : Bool → CiThread2State → Prop) :
    Contract (fun a ↦ P a.responser ∧ K a.bExit a.state) (onResponser x)
      (fun r a ↦ Q r a.responser ∧ K a.bExit a.state) (fun f a ↦ E f a.responser) := by
  intro a ha
  have hr := h a.responser ha.1
  rw [run_onResponser]
  cases hx : x.run a.responser with
  | ok r w =>
    rw [hx] at hr
    exact ⟨hr, ha.2⟩
  | error f w =>
    rw [hx] at hr
    exact hr

/-- A tick of an adapter that is not inactive is a turn of the loop around `ThreadProc`. -/
theorem run_tick (e : Endian) {a : Adapter} (h : a.state ≠ .inactive) :
    (tick e).run a = (threadClass e).turn.run a := by
  have hbetween : (threadClass e).betweenProcs.run a =
      .ok () { a with responser := Responser.afterOthers a.responser } := rfl
  rw [tick, CiThread2Class.turn, EStateM.run_bind, EStateM.run_bind, hbetween]
  show EStateM.run (if a.state ≠ .inactive then (threadClass e).threadProc else pure ()) _ = _
  rw [if_pos h]

end Adapter
end HeartbeatSpec.Complex
