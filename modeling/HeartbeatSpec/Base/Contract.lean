import Mathlib.Data.List.Basic

/-!
# Contracts of programs with state and exceptions

Library `Base`. A contract says what a program returns with, and what it is left by an
exception with, from every state that meets a precondition. One rule for each way to build
a program; a loop or a class of callbacks is proved by these rules alone.
-/

namespace HeartbeatSpec.Base

universe u

variable {ε σ α β : Type u}

/-- From every state in `P`, the program returns with `Q`, or is left by an exception
with `E`. -/
def Contract (P : σ → Prop) (x : EStateM ε σ α) (Q : α → σ → Prop) (E : ε → σ → Prop) : Prop :=
  ∀ s, P s →
    match x.run s with
    | .ok a t => Q a t
    | .error e t => E e t

namespace Contract

variable {P P' : σ → Prop} {Q Q' : α → σ → Prop} {R : β → σ → Prop} {E E' : ε → σ → Prop}
  {x : EStateM ε σ α} {f : α → EStateM ε σ β}

/-- What a contract says of a program that returns. -/
theorem of_ok (h : Contract P x Q E) {s t : σ} {a : α} (hs : P s) (hx : x.run s = .ok a t) :
    Q a t := by
  have hr := h s hs
  rwa [hx] at hr

/-- What a contract says of a program that is left by an exception. -/
theorem of_error (h : Contract P x Q E) {s t : σ} {e : ε} (hs : P s)
    (hx : x.run s = .error e t) : E e t := by
  have hr := h s hs
  rwa [hx] at hr

/-- A program that is known to return. -/
theorem of_run (h : ∀ s, P s → ∃ a t, x.run s = .ok a t ∧ Q a t) : Contract P x Q E := by
  intro s hs
  obtain ⟨a, t, hx, ha⟩ := h s hs
  rw [hx]
  exact ha

/-- A stronger precondition and weaker conclusions. -/
theorem mono (h : Contract P x Q E) (hP : ∀ s, P' s → P s) (hQ : ∀ a s, Q a s → Q' a s)
    (hE : ∀ e s, E e s → E' e s) : Contract P' x Q' E' := by
  intro s hs
  cases hx : x.run s with
  | ok a t => exact hQ a t (h.of_ok (hP s hs) hx)
  | error e t => exact hE e t (h.of_error (hP s hs) hx)

/-- From one state that meets the precondition. -/
theorem at_state (h : Contract P x Q E) {s : σ} (hs : P s) : Contract (fun t ↦ t = s) x Q E :=
  h.mono (fun _ ht ↦ ht ▸ hs) (fun _ _ hq ↦ hq) fun _ _ he ↦ he

/-- Two contracts of one program. -/
protected theorem and (h : Contract P x Q E) (h' : Contract P' x Q' E') :
    Contract (fun s ↦ P s ∧ P' s) x (fun a s ↦ Q a s ∧ Q' a s) (fun e s ↦ E e s ∧ E' e s) := by
  intro s hs
  cases hx : x.run s with
  | ok a t => exact ⟨h.of_ok hs.1 hx, h'.of_ok hs.2 hx⟩
  | error e t => exact ⟨h.of_error hs.1 hx, h'.of_error hs.2 hx⟩

/-- One program after another. -/
protected theorem bind (hx : Contract P x Q E) (hf : ∀ a, Contract (Q a) (f a) R E) :
    Contract P (x >>= f) R E := by
  intro s hs
  rw [EStateM.run_bind]
  cases hr : x.run s with
  | ok a t => exact hf a t (hx.of_ok hs hr)
  | error e t => exact hx.of_error hs hr

/-- A result that is computed only. -/
protected theorem pure {a : α} (h : ∀ s, P s → Q a s) : Contract P (pure a) Q E :=
  fun s hs ↦ h s hs

/-- Reading the state: the program goes on with a state known to meet the precondition. -/
theorem get_bind {f : σ → EStateM ε σ β}
    (h : ∀ s, P s → Contract (fun t ↦ t = s) (f s) R E) : Contract P (get >>= f) R E :=
  fun s hs ↦ h s hs s rfl

/-- Changing the state. -/
theorem modify {f : σ → σ} {Q : PUnit → σ → Prop} (h : ∀ s, P s → Q ⟨⟩ (f s)) :
    Contract P (modify f : EStateM ε σ PUnit) Q E :=
  fun s hs ↦ h s hs

/-- Changing the state with a result. -/
theorem modifyGet {f : σ → α × σ} (h : ∀ s, P s → Q (f s).1 (f s).2) :
    Contract P (modifyGet f : EStateM ε σ α) Q E :=
  fun s hs ↦ h s hs

/-- A choice on a value. -/
protected theorem ite {c : Prop} [Decidable c] {y : EStateM ε σ α} (hx : c → Contract P x Q E)
    (hy : ¬c → Contract P y Q E) : Contract P (if c then x else y) Q E := by
  split
  · next h => exact hx h
  · next h => exact hy h

end Contract

/-- The program keeps an invariant, and is left by an exception only with `E`. -/
def Keeps (I : σ → Prop) (E : ε → σ → Prop) (x : EStateM ε σ α) : Prop :=
  Contract I x (fun _ ↦ I) E

namespace Keeps

variable {I : σ → Prop} {E : ε → σ → Prop} {x : EStateM ε σ α} {f : α → EStateM ε σ β}

/-- One program after another. -/
protected theorem bind (hx : Keeps I E x) (hf : ∀ a, Keeps I E (f a)) : Keeps I E (x >>= f) :=
  Contract.bind hx hf

/-- A result that is computed only. -/
protected theorem pure (a : α) : Keeps I E (pure a) :=
  Contract.pure fun _ hs ↦ hs

/-- Reading the state. -/
theorem get_bind {f : σ → EStateM ε σ β} (h : ∀ s, Keeps I E (f s)) : Keeps I E (get >>= f) :=
  fun s hs ↦ h s s hs

/-- Changing the state. -/
theorem modify {f : σ → σ} (h : ∀ s, I s → I (f s)) : Keeps I E (modify f : EStateM ε σ PUnit) :=
  Contract.modify h

/-- Changing the state with a result. -/
theorem modifyGet {f : σ → α × σ} (h : ∀ s, I s → I (f s).2) :
    Keeps I E (modifyGet f : EStateM ε σ α) :=
  Contract.modifyGet h

/-- A choice on a value. -/
protected theorem ite {c : Prop} [Decidable c] {y : EStateM ε σ α} (hx : Keeps I E x)
    (hy : Keeps I E y) : Keeps I E (if c then x else y) :=
  Contract.ite (fun _ ↦ hx) fun _ ↦ hy

/-- A program for each member of a list. -/
theorem forM {g : β → EStateM ε σ PUnit} (h : ∀ b, Keeps I E (g b)) (bs : List β) :
    Keeps I E (bs.forM g) := by
  induction bs with
  | nil => exact Keeps.pure _
  | cons b bs ih => exact (h b).bind fun _ ↦ ih

end Keeps
end HeartbeatSpec.Base
