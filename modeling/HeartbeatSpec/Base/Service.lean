import Mathlib.Data.List.Basic

/-!
# Services

Library `Base`. A service takes inputs one by one, answers some of them, and goes on in a
state that depends on what it has taken. Two services that agree wherever the first answers
give the same answers to a history exactly if the second answers nothing more in it.
-/

namespace HeartbeatSpec.Base

universe u v w

variable {σ : Type u} {ι : Type v} {ω : Type w}

/-- What a service answers to an input in a state, if anything, and the state it goes on in. -/
structure Service (σ : Type u) (ι : Type v) (ω : Type w) where
  answer : σ → ι → Option ω
  next : σ → ι → σ

namespace Service

/-- The answers to a history, in order. -/
def outputs (S : Service σ ι ω) : σ → List ι → List ω
  | _, [] => []
  | s, i :: is => (S.answer s i).toList ++ S.outputs (S.next s i) is

variable {S T : Service σ ι ω}

/-- `S` is the service `T`, except that it leaves some inputs unanswered. -/
structure Below (S T : Service σ ι ω) : Prop where
  next_eq : S.next = T.next
  answer_eq : ∀ s i, (S.answer s i).isSome → S.answer s i = T.answer s i

/-- The lower service gives no more answers. -/
theorem Below.length_le (h : S.Below T) (s : σ) (is : List ι) :
    (S.outputs s is).length ≤ (T.outputs s is).length := by
  induction is generalizing s with
  | nil => exact Nat.le_refl _
  | cons i is ih =>
    have hrest := ih (S.next s i)
    simp only [outputs, List.length_append, h.next_eq] at hrest ⊢
    cases hs : S.answer s i with
    | none =>
      rw [Option.toList_none, List.length_nil]
      omega
    | some o =>
      have heq := h.answer_eq s i (by rw [hs]; rfl)
      rw [← heq, hs]
      omega

/-- Where both always decide by the input whether they answer, the answers to a history are the
same exactly if `S` answers every input in it that `T` answers. -/
theorem Below.outputs_eq_iff (h : S.Below T) {p q : ι → Prop}
    (hS : ∀ s i, (S.answer s i).isSome ↔ p i) (hT : ∀ s i, (T.answer s i).isSome ↔ q i)
    (s : σ) (is : List ι) : S.outputs s is = T.outputs s is ↔ ∀ i ∈ is, q i → p i := by
  induction is generalizing s with
  | nil => simp [outputs]
  | cons i is ih =>
    rw [List.forall_mem_cons, outputs, outputs, ← h.next_eq]
    by_cases hp : p i
    · rw [h.answer_eq s i ((hS s i).mpr hp), List.append_cancel_left_eq, ih]
      exact (and_iff_right fun _ ↦ hp).symm
    · have hnone : S.answer s i = none := by
        rw [← Option.not_isSome_iff_eq_none, hS]
        exact hp
      rw [hnone, Option.toList_none, List.nil_append]
      by_cases hq : q i
      · obtain ⟨o, ho⟩ := Option.isSome_iff_exists.mp ((hT s i).mpr hq)
        apply iff_of_false
        · intro heq
          have hlen := congrArg List.length heq
          have hle := h.length_le (S.next s i) is
          rw [ho, Option.toList_some, List.length_append, List.length_singleton] at hlen
          omega
        · intro hall
          exact hp (hall.1 hq)
      · have hnone' : T.answer s i = none := by
          rw [← Option.not_isSome_iff_eq_none, hT]
          exact hq
        rw [hnone', Option.toList_none, List.nil_append, ih]
        exact (and_iff_right fun hqi ↦ absurd hqi hq).symm

end Service
end HeartbeatSpec.Base
