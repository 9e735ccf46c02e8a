import Mathlib.Data.Set.Function
import HeartbeatSpec.Base.NetworkOrder

/-!
# Self-delimiting codes

Library `Base`. A reader takes a value off the front of a list of symbols. A reader that
inverts an encoder whatever follows the encoding makes the code injective and prefix-free;
readers of a sequence of fields are composed from readers of the fields.
-/

namespace HeartbeatSpec.Base

universe u

variable {α β γ : Type u}

/-- Takes a value off the front of the input, or fails. -/
abbrev Reader (β α : Type u) := StateT (List β) Option α

/-- On the values of `dom`, the reader recovers the encoded value and leaves exactly what
follows it. -/
def Inverts (dom : α → Prop) (enc : α → List β) (r : Reader β α) : Prop :=
  ∀ a rest, dom a → r.run (enc a ++ rest) = some (a, rest)

namespace Inverts

variable {dom : α → Prop} {enc : α → List β} {r : Reader β α}

/-- Reading an encoding with nothing behind it consumes all of it. -/
theorem run_enc (h : Inverts dom enc r) {a : α} (ha : dom a) :
    r.run (enc a) = some (a, []) := by
  have hr := h a [] ha
  rwa [List.append_nil] at hr

/-- The first field of a sequence is read off and the rest is left to the continuation. -/
theorem run_bind (h : Inverts dom enc r) (k : α → Reader β γ) {a : α} (ha : dom a)
    (rest : List β) : (r >>= k).run (enc a ++ rest) = (k a).run rest := by
  rw [StateT.run_bind, h a rest ha]
  rfl

/-- If one encoding is a prefix of another, the values are the same. -/
theorem eq_of_prefix (h : Inverts dom enc r) {a b : α} (ha : dom a) (hb : dom b)
    (hp : enc a <+: enc b) : a = b := by
  obtain ⟨t, ht⟩ := hp
  have hr := h a t ha
  rw [ht, h.run_enc hb] at hr
  exact (congrArg Prod.fst (Option.some.inj hr)).symm

end Inverts

/-- Reads exactly `n` symbols. -/
def readN (n : Nat) : Reader β (List β) := fun bs ↦
  if n ≤ bs.length then some (bs.take n, bs.drop n) else none

/-- Reads nothing and yields the given value, if there is one. -/
def readOf (o : Option α) : Reader β α := fun bs ↦ o.map fun a ↦ (a, bs)

/-- A block of known length is read back. -/
theorem readN_inverts (n : Nat) : Inverts (fun bs : List β ↦ bs.length = n) id (readN n) := by
  rintro bs rest rfl
  change (if bs.length ≤ (bs ++ rest).length then
    some ((bs ++ rest).take bs.length, (bs ++ rest).drop bs.length) else none) = _
  rw [if_pos (by rw [List.length_append]; omega), List.take_left, List.drop_left]

/-- A value that is there costs no input. -/
theorem run_readOf_bind (k : α → Reader β γ) (a : α) (bs : List β) :
    (readOf (some a) >>= k).run bs = (k a).run bs := rfl

/-- Reads an `n`-byte word in network order. -/
def readWord (n : Nat) : Reader UInt8 Nat := do
  let bs ← readN n
  pure (networkValue bs)

/-- A word that fits is read back. -/
theorem readWord_inverts (n : Nat) :
    Inverts (fun w ↦ w < 256 ^ n) (networkBytes n) (readWord n) := by
  intro w rest hw
  have hb := (readN_inverts n).run_bind (fun bs ↦ pure (networkValue bs))
    (length_networkBytes n w) rest
  rw [readWord]
  refine hb.trans ?_
  rw [networkValue_networkBytes hw]
  rfl

/-- Bytes behind their own length, an `n`-byte word in network order. -/
def framed (n : Nat) (bs : List UInt8) : List UInt8 := networkBytes n bs.length ++ bs

/-- Reads bytes behind their own length. -/
def readFramed (n : Nat) : Reader UInt8 (List UInt8) := do
  let len ← readWord n
  readN len

/-- A frame has the width of its length word more than its content. -/
theorem length_framed (n : Nat) (bs : List UInt8) :
    (framed n bs).length = n + bs.length := by
  rw [framed, List.length_append, length_networkBytes]

/-- Bytes whose length fits the length word are read back, whatever they are. -/
theorem readFramed_inverts (n : Nat) :
    Inverts (fun bs ↦ bs.length < 256 ^ n) (framed n) (readFramed n) := by
  intro bs rest hbs
  rw [framed, List.append_assoc, readFramed, (readWord_inverts n).run_bind _ hbs]
  exact readN_inverts bs.length bs rest rfl

end HeartbeatSpec.Base
