import Mathlib.Data.Nat.Digits.Defs
import Mathlib.Tactic.Ring

/-!
# Fixed-width words in memory and in network order

Library `Base`. A word of `n` bytes is a natural below `256 ^ n`. Its bytes in memory
depend on the host's byte order; its bytes on the wire do not. `hostToNetwork` is the
conversion after which the bytes in memory are the bytes on the wire, on either host.
-/

namespace HeartbeatSpec.Base

/-- Byte order of a host. -/
inductive Endian where
  | little
  | big
  deriving DecidableEq, Repr

/-- The `n` bytes of a word, least significant first; higher bits are dropped. -/
def leBytes : Nat → Nat → List UInt8
  | 0, _ => []
  | n + 1, w => UInt8.ofNat (w % 256) :: leBytes n (w / 256)

/-- The word with the given bytes, least significant first. -/
def leValue (bs : List UInt8) : Nat := Nat.ofDigits 256 (bs.map UInt8.toNat)

/-- The `n` bytes of a word in network order, most significant first. -/
def networkBytes (n w : Nat) : List UInt8 := (leBytes n w).reverse

/-- The word with the given bytes in network order. -/
def networkValue (bs : List UInt8) : Nat := leValue bs.reverse

/-- A word has exactly its width in bytes. -/
@[simp] theorem length_leBytes (n w : Nat) : (leBytes n w).length = n := by
  induction n generalizing w with
  | zero => rfl
  | succ n ih => simp only [leBytes, List.length_cons, ih]

/-- Network order keeps the width. -/
@[simp] theorem length_networkBytes (n w : Nat) : (networkBytes n w).length = n := by
  rw [networkBytes, List.length_reverse, length_leBytes]

/-- The empty word is zero. -/
@[simp] theorem leValue_nil : leValue [] = 0 := rfl

/-- The first byte is the low digit. -/
theorem leValue_cons (b : UInt8) (bs : List UInt8) :
    leValue (b :: bs) = b.toNat + 256 * leValue bs := by
  simp only [leValue, List.map_cons, Nat.ofDigits_cons]

/-- Reading back the bytes of a word gives the word modulo its width. -/
theorem leValue_leBytes (n w : Nat) : leValue (leBytes n w) = w % 256 ^ n := by
  induction n generalizing w with
  | zero => rw [leBytes, leValue_nil, pow_zero, Nat.mod_one]
  | succ n ih =>
    have hlow : (UInt8.ofNat (w % 256)).toNat = w % 256 := by
      rw [UInt8.toNat_ofNat']
      exact Nat.mod_eq_of_lt (Nat.mod_lt w (by decide))
    rw [leBytes, leValue_cons, ih, hlow, pow_succ', Nat.mod_mul]

private theorem leValue_cons_mod (b : UInt8) (bs : List UInt8) :
    leValue (b :: bs) % 256 = b.toNat := by
  have hb := b.toNat_lt
  rw [leValue_cons]
  omega

private theorem leValue_cons_div (b : UInt8) (bs : List UInt8) :
    leValue (b :: bs) / 256 = leValue bs := by
  have hb := b.toNat_lt
  rw [leValue_cons]
  omega

/-- Every byte sequence is the bytes of its own value. -/
theorem leBytes_leValue (bs : List UInt8) : leBytes bs.length (leValue bs) = bs := by
  induction bs with
  | nil => rfl
  | cons b bs ih =>
    simp only [List.length_cons, leBytes, leValue_cons_mod, leValue_cons_div, ih,
      UInt8.ofNat_toNat]

/-- A value is bounded by the number of its bytes. -/
theorem leValue_lt (bs : List UInt8) : leValue bs < 256 ^ bs.length := by
  have h := Nat.ofDigits_lt_base_pow_length (b := 256) (l := bs.map UInt8.toNat) (by decide)
    (by
      intro x hx
      obtain ⟨b, _, rfl⟩ := List.mem_map.mp hx
      exact b.toNat_lt)
  rwa [List.length_map] at h

/-- Network bytes of a word that fits read back as the word. -/
theorem networkValue_networkBytes {n w : Nat} (h : w < 256 ^ n) :
    networkValue (networkBytes n w) = w := by
  rw [networkValue, networkBytes, List.reverse_reverse, leValue_leBytes, Nat.mod_eq_of_lt h]

/-- Every byte sequence is the network bytes of its own value. -/
theorem networkBytes_networkValue {n : Nat} {bs : List UInt8} (h : bs.length = n) :
    networkBytes n (networkValue bs) = bs := by
  subst h
  rw [networkBytes, networkValue]
  conv_lhs => rw [← List.length_reverse]
  rw [leBytes_leValue, List.reverse_reverse]

/-- A network value is bounded by the number of its bytes. -/
theorem networkValue_lt (bs : List UInt8) : networkValue bs < 256 ^ bs.length := by
  have h := leValue_lt bs.reverse
  rwa [List.length_reverse] at h

/-- A word is zero exactly when all its bytes are zero. -/
theorem networkValue_eq_zero_iff (bs : List UInt8) :
    networkValue bs = 0 ↔ ∀ b ∈ bs, b = 0 := by
  have key (cs : List UInt8) : leValue cs = 0 ↔ ∀ b ∈ cs, b = 0 := by
    induction cs with
    | nil => simp
    | cons c cs ih =>
      have hc : c.toNat = 0 ↔ c = 0 := by
        rw [← UInt8.toNat_inj, UInt8.toNat_zero]
      rw [leValue_cons, List.forall_mem_cons, ← ih, ← hc]
      omega
  rw [networkValue, key]
  simp only [List.mem_reverse]

namespace Endian

/-- Bytes of an `n`-byte word in the memory of a host. -/
def store : Endian → Nat → Nat → List UInt8
  | little, n, w => leBytes n w
  | big, n, w => networkBytes n w

/-- The word a host reads from the given bytes of its memory. -/
def load : Endian → List UInt8 → Nat
  | little, bs => leValue bs
  | big, bs => networkValue bs

/-- Reorder an `n`-byte word for the wire: the identity on a big-endian host, a byte swap
on a little-endian one. -/
def hostToNetwork : Endian → Nat → Nat → Nat
  | little, n, w => leValue (networkBytes n w)
  | big, _, w => w

/-- Reorder an `n`-byte word from the wire; the same permutation as `hostToNetwork`. -/
def networkToHost : Endian → Nat → Nat → Nat := hostToNetwork

/-- A stored word has its width in bytes. -/
@[simp] theorem length_store (e : Endian) (n w : Nat) : (e.store n w).length = n := by
  cases e
  · exact length_leBytes n w
  · exact length_networkBytes n w

/-- A loaded word is bounded by the number of bytes read. -/
theorem load_lt (e : Endian) (bs : List UInt8) : e.load bs < 256 ^ bs.length := by
  cases e
  · exact leValue_lt bs
  · exact networkValue_lt bs

/-- A reordered word fits its width. -/
theorem hostToNetwork_lt (e : Endian) {n w : Nat} (h : w < 256 ^ n) :
    e.hostToNetwork n w < 256 ^ n := by
  cases e
  · have hl := leValue_lt (networkBytes n w)
    rwa [length_networkBytes] at hl
  · exact h

/-- After conversion, the bytes in memory are the bytes on the wire, on either host. -/
theorem store_hostToNetwork (e : Endian) (n w : Nat) :
    e.store n (e.hostToNetwork n w) = networkBytes n w := by
  cases e
  · have h := leBytes_leValue (networkBytes n w)
    rwa [length_networkBytes] at h
  · rfl

/-- Loading wire bytes and converting gives the value on the wire, on either host. -/
theorem networkToHost_load (e : Endian) {n : Nat} {bs : List UInt8} (h : bs.length = n) :
    e.networkToHost n (e.load bs) = networkValue bs := by
  cases e
  · subst h
    change leValue (networkBytes bs.length (leValue bs)) = networkValue bs
    rw [networkBytes, leBytes_leValue, networkValue]
  · rfl

end Endian
end HeartbeatSpec.Base
