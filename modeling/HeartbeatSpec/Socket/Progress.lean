import HeartbeatSpec.Socket.Queues

/-!
# Why a call that receives fails

Library `Socket`. A call that receives returns false only because of an error on the wire, or
because there is no memory for a larger buffer; and where there are bytes to be received, it
receives some, `examples/Externals/CiUtils/Src/CiSocket.cpp:912–1046`.
-/

namespace HeartbeatSpec.Socket
open HeartbeatSpec.Base
open HeartbeatSpec.Base.RingBuffer (Holds)

variable {s : CiSocket} {queue : List UInt8} {n : Nat} {realloc : Realloc}

/-- The errors that are still to come. -/
def errors (as : List Arrival) : Nat := as.count .error

theorem errors_takeArrival (n : Nat) (as : List Arrival) :
    errors (takeArrival n as).2 ≤ errors as ∧
      ((takeArrival n as).1 = .error → errors (takeArrival n as).2 < errors as) := by
  cases as with
  | nil => exact ⟨Nat.le_refl _, fun h ↦ absurd h Received.noConfusion⟩
  | cons a rest =>
    cases a with
    | data b bs =>
      refine ⟨?_, fun h ↦ absurd h Received.noConfusion⟩
      have hrest (b : UInt8) (bs : List UInt8) : errors (.data b bs :: rest) = errors rest :=
        List.count_cons_of_ne Arrival.noConfusion
      rw [takeArrival, hrest]
      dsimp only
      split
      · exact Nat.le_refl _
      · exact Nat.le_of_eq (hrest _ _)
    | wouldBlock => exact ⟨List.count_le_count_cons, fun h ↦ absurd h Received.noConfusion⟩
    | error =>
      have hone : errors (.error :: rest) = errors rest + 1 := List.count_cons_self
      rw [hone]
      exact ⟨Nat.le_succ _, fun _ ↦ Nat.lt_succ_self _⟩
    | eof => exact ⟨Nat.le_refl _, fun h ↦ absurd h Received.noConfusion⟩

/-- The pointers and the buffers have nothing to do with what is to come. -/
theorem keeps_arrivals_movePtrs (P : List Arrival → Prop) (side : Side)
    (f : RingBuffer UInt8 → RingBuffer UInt8) :
    Keeps (fun t ↦ P t.arrivals) (fun _ _ ↦ True) (movePtrs side f) :=
  Keeps.modify fun t ht ↦ by cases side <;> exact ht

theorem keeps_arrivals_copyTo (P : List Arrival → Prop) (side : Side) (ptr : Nat)
    (bs : List UInt8) : Keeps (fun t ↦ P t.arrivals) (fun _ _ ↦ True) (copyTo side ptr bs) := by
  refine Contract.get_bind fun t ht ↦ ?_
  split
  · exact fun _ _ ↦ trivial
  · intro w _
    cases side <;> exact ht

theorem keeps_arrivals_copyFrom (P : List Arrival → Prop) (side : Side) (ptr n : Nat) :
    Keeps (fun t ↦ P t.arrivals) (fun _ _ ↦ True) (copyFrom side ptr n) := by
  refine Keeps.get_bind fun t ↦ ?_
  split
  · exact fun _ _ ↦ trivial
  · exact Keeps.pure _

/-- There are at most so many errors to come, and fewer if the call has failed. -/
def Errors (k : Nat) (failed : Prop) (t : CiSocket) : Prop :=
  errors t.arrivals ≤ k ∧ (failed → errors t.arrivals < k)

theorem contract_recv_errors (n k : Nat) :
    Contract (fun t ↦ errors t.arrivals ≤ k) (recv n) (fun got ↦ Errors k (got = .error))
      fun _ _ ↦ True := by
  refine Contract.modifyGet fun t ht ↦ ?_
  obtain ⟨hle, hlt⟩ := errors_takeArrival n t.arrivals
  exact ⟨Nat.le_trans hle ht, fun hgot ↦ Nat.lt_of_lt_of_le (hlt hgot) ht⟩

theorem contract_recvLoop_errors (wraps : Bool) (turns ptr nleft k : Nat) :
    Contract (fun t ↦ errors t.arrivals ≤ k) (recvLoop wraps turns ptr nleft)
      (fun ret ↦ Errors k (ret = some false)) fun _ _ ↦ True := by
  induction turns generalizing ptr nleft with
  | zero =>
    cases nleft with
    | zero => exact Contract.pure fun _ ht ↦ ⟨ht, nofun⟩
    | succ nleft => exact fun _ _ ↦ trivial
  | succ turns ih =>
    cases nleft with
    | zero => exact Contract.pure fun _ ht ↦ ⟨ht, nofun⟩
    | succ nleft =>
      refine (contract_recv_errors (nleft + 1) k).bind fun got ↦ ?_
      cases got with
      | wouldBlock => exact Contract.pure fun _ ht ↦ ⟨ht.1, nofun⟩
      | error => exact Contract.pure fun _ ht ↦ ⟨ht.1, fun _ ↦ ht.2 rfl⟩
      | bytes bs =>
        refine Contract.ite (fun _ ↦ Contract.pure fun _ ht ↦ ⟨ht.1, nofun⟩) fun _ ↦ ?_
        have hkeeps : Keeps (fun t : CiSocket ↦ errors t.arrivals ≤ k) (fun _ _ ↦ True)
            (takeIn wraps ptr bs) := by
          refine (keeps_arrivals_copyTo (errors · ≤ k) .recv ptr bs).bind fun _ ↦
            (keeps_arrivals_movePtrs (errors · ≤ k) .recv _).bind fun _ ↦ ?_
          exact Keeps.ite (keeps_arrivals_movePtrs (errors · ≤ k) .recv _) (Keeps.pure _)
        refine (hkeeps.mono (fun _ ht ↦ ht.1) (fun _ _ ht ↦ ht) fun _ _ hf ↦ hf).bind fun _ ↦ ?_
        exact ih (ptr + bs.length) (nleft + 1 - bs.length)

theorem contract_recvInto_errors (ptr nleft nleft2 k : Nat) :
    Contract (fun t ↦ errors t.arrivals ≤ k) (recvInto ptr nleft nleft2)
      (fun ret ↦ Errors k (ret = false)) fun _ _ ↦ True := by
  have hreturn (ret : Bool) : Contract (Errors k (some ret = some false)) (pure ret : Call Bool)
      (fun ret ↦ Errors k (ret = false)) fun _ _ ↦ True :=
    Contract.pure fun _ ht ↦ ⟨ht.1, fun hret ↦ ht.2 (congrArg some hret)⟩
  refine (contract_recvLoop_errors true nleft ptr nleft k).bind fun ret ↦ ?_
  cases ret with
  | some ret => exact hreturn ret
  | none =>
    refine ((contract_recvLoop_errors false nleft2 0 nleft2 k).mono (fun _ ht ↦ ht.1)
      (fun _ _ ht ↦ ht) fun _ _ hf ↦ hf).bind fun ret ↦ ?_
    cases ret with
    | some ret => exact hreturn ret
    | none => exact Contract.pure fun _ ht ↦ ⟨ht.1, nofun⟩

/-- It returns false because of an error that has come, or because `realloc` fails. -/
theorem contract_readFromNetworkToBufferMax_errors (realloc : Realloc) (n k : Nat) :
    Contract (fun t ↦ errors t.arrivals ≤ k) (readFromNetworkToBufferMax realloc n)
      (fun ret ↦ Errors k (ret = false ∧ realloc ≠ none)) fun _ _ ↦ True := by
  have hprepare : Contract (fun t ↦ errors t.arrivals ≤ k) (prepareRecvBuffer realloc n)
      (fun ret t ↦ errors t.arrivals ≤ k ∧ (ret = false → realloc = none)) fun _ _ ↦ True := by
    have hdone : Contract (fun t : CiSocket ↦ errors t.arrivals ≤ k) (pure true : Call Bool)
        (fun ret t ↦ errors t.arrivals ≤ k ∧ (ret = false → realloc = none)) fun _ _ ↦ True :=
      Contract.pure fun _ ht ↦ ⟨ht, nofun⟩
    refine Contract.get_bind fun s hs ↦ ?_
    refine Contract.ite (fun _ ↦ hdone.at_state hs) fun _ ↦ ?_
    cases realloc with
    | none => exact Contract.pure fun t ht ↦ ⟨ht ▸ hs, fun _ ↦ rfl⟩
    | some fresh =>
      refine Contract.ite (fun _ _ _ ↦ trivial) fun _ ↦ ?_
      have hgrow := (keeps_arrivals_movePtrs (errors · ≤ k) .recv
        (RingBuffer.grow (n - ((s.ring .recv).size - dataSize (s.ring .recv)) + 1) fresh)).at_state
          hs
      refine Contract.bind hgrow fun _ ↦ ?_
      refine Contract.ite (fun _ ↦ ?_) fun _ ↦ hdone
      refine Contract.bind (keeps_arrivals_copyFrom (errors · ≤ k) .recv _ _) fun bs ↦ ?_
      refine Contract.bind (keeps_arrivals_copyTo (errors · ≤ k) .recv _ bs) fun _ ↦ ?_
      exact Contract.bind (keeps_arrivals_movePtrs (errors · ≤ k) .recv _) fun _ ↦ hdone
  refine hprepare.bind fun ret ↦ ?_
  refine Contract.ite (fun hret ↦ ?_) fun _ ↦ ?_
  · exact Contract.pure fun _ ht ↦ ⟨ht.1, fun hfailed ↦ absurd (ht.2 hret) hfailed.2⟩
  · have hinto {ptr nleft nleft2 : Nat} :
        Contract (fun t : CiSocket ↦ errors t.arrivals ≤ k) (recvInto ptr nleft nleft2)
          (fun ret ↦ Errors k (ret = false ∧ realloc ≠ none)) fun _ _ ↦ True :=
      (contract_recvInto_errors ptr nleft nleft2 k).mono (fun _ ht ↦ ht)
        (fun _ _ ht ↦ ⟨ht.1, fun hfailed ↦ ht.2 hfailed.1⟩) fun _ _ hf ↦ hf
    refine Contract.bind ((keeps_arrivals_movePtrs (errors · ≤ k) .recv wrapStop).mono
      (fun _ ht ↦ ht.1) (fun _ _ ht ↦ ht) fun _ _ hf ↦ hf) fun _ ↦ ?_
    refine Contract.get_bind fun s hs ↦ ?_
    refine Contract.ite (fun _ ↦ ?_) fun _ ↦ ?_
    · exact Contract.ite (fun _ ↦ hinto.at_state hs) fun _ ↦ hinto.at_state hs
    · refine Contract.ite (fun _ ↦ hinto.at_state hs) fun _ ↦ ?_
      exact Contract.bind ((keeps_arrivals_movePtrs (errors · ≤ k) .recv _).at_state hs)
        fun _ ↦ hinto

/-- What a call that receives leaves, from a buffer that starts at its beginning. -/
structure GotMore (s : CiSocket) (queue bs : List UInt8) (n : Nat) (realloc : Realloc)
    (ret : Bool) (t : CiSocket) : Prop where
  gained : Gained s queue bs t
  length_le : bs.length ≤ n
  flat : Flat t.recv (queue ++ bs)
  advances : ret = true → 0 < n → Ready s.arrivals → bs ≠ []
  errors_le : errors t.arrivals ≤ errors s.arrivals
  failed : ret = false → realloc = none ∨ errors t.arrivals < errors s.arrivals

theorem contract_receive (h : s.recv.Holds queue) (hflat : Flat s.recv queue) :
    Contract (fun t ↦ t = s) (readFromNetworkToBufferMax realloc n)
      (fun ret t ↦ ∃ bs, GotMore s queue bs n realloc ret t) fun f _ ↦ f = .sizeOverflow := by
  intro w hw
  subst hw
  have hgrow : GrowsRight w.recv n := Or.inr (Or.inl (hflat.start_le h))
  have hgot := @contract_readFromNetworkToBufferMax w queue n realloc h hgrow w rfl
  have herrors := contract_readFromNetworkToBufferMax_errors realloc n (errors w.arrivals) w
    (Nat.le_refl _)
  cases hrun : (readFromNetworkToBufferMax realloc n).run w with
  | error f t =>
    rw [hrun] at hgot
    exact hgot
  | ok ret t =>
    rw [hrun] at hgot herrors
    obtain ⟨⟨bs, hgained, hbs, hkeeps⟩, hadvances⟩ := hgot
    refine ⟨bs, hgained, hbs, hkeeps hflat, fun hret hn hready hnil ↦ ?_, herrors.1,
      fun hret ↦ ?_⟩
    · apply hadvances hret hn hready
      rw [hgained.received, hnil, List.append_nil]
    · by_cases hnone : realloc = none
      · exact Or.inl hnone
      · exact Or.inr (herrors.2 ⟨hret, hnone⟩)

end HeartbeatSpec.Socket
