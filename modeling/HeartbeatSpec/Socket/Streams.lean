import Mathlib.Data.List.Forall2
import HeartbeatSpec.Base.Runs
import HeartbeatSpec.Socket.Queues
import HeartbeatSpec.Socket.Writing

/-!
# Byte streams

Library `Socket`. To its callers a socket is two streams of bytes: those that come are read in
their order, and those that are written go out in theirs. What each call does to the streams is said
without buffers and pointers, and proved of the functions,
`examples/Externals/CiUtils/Src/CiSocket.cpp:653–1466`.
-/

namespace HeartbeatSpec.Socket
open HeartbeatSpec.Base
open HeartbeatSpec.Base.RingBuffer (Holds)

/-! ### Calls -/

/-- A call of a public function, with what `realloc` does. -/
inductive SocketCall where
  | readFromNetworkToBufferMax (realloc : Realloc) (iReadSize : Nat)
  | readFromNetworkToBuffer
  | readN (ntoread : Nat)
  | lookAheadN (ntoReadSize iOffset : Nat)
  | writeN (realloc : Realloc) (pBuf : List UInt8)
  | writeNToBuffer (realloc : Realloc) (pBuf : List UInt8)
  | writeFromBufferToNetwork
  | writeNFlush (pBuf : List UInt8)

/-- What a call returns, with the bytes that it has read, and what it has stored in `*pnwritten`. -/
structure CallResult where
  ret : Bool
  read : List UInt8
  nwritten : Option Nat
  deriving DecidableEq, Repr

def CallResult.ofBool (ret : Bool) : CallResult := ⟨ret, [], none⟩

def CallResult.ofRead : Option (List UInt8) → CallResult
  | none => ⟨false, [], none⟩
  | some bs => ⟨true, bs, none⟩

def CallResult.ofWrite (result : WriteResult) : CallResult := ⟨result.ret, [], result.nwritten⟩

def SocketCall.run : SocketCall → Call CallResult
  | readFromNetworkToBufferMax realloc iReadSize =>
    CallResult.ofBool <$> Socket.readFromNetworkToBufferMax realloc iReadSize
  | readFromNetworkToBuffer => CallResult.ofBool <$> Socket.readFromNetworkToBuffer
  | readN ntoread => CallResult.ofRead <$> Socket.readN ntoread
  | lookAheadN ntoReadSize iOffset => CallResult.ofRead <$> Socket.lookAheadN ntoReadSize iOffset
  | writeN realloc pBuf => CallResult.ofWrite <$> Socket.writeN realloc pBuf
  | writeNToBuffer realloc pBuf => CallResult.ofWrite <$> Socket.writeNToBuffer realloc pBuf
  | writeFromBufferToNetwork => CallResult.ofBool <$> Socket.writeFromBufferToNetwork
  | writeNFlush pBuf => CallResult.ofWrite <$> Socket.writeNFlush pBuf

/-- A call with its result. -/
structure SocketStep where
  call : SocketCall
  result : CallResult

def socketStep (s : CiSocket) (l : SocketStep) : Option CiSocket :=
  match l.call.run.run s with
  | .ok result t => if result = l.result then some t else none
  | .error _ _ => none

/-- What a call asks of the buffers: where it makes one larger, what is in it is kept, and where it
looks ahead, it computes with `int`s. -/
def SocketCall.Allowed (s : CiSocket) : SocketCall → Prop
  | readFromNetworkToBufferMax _ iReadSize => GrowsRight s.recv iReadSize
  | lookAheadN ntoReadSize iOffset => LooksRight s ntoReadSize iOffset
  | writeN _ pBuf => WritesRight s pBuf.length
  | writeNToBuffer _ pBuf => GrowsRight s.send pBuf.length
  | _ => True

/-! ### Streams -/

/-- The bytes that are still to come, those that have been received, the last of them that have not
been read, and those that have been sent and that are waiting. -/
structure Streams where
  coming : List UInt8
  received : List UInt8
  unread : List UInt8
  sent : List UInt8
  unsent : List UInt8
  deriving DecidableEq, Repr

def CiSocket.streams (s : CiSocket) : Streams :=
  ⟨flow s.arrivals, s.received, s.recv.contents, s.sent, s.send.contents⟩

/-- Bytes are received. -/
structure Streams.Receives (a : Streams) (bs : List UInt8) (a' : Streams) : Prop where
  coming : a.coming = bs ++ a'.coming
  rest : a' = { a with
    coming := a'.coming, received := a.received ++ bs, unread := a.unread ++ bs }

/-- So many bytes of a block are written. -/
structure Streams.Writes (a : Streams) (bs : List UInt8) (k : Nat) (a' : Streams) : Prop where
  all : a'.sent ++ a'.unsent = a.sent ++ a.unsent ++ bs.take k
  sent : a.sent <+: a'.sent
  rest : a' = { a with sent := a'.sent, unsent := a'.unsent }

/-- What a call does to the streams, and what it returns. -/
def SocketCall.Meets (a : Streams) (result : CallResult) (a' : Streams) : SocketCall → Prop
  | readFromNetworkToBufferMax _ iReadSize => ∃ bs, bs.length ≤ iReadSize ∧ a.Receives bs a'
  | readFromNetworkToBuffer => ∃ bs, a.Receives bs a'
  | readN ntoread =>
    if ntoread ≤ a.unread.length ∧ a.unread ≠ [] then
      result = ⟨true, a.unread.take ntoread, none⟩ ∧ a' = { a with unread := a.unread.drop ntoread }
    else result = ⟨false, [], none⟩ ∧ a' = a
  | lookAheadN ntoReadSize iOffset =>
    a' = a ∧ result =
      if iOffset + ntoReadSize ≤ a.unread.length ∧ a.unread ≠ [] then
        ⟨true, (a.unread.drop iOffset).take ntoReadSize, none⟩
      else ⟨false, [], none⟩
  | writeN _ pBuf => ∃ k ≤ pBuf.length, a.Writes pBuf k a' ∧
      (result.ret = true → k = pBuf.length ∧ result.nwritten = some pBuf.length)
  | writeNToBuffer _ pBuf =>
    result = ⟨true, [], some pBuf.length⟩ ∧ a' = { a with unsent := a.unsent ++ pBuf } ∨
      result = ⟨false, [], none⟩ ∧ a' = a
  | writeFromBufferToNetwork => ∃ k,
      a' = { a with sent := a.sent ++ a.unsent.take k, unsent := a.unsent.drop k }
  | writeNFlush pBuf => ∃ k ≤ pBuf.length, a' = { a with sent := a.sent ++ pBuf.take k } ∧
      (result.ret = true → k = pBuf.length ∧ result.nwritten = some pBuf.length)

def SocketStep.Meets (l : SocketStep) (a a' : Streams) : Prop := l.call.Meets a l.result a'

/-! ### Each call -/

variable {s t : CiSocket} {bs queue : List UInt8} {n : Nat}

/-- The pointers are in their buffers. -/
structure Sound (s : CiSocket) : Prop where
  recv : s.recv.Valid
  send : s.send.Valid

theorem sound_new (sendBuffer recvBuffer : Nat → UInt8) (iSendBufferSize iRecvBufferSize : Nat)
    (arrivals : List Arrival) (acceptances : List Acceptance) :
    Sound (CiSocket.new sendBuffer recvBuffer iSendBufferSize iRecvBufferSize arrivals
      acceptances) :=
  ⟨⟨Or.inl rfl, Or.inl rfl⟩, ⟨Or.inl rfl, Or.inl rfl⟩⟩

theorem Gained.receives (hs : Sound s) (h : Gained s s.recv.contents bs t) :
    Sound t ∧ s.streams.Receives bs t.streams := by
  refine ⟨⟨h.recv.valid, ?_⟩, h.flow, ?_⟩
  · rw [h.send]
    exact hs.send
  · show Streams.mk _ t.received t.recv.contents t.sent t.send.contents = _
    rw [h.received, h.recv.contents, h.sent, h.send]
    rfl

theorem Wrote.writes {k : Nat} (hs : Sound s) (h : Wrote s s.send.contents bs k t) :
    Sound t ∧ s.streams.Writes bs k t.streams := by
  obtain ⟨queue', hholds, hall⟩ := h.send
  refine ⟨⟨?_, hholds.valid⟩, ?_, h.sent, ?_⟩
  · rw [h.recv]
    exact hs.recv
  · rw [← hholds.contents] at hall
    exact hall
  · show Streams.mk (flow t.arrivals) t.received t.recv.contents _ _ = _
    rw [h.arrivals, h.received, h.recv]
    rfl

/-- A contract of a function gives one of its call. -/
theorem contract_map {α : Type} {x : Call α} {f : α → CallResult} {Q : α → CiSocket → Prop}
    {R : CallResult → CiSocket → Prop}
    (h : Contract (fun t ↦ t = s) x Q fun f _ ↦ f = .sizeOverflow)
    (hQ : ∀ a t, Q a t → R (f a) t) :
    Contract (fun t ↦ t = s) (f <$> x) R fun f _ ↦ f = .sizeOverflow := by
  rw [map_eq_pure_bind]
  exact h.bind fun a ↦ Contract.pure fun t ht ↦ hQ a t ht

theorem contract_run {α : Type} {x : Call α} {a : α} (h : x.run s = .ok a t) :
    Contract (fun u ↦ u = s) x (fun b u ↦ b = a ∧ u = t) fun f _ ↦ f = .sizeOverflow := by
  rintro u rfl
  rw [h]
  exact ⟨rfl, rfl⟩

/-- Each call does what is said of it. -/
theorem contract_call (hs : Sound s) {call : SocketCall} (hallowed : call.Allowed s) :
    Contract (fun t ↦ t = s) call.run
      (fun result t ↦ Sound t ∧ call.Meets s.streams result t.streams)
      fun f _ ↦ f = .sizeOverflow := by
  have hrecv : s.recv.Holds s.recv.contents := ⟨hs.recv, rfl⟩
  have hsend : s.send.Holds s.send.contents := ⟨hs.send, rfl⟩
  cases call with
  | readFromNetworkToBufferMax realloc n =>
    refine contract_map (contract_readFromNetworkToBufferMax hrecv hallowed) fun ret t ht ↦ ?_
    obtain ⟨⟨bs, hgained, hbs, -⟩, -⟩ := ht
    obtain ⟨hsound, hreceives⟩ := hgained.receives hs
    exact ⟨hsound, bs, hbs, hreceives⟩
  | readFromNetworkToBuffer =>
    obtain ⟨ret, t, bs, hrun, hgained⟩ := run_readFromNetworkToBuffer hrecv
    refine contract_map (contract_run hrun) ?_
    rintro _ _ ⟨rfl, rfl⟩
    obtain ⟨hsound, hreceives⟩ := hgained.receives hs
    exact ⟨hsound, bs, hreceives⟩
  | readN n =>
    obtain ⟨hyes, hno⟩ := run_readN hrecv n
    by_cases h : n ≤ s.recv.contents.length ∧ s.recv.contents ≠ []
    · obtain ⟨r, hrun, hholds⟩ := hyes h
      refine contract_map (contract_run hrun) ?_
      rintro _ _ ⟨rfl, rfl⟩
      refine ⟨⟨hholds.valid, hs.send⟩, ?_⟩
      show if n ≤ s.recv.contents.length ∧ s.recv.contents ≠ [] then _ else _
      rw [if_pos h]
      refine ⟨rfl, ?_⟩
      show Streams.mk _ _ r.contents _ _ = _
      rw [hholds.contents]
      rfl
    · refine contract_map (contract_run (hno h)) fun result t ht ↦ ?_
      rw [ht.1, ht.2]
      refine ⟨hs, ?_⟩
      show if n ≤ s.recv.contents.length ∧ s.recv.contents ≠ [] then _ else _
      rw [if_neg h]
      exact ⟨rfl, rfl⟩
  | lookAheadN n i =>
    refine contract_map (contract_run (run_lookAheadN hrecv hallowed)) fun result t ht ↦ ?_
    rw [ht.1, ht.2]
    refine ⟨hs, rfl, ?_⟩
    show _ = if i + n ≤ s.recv.contents.length ∧ s.recv.contents ≠ [] then _ else _
    split <;> rfl
  | writeN realloc bs =>
    refine contract_map (contract_writeN realloc hsend hallowed) fun result t ht ↦ ?_
    obtain ⟨k, hwrote, hret⟩ := ht
    obtain ⟨hsound, hwrites⟩ := hwrote.writes hs
    exact ⟨hsound, k, hwrote.le_length, hwrites, hret⟩
  | writeNToBuffer realloc bs =>
    refine contract_map (contract_writeNToBuffer realloc bs hsend hallowed) fun result t ht ↦ ?_
    obtain ⟨ret, nwritten⟩ := result
    obtain ⟨⟨r, rfl, hholds⟩, hnwritten⟩ := ht
    refine ⟨⟨hs.recv, hholds.valid⟩, ?_⟩
    cases ret with
    | true =>
      left
      refine ⟨congrArg (CallResult.mk true []) hnwritten, ?_⟩
      show Streams.mk _ _ _ _ r.contents = _
      rw [hholds.contents]
      rfl
    | false =>
      right
      refine ⟨congrArg (CallResult.mk false []) hnwritten, ?_⟩
      show Streams.mk _ _ _ _ r.contents = _
      rw [hholds.contents]
      rfl
  | writeFromBufferToNetwork =>
    obtain ⟨ret, t, k, hrun, hgave⟩ := run_writeFromBufferToNetwork hsend
    refine contract_map (contract_run hrun) ?_
    rintro _ _ ⟨rfl, rfl⟩
    refine ⟨⟨?_, hgave.send.valid⟩, k, ?_⟩
    · rw [hgave.recv]
      exact hs.recv
    · rw [CiSocket.streams, hgave.arrivals, hgave.received, hgave.recv, hgave.sent,
        hgave.send.contents]
      rfl
  | writeNFlush bs =>
    obtain ⟨result, as, k, hrun, hk, hret⟩ := run_writeNFlush s bs
    refine contract_map (contract_run hrun) ?_
    rintro _ _ ⟨rfl, rfl⟩
    exact ⟨⟨hs.recv, hs.send⟩, k, hk, rfl, hret⟩

/-! ### Any sequence of calls -/

/-- A step is a call that returns. -/
theorem socketStep_ok {l : SocketStep} (h : socketStep s l = some t) :
    l.call.run.run s = .ok l.result t := by
  unfold socketStep at h
  cases hrun : l.call.run.run s with
  | error f u =>
    rw [hrun] at h
    cases h
  | ok result u =>
    rw [hrun] at h
    dsimp only at h
    split at h
    · next hresult =>
      obtain rfl := Option.some.inj h
      rw [hresult]
    · cases h

variable {sendBuffer recvBuffer : Nat → UInt8} {iSendBufferSize iRecvBufferSize : Nat}
  {arrivals : List Arrival} {acceptances : List Acceptance}
  {tr : List (Transition CiSocket SocketStep)}

theorem sound_run (h : Runs socketStep (CiSocket.new sendBuffer recvBuffer iSendBufferSize
      iRecvBufferSize arrivals acceptances) tr s)
    (hallowed : ∀ x ∈ tr, x.label.call.Allowed x.source) :
    Sound s ∧ ∀ x ∈ tr, x.label.Meets x.source.streams x.target.streams :=
  h.rule (I := Sound) (C := fun s l _ ↦ l.call.Allowed s)
    (P := fun s l t ↦ l.Meets s.streams t.streams)
    (fun _ _ _ hs hstep hl ↦ (contract_call hs hl).of_ok rfl (socketStep_ok hstep))
    (sound_new ..) hallowed

/-- The sockets refine their streams: in every sequence of calls that keep to what is asked of
them, each does to the streams what is said of it, and the sizes that the socket reports are those
of the streams; no access goes beyond a buffer, and every call returns unless a buffer grows beyond
an `int`. -/
theorem streams_refined (h : Runs socketStep (CiSocket.new sendBuffer recvBuffer iSendBufferSize
      iRecvBufferSize arrivals acceptances) tr s)
    (hallowed : ∀ x ∈ tr, x.label.call.Allowed x.source) :
    (∀ x ∈ tr, x.label.Meets x.source.streams x.target.streams) ∧
      dataSize s.recv = s.streams.unread.length ∧ dataSize s.send = s.streams.unsent.length ∧
      ∀ call : SocketCall, call.Allowed s → ∀ f t,
        call.run.run s = .error f t → f = .sizeOverflow := by
  obtain ⟨hs, hmeets⟩ := sound_run h hallowed
  refine ⟨hmeets, dataSize_eq ⟨hs.recv, rfl⟩, dataSize_eq ⟨hs.send, rfl⟩, ?_⟩
  exact fun call hcall f t hrun ↦ (contract_call hs hcall).of_error rfl hrun

/-- The bytes that a call takes out of the receive buffer. -/
def SocketStep.taken (l : SocketStep) : List UInt8 :=
  match l.call with
  | .readN _ => l.result.read
  | _ => []

/-- The block that a call writes. -/
def SocketCall.block : SocketCall → List UInt8
  | writeN _ pBuf | writeNToBuffer _ pBuf | writeNFlush pBuf => pBuf
  | _ => []

/-- `WriteNFlush` is called only while nothing is waiting. -/
def SocketCall.InTurn (a : Streams) : SocketCall → Prop
  | writeNFlush _ => a.unsent = []
  | _ => True

/-- What one call does to the bytes that have come. -/
theorem SocketStep.Meets.incoming {l : SocketStep} {a a' : Streams} (h : l.Meets a a') :
    l.taken ++ a'.unread ++ a'.coming = a.unread ++ a.coming := by
  obtain ⟨call, result⟩ := l
  cases call with
  | readFromNetworkToBufferMax realloc n =>
    obtain ⟨bs, -, hreceives⟩ := h
    rw [hreceives.coming, hreceives.rest]
    exact List.append_assoc a.unread bs a'.coming
  | readFromNetworkToBuffer =>
    obtain ⟨bs, hreceives⟩ := h
    rw [hreceives.coming, hreceives.rest]
    exact List.append_assoc a.unread bs a'.coming
  | readN n =>
    change if _ then _ else _ at h
    split at h
    · obtain ⟨hresult, rfl⟩ := h
      change result = _ at hresult
      rw [SocketStep.taken, hresult]
      exact congrArg (· ++ a.coming) (List.take_append_drop n a.unread)
    · obtain ⟨hresult, rfl⟩ := h
      change result = _ at hresult
      rw [SocketStep.taken, hresult]
      rfl
  | lookAheadN n i =>
    obtain ⟨rfl, -⟩ := h
    rfl
  | writeN realloc bs =>
    obtain ⟨k, -, hwrites, -⟩ := h
    rw [hwrites.rest]
    rfl
  | writeNToBuffer realloc bs =>
    rcases h with ⟨-, rfl⟩ | ⟨-, rfl⟩ <;> rfl
  | writeFromBufferToNetwork =>
    obtain ⟨k, rfl⟩ := h
    rfl
  | writeNFlush bs =>
    obtain ⟨k, -, rfl, -⟩ := h
    rfl

/-- What one call does to the bytes that are written. -/
theorem SocketStep.Meets.outgoing {l : SocketStep} {a a' : Streams} (h : l.Meets a a')
    (hturn : l.call.InTurn a) : ∃ written, written <+: l.call.block ∧
      (l.result.ret = true → written = l.call.block) ∧
      a'.sent ++ a'.unsent = a.sent ++ a.unsent ++ written := by
  have hnothing {a' : Streams} (hsent : a'.sent = a.sent) (hunsent : a'.unsent = a.unsent) :
      a'.sent ++ a'.unsent = a.sent ++ a.unsent ++ [] := by
    rw [hsent, hunsent, List.append_nil]
  obtain ⟨call, result⟩ := l
  cases call with
  | readFromNetworkToBufferMax realloc n =>
    obtain ⟨bs, -, hreceives⟩ := h
    refine ⟨[], List.prefix_refl _, fun _ ↦ rfl, hnothing ?_ ?_⟩ <;> rw [hreceives.rest]
  | readFromNetworkToBuffer =>
    obtain ⟨bs, hreceives⟩ := h
    refine ⟨[], List.prefix_refl _, fun _ ↦ rfl, hnothing ?_ ?_⟩ <;> rw [hreceives.rest]
  | readN n =>
    change if _ then _ else _ at h
    split at h
    · obtain ⟨-, rfl⟩ := h
      exact ⟨[], List.prefix_refl _, fun _ ↦ rfl, hnothing rfl rfl⟩
    · obtain ⟨-, rfl⟩ := h
      exact ⟨[], List.prefix_refl _, fun _ ↦ rfl, hnothing rfl rfl⟩
  | lookAheadN n i =>
    obtain ⟨rfl, -⟩ := h
    exact ⟨[], List.prefix_refl _, fun _ ↦ rfl, hnothing rfl rfl⟩
  | writeN realloc bs =>
    obtain ⟨k, -, hwrites, hret⟩ := h
    refine ⟨bs.take k, List.take_prefix k bs, fun hyes ↦ ?_, hwrites.all⟩
    rw [(hret hyes).1]
    exact List.take_length
  | writeNToBuffer realloc bs =>
    rcases h with ⟨-, rfl⟩ | ⟨hresult, rfl⟩
    · exact ⟨bs, List.prefix_refl _, fun _ ↦ rfl, (List.append_assoc ..).symm⟩
    · refine ⟨[], List.nil_prefix, fun hyes ↦ ?_, hnothing rfl rfl⟩
      change result = _ at hresult
      rw [show result.ret = false by rw [hresult]] at hyes
      cases hyes
  | writeFromBufferToNetwork =>
    obtain ⟨k, rfl⟩ := h
    refine ⟨[], List.prefix_refl _, fun _ ↦ rfl, ?_⟩
    dsimp only
    rw [List.append_assoc, List.take_append_drop, List.append_nil]
  | writeNFlush bs =>
    obtain ⟨k, -, rfl, hret⟩ := h
    have hnil : a.unsent = [] := hturn
    refine ⟨bs.take k, List.take_prefix k bs, fun hyes ↦ ?_, ?_⟩
    · rw [(hret hyes).1]
      exact List.take_length
    · dsimp only
      rw [hnil, List.append_nil, List.append_nil]

/-- A call that writes has written a part of its block, and all of it if it says so. -/
def WritesPart (x : Transition CiSocket SocketStep) (written : List UInt8) : Prop :=
  written <+: x.label.call.block ∧ (x.label.result.ret = true → written = x.label.call.block)

/-- What a sequence of calls does to the bytes. -/
theorem intact_of_meets {s₀ : CiSocket} (h : Runs socketStep s₀ tr s)
    (hmeets : ∀ x ∈ tr, x.label.Meets x.source.streams x.target.streams)
    (hturn : ∀ x ∈ tr, x.label.call.InTurn x.source.streams) :
    (tr.map fun x ↦ x.label.taken).flatten ++ s.streams.unread ++ s.streams.coming =
        s₀.streams.unread ++ s₀.streams.coming ∧
      ∃ written, List.Forall₂ WritesPart tr written ∧
        s.streams.sent ++ s.streams.unsent =
          s₀.streams.sent ++ s₀.streams.unsent ++ written.flatten := by
  induction h with
  | nil => exact ⟨rfl, [], List.Forall₂.nil, (List.append_nil _).symm⟩
  | @snoc t u l tr h hstep ih =>
    obtain ⟨hin, written, hparts, hout⟩ := ih (fun x hx ↦ hmeets x (List.mem_append_left _ hx))
      fun x hx ↦ hturn x (List.mem_append_left _ hx)
    have hlast : (⟨t, l, u⟩ : Transition CiSocket SocketStep) ∈ tr ++ [⟨t, l, u⟩] :=
      List.mem_append_right _ List.mem_cons_self
    have hl : l.Meets t.streams u.streams := hmeets _ hlast
    refine ⟨?_, ?_⟩
    · have hbytes := hl.incoming
      rw [List.map_append, List.flatten_append, ← hin, List.map_singleton, List.flatten_singleton]
      simp only [List.append_assoc] at hbytes ⊢
      rw [hbytes]
    · obtain ⟨part, hfirst, hall, hbytes⟩ := hl.outgoing (hturn _ hlast)
      refine ⟨written ++ [part], ?_, ?_⟩
      · exact List.rel_append hparts (List.Forall₂.cons ⟨hfirst, hall⟩ List.Forall₂.nil)
      · rw [hbytes, hout, List.flatten_append, List.flatten_singleton, List.append_assoc]

/-- The streams stay intact: in every such sequence of calls, what has been read, with what waits to
be read and what is still to come, is what the peer has sent, byte for byte in its order; and what
has been sent, with what waits to be sent, is what the calls have written, each the whole of its
block if it returned true and a first part of it otherwise. -/
theorem streams_intact (h : Runs socketStep (CiSocket.new sendBuffer recvBuffer iSendBufferSize
      iRecvBufferSize arrivals acceptances) tr s)
    (hallowed : ∀ x ∈ tr, x.label.call.Allowed x.source)
    (hturn : ∀ x ∈ tr, x.label.call.InTurn x.source.streams) :
    (tr.map fun x ↦ x.label.taken).flatten ++ s.streams.unread ++ s.streams.coming =
        flow arrivals ∧
      ∃ written, List.Forall₂ WritesPart tr written ∧
        s.streams.sent ++ s.streams.unsent = written.flatten :=
  intact_of_meets h (sound_run h hallowed).2 hturn

/-! ### A run in which a buffer goes round -/

instance (r : RingBuffer UInt8) (n : Nat) : Decidable (GrowsRight r n) :=
  inferInstanceAs (Decidable (_ ∨ _ ∨ _))

instance (s : CiSocket) (n : Nat) : Decidable (WritesRight s n) :=
  match h : flushPending.run s with
  | .ok true t =>
    decidable_of_iff (GrowsRight t.send n)
      ⟨fun hg u hu ↦ by cases h ▸ hu; exact hg, fun hw ↦ hw t h⟩
  | .ok false t => isTrue fun u hu ↦ by cases h ▸ hu
  | .error f t => isTrue fun u hu ↦ by cases h ▸ hu

instance (s : CiSocket) (n i : Nat) : Decidable (LooksRight s n i) :=
  inferInstanceAs (Decidable (_ ∧ _))

instance (s : CiSocket) (call : SocketCall) : Decidable (call.Allowed s) :=
  match call with
  | .readFromNetworkToBufferMax _ n => inferInstanceAs (Decidable (GrowsRight s.recv n))
  | .writeN _ bs => inferInstanceAs (Decidable (WritesRight s bs.length))
  | .writeNToBuffer _ bs => inferInstanceAs (Decidable (GrowsRight s.send bs.length))
  | .lookAheadN n i => inferInstanceAs (Decidable (LooksRight s n i))
  | .readFromNetworkToBuffer | .readN .. | .writeFromBufferToNetwork | .writeNFlush .. =>
    isTrue trivial

instance (a : Streams) (call : SocketCall) : Decidable (call.InTurn a) :=
  match call with
  | .writeNFlush _ => inferInstanceAs (Decidable (a.unsent = []))
  | .readFromNetworkToBufferMax .. | .readFromNetworkToBuffer | .readN .. | .lookAheadN ..
  | .writeN .. | .writeNToBuffer .. | .writeFromBufferToNetwork => isTrue trivial

/-- Buffers of four bytes. -/
private def small : CiSocket :=
  CiSocket.new (fun _ ↦ 0) (fun _ ↦ 0) 4 4 [.data 1 [2, 3, 4, 5], .wouldBlock, .data 6 []]
    [.accepted 1, .wouldBlock, .accepted 2, .wouldBlock]

private def around : List SocketStep :=
  [⟨.readFromNetworkToBuffer, ⟨true, [], none⟩⟩,
    ⟨.readN 2, ⟨true, [1, 2], none⟩⟩,
    ⟨.readFromNetworkToBufferMax none 2, ⟨true, [], none⟩⟩,
    ⟨.lookAheadN 2 1, ⟨true, [4, 5], none⟩⟩,
    ⟨.writeN none [7, 8, 9], ⟨true, [], some 3⟩⟩,
    ⟨.writeFromBufferToNetwork, ⟨true, [], none⟩⟩,
    ⟨.writeNToBuffer none [10, 11], ⟨true, [], some 2⟩⟩,
    ⟨.readN 3, ⟨true, [3, 4, 5], none⟩⟩]

private theorem run_around : ∃ tr s, Runs socketStep small tr s ∧
    (∀ x ∈ tr, x.label.call.Allowed x.source) ∧
    (∀ x ∈ tr, x.label.call.InTurn x.source.streams) ∧
    s.streams = ⟨[6], [1, 2, 3, 4, 5], [], [7, 8, 9], [10, 11]⟩ := by
  have hall : (exec socketStep small around).map CiSocket.streams =
      some ⟨[6], [1, 2, 3, 4, 5], [], [7, 8, 9], [10, 11]⟩ := by decide +kernel
  obtain ⟨s, hs, hstreams⟩ := Option.map_eq_some_iff.mp hall
  refine ⟨_, s, Runs.of_exec hs, ?_, ?_, hstreams⟩
  · decide +kernel
  · decide +kernel

theorem streams_refined_around : ∃ tr s, Runs socketStep small tr s ∧
    s.streams = ⟨[6], [1, 2, 3, 4, 5], [], [7, 8, 9], [10, 11]⟩ ∧
    (∀ x ∈ tr, x.label.Meets x.source.streams x.target.streams) ∧
      dataSize s.recv = s.streams.unread.length ∧ dataSize s.send = s.streams.unsent.length ∧
      ∀ call : SocketCall, call.Allowed s → ∀ f t,
        call.run.run s = .error f t → f = .sizeOverflow := by
  obtain ⟨tr, s, hrun, hallowed, -, hstreams⟩ := run_around
  exact ⟨tr, s, hrun, hstreams, streams_refined hrun hallowed⟩

theorem streams_intact_around : ∃ tr s, Runs socketStep small tr s ∧
    s.streams = ⟨[6], [1, 2, 3, 4, 5], [], [7, 8, 9], [10, 11]⟩ ∧
    (tr.map fun x ↦ x.label.taken).flatten ++ s.streams.unread ++ s.streams.coming =
        [1, 2, 3, 4, 5, 6] ∧
      ∃ written, List.Forall₂ WritesPart tr written ∧
        s.streams.sent ++ s.streams.unsent = written.flatten := by
  obtain ⟨tr, s, hrun, hallowed, hturn, hstreams⟩ := run_around
  exact ⟨tr, s, hrun, hstreams, streams_intact hrun hallowed hturn⟩

end HeartbeatSpec.Socket
