import HeartbeatSpec.Base.Chain

/-!
# The linked list

Library `CiUtils`. `CLinkedListTemplate` with `CLinkItemQueueTemplate` and `CLinkItemCacheTemplate`,
`examples/Externals/CiUtils/Src/LinkedListTemplate.h:19–922`, on a memory of link items that any
number of lists share. A null pointer is `none`. The use of a null or dangling pointer has no
defined meaning, and neither has that of a value never written.
-/

namespace HeartbeatSpec.CiUtils
open HeartbeatSpec.Base

/-- `CLinkItem`, `examples/Externals/CiUtils/Src/LinkedListTemplate.h:19–32`, with `m_pItem` a
pointer to an object. -/
abbrev LinkItem (ι ω : Type) := Cell ι (Option ω)

/-- `m_pHead`, `m_pTail` and `m_iNItems`, which queues, caches and lists all have. The count is an
`int`: the model is that of lists of fewer than 2^31 items. -/
structure LinkItemQueue (ι : Type) where
  head : Option ι
  tail : Option ι
  nItems : Int
  deriving DecidableEq, Repr

/-- Nothing is linked. -/
def LinkItemQueue.empty {ι : Type} : LinkItemQueue ι := ⟨none, none, 0⟩

/-- What a chain of link items belongs to: a list, or the `m_linkItemCache` of a list. -/
inductive Owner (κ : Type) where
  | list (l : κ)
  | cache (l : κ)
  deriving DecidableEq, Repr

/-- The members of every list, the link items that are allocated, and the objects that have been
deleted, in order. -/
structure Memory (κ ι ω : Type) where
  linkItems : Cells ι (Option ω)
  queues : Owner κ → LinkItemQueue ι
  cacheSize : κ → Int
  deleted : List ω

/-- Why a function does not return: it uses a pointer that points to nothing or a value that was
never written, `new` throws, or it goes on along a chain that is longer than its count. -/
inductive Fault where
  | invalidPointer
  | uninitialisedRead
  | badAlloc
  | endless
  deriving DecidableEq, Repr

/-- A member function of a list. -/
abbrev Call (κ ι ω α : Type) := EStateM Fault (Memory κ ι ω) α

/-- `operator new`: what it returns points to nothing before, and null stands for an exception. -/
structure Allocator (ι ω : Type) where
  new : Cells ι (Option ω) → Option ι
  fresh : ∀ h p, new h = some p → h p = none

/-- The functions that a subclass overrides,
`examples/Externals/CiUtils/Src/LinkedListTemplate.h:911–921`. -/
structure Overridables (ω : Type) where
  getIDOf : Option ω → Nat
  isIDEqual : Nat → Nat → Bool

variable {κ ι ω : Type} [DecidableEq κ] [DecidableEq ι]

/-- The lists after their constructors,
`examples/Externals/CiUtils/Src/LinkedListTemplate.h:38–42,240–243,321–325`. -/
def Memory.new (cacheSize : κ → Int) : Memory κ ι ω :=
  ⟨fun _ ↦ none, fun _ ↦ .empty, cacheSize, []⟩

/-! ### Memory -/

/-- Change the members of a chain's owner. -/
def Memory.withQueue (o : Owner κ) (f : LinkItemQueue ι → LinkItemQueue ι) (m : Memory κ ι ω) :
    Memory κ ι ω :=
  { m with queues := Function.update m.queues o (f (m.queues o)) }

/-- Change members. -/
def modifyQueue (o : Owner κ) (f : LinkItemQueue ι → LinkItemQueue ι) : Call κ ι ω Unit :=
  modify (Memory.withQueue o f)

/-- What a pointer points to. -/
def deref (p : Option ι) : Call κ ι ω (ι × LinkItem ι ω) := do
  match p with
  | none => throw .invalidPointer
  | some p =>
    match (← get).linkItems p with
    | none => throw .invalidPointer
    | some c => pure (p, c)

/-- Change a link item. -/
def Memory.write (p : ι) (c : Option (LinkItem ι ω)) (m : Memory κ ι ω) : Memory κ ι ω :=
  { m with linkItems := Function.update m.linkItems p c }

/-- Write a link item. -/
def store (p : ι) (c : Option (LinkItem ι ω)) : Call κ ι ω Unit := modify (Memory.write p c)

/-- `p->m_pPrevious = q`. -/
def setPrevious (p q : Option ι) : Call κ ι ω Unit := do
  let (p, c) ← deref p
  store p (some { c with previous := q })

/-- `p->m_pNext = q`. -/
def setNext (p q : Option ι) : Call κ ι ω Unit := do
  let (p, c) ← deref p
  store p (some { c with next := q })

/-- `p->m_pItem = x`. -/
def setItem (p : Option ι) (x : Option ω) : Call κ ι ω Unit := do
  let (p, c) ← deref p
  store p (some { c with item := x })

/-- `new CLinkItem`. -/
def newLinkItem (a : Allocator ι ω) : Call κ ι ω ι := do
  match a.new (← get).linkItems with
  | none => throw .badAlloc
  | some p =>
    store p (some ⟨none, none, none⟩)
    pure p

/-- `delete` of a link item. -/
def deleteLinkItem (p : ι) : Call κ ι ω Unit := do
  let (p, _) ← deref (some p)
  store p none

/-- `delete` of an object; that of null does nothing. -/
def deleteObject (x : Option ω) : Call κ ι ω Unit :=
  modify fun m ↦ { m with deleted := m.deleted ++ x.toList }

/-! ### Queues and caches -/

/-- A link item is linked behind the tail. -/
def linkAtTail (o : Owner κ) (p : ι) : Call κ ι ω Unit := do
  let q := (← get).queues o
  if q.head = none ∧ q.tail = none then
    modifyQueue o fun q ↦ { q with head := some p, tail := some p }
    setPrevious (some p) none
    setNext (some p) none
  else
    setNext q.tail (some p)
    setPrevious (some p) q.tail
    setNext (some p) none
    modifyQueue o fun q ↦ { q with tail := some p }

/-- `RawEnqueue`, `examples/Externals/CiUtils/Src/LinkedListTemplate.h:174–189`. -/
def rawEnqueue (l : κ) (p : ι) : Call κ ι ω Unit := linkAtTail (.cache l) p

/-- `RawDequeue`, `examples/Externals/CiUtils/Src/LinkedListTemplate.h:192–212`. -/
def rawDequeue (l : κ) : Call κ ι ω (Option ι) := do
  let q := (← get).queues (.cache l)
  if q.head = none then pure none
  else
    if q.head = q.tail then
      modifyQueue (.cache l) fun q ↦ { q with head := none, tail := none }
    else
      let (_, c) ← deref q.head
      modifyQueue (.cache l) fun q ↦ { q with head := c.next }
      setPrevious c.next none
    pure q.head

/-- `SafeReleaseLinkItem` of a pointer that is not null,
`examples/Externals/CiUtils/Src/LinkedListTemplate.h:249–267`. -/
def safeReleaseLinkItem (l : κ) (p : ι) : Call κ ι ω Unit := do
  let m ← get
  if m.cacheSize l ≤ (m.queues (.cache l)).nItems then deleteLinkItem p
  else
    rawEnqueue l p
    modifyQueue (.cache l) fun q ↦ { q with nItems := q.nItems + 1 }

/-- `SafeAllocLinkItem`, `examples/Externals/CiUtils/Src/LinkedListTemplate.h:269–285`. -/
def safeAllocLinkItem (a : Allocator ι ω) (l : κ) : Call κ ι ω ι := do
  match ← rawDequeue l with
  | none => newLinkItem a
  | some p =>
    modifyQueue (.cache l) fun q ↦ { q with nItems := q.nItems - 1 }
    pure p

/-! ### Links of a list -/

/-- `Link` of a pointer that is not null,
`examples/Externals/CiUtils/Src/LinkedListTemplate.h:343–364`. -/
def link (l : κ) (p : ι) : Call κ ι ω Bool := do
  linkAtTail (.list l) p
  modifyQueue (.list l) fun q ↦ { q with nItems := q.nItems + 1 }
  pure true

/-- The links around a link item of a list with more than one are closed. -/
def bypass (l : κ) (p : ι) : Call κ ι ω Unit := do
  let q := (← get).queues (.list l)
  if q.head = some p then
    let (_, c) ← deref q.head
    setNext q.head none
    setPrevious c.next none
    modifyQueue (.list l) fun q ↦ { q with head := c.next }
  else if q.tail = some p then
    let (_, c) ← deref q.tail
    setPrevious q.tail none
    setNext c.previous none
    modifyQueue (.list l) fun q ↦ { q with tail := c.previous }
  else
    let (_, c) ← deref (some p)
    setNext c.previous c.next
    let (_, c) ← deref (some p)
    setPrevious c.next c.previous

/-- The list is left by its only link item, or by one of several. -/
def takeOut (l : κ) (p : ι) : Call κ ι ω Unit := do
  let q := (← get).queues (.list l)
  if q.head = q.tail then modifyQueue (.list l) fun q ↦ { q with head := none, tail := none }
  else bypass l p

/-- `Unlink`, `examples/Externals/CiUtils/Src/LinkedListTemplate.h:367–418`. -/
def unlink (l : κ) (p : Option ι) : Call κ ι ω Bool := do
  let q := (← get).queues (.list l)
  match p with
  | none => pure false
  | some p =>
    if q.head = none ∨ q.tail = none then pure false
    else if q.head = q.tail ∧ q.head ≠ some p then pure false
    else
      takeOut l p
      safeReleaseLinkItem l p
      modifyQueue (.list l) fun q ↦ { q with nItems := q.nItems - 1 }
      pure true

/-- Go along the list until an item passes a test. -/
def findFrom (test : Option ω → Bool) : Nat → Option ι → Call κ ι ω (Option ι)
  | _, none => pure none
  | 0, some _ => throw .endless
  | turns + 1, some p => do
    let (_, c) ← deref (some p)
    if test c.item then pure (some p) else findFrom test turns c.next

/-- How long the chain of a list may be, by its count. -/
def Memory.turns (m : Memory κ ι ω) (l : κ) : Nat := (m.queues (.list l)).nItems.toNat

/-- `FindLinkItemFromID`, `examples/Externals/CiUtils/Src/LinkedListTemplate.h:421–432`. -/
def findLinkItemFromID (v : Overridables ω) (l : κ) (ulID : Nat) : Call κ ι ω (Option ι) := do
  let m ← get
  findFrom (fun x ↦ v.isIDEqual (v.getIDOf x) ulID) (m.turns l) (m.queues (.list l)).head

/-! ### Public functions -/

/-- Go along the list to an object, counting. -/
def indexFrom [DecidableEq ω] (x : Option ω) : Nat → Int → Option ι → Call κ ι ω Int
  | _, _, none => pure (-1)
  | 0, _, some _ => throw .endless
  | turns + 1, iIndex, some p => do
    let (_, c) ← deref (some p)
    if c.item = x then pure iIndex else indexFrom x turns (iIndex + 1) c.next

/-- `FindIndex`, `examples/Externals/CiUtils/Src/LinkedListTemplate.h:447–465`. -/
def findIndex [DecidableEq ω] (l : κ) (x : Option ω) : Call κ ι ω Int := do
  let m ← get
  indexFrom x (m.turns l) 0 (m.queues (.list l)).head

/-- `FindItemFromID`, `examples/Externals/CiUtils/Src/LinkedListTemplate.h:468–476`. -/
def findItemFromID (v : Overridables ω) (l : κ) (ulID : Nat) : Call κ ι ω (Option ω) := do
  match ← findLinkItemFromID v l ulID with
  | none => pure none
  | some p =>
    let (_, c) ← deref (some p)
    pure c.item

/-- Go along so many links of a list. -/
def advance : Nat → Option ι → Call κ ι ω (Option (Option ι))
  | 0, p => pure (some p)
  | _ + 1, none => pure none
  | i + 1, some p => do
    let (_, c) ← deref (some p)
    advance i c.next

/-- `GetItem`, `examples/Externals/CiUtils/Src/LinkedListTemplate.h:479–503`. The result for a
negative index is never written. -/
def getItem (l : κ) (iIndex : Int) : Call κ ι ω (Option ω) := do
  let q := (← get).queues (.list l)
  if q.nItems ≤ iIndex then pure none
  else if iIndex < 0 then throw .uninitialisedRead
  else
    match ← advance iIndex.toNat q.head with
    | none => pure none
    | some p =>
      let (_, c) ← deref p
      pure c.item

/-- The rest of `AddItem`: a link item is allocated for the object, and linked. -/
def addNew (a : Allocator ι ω) (l : κ) (x : Option ω) : Call κ ι ω Bool := do
  let p ← safeAllocLinkItem a l
  setItem (some p) x
  link l p

/-- `AddItem`, `examples/Externals/CiUtils/Src/LinkedListTemplate.h:512–533`. -/
def addItem (v : Overridables ω) (a : Allocator ι ω) (l : κ) (x : Option ω) :
    Call κ ι ω Bool := do
  match ← findLinkItemFromID v l (v.getIDOf x) with
  | some _ => pure false
  | none => addNew a l x

/-- The link item goes, and the object with it unless it is to be preserved. -/
def deleteLinked (l : κ) (x : Option ω) (p : Option ι) (bPreserve : Bool) : Call κ ι ω Bool := do
  match p with
  | none => pure false
  | some p =>
    let bResult ← unlink l (some p)
    if bResult = true ∧ bPreserve = false then deleteObject x
    pure bResult

/-- `DeleteItem`, `examples/Externals/CiUtils/Src/LinkedListTemplate.h:535–553`. -/
def deleteItem (v : Overridables ω) (l : κ) (x : Option ω) (bPreserve : Bool) :
    Call κ ι ω Bool := do
  let p ← findLinkItemFromID v l (v.getIDOf x)
  deleteLinked l x p bPreserve

/-- `DeleteItem` at a position, `examples/Externals/CiUtils/Src/LinkedListTemplate.h:559–577`. -/
def deleteItemAt (l : κ) (x : Option ω) (ulPosition : Option ι) (bPreserve : Bool) :
    Call κ ι ω Bool :=
  deleteLinked l x ulPosition bPreserve

/-- `ModifyItem`, `examples/Externals/CiUtils/Src/LinkedListTemplate.h:579–597`. -/
def modifyItem (v : Overridables ω) (l : κ) (before after : Option ω) (bPreserve : Bool) :
    Call κ ι ω Bool := do
  match ← findLinkItemFromID v l (v.getIDOf before) with
  | none => pure false
  | some p =>
    setItem (some p) after
    if bPreserve = false then deleteObject before
    pure true

/-- The loop of `Clean`. -/
def cleanFrom (l : κ) (bPreserve : Bool) : Nat → Option ι → Call κ ι ω Unit
  | _, none => pure ()
  | 0, some _ => throw .endless
  | turns + 1, some p => do
    let (_, c) ← deref (some p)
    if bPreserve = false then deleteObject c.item
    safeReleaseLinkItem l p
    cleanFrom l bPreserve turns c.next

/-- `Clean`, `examples/Externals/CiUtils/Src/LinkedListTemplate.h:600–620`. -/
def clean (l : κ) (bPreserve : Bool) : Call κ ι ω Bool := do
  let m ← get
  cleanFrom l bPreserve (m.turns l) (m.queues (.list l)).head
  modifyQueue (.list l) fun _ ↦ .empty
  pure true

/-! ### Traversal -/

/-- `GotoNextPosition`, `examples/Externals/CiUtils/Src/LinkedListTemplate.h:696–704`. -/
def gotoNextPosition (ulPosition : Option ι) : Call κ ι ω (Option ι) := do
  match ulPosition with
  | none => pure none
  | some p =>
    let (_, c) ← deref (some p)
    pure c.next

/-- `GetCurrentItem`, `examples/Externals/CiUtils/Src/LinkedListTemplate.h:716–725`. -/
def getCurrentItem (ulPosition : Option ι) : Call κ ι ω (Option ω) := do
  match ulPosition with
  | none => pure none
  | some p =>
    let (_, c) ← deref (some p)
    pure c.item

/-- The loop of `TRAVERSELIST`; its body returns false where it leaves the loop. The position
after the current one is read before the body runs. -/
def traverseFrom (body : Option ι → Call κ ι ω Bool) :
    Nat → Option ι → Option ι → Call κ ι ω Bool
  | _, none, _ => pure true
  | 0, some _, _ => throw .endless
  | turns + 1, some p, ulPositionNext => do
    if ← body (some p) then
      traverseFrom body turns ulPositionNext (← gotoNextPosition ulPositionNext)
    else pure false

/-- `TRAVERSELIST`, `examples/Externals/CiUtils/Src/LinkedListTemplate.h:624–629,680–689`, for so
many turns at most. -/
def traverseList (l : κ) (turns : Nat) (body : Option ι → Call κ ι ω Bool) : Call κ ι ω Bool := do
  let head := (← get).queues (.list l) |>.head
  let ulPositionNext ← gotoNextPosition head
  traverseFrom body turns head ulPositionNext

/-- The body of the loop of `Concatenation`. -/
def moveItem (v : Overridables ω) (a : Allocator ι ω) (l src : κ) (ulPosition : Option ι) :
    Call κ ι ω Bool := do
  let x ← getCurrentItem ulPosition
  if x.isNone then pure true
  else if (← deleteItem v src x true) = false then pure false
  else addItem v a l x

/-- `Concatenation`, `examples/Externals/CiUtils/Src/LinkedListTemplate.h:642–668`. -/
def concatenation (v : Overridables ω) (a : Allocator ι ω) (l src : κ) : Call κ ι ω Bool := do
  let m ← get
  traverseList src (m.turns src) (moveItem v a l src)

/-- `SafeAddItem` and the like, from a function and how its lock and its unlock return,
`examples/Externals/CiUtils/Src/LinkedListTemplate.h:826–909`. -/
def safely (lock unlock : Bool) (x : Call κ ι ω Bool) : Call κ ι ω Bool := do
  if lock = false then pure false
  else
    let bResult ← x
    if unlock = false then pure false else pure bResult

/-! ### Destruction -/

/-- The destructor of a queue. -/
def destructFrom : Nat → Option ι → Call κ ι ω Unit
  | _, none => pure ()
  | 0, some _ => throw .endless
  | turns + 1, some p => do
    let (_, c) ← deref (some p)
    deleteLinkItem p
    destructFrom turns c.next

/-- `~CLinkedListTemplate` with the destructor of its cache, and a new list in its place,
`examples/Externals/CiUtils/Src/LinkedListTemplate.h:44–52,245–247,327–330`. -/
def renew (l : κ) (iCacheSize : Int) : Call κ ι ω Bool := do
  let _ ← clean l false
  let q := (← get).queues (.cache l)
  destructFrom q.nItems.toNat q.head
  modify fun m ↦ { m with
    queues := Function.update m.queues (.cache l) .empty
    cacheSize := Function.update m.cacheSize l iCacheSize }
  pure true

end HeartbeatSpec.CiUtils
