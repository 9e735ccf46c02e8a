import HeartbeatSpec.CiUtils.Moves

/-!
# What the list functions do

Library `CiUtils`. The result of each function of `CLinkedListTemplate` on a memory that is in
order, and the memory in order that it leaves,
`examples/Externals/CiUtils/Src/LinkedListTemplate.h:249–285,343–620`.
-/

namespace HeartbeatSpec.CiUtils
open HeartbeatSpec.Base

variable {κ ι ω : Type} {m m' : Memory κ ι ω} {chains : Chains κ ι ω} {l : κ} {p : ι}

/-- The counts are right, and no cache is longer than its size. -/
structure Counted (m : Memory κ ι ω) (chains : Chains κ ι ω) : Prop where
  nItems : ∀ o, (m.queues o).nItems = (chains o).length
  cached : ∀ l, (chains (.cache l)).length ≤ (m.cacheSize l).toNat

/-- The memory is in order: it holds these chains and nothing else. -/
structure Holds (m : Memory κ ι ω) (chains : Chains κ ι ω) : Prop extends
  Represents m chains [], Counted m chains

/-- Two memories that differ in their chains and the cache of one list at most. -/
structure CacheChanged (l : κ) (m m' : Memory κ ι ω) : Prop where
  nItems : ∀ o, o ≠ .cache l → (m'.queues o).nItems = (m.queues o).nItems
  cacheSize : m'.cacheSize = m.cacheSize
  deleted : m'.deleted = m.deleted

theorem Unchanged.cacheChanged (h : Unchanged m m') (l : κ) : CacheChanged l m m' :=
  ⟨fun o _ ↦ h.nItems o, h.cacheSize, h.deleted⟩

theorem CacheChanged.withCount [DecidableEq κ] (l : κ) (n : Int → Int) (m : Memory κ ι ω) :
    CacheChanged l m (m.withQueue (.cache l) fun q ↦ { q with nItems := n q.nItems }) where
  nItems o ho := by rw [queues_withQueue, Function.update_of_ne ho]
  cacheSize := rfl
  deleted := rfl

theorem CacheChanged.trans {m'' : Memory κ ι ω} (h : CacheChanged l m m')
    (h' : CacheChanged l m' m'') : CacheChanged l m m'' where
  nItems o ho := (h'.nItems o ho).trans (h.nItems o ho)
  cacheSize := h'.cacheSize.trans h.cacheSize
  deleted := h'.deleted.trans h.deleted

/-! ### Going along a list -/

/-- The search of a chain finds its first entry that passes the test. -/
theorem run_findFrom {before : Option ι} {es : List (Entry ι (Option ω))}
    (h : Linked m.linkItems before none es) (test : Option ω → Bool) {turns : Nat}
    (hturns : es.length ≤ turns) :
    (findFrom test turns (firstOr none es)).run m =
      .ok ((es.find? fun e ↦ test e.2).map Prod.fst) m := by
  induction es generalizing before turns with
  | nil => cases turns <;> rfl
  | cons e es ih =>
    cases turns with
    | zero => cases hturns
    | succ turns =>
      rw [firstOr, findFrom, EStateM.run_bind, run_deref h.1]
      dsimp only
      rw [List.find?_cons]
      cases htest : test e.2 with
      | true => rfl
      | false => exact ih h.2 (Nat.le_of_succ_le_succ hturns)

/-- Two items have IDs that are equal. -/
def Overridables.same (v : Overridables ω) (x y : Option ω) : Bool :=
  v.isIDEqual (v.getIDOf x) (v.getIDOf y)

theorem run_findLinkItemFromID (h : Holds m chains) (v : Overridables ω) (l : κ)
    (x : Option ω) :
    (findLinkItemFromID v l (v.getIDOf x)).run m =
      .ok (((chains (.list l)).find? fun e ↦ v.same e.2 x).map Prod.fst) m := by
  have hturns : (chains (.list l)).length ≤ m.turns l := by
    rw [Memory.turns, h.nItems]
    exact Nat.le_refl _
  rw [findLinkItemFromID, EStateM.run_bind, EStateM.run_get]
  dsimp only
  rw [h.head]
  exact run_findFrom (h.linked _) _ hturns

section Effects

variable [DecidableEq κ] [DecidableEq ι]

/-! ### Caches -/

/-- A link item in no chain goes to the cache, or is deleted. -/
theorem run_safeReleaseLinkItem {loose : List ι} (h : Represents m chains (p :: loose)) (l : κ)
    (hcount : (m.queues (.cache l)).nItems = (chains (.cache l)).length)
    (hcached : (chains (.cache l)).length ≤ (m.cacheSize l).toNat) :
    ∃ m' es, (safeReleaseLinkItem l p).run m = .ok () m' ∧ CacheChanged l m m' ∧
      Represents m' (Function.update chains (.cache l) es) loose ∧
      (m'.queues (.cache l)).nItems = es.length ∧ es.length ≤ (m.cacheSize l).toNat ∧
      ∀ q ∈ loose, m'.linkItems q = m.linkItems q := by
  have hother (q : ι) (hq : q ∈ loose) : q ≠ p := by
    rintro rfl
    exact (List.nodup_cons.mp h.distinct).1 hq
  rw [safeReleaseLinkItem, EStateM.run_bind, EStateM.run_get]
  dsimp only
  by_cases hfull : m.cacheSize l ≤ (m.queues (.cache l)).nItems
  · obtain ⟨hrun, hrepr⟩ := run_deleteLinkItem_loose h
    rw [if_pos hfull, hrun]
    refine ⟨_, chains (.cache l), rfl, (Unchanged.write _ _ m).cacheChanged l, ?_, hcount, hcached,
      fun q hq ↦ ?_⟩
    · rw [Function.update_eq_self]
      exact hrepr
    · exact Function.update_of_ne (hother q hq) _ _
  · obtain ⟨c, hp⟩ := h.loose_cell
    obtain ⟨m₁, hrun, hsame, hrepr, hframe⟩ := run_linkAtTail h hp (.cache l)
    rw [if_neg hfull, EStateM.run_bind, rawEnqueue, hrun]
    dsimp only
    rw [run_modifyQueue]
    refine ⟨_, _, rfl, (hsame.cacheChanged l).trans (.withCount _ (· + 1) _),
      hrepr.withCount _ (· + 1), ?_, ?_, fun q hq ↦ ?_⟩
    · rw [queues_withQueue, Function.update_self, hsame.nItems, hcount, List.length_append]
      rfl
    · rw [List.length_append, List.length_singleton]
      omega
    · exact hframe q (hother q hq) (h.outside q (List.mem_cons_of_mem p hq) _)

/-- A link item comes from the cache, or is new. -/
theorem run_safeAllocLinkItem (h : Holds m chains) (a : Allocator ι ω) (l : κ) :
    (safeAllocLinkItem a l).run m = .error .badAlloc m ∨
      ∃ p m' es, (safeAllocLinkItem a l).run m = .ok p m' ∧ CacheChanged l m m' ∧
        Represents m' (Function.update chains (.cache l) es) [p] ∧
        (m'.queues (.cache l)).nItems = es.length ∧ es.length ≤ (m.cacheSize l).toNat := by
  have hcount := h.nItems (.cache l)
  have hcached := h.cached l
  rw [safeAllocLinkItem, EStateM.run_bind]
  cases hc : chains (.cache l) with
  | nil =>
    rw [run_rawDequeue_nil h.toRepresents hc]
    dsimp only
    rw [hc] at hcount
    rcases run_newLinkItem h.toRepresents a with hrun | ⟨p, hrun, hrepr⟩
    · exact Or.inl hrun
    · refine Or.inr ⟨p, _, [], hrun, (Unchanged.write _ _ m).cacheChanged l, ?_, hcount,
        Nat.zero_le _⟩
      rw [← hc, Function.update_eq_self]
      exact hrepr
  | cons e es =>
    obtain ⟨m₁, hrun, hsame, hrepr⟩ := run_rawDequeue_cons h.toRepresents hc
    rw [hrun]
    dsimp only
    rw [hc, List.length_cons] at hcount hcached
    refine Or.inr ⟨e.1, _, es, rfl, (hsame.cacheChanged l).trans (.withCount _ (· - 1) _),
      hrepr.withCount _ (· - 1), ?_, by omega⟩
    rw [queues_withQueue, Function.update_self]
    dsimp only
    rw [hsame.nItems, hcount, Int.natCast_succ]
    omega

/-! ### Changes of a list -/

omit [DecidableEq ι] in
/-- The chain of a list and that of its cache are changed, with their counts. -/
theorem Counted.of_changed (h : Counted m chains) {chains' : Chains κ ι ω}
    (hchains : ∀ o, o ≠ .list l → o ≠ .cache l → chains' o = chains o)
    (hnItems : ∀ o, o ≠ .list l → o ≠ .cache l → (m'.queues o).nItems = (m.queues o).nItems)
    (hsize : m'.cacheSize = m.cacheSize)
    (hlist : (m'.queues (.list l)).nItems = (chains' (.list l)).length)
    (hcache : (m'.queues (.cache l)).nItems = (chains' (.cache l)).length)
    (hcached : (chains' (.cache l)).length ≤ (m.cacheSize l).toNat) : Counted m' chains' := by
  constructor
  · intro o
    by_cases ho : o = .list l
    · rw [ho, hlist]
    · by_cases ho' : o = .cache l
      · rw [ho', hcache]
      · rw [hnItems o ho ho', hchains o ho ho', h.nItems]
  · intro l'
    rw [hsize]
    by_cases hl : l' = l
    · rw [hl]
      exact hcached
    · have hne : Owner.cache l' ≠ .cache l := by simpa using hl
      rw [hchains _ (by simp) hne]
      exact h.cached l'

/-- The chains of the lists. -/
def listed (chains : Chains κ ι ω) (l : κ) : List (Entry ι (Option ω)) := chains (.list l)

/-- After a call on the list `l` the memory is in order, with `es` in the list and all others as
they were. -/
structure Changed (l : κ) (m m' : Memory κ ι ω) (chains chains' : Chains κ ι ω)
    (es : List (Entry ι (Option ω))) : Prop where
  holds : Holds m' chains'
  listed_eq : listed chains' = Function.update (listed chains) l es
  cacheSize : m'.cacheSize = m.cacheSize

/-- A new entry is linked, or `new` throws. -/
theorem run_addNew (h : Holds m chains) (a : Allocator ι ω) (l : κ) (x : Option ω) :
    (addNew a l x).run m = .error .badAlloc m ∨
      ∃ p m' chains', (addNew a l x).run m = .ok true m' ∧
        (∀ l', p ∉ addresses (chains (.list l'))) ∧ m'.deleted = m.deleted ∧
        Changed l m m' chains chains' (chains (.list l) ++ [(p, x)]) := by
  rcases run_safeAllocLinkItem h a l with hrun | ⟨p, m₁, es, hrun, hcache, hrepr, hcount, hlength⟩
  · left
    rw [addNew, EStateM.run_bind, hrun]
  · right
    obtain ⟨c, hp⟩ := hrepr.loose_cell
    obtain ⟨hset, hrepr₂⟩ := run_setItem_loose hrepr hp x
    obtain ⟨m₃, hlink, hsame, hrepr₃, -⟩ :=
      run_linkAtTail (c := { c with item := x }) hrepr₂ (Function.update_self ..) (.list l)
    have hne : Owner.list l ≠ .cache l := by simp
    refine ⟨p, m₃.withQueue (.list l) fun q ↦ { q with nItems := q.nItems + 1 }, _, ?_, ?_, ?_,
      ⟨⟨hrepr₃.withCount _ (· + 1), ?_⟩, ?_, ?_⟩⟩
    · rw [addNew, EStateM.run_bind, hrun]
      dsimp only
      rw [EStateM.run_bind, hset]
      dsimp only
      rw [link, EStateM.run_bind, hlink]
      rfl
    · intro l'
      have hout := hrepr.outside p List.mem_cons_self (.list l')
      rwa [Function.update_of_ne (by simp)] at hout
    · exact hsame.deleted.trans hcache.deleted
    · refine h.toCounted.of_changed (l := l) (fun o ho ho' ↦ ?_) (fun o ho ho' ↦ ?_) ?_ ?_ ?_ ?_
      · rw [Function.update_of_ne ho, Function.update_of_ne ho']
      · rw [queues_withQueue, Function.update_of_ne ho, hsame.nItems, queues_write,
          hcache.nItems o ho']
      · exact hsame.cacheSize.trans hcache.cacheSize
      · rw [queues_withQueue, Function.update_self, Function.update_self, hsame.nItems,
          queues_write, hcache.nItems _ hne, h.nItems, Function.update_of_ne hne,
          List.length_append]
        rfl
      · rw [queues_withQueue, Function.update_of_ne hne.symm, Function.update_of_ne hne.symm,
          hsame.nItems, queues_write, hcount, Function.update_self]
      · rw [Function.update_of_ne hne.symm, Function.update_self]
        exact hlength
    · funext l'
      by_cases hl : l' = l
      · rw [listed, hl, Function.update_self, Function.update_self, Function.update_of_ne hne]
      · have hne' : Owner.list l' ≠ .list l := by simpa using hl
        rw [listed, Function.update_of_ne hne', Function.update_of_ne (by simp),
          Function.update_of_ne hl, listed]
    · exact hsame.cacheSize.trans hcache.cacheSize

/-- An entry's link item is taken out of its list. -/
theorem run_takeOut (h : Represents m chains []) {e : Entry ι (Option ω)}
    {es es' : List (Entry ι (Option ω))} (hc : chains (.list l) = es ++ e :: es') :
    ∃ m', (takeOut l e.1).run m = .ok () m' ∧ Unchanged m m' ∧
      Represents m' (Function.update chains (.list l) (es ++ es')) [e.1] := by
  rw [takeOut, EStateM.run_bind, EStateM.run_get]
  dsimp only
  by_cases hone : es ++ es' = []
  · obtain ⟨rfl, rfl⟩ := List.append_eq_nil_iff.mp hone
    rw [if_pos ((h.head_eq_tail_iff hc).mpr rfl), run_modifyQueue]
    refine ⟨_, rfl, .withQueue (fun _ ↦ by rfl) m, h.detach [] [] hc ?_ ?_ ?_ ?_ ?_ ?_⟩
    · simp
    · intro o' ho
      simp [ho]
    · simp
    · simp [firstOr]
    · simp [lastOr]
    · simp
  · have hmany : ¬(m.queues (.list l)).head = (m.queues (.list l)).tail := by
      cases es with
      | nil =>
        rw [h.head_eq_tail_iff hc]
        simpa using hone
      | cons e' es =>
        rw [h.head_eq_tail_iff hc]
        simp
    rw [if_neg hmany]
    exact run_bypass h hc hone

/-- It goes to the cache or is deleted. -/
theorem run_unlink (h : Holds m chains) {e : Entry ι (Option ω)}
    {es es' : List (Entry ι (Option ω))} (hc : chains (.list l) = es ++ e :: es') :
    ∃ m' chains', (unlink l (some e.1)).run m = .ok true m' ∧ m'.deleted = m.deleted ∧
      Changed l m m' chains chains' (es ++ es') := by
  have hne : Owner.list l ≠ .cache l := by simp
  have hcount := h.nItems (.list l)
  have hhead : ¬(m.queues (.list l)).head = none := by
    rw [h.head_eq_none_iff, hc]
    simp
  have htail : ¬(m.queues (.list l)).tail = none := by
    rw [h.tail_eq_none_iff, hc]
    simp
  obtain ⟨m₁, hrun, hsame, hrepr⟩ := run_takeOut h.toRepresents hc
  have hvalid : ¬((m.queues (.list l)).head = (m.queues (.list l)).tail ∧
      (m.queues (.list l)).head ≠ some e.1) := by
    rintro ⟨hone, hother⟩
    apply hother
    rw [h.head, hc]
    cases es with
    | nil => rfl
    | cons e' es =>
      rw [h.head_eq_tail_iff hc] at hone
      simp at hone
  have hcache₁ : (m₁.queues (.cache l)).nItems =
      (Function.update chains (.list l) (es ++ es') (.cache l)).length := by
    rw [hsame.nItems, h.nItems, Function.update_of_ne hne.symm]
  obtain ⟨m₂, cached, hrelease, hcache, hrepr₂, hcount₂, hlength, -⟩ :=
    run_safeReleaseLinkItem hrepr l hcache₁ (by
      rw [hsame.cacheSize, Function.update_of_ne hne.symm]
      exact h.cached l)
  refine ⟨m₂.withQueue (.list l) fun q ↦ { q with nItems := q.nItems - 1 }, _, ?_, ?_,
    ⟨⟨hrepr₂.withCount _ (· - 1), ?_⟩, ?_, ?_⟩⟩
  · rw [unlink, EStateM.run_bind, EStateM.run_get]
    dsimp only
    rw [if_neg (not_or.mpr ⟨hhead, htail⟩), if_neg hvalid, EStateM.run_bind, hrun]
    dsimp only
    rw [EStateM.run_bind, hrelease]
    rfl
  · exact hcache.deleted.trans hsame.deleted
  · refine h.toCounted.of_changed (l := l) (fun o ho ho' ↦ ?_) (fun o ho ho' ↦ ?_) ?_ ?_ ?_ ?_
    · rw [Function.update_of_ne ho', Function.update_of_ne ho]
    · rw [queues_withQueue, Function.update_of_ne ho, hcache.nItems o ho', hsame.nItems]
    · exact hcache.cacheSize.trans hsame.cacheSize
    · rw [queues_withQueue, Function.update_self, hcache.nItems _ hne, hsame.nItems, hcount, hc,
        Function.update_of_ne hne, Function.update_self, List.length_append, List.length_append,
        List.length_cons]
      dsimp only
      omega
    · rw [queues_withQueue, Function.update_of_ne hne.symm, hcount₂, Function.update_self]
    · rw [Function.update_self, ← hsame.cacheSize]
      exact hlength
  · funext l'
    by_cases hl : l' = l
    · rw [listed, hl, Function.update_of_ne hne, Function.update_self, Function.update_self]
    · have hne' : Owner.list l' ≠ .list l := by simpa using hl
      rw [listed, Function.update_of_ne (by simp), Function.update_of_ne hne',
        Function.update_of_ne hl, listed]
  · exact hcache.cacheSize.trans hsame.cacheSize

/-- The object of an entry is replaced. -/
theorem run_setItem_listed (h : Holds m chains) {e : Entry ι (Option ω)}
    {es es' : List (Entry ι (Option ω))} (hc : chains (.list l) = es ++ e :: es') (x : Option ω) :
    ∃ m' chains', (setItem (some e.1) x).run m = .ok () m' ∧ m'.deleted = m.deleted ∧
      Changed l m m' chains chains' (es ++ (e.1, x) :: es') := by
  obtain ⟨m', hrun, hsame, hrepr⟩ := run_setItem_entry h.toRepresents hc x
  refine ⟨m', _, hrun, hsame.deleted, ⟨⟨hrepr, ⟨fun o ↦ ?_, fun l' ↦ ?_⟩⟩, ?_, hsame.cacheSize⟩⟩
  · rw [hsame.nItems, h.nItems]
    by_cases ho : o = .list l
    · rw [ho, Function.update_self, hc, List.length_append, List.length_append]
      rfl
    · rw [Function.update_of_ne ho]
  · rw [Function.update_of_ne (by simp), hsame.cacheSize]
    exact h.cached l'
  · funext l'
    by_cases hl : l' = l
    · rw [listed, hl, Function.update_self, Function.update_self]
    · have hne : Owner.list l' ≠ .list l := by simpa using hl
      rw [listed, Function.update_of_ne hne, Function.update_of_ne hl, listed]

end Effects

end HeartbeatSpec.CiUtils
