import Mathlib.Data.List.Nodup
import HeartbeatSpec.CiUtils.LinkedList

/-!
# Who owns which link item

Library `CiUtils`. Every allocated link item is in one chain, of a list or of a cache, but for some
that are on their way from one to another. What changes one chain leaves all others as they are.
-/

namespace HeartbeatSpec.CiUtils
open HeartbeatSpec.Base

variable {κ ι ω : Type}

/-- The chains of all owners. -/
abbrev Chains (κ ι ω : Type) := Owner κ → List (Entry ι (Option ω))

/-- The memory holds these chains and nothing else, but for link items in no chain. -/
structure Represents (m : Memory κ ι ω) (chains : Chains κ ι ω) (loose : List ι) : Prop where
  linked : ∀ o, Linked m.linkItems none none (chains o)
  nodup : ∀ o, (addresses (chains o)).Nodup
  disjoint : ∀ o o', o ≠ o' → ∀ p ∈ addresses (chains o), p ∉ addresses (chains o')
  distinct : loose.Nodup
  outside : ∀ p ∈ loose, ∀ o, p ∉ addresses (chains o)
  isSome_iff : ∀ p, (m.linkItems p).isSome ↔ p ∈ loose ∨ ∃ o, p ∈ addresses (chains o)
  head : ∀ o, (m.queues o).head = firstOr none (chains o)
  tail : ∀ o, (m.queues o).tail = lastOr none (chains o)

/-- What moving link items about leaves alone. -/
structure Unchanged (m m' : Memory κ ι ω) : Prop where
  nItems : ∀ o, (m'.queues o).nItems = (m.queues o).nItems
  cacheSize : m'.cacheSize = m.cacheSize
  deleted : m'.deleted = m.deleted

theorem Unchanged.refl (m : Memory κ ι ω) : Unchanged m m := ⟨fun _ ↦ rfl, rfl, rfl⟩

theorem Unchanged.trans {m m' m'' : Memory κ ι ω} (h : Unchanged m m') (h' : Unchanged m' m'') :
    Unchanged m m'' where
  nItems o := (h'.nItems o).trans (h.nItems o)
  cacheSize := h'.cacheSize.trans h.cacheSize
  deleted := h'.deleted.trans h.deleted

/-! ### Single accesses -/

section Access

variable {m : Memory κ ι ω} {p : ι} {c : LinkItem ι ω}

@[simp] theorem linkItems_write [DecidableEq ι] (p : ι) (c : Option (LinkItem ι ω))
    (m : Memory κ ι ω) : (m.write p c).linkItems = Function.update m.linkItems p c := rfl

@[simp] theorem queues_write [DecidableEq ι] (p : ι) (c : Option (LinkItem ι ω))
    (m : Memory κ ι ω) : (m.write p c).queues = m.queues := rfl

@[simp] theorem linkItems_withQueue [DecidableEq κ] (o : Owner κ)
    (f : LinkItemQueue ι → LinkItemQueue ι) (m : Memory κ ι ω) :
    (m.withQueue o f).linkItems = m.linkItems := rfl

@[simp] theorem queues_withQueue [DecidableEq κ] (o : Owner κ)
    (f : LinkItemQueue ι → LinkItemQueue ι) (m : Memory κ ι ω) :
    (m.withQueue o f).queues = Function.update m.queues o (f (m.queues o)) := rfl

theorem Unchanged.write [DecidableEq ι] (p : ι) (c : Option (LinkItem ι ω)) (m : Memory κ ι ω) :
    Unchanged m (m.write p c) := ⟨fun _ ↦ rfl, rfl, rfl⟩

theorem Unchanged.withQueue [DecidableEq κ] {o : Owner κ}
    {f : LinkItemQueue ι → LinkItemQueue ι} (hf : ∀ q, (f q).nItems = q.nItems) (m : Memory κ ι ω) :
    Unchanged m (m.withQueue o f) where
  nItems o' := by
    rw [queues_withQueue]
    by_cases ho : o' = o
    · rw [ho, Function.update_self, hf]
    · rw [Function.update_of_ne ho]
  cacheSize := rfl
  deleted := rfl

@[simp] theorem run_modifyQueue [DecidableEq κ] (o : Owner κ)
    (f : LinkItemQueue ι → LinkItemQueue ι) (m : Memory κ ι ω) :
    (modifyQueue o f).run m = .ok () (m.withQueue o f) := rfl

@[simp] theorem run_store [DecidableEq ι] (p : ι) (c : Option (LinkItem ι ω)) (m : Memory κ ι ω) :
    (store p c).run m = .ok () (m.write p c) := rfl

@[simp] theorem run_deleteObject (x : Option ω) (m : Memory κ ι ω) :
    (deleteObject x).run m = .ok () { m with deleted := m.deleted ++ x.toList } := rfl

/-- What an allocated link item is. -/
theorem run_deref (h : m.linkItems p = some c) : (deref (some p)).run m = .ok (p, c) m := by
  simp only [deref, EStateM.run_bind, EStateM.run_get, h]
  rfl

theorem run_setPrevious [DecidableEq ι] (h : m.linkItems p = some c) (q : Option ι) :
    (setPrevious (some p) q).run m = .ok () (m.write p (some { c with previous := q })) := by
  rw [setPrevious, EStateM.run_bind, run_deref h]
  rfl

theorem run_setNext [DecidableEq ι] (h : m.linkItems p = some c) (q : Option ι) :
    (setNext (some p) q).run m = .ok () (m.write p (some { c with next := q })) := by
  rw [setNext, EStateM.run_bind, run_deref h]
  rfl

theorem run_setItem [DecidableEq ι] (h : m.linkItems p = some c) (x : Option ω) :
    (setItem (some p) x).run m = .ok () (m.write p (some { c with item := x })) := by
  rw [setItem, EStateM.run_bind, run_deref h]
  rfl

theorem run_deleteLinkItem [DecidableEq ι] (h : m.linkItems p = some c) :
    (deleteLinkItem p).run m = .ok () (m.write p none) := by
  rw [deleteLinkItem, EStateM.run_bind, run_deref h]
  rfl

end Access

namespace Represents

variable {m m' : Memory κ ι ω} {chains : Chains κ ι ω} {loose loose' : List ι} {o : Owner κ}
  {es : List (Entry ι (Option ω))} {p : ι}

/-- One chain is changed, with the cells in it and in no chain. -/
theorem change [DecidableEq κ] (h : Represents m chains loose)
    (hother : ∀ p, p ∉ addresses (chains o) → p ∉ loose → m'.linkItems p = m.linkItems p)
    (hqueues : ∀ o', o' ≠ o → m'.queues o' = m.queues o')
    (hlinked : Linked m'.linkItems none none es) (hnodup : (addresses es).Nodup)
    (hhead : (m'.queues o).head = firstOr none es) (htail : (m'.queues o).tail = lastOr none es)
    (hdistinct : loose'.Nodup) (hloose : ∀ p ∈ loose', p ∉ addresses es)
    (hsame : ∀ p, p ∈ loose' ∨ p ∈ addresses es ↔ p ∈ loose ∨ p ∈ addresses (chains o))
    (hisSome : ∀ p, (m'.linkItems p).isSome = (m.linkItems p).isSome) :
    Represents m' (Function.update chains o es) loose' := by
  have hnot {o' : Owner κ} (ho : o' ≠ o) {p : ι} (hp : p ∈ addresses (chains o')) :
      p ∉ loose ∧ p ∉ addresses (chains o) :=
    ⟨fun hl ↦ h.outside p hl o' hp, h.disjoint o' o ho p hp⟩
  have hmoved {p : ι} (hp : p ∈ loose' ∨ p ∈ addresses es) {o' : Owner κ} (ho : o' ≠ o) :
      p ∉ addresses (chains o') := by
    intro hp'
    obtain ⟨hl, hc⟩ := hnot ho hp'
    rcases (hsame p).mp hp with hp | hp
    · exact hl hp
    · exact hc hp
  constructor
  · intro o'
    by_cases ho : o' = o
    · rw [ho, Function.update_self]
      exact hlinked
    · rw [Function.update_of_ne ho]
      refine (h.linked o').congr fun p hp ↦ ?_
      exact hother p (hnot ho hp).2 (hnot ho hp).1
  · intro o'
    by_cases ho : o' = o
    · rw [ho, Function.update_self]
      exact hnodup
    · rw [Function.update_of_ne ho]
      exact h.nodup o'
  · intro o₁ o₂ hne p hp
    by_cases h₁ : o₁ = o
    · rw [h₁, Function.update_self] at hp
      rw [Function.update_of_ne (fun h₂ ↦ hne (h₁.trans h₂.symm))]
      exact hmoved (Or.inr hp) fun h₂ ↦ hne (h₁.trans h₂.symm)
    · rw [Function.update_of_ne h₁] at hp
      by_cases h₂ : o₂ = o
      · rw [h₂, Function.update_self]
        exact fun hp' ↦ hmoved (Or.inr hp') h₁ hp
      · rw [Function.update_of_ne h₂]
        exact h.disjoint o₁ o₂ hne p hp
  · exact hdistinct
  · intro p hp o'
    by_cases ho : o' = o
    · rw [ho, Function.update_self]
      exact hloose p hp
    · rw [Function.update_of_ne ho]
      exact hmoved (Or.inl hp) ho
  · intro p
    rw [hisSome, h.isSome_iff]
    constructor
    · rintro (hp | ⟨o', hp⟩)
      · rcases (hsame p).mpr (Or.inl hp) with hp | hp
        · exact Or.inl hp
        · exact Or.inr ⟨o, by rwa [Function.update_self]⟩
      · by_cases ho : o' = o
        · rw [ho] at hp
          rcases (hsame p).mpr (Or.inr hp) with hp | hp
          · exact Or.inl hp
          · exact Or.inr ⟨o, by rwa [Function.update_self]⟩
        · exact Or.inr ⟨o', by rwa [Function.update_of_ne ho]⟩
    · rintro (hp | ⟨o', hp⟩)
      · exact ((hsame p).mp (Or.inl hp)).imp_right fun hp ↦ ⟨o, hp⟩
      · by_cases ho : o' = o
        · rw [ho, Function.update_self] at hp
          exact ((hsame p).mp (Or.inr hp)).imp_right fun hp ↦ ⟨o, hp⟩
        · rw [Function.update_of_ne ho] at hp
          exact Or.inr ⟨o', hp⟩
  · intro o'
    by_cases ho : o' = o
    · rw [ho, Function.update_self]
      exact hhead
    · rw [Function.update_of_ne ho, hqueues o' ho]
      exact h.head o'
  · intro o'
    by_cases ho : o' = o
    · rw [ho, Function.update_self]
      exact htail
    · rw [Function.update_of_ne ho, hqueues o' ho]
      exact h.tail o'

/-- A count is changed. -/
theorem withCount [DecidableEq κ] (h : Represents m chains loose) (o : Owner κ) (n : Int → Int) :
    Represents (m.withQueue o fun q ↦ { q with nItems := n q.nItems }) chains loose := by
  refine ⟨h.linked, h.nodup, h.disjoint, h.distinct, h.outside, h.isSome_iff, fun o' ↦ ?_,
    fun o' ↦ ?_⟩
  · rw [queues_withQueue, ← h.head]
    by_cases ho : o' = o
    · rw [ho, Function.update_self]
    · rw [Function.update_of_ne ho]
  · rw [queues_withQueue, ← h.tail]
    by_cases ho : o' = o
    · rw [ho, Function.update_self]
    · rw [Function.update_of_ne ho]

/-- The owner of an empty chain has neither head nor tail. -/
theorem head_eq_none_iff (h : Represents m chains loose) :
    (m.queues o).head = none ↔ chains o = [] := by
  rw [h.head]
  cases chains o <;> simp [firstOr]

theorem tail_eq_none_iff (h : Represents m chains loose) :
    (m.queues o).tail = none ↔ chains o = [] := by
  rw [h.tail]
  cases hc : chains o using List.reverseRecOn <;> simp [lastOr]

/-- The head is the tail exactly if it is the only one. -/
theorem head_eq_tail_iff (h : Represents m chains loose) {e : Entry ι (Option ω)}
    (hc : chains o = e :: es) : (m.queues o).head = (m.queues o).tail ↔ es = [] := by
  have hnodup := h.nodup o
  rw [h.head, h.tail, hc]
  rw [hc] at hnodup
  cases es using List.reverseRecOn with
  | nil => simp [firstOr, lastOr]
  | append_singleton es e' _ =>
    simp only [firstOr, lastOr, lastOr_append, Option.some.injEq]
    constructor
    · intro heq
      rw [addresses_cons, List.nodup_cons, heq] at hnodup
      simp at hnodup
    · intro hnil
      simp at hnil

/-- An entry is in its chain once. -/
theorem notMem_of_split (h : Represents m chains loose) (es : List (Entry ι (Option ω)))
    {es' : List (Entry ι (Option ω))} {e : Entry ι (Option ω)} (hc : chains o = es ++ e :: es') :
    e.1 ∉ addresses es ∧ e.1 ∉ addresses es' := by
  have hnodup := h.nodup o
  rw [hc, addresses_append, addresses_cons, List.nodup_middle, List.nodup_cons,
    List.mem_append, not_or] at hnodup
  exact hnodup.1

/-- An entry leaves its chain. -/
theorem detach [DecidableEq κ] (h : Represents m chains loose) (es es' : List (Entry ι (Option ω)))
    {e : Entry ι (Option ω)} (hc : chains o = es ++ e :: es')
    (hother : ∀ q, q ∉ addresses (chains o) → m'.linkItems q = m.linkItems q)
    (hqueues : ∀ o', o' ≠ o → m'.queues o' = m.queues o')
    (hlinked : Linked m'.linkItems none none (es ++ es'))
    (hhead : (m'.queues o).head = firstOr none (es ++ es'))
    (htail : (m'.queues o).tail = lastOr none (es ++ es'))
    (hisSome : ∀ q, (m'.linkItems q).isSome = (m.linkItems q).isSome) :
    Represents m' (Function.update chains o (es ++ es')) (e.1 :: loose) := by
  have hnot := h.notMem_of_split es hc
  have hin : e.1 ∈ addresses (chains o) := by simp [hc]
  have hnodup := h.nodup o
  rw [hc, addresses_append, addresses_cons, List.nodup_middle, List.nodup_cons,
    ← addresses_append] at hnodup
  refine h.change (fun q hq _ ↦ hother q hq) hqueues hlinked hnodup.2 hhead htail ?_ ?_ ?_ hisSome
  · exact List.nodup_cons.mpr ⟨fun hl ↦ h.outside _ hl o hin, h.distinct⟩
  · intro q hq
    rcases List.mem_cons.mp hq with rfl | hq
    · rw [addresses_append, List.mem_append, not_or]
      exact hnot
    · have hout := h.outside q hq o
      rw [hc, addresses_append, addresses_cons, List.mem_append, List.mem_cons] at hout
      rw [addresses_append, List.mem_append]
      exact fun hmem ↦ hout (hmem.imp_right Or.inr)
  · intro q
    rw [hc, addresses_append, addresses_append, addresses_cons, List.mem_append, List.mem_append,
      List.mem_cons, List.mem_cons]
    constructor
    · rintro ((hq | hq) | hq | hq)
      · exact Or.inr (Or.inr (Or.inl hq))
      · exact Or.inl hq
      · exact Or.inr (Or.inl hq)
      · exact Or.inr (Or.inr (Or.inr hq))
    · rintro (hq | hq | hq | hq)
      · exact Or.inl (Or.inr hq)
      · exact Or.inr (Or.inl hq)
      · exact Or.inl (Or.inl hq)
      · exact Or.inr (Or.inr hq)

/-- A link item in no chain is allocated. -/
theorem loose_cell (h : Represents m chains (p :: loose)) : ∃ c, m.linkItems p = some c :=
  Option.isSome_iff_exists.mp ((h.isSome_iff p).mpr (Or.inl List.mem_cons_self))

end Represents

end HeartbeatSpec.CiUtils
