import HeartbeatSpec.Base.Lockstep
import HeartbeatSpec.CiUtils.ListCalls

/-!
# Emptying a list

Library `CiUtils`. `Clean` and the destructors walk along a chain while they give its link items
away, and set the head and the tail afterwards,
`examples/Externals/CiUtils/Src/LinkedListTemplate.h:44–52,327–330,600–620`. It is the same as if
they were set before.
-/

namespace HeartbeatSpec.CiUtils
open HeartbeatSpec.Base

variable {κ ι ω : Type} [DecidableEq κ] [DecidableEq ι] {m : Memory κ ι ω} {chains : Chains κ ι ω}
  {l : κ} {o : Owner κ}

/-! ### Head and tail are set before -/

/-- The same memory with the members of one owner cleared. -/
def Cleared (o : Owner κ) (v m : Memory κ ι ω) : Prop := v = m.withQueue o fun _ ↦ .empty

omit [DecidableEq ι] in
theorem alike_modify {f : Memory κ ι ω → Memory κ ι ω}
    (h : ∀ m, f (m.withQueue o fun _ ↦ .empty) = (f m).withQueue o fun _ ↦ .empty) :
    Alike (Cleared o) (modify f : Call κ ι ω Unit) (modify f) := by
  refine Alike.modify fun v m hv ↦ ?_
  rw [hv, h]
  rfl

omit [DecidableEq ι] in
theorem alike_deref (p : Option ι) :
    Alike (Cleared o) (deref p : Call κ ι ω (ι × LinkItem ι ω)) (deref p) := by
  cases p with
  | none => exact Alike.throw _
  | some p =>
    refine Alike.get_bind fun v m hv ↦ ?_
    rw [hv, linkItems_withQueue]
    cases m.linkItems p with
    | none => exact Alike.throw _
    | some c => exact Alike.pure _

theorem alike_store (p : ι) (c : Option (LinkItem ι ω)) :
    Alike (Cleared o) (store p c : Call κ ι ω Unit) (store p c) := alike_modify fun _ ↦ rfl

theorem alike_setPrevious (p q : Option ι) :
    Alike (Cleared o) (setPrevious p q : Call κ ι ω Unit) (setPrevious p q) :=
  (alike_deref p).bind fun _ ↦ alike_store _ _

theorem alike_setNext (p q : Option ι) :
    Alike (Cleared o) (setNext p q : Call κ ι ω Unit) (setNext p q) :=
  (alike_deref p).bind fun _ ↦ alike_store _ _

theorem alike_deleteLinkItem (p : ι) :
    Alike (Cleared o) (deleteLinkItem p : Call κ ι ω Unit) (deleteLinkItem p) :=
  (alike_deref _).bind fun _ ↦ alike_store _ _

omit [DecidableEq ι] in
theorem alike_deleteObject (x : Option ω) :
    Alike (Cleared o) (deleteObject x : Call κ ι ω Unit) (deleteObject x) :=
  alike_modify fun _ ↦ rfl

omit [DecidableEq ι] in
theorem alike_modifyQueue {o' : Owner κ} (ho : o' ≠ o)
    (f : LinkItemQueue ι → LinkItemQueue ι) :
    Alike (Cleared o) (modifyQueue o' f : Call κ ι ω Unit) (modifyQueue o' f) := by
  refine alike_modify fun m ↦ ?_
  unfold Memory.withQueue
  dsimp only
  rw [Function.update_of_ne ho, Function.update_comm ho]

theorem alike_linkAtTail {o' : Owner κ} (ho : o' ≠ o) (p : ι) :
    Alike (Cleared o) (linkAtTail o' p : Call κ ι ω Unit) (linkAtTail o' p) := by
  refine Alike.get_bind fun v m hv ↦ ?_
  rw [hv, queues_withQueue, Function.update_of_ne ho]
  refine Alike.ite (fun _ ↦ ?_) fun _ ↦ ?_
  · refine (alike_modifyQueue ho _).bind fun _ ↦ ?_
    exact (alike_setPrevious _ _).bind fun _ ↦ alike_setNext _ _
  · refine (alike_setNext _ _).bind fun _ ↦ (alike_setPrevious _ _).bind fun _ ↦ ?_
    exact (alike_setNext _ _).bind fun _ ↦ alike_modifyQueue ho _

theorem alike_safeReleaseLinkItem (l : κ) (p : ι) :
    Alike (Cleared (.list l)) (safeReleaseLinkItem l p : Call κ ι ω Unit)
      (safeReleaseLinkItem l p) := by
  have hne : Owner.cache l ≠ .list l := by simp
  refine Alike.get_bind fun v m hv ↦ ?_
  rw [hv, queues_withQueue, Function.update_of_ne hne]
  refine Alike.ite (fun _ ↦ alike_deleteLinkItem p) fun _ ↦ ?_
  exact (alike_linkAtTail hne p).bind fun _ ↦ alike_modifyQueue hne _

/-- The loop of `Clean` does not look at the head and the tail of its list. -/
theorem alike_cleanFrom (l : κ) (bPreserve : Bool) (turns : Nat) (p : Option ι) :
    Alike (Cleared (.list l)) (cleanFrom l bPreserve turns p : Call κ ι ω Unit)
      (cleanFrom l bPreserve turns p) := by
  induction turns generalizing p with
  | zero =>
    cases p with
    | none => exact Alike.pure _
    | some p => exact Alike.throw _
  | succ turns ih =>
    cases p with
    | none => exact Alike.pure _
    | some p =>
      refine (alike_deref _).bind fun r ↦ ?_
      refine Alike.ite (fun _ ↦ (alike_deleteObject _).bind fun _ ↦ ?_) fun _ ↦ ?_
      · exact (alike_safeReleaseLinkItem l p).bind fun _ ↦ ih _
      · exact (alike_safeReleaseLinkItem l p).bind fun _ ↦ ih _

/-- The destructor of a cache does not either. -/
theorem alike_destructFrom (turns : Nat) (p : Option ι) :
    Alike (Cleared o) (destructFrom turns p : Call κ ι ω Unit) (destructFrom turns p) := by
  induction turns generalizing p with
  | zero =>
    cases p with
    | none => exact Alike.pure _
    | some p => exact Alike.throw _
  | succ turns ih =>
    cases p with
    | none => exact Alike.pure _
    | some p =>
      refine (alike_deref _).bind fun r ↦ (alike_deleteLinkItem p).bind fun _ ↦ ih _

omit [DecidableEq ι] in
/-- Then its link items are in no chain. -/
theorem Represents.cleared (h : Represents m chains []) (o : Owner κ) :
    Represents (m.withQueue o fun _ ↦ .empty) (Function.update chains o [])
      (addresses (chains o)) := by
  constructor
  · intro o'
    by_cases ho : o' = o
    · rw [ho, Function.update_self]
      trivial
    · rw [Function.update_of_ne ho]
      exact h.linked o'
  · intro o'
    by_cases ho : o' = o
    · rw [ho, Function.update_self]
      exact List.nodup_nil
    · rw [Function.update_of_ne ho]
      exact h.nodup o'
  · intro o₁ o₂ hne p hp
    by_cases h₁ : o₁ = o
    · rw [h₁, Function.update_self] at hp
      cases hp
    · rw [Function.update_of_ne h₁] at hp
      by_cases h₂ : o₂ = o
      · rw [h₂, Function.update_self]
        exact List.not_mem_nil
      · rw [Function.update_of_ne h₂]
        exact h.disjoint o₁ o₂ hne p hp
  · exact h.nodup o
  · intro p hp o'
    by_cases ho : o' = o
    · rw [ho, Function.update_self]
      exact List.not_mem_nil
    · rw [Function.update_of_ne ho]
      exact h.disjoint o o' (Ne.symm ho) p hp
  · intro p
    rw [linkItems_withQueue, h.isSome_iff]
    constructor
    · rintro (hp | ⟨o', hp⟩)
      · cases hp
      · by_cases ho : o' = o
        · exact Or.inl (ho ▸ hp)
        · exact Or.inr ⟨o', by rwa [Function.update_of_ne ho]⟩
    · rintro (hp | ⟨o', hp⟩)
      · exact Or.inr ⟨o, hp⟩
      · by_cases ho : o' = o
        · rw [ho, Function.update_self] at hp
          cases hp
        · rw [Function.update_of_ne ho] at hp
          exact Or.inr ⟨o', hp⟩
  · intro o'
    rw [queues_withQueue]
    by_cases ho : o' = o
    · rw [ho, Function.update_self, Function.update_self]
      rfl
    · rw [Function.update_of_ne ho, Function.update_of_ne ho]
      exact h.head o'
  · intro o'
    rw [queues_withQueue]
    by_cases ho : o' = o
    · rw [ho, Function.update_self, Function.update_self]
      rfl
    · rw [Function.update_of_ne ho, Function.update_of_ne ho]
      exact h.tail o'

/-! ### The walks -/

omit [DecidableEq κ] [DecidableEq ι] in
/-- An object is deleted. -/
theorem Represents.deleteObject {loose : List ι} (h : Represents m chains loose)
    (deleted : List ω) : Represents { m with deleted := deleted } chains loose :=
  ⟨h.linked, h.nodup, h.disjoint, h.distinct, h.outside, h.isSome_iff, h.head, h.tail⟩

/-- The objects that `Clean` deletes. -/
def cleaned (bPreserve : Bool) (es : List (Entry ι (Option ω))) : List ω :=
  if bPreserve = false then es.filterMap Prod.snd else []

/-- The loop of `Clean` gives the link items of a chain to the cache, or deletes them. -/
theorem run_cleanFrom (bPreserve : Bool) {es : List (Entry ι (Option ω))} {before : Option ι}
    (h : Represents m chains (addresses es)) (hlinked : Linked m.linkItems before none es)
    (hcount : (m.queues (.cache l)).nItems = (chains (.cache l)).length)
    (hcached : (chains (.cache l)).length ≤ (m.cacheSize l).toNat) {turns : Nat}
    (hturns : es.length ≤ turns) :
    ∃ m' cached, (cleanFrom l bPreserve turns (firstOr none es)).run m = .ok () m' ∧
      Represents m' (Function.update chains (.cache l) cached) [] ∧
      (∀ o, o ≠ .cache l → (m'.queues o).nItems = (m.queues o).nItems) ∧
      m'.cacheSize = m.cacheSize ∧ m'.deleted = m.deleted ++ cleaned bPreserve es ∧
      (m'.queues (.cache l)).nItems = cached.length ∧ cached.length ≤ (m.cacheSize l).toNat := by
  induction es generalizing m chains before turns with
  | nil =>
    have hnone : cleaned bPreserve ([] : List (Entry ι (Option ω))) = [] := by
      cases bPreserve <;> rfl
    refine ⟨m, chains (.cache l), ?_, ?_, fun _ _ ↦ rfl, rfl, ?_, hcount, hcached⟩
    · cases turns <;> rfl
    · rw [Function.update_eq_self]
      exact h
    · rw [hnone, List.append_nil]
  | cons e es ih =>
    cases turns with
    | zero => cases hturns
    | succ turns =>
      obtain ⟨m₂, cached, hrelease, hcache, hrepr, hcount₂, hlength, hframe⟩ :=
        run_safeReleaseLinkItem (h.deleteObject (m.deleted ++ cleaned bPreserve [e])) l hcount
          hcached
      have hlinked₂ : Linked m₂.linkItems (some e.1) none es := hlinked.2.congr hframe
      obtain ⟨m₃, cached₃, hrest, hrepr₃, hother₃, hsize₃, hdeleted₃, hcount₃, hlength₃⟩ :=
        ih hrepr hlinked₂ (by rw [hcount₂, Function.update_self])
          (by
            rw [Function.update_self, hcache.cacheSize]
            exact hlength)
          (Nat.le_of_succ_le_succ hturns)
      refine ⟨m₃, cached₃, ?_, ?_, ?_, ?_, ?_, hcount₃, ?_⟩
      · rw [firstOr, cleanFrom, EStateM.run_bind, run_deref hlinked.1]
        dsimp only
        cases bPreserve with
        | true =>
          have hsame : cleaned true [e] = ([] : List ω) := rfl
          rw [hsame, List.append_nil] at hrelease
          rw [if_neg (by simp), EStateM.run_bind, hrelease]
          exact hrest
        | false =>
          have hsame : cleaned false [e] = e.2.toList := by
            cases he : e.2 <;> simp [cleaned, he]
          rw [hsame] at hrelease
          rw [if_pos rfl, EStateM.run_bind, run_deleteObject]
          dsimp only
          rw [EStateM.run_bind, hrelease]
          exact hrest
      · rw [Function.update_idem] at hrepr₃
        exact hrepr₃
      · intro o ho
        rw [hother₃ o ho, hcache.nItems o ho]
      · exact hsize₃.trans hcache.cacheSize
      · rw [hdeleted₃, hcache.deleted, List.append_assoc]
        congr 1
        cases bPreserve with
        | true => rfl
        | false => exact (@List.filterMap_append _ _ [e] es _).symm
      · rw [← hcache.cacheSize]
        exact hlength₃

omit [DecidableEq κ] in
/-- The destructor of a cache deletes its link items. -/
theorem run_destructFrom {es : List (Entry ι (Option ω))} {before : Option ι}
    (h : Represents m chains (addresses es)) (hlinked : Linked m.linkItems before none es)
    {turns : Nat} (hturns : es.length ≤ turns) :
    ∃ m', (destructFrom turns (firstOr none es)).run m = .ok () m' ∧ Unchanged m m' ∧
      Represents m' chains [] := by
  induction es generalizing m before turns with
  | nil =>
    refine ⟨m, ?_, .refl m, h⟩
    cases turns <;> rfl
  | cons e es ih =>
    cases turns with
    | zero => cases hturns
    | succ turns =>
      obtain ⟨hdelete, hrepr⟩ := run_deleteLinkItem_loose h
      have hnew : e.1 ∉ addresses es := (List.nodup_cons.mp h.distinct).1
      obtain ⟨m', hrest, hsame, hrepr'⟩ :=
        ih hrepr (hlinked.2.update_of_notMem hnew _) (Nat.le_of_succ_le_succ hturns)
      refine ⟨m', ?_, (Unchanged.write _ _ m).trans hsame, hrepr'⟩
      rw [firstOr, destructFrom, EStateM.run_bind, run_deref hlinked.1]
      dsimp only
      rw [EStateM.run_bind, hdelete]
      exact hrest

/-! ### The functions -/

omit [DecidableEq ι] in
/-- Members that are set after a program that does not look at them are set before it. -/
theorem run_cleared_after {x : Call κ ι ω Unit} (hx : Alike (Cleared o) x x)
    {v' : Memory κ ι ω} (hrun : x.run (m.withQueue o fun _ ↦ .empty) = .ok () v') :
    ∃ m', x.run m = .ok () m' ∧ m'.withQueue o (fun _ ↦ .empty) = v' := by
  obtain ⟨m', hm', hv'⟩ := hx.of_ok (t := m) rfl hrun
  exact ⟨m', hm', hv'.symm⟩

/-- `Clean` empties the list. -/
theorem run_clean (h : Holds m chains) (l : κ) (bPreserve : Bool) :
    ∃ m' chains', (clean l bPreserve).run m = .ok true m' ∧
      m'.deleted = m.deleted ++ cleaned bPreserve (chains (.list l)) ∧
      Changed l m m' chains chains' [] := by
  have hne : Owner.cache l ≠ .list l := by simp
  have hturns : (chains (.list l)).length ≤ m.turns l := by
    rw [Memory.turns, h.nItems]
    exact Nat.le_refl _
  have hclear := h.toRepresents.cleared (.list l)
  obtain ⟨v, cached, hrun, hrepr, hother, hsize, hdeleted, hcount, hlength⟩ :=
    run_cleanFrom (l := l) bPreserve hclear (h.linked (.list l))
      (by
        rw [queues_withQueue, Function.update_of_ne hne, Function.update_of_ne hne]
        exact h.nItems _)
      (by
        rw [Function.update_of_ne hne]
        exact h.cached l) hturns
  obtain ⟨m', hrun', hv⟩ := run_cleared_after (alike_cleanFrom l bPreserve _ _) hrun
  refine ⟨v, _, ?_, hdeleted, ⟨hrepr, ?_⟩, ?_, hsize⟩
  · rw [clean, EStateM.run_bind, EStateM.run_get]
    dsimp only
    rw [h.head, EStateM.run_bind, hrun', ← hv]
    rfl
  · refine h.toCounted.of_changed (l := l) (fun o ho ho' ↦ ?_) (fun o ho ho' ↦ ?_) hsize ?_ ?_ ?_
    · rw [Function.update_of_ne ho', Function.update_of_ne ho]
    · rw [hother o ho', queues_withQueue, Function.update_of_ne ho]
    · rw [hother _ hne.symm, queues_withQueue, Function.update_self, Function.update_of_ne hne.symm,
        Function.update_self]
      rfl
    · rw [hcount, Function.update_self]
    · rw [Function.update_self]
      exact hlength
  · funext l'
    by_cases hl : l' = l
    · rw [listed, hl, Function.update_of_ne hne.symm, Function.update_self, Function.update_self]
    · have hne' : Owner.list l' ≠ .list l := by simpa using hl
      rw [listed, Function.update_of_ne (by simp), Function.update_of_ne hne',
        Function.update_of_ne hl, listed]

/-- A list is destroyed with its cache, and a new one is in its place. -/
theorem run_renew (h : Holds m chains) (l : κ) (iCacheSize : Int) :
    ∃ m' chains', (renew l iCacheSize).run m = .ok true m' ∧
      m'.deleted = m.deleted ++ cleaned false (chains (.list l)) ∧ Holds m' chains' ∧
      listed chains' = Function.update (listed chains) l [] ∧ chains' (.cache l) = [] := by
  obtain ⟨m₁, chains₁, hclean, hdeleted, hchanged⟩ := run_clean h l false
  have h₁ := hchanged.holds
  have hturns : (chains₁ (.cache l)).length ≤ (m₁.queues (.cache l)).nItems.toNat := by
    rw [h₁.nItems]
    exact Nat.le_refl _
  obtain ⟨v, hrun, hsame, hrepr⟩ :=
    run_destructFrom (h₁.toRepresents.cleared (.cache l)) (h₁.linked (.cache l)) hturns
  obtain ⟨m₂, hrun', hv⟩ := run_cleared_after (alike_destructFrom _ _) hrun
  refine ⟨{ v with cacheSize := Function.update v.cacheSize l iCacheSize },
    Function.update chains₁ (.cache l) [], ?_, ?_, ⟨?_, ?_, ?_⟩, ?_, Function.update_self ..⟩
  · rw [renew, EStateM.run_bind, hclean]
    dsimp only
    rw [EStateM.run_bind, EStateM.run_get]
    dsimp only
    rw [h₁.head, EStateM.run_bind, hrun', ← hv]
    rfl
  · exact hsame.deleted.trans hdeleted
  · exact ⟨hrepr.linked, hrepr.nodup, hrepr.disjoint, hrepr.distinct, hrepr.outside,
      hrepr.isSome_iff, hrepr.head, hrepr.tail⟩
  · intro o
    change (v.queues o).nItems = _
    rw [hsame.nItems, queues_withQueue]
    by_cases ho : o = .cache l
    · rw [ho, Function.update_self, Function.update_self]
      rfl
    · rw [Function.update_of_ne ho, Function.update_of_ne ho, h₁.nItems]
  · intro l'
    by_cases hl : l' = l
    · rw [hl, Function.update_self]
      exact Nat.zero_le _
    · have hne : Owner.cache l' ≠ .cache l := by simpa using hl
      change (Function.update chains₁ (Owner.cache l) [] (Owner.cache l')).length ≤
        (Function.update v.cacheSize l iCacheSize l').toNat
      rw [Function.update_of_ne hne, Function.update_of_ne hl, hsame.cacheSize]
      exact h₁.cached l'
  · rw [← hchanged.listed_eq]
    funext l'
    rw [listed, Function.update_of_ne (by simp), listed]

end HeartbeatSpec.CiUtils
