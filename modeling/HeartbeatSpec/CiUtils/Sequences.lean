import HeartbeatSpec.CiUtils.Emptying

/-!
# Lists as sequences

Library `CiUtils`. To its callers a `CLinkedListTemplate` is a sequence of objects, each at a
position of its own. What each call does to the sequences is said without links, and proved of the
functions, `examples/Externals/CiUtils/Src/LinkedListTemplate.h:343–668,826–909`.
-/

namespace HeartbeatSpec.CiUtils
open HeartbeatSpec.Base

variable {κ ι ω : Type}

/-! ### Sequences -/

/-- The sequences, and the objects that have been deleted. -/
structure Lists (κ ι ω : Type) where
  entries : κ → List (Entry ι (Option ω))
  deleted : List ω

/-- The links of an owner spell these entries: they lead from its head through all of them to null,
and from its tail back to null, and its count is theirs. -/
structure Memory.Spells (m : Memory κ ι ω) (o : Owner κ) (es : List (Entry ι (Option ω))) :
    Prop where
  linked : Linked m.linkItems none none es
  head : (m.queues o).head = firstOr none es
  tail : (m.queues o).tail = lastOr none es
  nItems : (m.queues o).nItems = es.length
  nodup : (addresses es).Nodup

theorem Holds.spells {m : Memory κ ι ω} {chains : Chains κ ι ω} (h : Holds m chains)
    (o : Owner κ) : m.Spells o (chains o) :=
  ⟨h.linked o, h.head o, h.tail o, h.nItems o, h.nodup o⟩

/-- The sequences in a memory. A chain is followed for as many links as the count says; that the
links spell exactly what is found so is proved beside what the calls do. -/
def Memory.lists (m : Memory κ ι ω) : Lists κ ι ω where
  entries l := walk m.linkItems (m.turns l) (m.queues (.list l)).head
  deleted := m.deleted

theorem Holds.lists_eq {m : Memory κ ι ω} {chains : Chains κ ι ω} (h : Holds m chains) :
    m.lists = ⟨listed chains, m.deleted⟩ := by
  have hentries (l : κ) : walk m.linkItems (m.turns l) (m.queues (.list l)).head =
      chains (.list l) := by
    rw [h.head]
    apply (h.linked _).walk_eq
    rw [Memory.turns, h.nItems]
    exact Nat.le_refl _
  rw [Memory.lists, Lists.mk.injEq]
  exact ⟨funext hentries, rfl⟩

/-- A call of a public function that changes a list. -/
inductive ListCall (κ ι ω : Type) where
  | addItem (l : κ) (x : Option ω)
  | deleteItem (l : κ) (x : Option ω) (bPreserve : Bool)
  | deleteItemAt (l : κ) (x : Option ω) (ulPosition : Option ι) (bPreserve : Bool)
  | modifyItem (l : κ) (before after : Option ω) (bPreserve : Bool)
  | clean (l : κ) (bPreserve : Bool)
  | concatenation (l src : κ)
  | renew (l : κ) (iCacheSize : Int)

/-- A call, with what `new` does, with how the lock and the unlock of its safe version return, and
with its result. The source has no safe version of `DeleteItem` at a position and of destruction;
what is proved holds with one too. -/
structure ListStep (κ ι ω : Type) where
  call : ListCall κ ι ω
  new : Allocator ι ω
  locks : Option (Bool × Bool)
  ret : Bool

namespace Lists

variable (v : Overridables ω) (a : Lists κ ι ω)

/-- The list has an item with an equal ID. -/
def has (l : κ) (x : Option ω) : Bool := (a.entries l).any fun e ↦ v.same e.2 x

/-- Change one sequence. -/
def set [DecidableEq κ] (l : κ) (es : List (Entry ι (Option ω))) : Lists κ ι ω :=
  { a with entries := Function.update a.entries l es }

/-- Delete objects. -/
def delete (xs : List ω) : Lists κ ι ω := { a with deleted := a.deleted ++ xs }

end Lists

/-- The object is deleted unless it is to be preserved. -/
def unlessPreserved (bPreserve : Bool) (x : Option ω) : List ω :=
  if bPreserve = false then x.toList else []

/-- No item of `ys` has an ID equal to that of one of `xs` or of an earlier one. -/
def Admits (v : Overridables ω) : List (Option ω) → List (Option ω) → Prop
  | _, [] => True
  | xs, y :: ys => (xs.any fun x ↦ v.same x y) = false ∧ Admits v (xs ++ [y]) ys

/-- `Concatenation` moves items to the end of the list, until one has an ID that is there already:
that one is taken from its list and not added. -/
structure Concatenates (v : Overridables ω) (l src : κ) (a : Lists κ ι ω) (ret : Bool)
    (a' : Lists κ ι ω) (moved new : List (Entry ι (Option ω))) : Prop where
  admits : Admits v ((a.entries l).map Prod.snd) (moved.map Prod.snd)
  items : new.map Prod.snd = moved.map Prod.snd
  entries : a'.entries l = a.entries l ++ new
  others : ∀ l', l' ≠ l → l' ≠ src → a'.entries l' = a.entries l'
  deleted : a'.deleted = a.deleted
  rest : ret = true ∧ a.entries src = moved ∧ a'.entries src = [] ∨
    ret = false ∧ ∃ e rest, a.entries src = moved ++ e :: rest ∧ a'.entries src = rest ∧
      a'.has v l e.2 = true

/-- What a call does to the sequences, and what it returns. -/
def ListCall.Meets [DecidableEq κ] [DecidableEq ι] (v : Overridables ω) (a : Lists κ ι ω)
    (ret : Bool) (a' : Lists κ ι ω) : ListCall κ ι ω → Prop
  | addItem l x =>
    ret = !a.has v l x ∧
      if a.has v l x then a' = a
      else ∃ p, (∀ l', p ∉ addresses (a.entries l')) ∧ a' = a.set l (a.entries l ++ [(p, x)])
  | deleteItem l x bPreserve =>
    ret = a.has v l x ∧
      if a.has v l x then
        a' = (a.set l ((a.entries l).eraseP fun e ↦ v.same e.2 x)).delete
          (unlessPreserved bPreserve x)
      else a' = a
  | deleteItemAt l x ulPosition bPreserve =>
    ret = ulPosition.isSome ∧
      match ulPosition with
      | none => a' = a
      | some p =>
        a' = (a.set l ((a.entries l).eraseP fun e ↦ e.1 = p)).delete (unlessPreserved bPreserve x)
  | modifyItem l before after bPreserve =>
    ret = a.has v l before ∧
      if a.has v l before then
        ∃ es e es', a.entries l = es ++ e :: es' ∧ v.same e.2 before = true ∧
          (∀ e' ∈ es, v.same e'.2 before = false) ∧
          a' = (a.set l (es ++ (e.1, after) :: es')).delete (unlessPreserved bPreserve before)
      else a' = a
  | clean l bPreserve =>
    ret = true ∧ a' = (a.set l []).delete (cleaned bPreserve (a.entries l))
  | concatenation l src => ∃ moved new, Concatenates v l src a ret a' moved new
  | renew l _ => ret = true ∧ a' = (a.set l []).delete (cleaned false (a.entries l))

/-- What the callers have to see to: a position is that of an item of the list, and a list that is
concatenated is another one, without null pointers, and knows the ID of each of its items. -/
def ListCall.Allowed (v : Overridables ω) (a : Lists κ ι ω) : ListCall κ ι ω → Prop
  | deleteItemAt l _ ulPosition _ => ∀ p ∈ ulPosition, p ∈ addresses (a.entries l)
  | concatenation l src =>
    l ≠ src ∧ ∀ e ∈ a.entries src, e.2 ≠ none ∧ v.same e.2 e.2 = true
  | _ => True

/-- A call of the safe version does nothing if the lock fails; otherwise it does what the other
does, but returns false if the unlock fails. -/
def ListStep.Meets [DecidableEq κ] [DecidableEq ι] (v : Overridables ω) (s : ListStep κ ι ω)
    (a a' : Lists κ ι ω) : Prop :=
  match s.locks with
  | none => s.call.Meets v a s.ret a'
  | some (lock, unlock) =>
    if lock = false then s.ret = false ∧ a' = a
    else ∃ ret, s.ret = (ret && unlock) ∧ s.call.Meets v a ret a'

variable [DecidableEq κ] [DecidableEq ι]

/-- The function that is called. -/
def ListCall.run (v : Overridables ω) (new : Allocator ι ω) : ListCall κ ι ω → Call κ ι ω Bool
  | addItem l x => CiUtils.addItem v new l x
  | deleteItem l x bPreserve => CiUtils.deleteItem v l x bPreserve
  | deleteItemAt l x ulPosition bPreserve => CiUtils.deleteItemAt l x ulPosition bPreserve
  | modifyItem l before after bPreserve => CiUtils.modifyItem v l before after bPreserve
  | clean l bPreserve => CiUtils.clean l bPreserve
  | concatenation l src => CiUtils.concatenation v new l src
  | renew l iCacheSize => CiUtils.renew l iCacheSize

/-- The same in its safe version, if that is the one. -/
def ListStep.run (v : Overridables ω) (s : ListStep κ ι ω) : Call κ ι ω Bool :=
  match s.locks with
  | none => s.call.run v s.new
  | some (lock, unlock) => safely lock unlock (s.call.run v s.new)

/-- A call returns. -/
def listStep (v : Overridables ω) (m : Memory κ ι ω) (s : ListStep κ ι ω) :
    Option (Memory κ ι ω) :=
  match EStateM.run (s.run v) m with
  | .ok ret m' => if ret = s.ret then some m' else none
  | .error _ _ => none

/-! ### One call -/

section Calls

variable {v : Overridables ω} {m m' : Memory κ ι ω} {chains chains' : Chains κ ι ω} {l src : κ}
  {x : Option ω}

/-- A call from a memory in order returns to one, having done what is said of it, or `new`
throws. -/
def Serves (v : Overridables ω) (m : Memory κ ι ω) (call : ListCall κ ι ω)
    (body : Call κ ι ω Bool) : Prop :=
  (∃ m', body.run m = .error .badAlloc m') ∨
    ∃ ret m' chains', body.run m = .ok ret m' ∧ Holds m' chains' ∧
      call.Meets v m.lists ret m'.lists

/-- The first entry that passes a test splits its chain. -/
theorem find_cases {α : Type} (es : List α) (test : α → Bool) :
    es.any test = false ∧ es.find? test = none ∨
      ∃ xs e ys, es = xs ++ e :: ys ∧ test e = true ∧ (∀ e' ∈ xs, test e' = false) ∧
        es.any test = true ∧ es.find? test = some e := by
  cases hfind : es.find? test with
  | none =>
    left
    refine ⟨List.any_eq_false.mpr fun e he ↦ ?_, rfl⟩
    exact List.find?_eq_none.mp hfind e he
  | some e =>
    right
    obtain ⟨htest, xs, ys, hes, hxs⟩ := List.find?_eq_some_iff_append.mp hfind
    refine ⟨xs, e, ys, hes, htest, fun e' he' ↦ by simpa using hxs e' he', ?_, rfl⟩
    exact List.any_eq_true.mpr ⟨e, by simp [hes], htest⟩

theorem eraseP_split {α : Type} (test : α → Bool) {xs ys : List α} {e : α} (he : test e = true)
    (hxs : ∀ e' ∈ xs, test e' = false) : (xs ++ e :: ys).eraseP test = xs ++ ys := by
  rw [List.eraseP_append_right _ (fun e' he' ↦ by simp [hxs e' he']), List.eraseP_cons_of_pos he]

omit [DecidableEq ι] in
/-- The sequences after a call on one list. -/
theorem Changed.lists_eq {es : List (Entry ι (Option ω))} (h : Changed l m m' chains chains' es)
    (hm : Holds m chains) {deleted : List ω} (hdeleted : m'.deleted = m.deleted ++ deleted) :
    m'.lists = (m.lists.set l es).delete deleted := by
  rw [h.holds.lists_eq, hm.lists_eq, h.listed_eq, hdeleted]
  rfl

/-- `AddItem` adds the object at the end, unless its ID is there. -/
theorem serves_addItem (h : Holds m chains) (new : Allocator ι ω) (l : κ) (x : Option ω) :
    Serves v m (.addItem l x) (addItem v new l x) := by
  have hfind := run_findLinkItemFromID h v l x
  have hlists := h.lists_eq
  unfold Serves
  rw [addItem, EStateM.run_bind, hfind]
  dsimp only
  rcases find_cases (chains (.list l)) (fun e ↦ v.same e.2 x) with ⟨hany, hnone⟩ |
    ⟨xs, e, ys, hes, htest, hxs, hany, hsome⟩
  · have hhas : m.lists.has v l x = false := by
      rw [hlists]
      exact hany
    rw [hnone]
    rcases run_addNew h new l x with hrun | ⟨p, m', chains', hrun, hp, hdeleted, hchanged⟩
    · exact Or.inl ⟨m, hrun⟩
    · refine Or.inr ⟨true, m', chains', hrun, hchanged.holds, ?_⟩
      simp only [ListCall.Meets]
      rw [if_neg (Bool.eq_false_iff.mp hhas), hhas]
      refine ⟨rfl, p, ?_, ?_⟩
      · rw [hlists]
        exact hp
      · have hsame : m'.deleted = m.deleted ++ [] := by rw [hdeleted, List.append_nil]
        rw [hchanged.lists_eq h hsame, hlists]
        simp [Lists.delete, Lists.set, listed]
  · have hhas : m.lists.has v l x = true := by
      rw [hlists]
      exact hany
    rw [hsome]
    refine Or.inr ⟨false, m, chains, rfl, h, ?_⟩
    simp only [ListCall.Meets]
    rw [if_pos hhas, hhas]
    exact ⟨rfl, trivial⟩

/-- An entry is deleted, with the object unless it is to be preserved. -/
theorem run_deleteLinked (h : Holds m chains) {e : Entry ι (Option ω)}
    {es es' : List (Entry ι (Option ω))} (hc : chains (.list l) = es ++ e :: es') (x : Option ω)
    (bPreserve : Bool) :
    ∃ m' chains', (deleteLinked l x (some e.1) bPreserve).run m = .ok true m' ∧
      m'.deleted = m.deleted ++ unlessPreserved bPreserve x ∧
      Changed l m m' chains chains' (es ++ es') := by
  obtain ⟨m₁, chains₁, hrun, hdeleted, hchanged⟩ := run_unlink h hc
  rw [deleteLinked]
  cases bPreserve with
  | true =>
    refine ⟨m₁, chains₁, ?_, ?_, hchanged⟩
    · rw [EStateM.run_bind, hrun]
      rfl
    · rw [hdeleted]
      exact (List.append_nil _).symm
  | false =>
    refine ⟨{ m₁ with deleted := m₁.deleted ++ x.toList }, chains₁, ?_, ?_, ?_⟩
    · rw [EStateM.run_bind, hrun]
      rfl
    · rw [← hdeleted]
      rfl
    · have hholds := hchanged.holds
      exact ⟨⟨hholds.toRepresents.deleteObject _, ⟨hholds.nItems, hholds.cached⟩⟩,
        hchanged.listed_eq, hchanged.cacheSize⟩

theorem serves_deleteItem (h : Holds m chains) (l : κ) (x : Option ω) (bPreserve : Bool) :
    Serves v m (.deleteItem l x bPreserve) (deleteItem v l x bPreserve) := by
  have hfind := run_findLinkItemFromID h v l x
  have hlists := h.lists_eq
  unfold Serves
  rw [deleteItem, EStateM.run_bind, hfind]
  dsimp only
  rcases find_cases (chains (.list l)) (fun e ↦ v.same e.2 x) with ⟨hany, hnone⟩ |
    ⟨xs, e, ys, hes, htest, hxs, hany, hsome⟩
  · have hhas : m.lists.has v l x = false := by
      rw [hlists]
      exact hany
    rw [hnone]
    refine Or.inr ⟨false, m, chains, rfl, h, ?_⟩
    simp only [ListCall.Meets]
    rw [if_neg (Bool.eq_false_iff.mp hhas), hhas]
    exact ⟨rfl, trivial⟩
  · have hhas : m.lists.has v l x = true := by
      rw [hlists]
      exact hany
    rw [hsome]
    obtain ⟨m', chains', hrun, hdeleted, hchanged⟩ := run_deleteLinked h hes x bPreserve
    refine Or.inr ⟨true, m', chains', hrun, hchanged.holds, ?_⟩
    simp only [ListCall.Meets]
    rw [if_pos hhas, hhas]
    refine ⟨rfl, ?_⟩
    rw [hchanged.lists_eq h hdeleted, ← eraseP_split (fun e ↦ v.same e.2 x) htest hxs,
      ← hes, hlists]
    rfl

/-- `DeleteItem` at a position of the list. -/
theorem serves_deleteItemAt (h : Holds m chains) (l : κ) (x : Option ω) (ulPosition : Option ι)
    (bPreserve : Bool)
    (hallowed : (ListCall.deleteItemAt l x ulPosition bPreserve).Allowed v m.lists) :
    Serves v m (.deleteItemAt l x ulPosition bPreserve)
      (deleteItemAt l x ulPosition bPreserve) := by
  right
  cases ulPosition with
  | none => exact ⟨false, m, chains, rfl, h, rfl, rfl⟩
  | some p =>
    have hlists := h.lists_eq
    have hp : p ∈ addresses (chains (.list l)) := by
      have hp := hallowed p rfl
      rw [hlists] at hp
      exact hp
    obtain ⟨e, he, rfl⟩ := List.mem_map.mp hp
    obtain ⟨es, es', hes⟩ := List.append_of_mem he
    have hnot := (h.notMem_of_split es hes).1
    obtain ⟨m', chains', hrun, hdeleted, hchanged⟩ := run_deleteLinked h hes x bPreserve
    refine ⟨true, m', chains', hrun, hchanged.holds, rfl, ?_⟩
    have hfirst : ∀ e' ∈ es, decide (e'.1 = e.1) = false := by
      intro e' he'
      apply decide_eq_false
      intro heq
      rw [← heq] at hnot
      exact hnot (List.mem_map_of_mem he')
    dsimp only
    rw [hchanged.lists_eq h hdeleted,
      ← eraseP_split (fun e' ↦ decide (e'.1 = e.1)) (decide_eq_true rfl) hfirst, ← hes, hlists]
    rfl

/-- `ModifyItem` replaces the first object with an equal ID. -/
theorem serves_modifyItem (h : Holds m chains) (l : κ) (before after : Option ω)
    (bPreserve : Bool) :
    Serves v m (.modifyItem l before after bPreserve) (modifyItem v l before after bPreserve) := by
  have hfind := run_findLinkItemFromID h v l before
  have hlists := h.lists_eq
  unfold Serves
  rw [modifyItem, EStateM.run_bind, hfind]
  dsimp only
  right
  rcases find_cases (chains (.list l)) (fun e ↦ v.same e.2 before) with ⟨hany, hnone⟩ |
    ⟨xs, e, ys, hes, htest, hxs, hany, hsome⟩
  · have hhas : m.lists.has v l before = false := by
      rw [hlists]
      exact hany
    rw [hnone]
    refine ⟨false, m, chains, rfl, h, ?_⟩
    simp only [ListCall.Meets]
    rw [if_neg (Bool.eq_false_iff.mp hhas), hhas]
    exact ⟨rfl, trivial⟩
  · have hhas : m.lists.has v l before = true := by
      rw [hlists]
      exact hany
    rw [hsome]
    obtain ⟨m₁, chains₁, hrun, hdeleted, hchanged⟩ := run_setItem_listed h hes after
    have hmodified (m' : Memory κ ι ω) (hm' : Changed l m m' chains chains₁
        (xs ++ (e.1, after) :: ys))
        (hd : m'.deleted = m.deleted ++ unlessPreserved bPreserve before) :
        (ListCall.modifyItem l before after bPreserve).Meets v m.lists true m'.lists := by
      simp only [ListCall.Meets]
      rw [if_pos hhas, hhas]
      refine ⟨rfl, xs, e, ys, ?_, htest, hxs, hm'.lists_eq h hd⟩
      rw [hlists]
      exact hes
    cases bPreserve with
    | true =>
      refine ⟨true, m₁, chains₁, ?_, hchanged.holds, hmodified m₁ hchanged ?_⟩
      · dsimp only [Option.map]
        rw [EStateM.run_bind, hrun]
        rfl
      · rw [hdeleted]
        exact (List.append_nil _).symm
    | false =>
      have hholds := hchanged.holds
      have hdone : Changed l m { m₁ with deleted := m₁.deleted ++ before.toList } chains chains₁
          (xs ++ (e.1, after) :: ys) :=
        ⟨⟨hholds.toRepresents.deleteObject _, ⟨hholds.nItems, hholds.cached⟩⟩,
          hchanged.listed_eq, hchanged.cacheSize⟩
      refine ⟨true, _, chains₁, ?_, hdone.holds, hmodified _ hdone ?_⟩
      · dsimp only [Option.map]
        rw [EStateM.run_bind, hrun]
        rfl
      · rw [← hdeleted]
        rfl

/-- `Clean` and the destructor delete the objects in order. -/
theorem serves_clean (h : Holds m chains) (l : κ) (bPreserve : Bool) :
    Serves v m (.clean l bPreserve) (clean l bPreserve) := by
  obtain ⟨m', chains', hrun, hdeleted, hchanged⟩ := run_clean h l bPreserve
  refine Or.inr ⟨true, m', chains', hrun, hchanged.holds, rfl, ?_⟩
  rw [hchanged.lists_eq h hdeleted, h.lists_eq]
  rfl

theorem serves_renew (h : Holds m chains) (l : κ) (iCacheSize : Int) :
    Serves v m (.renew l iCacheSize) (renew l iCacheSize) := by
  obtain ⟨m', chains', hrun, hdeleted, hholds, hlisted, -⟩ := run_renew h l iCacheSize
  refine Or.inr ⟨true, m', chains', hrun, hholds, rfl, ?_⟩
  rw [hholds.lists_eq, h.lists_eq, hlisted, hdeleted]
  rfl

end Calls

end HeartbeatSpec.CiUtils
