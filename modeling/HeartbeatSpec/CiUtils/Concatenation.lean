import HeartbeatSpec.Base.Contract
import HeartbeatSpec.CiUtils.Sequences

/-!
# Traversal and concatenation

Library `CiUtils`. A `TRAVERSELIST` loop may take the current item out of its list, since the next
position is read before, `examples/Externals/CiUtils/Src/LinkedListTemplate.h:624–668`.
`Concatenation` does so with every item.
-/

namespace HeartbeatSpec.CiUtils
open HeartbeatSpec.Base

variable {κ ι ω : Type}

section Traversal

variable {m : Memory κ ι ω} {E : Fault → Memory κ ι ω → Prop}

/-- The loop rule of `TRAVERSELIST`: `J es` holds whenever the loop comes to the first of the
entries `es`, and keeps that entry linked to those behind it. -/
theorem contract_traverseFrom {J : List (Entry ι (Option ω)) → Memory κ ι ω → Prop}
    {Q : Bool → Memory κ ι ω → Prop} {body : Option ι → Call κ ι ω Bool}
    (hbody : ∀ e es, Contract (J (e :: es)) (body (some e.1))
      (fun b m ↦ if b then J es m else Q false m) E)
    (hlinked : ∀ e es m, J (e :: es) m →
      ∃ c, m.linkItems e.1 = some c ∧ c.next = firstOr none es)
    (hend : ∀ m, J [] m → Q true m) (es : List (Entry ι (Option ω))) {turns : Nat}
    (hturns : es.length ≤ turns) :
    Contract (J es) (traverseFrom body turns (firstOr none es) (firstOr none es.tail)) Q E := by
  induction es generalizing turns with
  | nil => cases turns <;> exact Contract.pure hend
  | cons e es ih =>
    cases turns with
    | zero => cases hturns
    | succ turns =>
      have hrest := ih (Nat.le_of_succ_le_succ hturns)
      refine (hbody e es).bind fun b ↦ ?_
      cases b with
      | false => exact Contract.pure fun _ hm ↦ hm
      | true =>
        rw [if_pos rfl, List.tail_cons]
        intro m hm
        have hgoto : (gotoNextPosition (firstOr none es)).run m =
            .ok (firstOr none es.tail) m := by
          cases es with
          | nil => rfl
          | cons e' es =>
            obtain ⟨c, hc, hnext⟩ := hlinked e' es m hm
            rw [firstOr, gotoNextPosition, EStateM.run_bind, run_deref hc]
            exact congrArg (EStateM.Result.ok · m) hnext
        rw [EStateM.run_bind, hgoto]
        exact hrest m hm

end Traversal

section Concatenation

variable [DecidableEq κ] [DecidableEq ι] {v : Overridables ω} {l src : κ}

/-- Some chains are in the memory, and nothing else. -/
def InOrder (m : Memory κ ι ω) : Prop := ∃ chains, Holds m chains

/-- What a call leaves, as a contract. -/
theorem contract_of_serves {call : ListCall κ ι ω} {body : Call κ ι ω Bool} {m : Memory κ ι ω}
    (h : Serves v m call body) :
    Contract (fun w ↦ w = m) body (fun ret w ↦ InOrder w ∧ call.Meets v m.lists ret w.lists)
      fun f _ ↦ f = .badAlloc := by
  rintro w rfl
  rcases h with ⟨m', hrun⟩ | ⟨ret, m', chains', hrun, hholds, hmeets⟩
  · rw [hrun]
  · rw [hrun]
    exact ⟨⟨chains', hholds⟩, hmeets⟩

theorem Admits.concat {xs ys : List (Option ω)} {y : Option ω} (h : Admits v xs ys)
    (hy : ((xs ++ ys).any fun x ↦ v.same x y) = false) : Admits v xs (ys ++ [y]) := by
  induction ys generalizing xs with
  | nil =>
    rw [List.append_nil] at hy
    exact ⟨hy, trivial⟩
  | cons z ys ih =>
    refine ⟨h.1, ih h.2 ?_⟩
    rwa [List.append_assoc]

/-- `Concatenation` has come to the first of the entries `es`. -/
structure Concatenating (v : Overridables ω) (l src : κ) (a : Lists κ ι ω)
    (es : List (Entry ι (Option ω))) (m : Memory κ ι ω) : Prop where
  inOrder : InOrder m
  rest : m.lists.entries src = es
  valid : ∀ e ∈ es, e.2 ≠ none ∧ v.same e.2 e.2 = true
  others : ∀ l', l' ≠ l → l' ≠ src → m.lists.entries l' = a.entries l'
  deleted : m.lists.deleted = a.deleted
  progress : ∃ moved new, a.entries src = moved ++ es ∧ m.lists.entries l = a.entries l ++ new ∧
    new.map Prod.snd = moved.map Prod.snd ∧
    Admits v ((a.entries l).map Prod.snd) (moved.map Prod.snd)

/-- `Concatenation` has come to its end. -/
def Concatenated (v : Overridables ω) (l src : κ) (a : Lists κ ι ω) (ret : Bool)
    (m : Memory κ ι ω) : Prop :=
  InOrder m ∧ ∃ moved new, Concatenates v l src a ret m.lists moved new

variable {a : Lists κ ι ω} {e : Entry ι (Option ω)} {es : List (Entry ι (Option ω))}

/-- The object of the entry has been taken out of the source. -/
theorem Concatenating.deleted_head {m w : Memory κ ι ω} {ret : Bool}
    (h : Concatenating v l src a (e :: es) m)
    (hmeets : (ListCall.deleteItem src e.2 true).Meets v m.lists ret w.lists) :
    ret = true ∧ w.lists.entries src = es ∧
      (∀ l', l' ≠ src → w.lists.entries l' = m.lists.entries l') ∧
      w.lists.deleted = m.lists.deleted := by
  have hsame := (h.valid e List.mem_cons_self).2
  have hhas : m.lists.has v src e.2 = true := by
    rw [Lists.has, h.rest, List.any_cons, hsame, Bool.true_or]
  simp only [ListCall.Meets] at hmeets
  have herase : (e :: es).eraseP (fun e' ↦ v.same e'.2 e.2) = es := List.eraseP_cons_of_pos hsame
  rw [if_pos hhas, hhas, h.rest, herase] at hmeets
  obtain ⟨rfl, hlists⟩ := hmeets
  rw [hlists]
  refine ⟨rfl, Function.update_self .., fun l' hl ↦ Function.update_of_ne hl _ _, ?_⟩
  exact List.append_nil _

/-- It is added to the list, or its ID is there. -/
theorem Concatenating.addItem_head {m w u : Memory κ ι ω} {ret : Bool} (hne : l ≠ src)
    (h : Concatenating v l src a (e :: es) m) (hrest : w.lists.entries src = es)
    (hothers : ∀ l', l' ≠ src → w.lists.entries l' = m.lists.entries l')
    (hdeleted : w.lists.deleted = m.lists.deleted) (hu : InOrder u)
    (hmeets : (ListCall.addItem l e.2).Meets v w.lists ret u.lists) :
    if ret then Concatenating v l src a es u else Concatenated v l src a false u := by
  obtain ⟨moved, new, hmoved, hnew, hitems, hadmits⟩ := h.progress
  have hl : w.lists.entries l = a.entries l ++ new := (hothers l hne).trans hnew
  have hall : (w.lists.entries l).map Prod.snd =
      (a.entries l).map Prod.snd ++ moved.map Prod.snd := by
    rw [hl, List.map_append, hitems]
  simp only [ListCall.Meets] at hmeets
  cases hhas : w.lists.has v l e.2 with
  | true =>
    rw [if_pos hhas, hhas] at hmeets
    obtain ⟨rfl, hlists⟩ := hmeets
    refine ⟨hu, moved, new, ⟨hadmits, hitems, ?_, ?_, ?_, Or.inr ⟨rfl, e, es, hmoved, ?_, ?_⟩⟩⟩
    · rw [hlists, hl]
    · intro l' hl' hsrc
      rw [hlists, hothers l' hsrc, h.others l' hl' hsrc]
    · rw [hlists, hdeleted, h.deleted]
    · rw [hlists, hrest]
    · rw [hlists, hhas]
  | false =>
    rw [if_neg (Bool.eq_false_iff.mp hhas), hhas] at hmeets
    obtain ⟨rfl, p, -, hlists⟩ := hmeets
    have hany : (((a.entries l).map Prod.snd ++ moved.map Prod.snd).any
        fun x ↦ v.same x e.2) = false := by
      rw [← hall, List.any_map]
      exact hhas
    refine ⟨hu, ?_, fun e' he' ↦ h.valid e' (List.mem_cons_of_mem e he'), ?_, ?_,
      moved ++ [e], new ++ [(p, e.2)], ?_, ?_, ?_, ?_⟩
    · rw [hlists, Lists.set]
      dsimp only
      rw [Function.update_of_ne hne.symm, hrest]
    · intro l' hl' hsrc
      rw [hlists, Lists.set]
      dsimp only
      rw [Function.update_of_ne hl', hothers l' hsrc, h.others l' hl' hsrc]
    · rw [hlists]
      exact hdeleted.trans h.deleted
    · rw [hmoved, List.append_assoc]
      rfl
    · rw [hlists, Lists.set]
      dsimp only
      rw [Function.update_self, hl, List.append_assoc]
    · rw [List.map_append, List.map_append, hitems]
      rfl
    · rw [List.map_append]
      exact hadmits.concat hany

/-- One turn of the loop of `Concatenation`. -/
theorem contract_moveItem (new : Allocator ι ω) (hne : l ≠ src) :
    Contract (Concatenating v l src a (e :: es)) (moveItem v new l src (some e.1))
      (fun ret m ↦ if ret then Concatenating v l src a es m else Concatenated v l src a false m)
      fun f _ ↦ f = .badAlloc := by
  intro m hm
  obtain ⟨chains, hholds⟩ := hm.inOrder
  have hsrc : chains (.list src) = e :: es := by
    have hrest := hm.rest
    rw [hholds.lists_eq] at hrest
    exact hrest
  have hlinked := hholds.linked (.list src)
  rw [hsrc] at hlinked
  have hget : (getCurrentItem (some e.1)).run m = .ok e.2 m := by
    rw [getCurrentItem, EStateM.run_bind, run_deref hlinked.1]
    rfl
  have hsome : e.2.isNone = false := by
    cases he : e.2 with
    | none => exact absurd he (hm.valid e List.mem_cons_self).1
    | some x => rfl
  have hcontract : Contract (fun w ↦ w = m)
      (do if (← deleteItem v src e.2 true) = false then pure false else addItem v new l e.2)
      (fun ret u ↦ if ret then Concatenating v l src a es u else Concatenated v l src a false u)
      fun f _ ↦ f = .badAlloc := by
    refine (contract_of_serves (serves_deleteItem (v := v) hholds src e.2 true)).bind fun ret ↦ ?_
    rintro w ⟨hw, hmeets⟩
    obtain ⟨rfl, hrest, hothers, hdeleted⟩ := hm.deleted_head hmeets
    obtain ⟨chains₁, hholds₁⟩ := hw
    have hadd := contract_of_serves (serves_addItem (v := v) hholds₁ new l e.2)
    exact (hadd.mono (fun _ hu ↦ hu)
      (fun ret u hu ↦ hm.addItem_head hne hrest hothers hdeleted hu.1 hu.2)
      fun _ _ hf ↦ hf) w rfl
  rw [moveItem, EStateM.run_bind, hget]
  dsimp only
  rw [hsome]
  exact hcontract m rfl

/-- `Concatenation` moves items until one has an ID that is there already. -/
theorem serves_concatenation {m : Memory κ ι ω} {chains : Chains κ ι ω} (h : Holds m chains)
    (new : Allocator ι ω) (hallowed : (ListCall.concatenation l src).Allowed v m.lists) :
    Serves v m (.concatenation l src) (concatenation v new l src) := by
  obtain ⟨hne, hvalid⟩ := hallowed
  have hsrc : m.lists.entries src = chains (.list src) := by
    rw [h.lists_eq]
    rfl
  have hturns : (chains (.list src)).length ≤ m.turns src := by
    rw [Memory.turns, h.nItems]
    exact Nat.le_refl _
  have hlinked := h.linked (.list src)
  have hstart : Concatenating v l src m.lists (chains (.list src)) m :=
    ⟨⟨chains, h⟩, hsrc, hsrc ▸ hvalid, fun _ _ _ ↦ rfl, rfl, [], [], hsrc,
      (List.append_nil _).symm, rfl, trivial⟩
  have hsecond : (gotoNextPosition (m.queues (.list src)).head).run m =
      .ok (firstOr none (chains (.list src)).tail) m := by
    rw [h.head]
    cases hc : chains (.list src) with
    | nil => rfl
    | cons e es =>
      rw [hc] at hlinked
      rw [firstOr, gotoNextPosition, EStateM.run_bind, run_deref hlinked.1]
      rfl
  have hloop := contract_traverseFrom (J := Concatenating v l src m.lists)
    (Q := Concatenated v l src m.lists) (fun e es ↦ contract_moveItem new hne)
    (fun e es w hw ↦ ?_) (fun w hw ↦ ?_) (chains (.list src)) hturns m hstart
  · have hrun : (concatenation v new l src).run m =
        (traverseFrom (moveItem v new l src) (m.turns src) (firstOr none (chains (.list src)))
          (firstOr none (chains (.list src)).tail)).run m := by
      rw [concatenation, EStateM.run_bind, EStateM.run_get]
      dsimp only
      rw [traverseList, EStateM.run_bind, EStateM.run_get]
      dsimp only
      rw [EStateM.run_bind, hsecond, h.head]
    rw [Serves, hrun]
    cases hr : (traverseFrom (moveItem v new l src) (m.turns src)
        (firstOr none (chains (.list src))) (firstOr none (chains (.list src)).tail)).run m with
    | error f w =>
      rw [hr] at hloop
      exact Or.inl ⟨w, by rw [hloop]⟩
    | ok ret w =>
      rw [hr] at hloop
      obtain ⟨⟨chains', hholds⟩, hmeets⟩ := hloop
      exact Or.inr ⟨ret, w, chains', rfl, hholds, hmeets⟩
  · obtain ⟨chains', hholds⟩ := hw.inOrder
    have hrest := hw.rest
    rw [hholds.lists_eq] at hrest
    have hl := hholds.linked (.list src)
    have hes : chains' (.list src) = e :: es := hrest
    rw [hes] at hl
    exact ⟨_, hl.1, rfl⟩
  · obtain ⟨moved, new, hmoved, hnew, hitems, hadmits⟩ := hw.progress
    rw [List.append_nil] at hmoved
    exact ⟨hw.inOrder, moved, new, hadmits, hitems, hnew, hw.others, hw.deleted,
      Or.inl ⟨rfl, hmoved, hw.rest⟩⟩

end Concatenation

end HeartbeatSpec.CiUtils
