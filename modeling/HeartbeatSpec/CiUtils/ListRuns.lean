import HeartbeatSpec.Base.Runs
import HeartbeatSpec.CiUtils.Concatenation

/-!
# Any sequence of calls

Library `CiUtils`. Calls on any number of lists, in any order: each does to the sequences what is
said of it, none uses a null or dangling pointer to a link item, and no link item is lost,
`examples/Externals/CiUtils/Src/LinkedListTemplate.h:343–668,826–909`.
-/

namespace HeartbeatSpec.CiUtils
open HeartbeatSpec.Base

variable {κ ι ω : Type} [DecidableEq κ] [DecidableEq ι]

section Runs

variable {v : Overridables ω} {m : Memory κ ι ω}

/-- Each call does what is said of it. -/
theorem serves_call {chains : Chains κ ι ω} (h : Holds m chains) (new : Allocator ι ω)
    {call : ListCall κ ι ω} (hallowed : call.Allowed v m.lists) :
    Serves v m call (call.run v new) := by
  cases call with
  | addItem l x => exact serves_addItem h new l x
  | deleteItem l x bPreserve => exact serves_deleteItem h l x bPreserve
  | deleteItemAt l x ulPosition bPreserve =>
    exact serves_deleteItemAt h l x ulPosition bPreserve hallowed
  | modifyItem l before after bPreserve => exact serves_modifyItem h l before after bPreserve
  | clean l bPreserve => exact serves_clean h l bPreserve
  | concatenation l src => exact serves_concatenation h new hallowed
  | renew l iCacheSize => exact serves_renew h l iCacheSize

/-- A call in its safe version, too. -/
theorem contract_listStep (hm : InOrder m) {s : ListStep κ ι ω}
    (hallowed : s.call.Allowed v m.lists) :
    Contract (fun w ↦ w = m) (s.run v)
      (fun ret w ↦ InOrder w ∧ ListStep.Meets v { s with ret := ret } m.lists w.lists)
      fun f _ ↦ f = .badAlloc := by
  obtain ⟨chains, h⟩ := hm
  have hcall := contract_of_serves (serves_call h s.new hallowed)
  unfold ListStep.run ListStep.Meets
  cases s.locks with
  | none => exact hcall
  | some locks =>
    obtain ⟨lock, unlock⟩ := locks
    cases lock with
    | false =>
      refine Contract.pure ?_
      rintro w rfl
      exact ⟨⟨chains, h⟩, rfl, rfl⟩
    | true =>
      refine hcall.bind fun ret ↦ Contract.ite (fun hunlock ↦ ?_) fun hunlock ↦ ?_
      · refine Contract.pure fun w hw ↦ ⟨hw.1, ret, ?_, hw.2⟩
        rw [hunlock, Bool.and_false]
      · refine Contract.pure fun w hw ↦ ⟨hw.1, ret, ?_, hw.2⟩
        have hunlocked : unlock = true := by simpa using hunlock
        rw [hunlocked, Bool.and_true]

omit [DecidableEq κ] [DecidableEq ι] in
/-- Constructed lists are in order. -/
theorem inOrder_new (cacheSize : κ → Int) : InOrder (Memory.new cacheSize : Memory κ ι ω) := by
  refine ⟨fun _ ↦ [], ⟨?_, ?_, ?_, ?_, ?_, ?_, ?_, ?_⟩, ?_, ?_⟩
  · exact fun _ ↦ trivial
  · exact fun _ ↦ List.nodup_nil
  · exact fun _ _ _ _ _ ↦ List.not_mem_nil
  · exact List.nodup_nil
  · exact fun _ hp ↦ absurd hp List.not_mem_nil
  · simp [Memory.new]
  · exact fun _ ↦ rfl
  · exact fun _ ↦ rfl
  · exact fun _ ↦ rfl
  · exact fun _ ↦ Nat.zero_le _

/-- The memory stays in order along calls that are allowed. -/
theorem inOrder_run {cacheSize : κ → Int}
    {tr : List (Transition (Memory κ ι ω) (ListStep κ ι ω))}
    (h : Runs (listStep v) (Memory.new cacheSize) tr m)
    (hallowed : ∀ x ∈ tr, x.label.call.Allowed v x.source.lists) :
    InOrder m ∧ ∀ x ∈ tr, x.label.Meets v x.source.lists x.target.lists := by
  refine h.rule (I := InOrder) (C := fun w s _ ↦ s.call.Allowed v w.lists)
    (P := fun w s w' ↦ s.Meets v w.lists w'.lists) (fun w s w' hw hstep hs ↦ ?_)
    (inOrder_new cacheSize) hallowed
  have hcontract := contract_listStep hw hs w rfl
  unfold listStep at hstep
  cases hrun : EStateM.run (s.run v) w with
  | error f u =>
    rw [hrun] at hstep
    cases hstep
  | ok ret u =>
    rw [hrun] at hstep hcontract
    dsimp only at hstep
    split at hstep
    · next hret =>
      obtain rfl := Option.some.inj hstep
      rw [hret] at hcontract
      exact hcontract
    · cases hstep

/-- In every sequence of allowed calls, the links of each list and of each cache lead from its head
to null through a chain of link items, and back from its tail, the counts are right, no cache is
longer than its size, and every allocated link item is in exactly one chain. -/
theorem links_owned {cacheSize : κ → Int}
    {tr : List (Transition (Memory κ ι ω) (ListStep κ ι ω))}
    (h : Runs (listStep v) (Memory.new cacheSize) tr m)
    (hallowed : ∀ x ∈ tr, x.label.call.Allowed v x.source.lists) :
    ∃ chains : Owner κ → List (Entry ι (Option ω)), (∀ o, m.Spells o (chains o)) ∧
      (∀ l, (chains (.cache l)).length ≤ (m.cacheSize l).toNat) ∧
      ∀ p, (m.linkItems p).isSome ↔ ∃! o, p ∈ addresses (chains o) := by
  obtain ⟨⟨chains, hholds⟩, -⟩ := inOrder_run h hallowed
  refine ⟨chains, hholds.spells, hholds.cached, fun p ↦ ?_⟩
  rw [hholds.isSome_iff]
  constructor
  · rintro (hp | ⟨o, hp⟩)
    · cases hp
    · refine ⟨o, hp, fun o' hp' ↦ ?_⟩
      by_contra hne
      exact hholds.disjoint o' o hne p hp' hp
  · rintro ⟨o, hp, -⟩
    exact Or.inr ⟨o, hp⟩

/-! ### What concatenation loses -/

/-- The objects of a list. -/
def Lists.items (a : Lists κ ι ω) (l : κ) : List (Option ω) := (a.entries l).map Prod.snd

omit [DecidableEq κ] [DecidableEq ι] in
/-- The search for an object, counting. -/
theorem run_indexFrom [DecidableEq ω] {before : Option ι} {es : List (Entry ι (Option ω))}
    (h : Linked m.linkItems before none es) (x : Option ω) (iIndex : Int) {turns : Nat}
    (hturns : es.length ≤ turns) :
    (indexFrom x turns iIndex (firstOr none es)).run m =
      .ok (match (es.map Prod.snd).findIdx? (· = x) with
        | some i => iIndex + i
        | none => -1) m := by
  induction es generalizing before turns iIndex with
  | nil => cases turns <;> rfl
  | cons e es ih =>
    cases turns with
    | zero => cases hturns
    | succ turns =>
      rw [firstOr, indexFrom, EStateM.run_bind, run_deref h.1]
      dsimp only
      rw [List.map_cons, List.findIdx?_cons]
      by_cases he : e.2 = x
      · rw [if_pos he, if_pos (decide_eq_true he)]
        exact congrArg (EStateM.Result.ok · m) (Int.add_zero iIndex).symm
      · rw [if_neg he, if_neg (by simpa using he), ih h.2 _ (Nat.le_of_succ_le_succ hturns)]
        cases (es.map Prod.snd).findIdx? (· = x) with
        | none => rfl
        | some i =>
          refine congrArg (EStateM.Result.ok · m) ?_
          change iIndex + 1 + (i : Int) = iIndex + ((i + 1 : Nat) : Int)
          omega

omit [DecidableEq κ] [DecidableEq ι] in
/-- So many links lead to the entry of that index. -/
theorem run_advance {before : Option ι} {es : List (Entry ι (Option ω))}
    (h : Linked m.linkItems before none es) {i : Nat} (hi : i < es.length) :
    (advance i (firstOr none es)).run m = .ok (some (some (es.get ⟨i, hi⟩).1)) m ∧
      ∃ c, m.linkItems (es.get ⟨i, hi⟩).1 = some c ∧ c.item = (es.get ⟨i, hi⟩).2 := by
  induction es generalizing before i with
  | nil => cases hi
  | cons e es ih =>
    cases i with
    | zero => exact ⟨rfl, _, h.1, rfl⟩
    | succ i =>
      have hrest := ih h.2 (Nat.lt_of_succ_lt_succ hi)
      refine ⟨?_, hrest.2⟩
      rw [firstOr, advance, EStateM.run_bind, run_deref h.1]
      exact hrest.1

/-- In every sequence of allowed calls, the functions that only look answer what the sequences say:
`FindIndex` the first index of an object, `FindItemFromID` the first object with an equal ID,
`GetItem` the object at an index, which for a negative index is never written. -/
theorem queries_answer [DecidableEq ω] {cacheSize : κ → Int}
    {tr : List (Transition (Memory κ ι ω) (ListStep κ ι ω))}
    (h : Runs (listStep v) (Memory.new cacheSize) tr m)
    (hallowed : ∀ x ∈ tr, x.label.call.Allowed v x.source.lists) (l : κ) :
    (∀ x, (findIndex l x).run m = .ok (match (m.lists.items l).findIdx? (· = x) with
        | some i => (i : Int)
        | none => -1) m) ∧
      (∀ ulID, (findItemFromID v l ulID).run m = .ok (((m.lists.items l).find? fun x ↦
        v.isIDEqual (v.getIDOf x) ulID).getD none) m) ∧
      ∀ iIndex, (getItem l iIndex).run m =
        if iIndex < (m.lists.items l).length then
          if iIndex < 0 then .error .uninitialisedRead m
          else .ok (((m.lists.items l)[iIndex.toNat]?).getD none) m
        else .ok none m := by
  obtain ⟨⟨chains, hholds⟩, -⟩ := inOrder_run h hallowed
  have hitems : m.lists.items l = (chains (.list l)).map Prod.snd := by
    rw [Lists.items, hholds.lists_eq]
    rfl
  have hlinked := hholds.linked (.list l)
  have hturns : (chains (.list l)).length ≤ m.turns l := by
    rw [Memory.turns, hholds.nItems]
    exact Nat.le_refl _
  rw [hitems]
  refine ⟨fun x ↦ ?_, fun ulID ↦ ?_, fun iIndex ↦ ?_⟩
  · rw [findIndex, EStateM.run_bind, EStateM.run_get]
    dsimp only
    rw [hholds.head, run_indexFrom hlinked x 0 hturns]
    simp only [Int.zero_add]
  · have hfind := run_findFrom hlinked (fun x ↦ v.isIDEqual (v.getIDOf x) ulID) hturns
    have hrun : (findLinkItemFromID v l ulID).run m = .ok (((chains (.list l)).find? fun e ↦
        v.isIDEqual (v.getIDOf e.2) ulID).map Prod.fst) m := by
      rw [findLinkItemFromID, EStateM.run_bind, EStateM.run_get]
      dsimp only
      rw [hholds.head]
      exact hfind
    rw [findItemFromID, EStateM.run_bind, hrun, List.find?_map]
    cases hsome : (chains (.list l)).find? fun e ↦ v.isIDEqual (v.getIDOf e.2) ulID with
    | none =>
      have hsome' : (chains (.list l)).find? ((fun x ↦ v.isIDEqual (v.getIDOf x) ulID) ∘ Prod.snd) =
          none := hsome
      rw [hsome']
      rfl
    | some e =>
      have hsome' : (chains (.list l)).find? ((fun x ↦ v.isIDEqual (v.getIDOf x) ulID) ∘ Prod.snd) =
          some e := hsome
      rw [hsome']
      obtain ⟨es, es', hes⟩ := List.append_of_mem (List.mem_of_find?_eq_some hsome)
      rw [hes] at hlinked
      dsimp only [Option.map]
      rw [EStateM.run_bind, run_deref hlinked.cell]
      rfl
  · rw [getItem, EStateM.run_bind, EStateM.run_get]
    dsimp only
    rw [hholds.nItems, List.length_map]
    by_cases hlt : iIndex < (chains (.list l)).length
    · rw [if_neg (by omega), if_pos hlt]
      by_cases hneg : iIndex < 0
      · rw [if_pos hneg, if_pos hneg]
        rfl
      · have hi : iIndex.toNat < (chains (.list l)).length := by omega
        obtain ⟨hrun, c, hc, hitem⟩ := run_advance hlinked hi
        rw [if_neg hneg, if_neg hneg, hholds.head, EStateM.run_bind, hrun]
        dsimp only
        rw [EStateM.run_bind, run_deref hc, List.getElem?_map, List.getElem?_eq_getElem hi]
        exact congrArg (EStateM.Result.ok · m) hitem
    · rw [if_pos (by omega), if_neg hlt]
      rfl

end Runs

/-! ### A run with two lists -/

instance (v : Overridables ω) (a : Lists κ ι ω) (call : ListCall κ ι ω) [DecidableEq ω] :
    Decidable (call.Allowed v a) :=
  match call with
  | .deleteItemAt l _ ulPosition _ =>
    inferInstanceAs (Decidable (∀ p ∈ ulPosition, p ∈ addresses (a.entries l)))
  | .concatenation l src =>
    inferInstanceAs (Decidable (l ≠ src ∧ ∀ e ∈ a.entries src, e.2 ≠ none ∧ v.same e.2 e.2 = true))
  | .addItem .. | .deleteItem .. | .modifyItem .. | .clean .. | .renew .. => isTrue trivial

/-- An allocator of few addresses. -/
private def firstFree : Allocator Nat Nat where
  new h := (List.range 8).find? fun p ↦ (h p).isNone
  fresh h p hp := by simpa using List.find?_some hp

/-- IDs are addresses. -/
private def byAddress : Overridables Nat where
  getIDOf x := x.getD 0
  isIDEqual i j := i == j

/-- Objects are added to two lists, one is deleted at its position, the lists are concatenated:
the last object of the one is in the other already. -/
private def twoLists : List (ListStep Bool Nat Nat) :=
  [⟨.addItem false (some 10), firstFree, none, true⟩,
    ⟨.addItem false (some 11), firstFree, none, true⟩,
    ⟨.addItem true (some 12), firstFree, some (true, true), true⟩,
    ⟨.addItem false (some 13), firstFree, none, true⟩,
    ⟨.deleteItemAt false (some 11) (some 1) false, firstFree, none, true⟩,
    ⟨.addItem true (some 13), firstFree, none, true⟩,
    ⟨.concatenation true false, firstFree, none, false⟩]

private theorem run_twoLists : ∃ tr m, Runs (listStep byAddress)
    (Memory.new fun _ ↦ 1 : Memory Bool Nat Nat) tr m ∧
    (∀ x ∈ tr, x.label.call.Allowed byAddress x.source.lists) ∧
    m.lists.entries true = [(2, some 12), (4, some 13), (0, some 10)] ∧
    m.lists.entries false = [] ∧ m.lists.deleted = [11] := by
  obtain ⟨m, hm, hlists⟩ : ∃ m, exec (listStep byAddress)
      (Memory.new fun _ ↦ 1 : Memory Bool Nat Nat) twoLists = some m ∧
        (m.lists.entries true = [(2, some 12), (4, some 13), (0, some 10)] ∧
          m.lists.entries false = [] ∧ m.lists.deleted = [11]) := by
    refine ⟨_, rfl, ?_⟩
    decide +kernel
  refine ⟨_, m, Runs.of_exec hm, ?_, hlists⟩
  decide +kernel

theorem links_owned_two : ∃ tr m, Runs (listStep byAddress)
    (Memory.new fun _ ↦ 1 : Memory Bool Nat Nat) tr m ∧
    m.lists.entries true = [(2, some 12), (4, some 13), (0, some 10)] ∧
    ∃ chains : Owner Bool → List (Entry Nat (Option Nat)), (∀ o, m.Spells o (chains o)) ∧
      (∀ l, (chains (.cache l)).length ≤ (m.cacheSize l).toNat) ∧
      ∀ p, (m.linkItems p).isSome ↔ ∃! o, p ∈ addresses (chains o) := by
  obtain ⟨tr, m, hrun, hallowed, hentries, -, -⟩ := run_twoLists
  exact ⟨tr, m, hrun, hentries, links_owned hrun hallowed⟩

theorem queries_answer_two : ∃ tr m, Runs (listStep byAddress)
    (Memory.new fun _ ↦ 1 : Memory Bool Nat Nat) tr m ∧
    (findIndex true (some 10)).run m = .ok 2 m ∧ (getItem true 1).run m = .ok (some 13) m := by
  obtain ⟨tr, m, hrun, hallowed, hentries, -, -⟩ := run_twoLists
  have hitems : m.lists.items true = [some 12, some 13, some 10] := by
    rw [Lists.items, hentries]
    rfl
  obtain ⟨hindex, -, hget⟩ := queries_answer hrun hallowed true
  refine ⟨tr, m, hrun, ?_, ?_⟩
  · rw [hindex, hitems]
    rfl
  · rw [hget, hitems]
    rfl

end HeartbeatSpec.CiUtils
