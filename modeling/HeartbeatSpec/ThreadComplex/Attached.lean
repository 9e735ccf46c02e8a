import HeartbeatSpec.ThreadComplex.Rounds

/-!
# The list of a thread complex

Library `ThreadComplex`. To the threads that add to a complex and delete from it, its list is a
sequence without duplicates. Whatever they do, it stays in order, and nothing but a failing `new`
keeps a call from returning, `examples/Externals/CiUtils/Src/CiThreadComplex.cpp:28–36`.
-/

namespace HeartbeatSpec.ThreadComplex
open HeartbeatSpec.Base HeartbeatSpec.Thread

variable {ι ω : Type}

/-! ### Addresses as IDs -/

section Addresses

variable (A : Address ω)

theorem Address.same_some (x y : ω) : A.overridables.same (some x) (some y) = true ↔ x = y := by
  simp [CiUtils.Overridables.same, Address.overridables, A.injective.eq_iff]

/-- Null has the address 0, that no object has. -/
theorem Address.same_none (x : ω) : A.overridables.same (some x) none = false := by
  simp [CiUtils.Overridables.same, Address.overridables, A.ne_zero]

theorem objects_cons (p : ι) (y : ω) (es : List (Entry ι (Option ω))) :
    objects ((p, some y) :: es) = y :: objects es := rfl

variable {es : List (Entry ι (Option ω))}

theorem any_same_iff (hsome : ∀ e ∈ es, e.2 ≠ none) (x : ω) :
    (es.any fun e ↦ A.overridables.same e.2 (some x)) = true ↔ x ∈ objects es := by
  rw [List.any_eq_true, objects, List.mem_filterMap]
  constructor
  · rintro ⟨e, he, hsame⟩
    obtain ⟨y, hy⟩ := Option.ne_none_iff_exists'.mp (hsome e he)
    rw [hy, A.same_some] at hsame
    exact ⟨e, he, by rw [hy, hsame]⟩
  · rintro ⟨e, he, hx⟩
    exact ⟨e, he, by rw [hx, A.same_some]⟩

theorem any_same_none (hsome : ∀ e ∈ es, e.2 ≠ none) :
    (es.any fun e ↦ A.overridables.same e.2 none) = false := by
  refine List.any_eq_false.mpr fun e he ↦ ?_
  obtain ⟨y, hy⟩ := Option.ne_none_iff_exists'.mp (hsome e he)
  rw [hy, A.same_none]
  exact Bool.false_ne_true

theorem objects_eraseP [DecidableEq ω] (hsome : ∀ e ∈ es, e.2 ≠ none) (x : ω) :
    objects (es.eraseP fun e ↦ A.overridables.same e.2 (some x)) = (objects es).erase x := by
  induction es with
  | nil => rfl
  | cons e es ih =>
    obtain ⟨p, item⟩ := e
    cases item with
    | none => exact absurd rfl (hsome _ List.mem_cons_self)
    | some y =>
      have hrest := ih fun e he ↦ hsome e (List.mem_cons_of_mem _ he)
      rw [List.eraseP_cons]
      by_cases hy : y = x
      · rw [(A.same_some y x).mpr hy, objects_cons, hy, List.erase_cons_head]
        rfl
      · have hsame : A.overridables.same (some y) (some x) = false :=
          Bool.eq_false_iff.mpr fun h ↦ hy ((A.same_some y x).mp h)
        rw [hsame, objects_cons, List.erase_cons_tail (by simpa using hy), ← hrest]
        rfl

end Addresses

/-! ### Calls -/

variable [DecidableEq ω]

/-- What a call does to the threads in the list. -/
def OtherCall.attach (xs : List ω) : OtherCall ι ω → List ω
  | addCiThread (some x) _ true _ => if x ∈ xs then xs else xs ++ [x]
  | deleteCiThread (some x) true _ => xs.erase x
  | _ => xs

/-- No null pointer is added: `Run` would use it. -/
def OtherCall.Allowed : OtherCall ι ω → Prop
  | addCiThread none _ _ _ => False
  | _ => True

instance : (call : OtherCall ι ω) → Decidable call.Allowed
  | .addCiThread none _ _ _ => isFalse id
  | .addCiThread (some _) .. | .deleteCiThread .. | .setState .. | .endThread => isTrue trivial

theorem OtherCall.attach_nodup (call : OtherCall ι ω) {xs : List ω} (h : xs.Nodup) :
    (call.attach xs).Nodup := by
  unfold attach
  split
  · split
    · exact h
    · next hx =>
      refine List.nodup_append.mpr ⟨h, List.nodup_singleton _, fun y hy z hz ↦ ?_⟩
      rintro rfl
      exact hx (List.mem_singleton.mp hz ▸ hy)
  · exact h.erase _
  · exact h

/-- The list is in order, without null pointers and duplicates. -/
structure Orderly (w : CiThreadComplex ι ω) : Prop extends Listed w where
  nodup : w.attached.Nodup

/-- What calls leave. -/
structure Amended (calls : List (OtherCall ι ω)) (w w' : CiThreadComplex ι ω) : Prop where
  attached : w'.attached = calls.foldl OtherCall.attach w.attached
  bExit : w'.bExit = true ↔ w.bExit = true ∨ .endThread ∈ calls
  state : w'.state = w.state
  procs : w'.procs = w.procs
  threads : ∀ x, (∀ st, .setState x st ∉ calls) → w'.threads x = w.threads x

variable {w w' w'' : CiThreadComplex ι ω}

theorem Amended.refl (w : CiThreadComplex ι ω) : Amended [] w w :=
  ⟨rfl, by simp, rfl, rfl, fun _ _ ↦ rfl⟩

theorem Amended.append {calls calls' : List (OtherCall ι ω)} (h : Amended calls w w')
    (h' : Amended calls' w' w'') : Amended (calls ++ calls') w w'' where
  attached := by rw [h'.attached, h.attached, List.foldl_append]
  bExit := by rw [h'.bExit, h.bExit, List.mem_append, or_assoc]
  state := h'.state.trans h.state
  procs := h'.procs.trans h.procs
  threads x hx := (h'.threads x fun st hst ↦ hx st (List.mem_append_right _ hst)).trans
    (h.threads x fun st hst ↦ hx st (List.mem_append_left _ hst))

variable [DecidableEq ι] {A : Address ω}

omit [DecidableEq ω] [DecidableEq ι] in
/-- A call of the list changes nothing else. -/
theorem contract_onList {α : Type} {x : CiUtils.Call Unit ι ω α}
    {Q : α → CiUtils.Memory Unit ι ω → Prop} {E : CiUtils.Fault → Prop}
    (h : Contract (fun m ↦ m = w.ciThreads) x Q fun f _ ↦ E f) :
    Contract (fun u ↦ u = w) (onList x) (fun a u ↦ ∃ m, u = { w with ciThreads := m } ∧ Q a m)
      fun f _ ↦ E f := by
  rintro u rfl
  cases hx : x.run u.ciThreads with
  | ok a m =>
    rw [run_onList hx]
    exact ⟨m, rfl, h.of_ok rfl hx⟩
  | error f m =>
    rw [run_onList_error hx]
    exact h.of_error rfl hx

omit [DecidableEq ι] in
/-- A call of the list that changes it as is said of the threads in it. -/
theorem Orderly.amended (h : Orderly w) {m : CiUtils.Memory Unit ι ω} (hm : CiUtils.InOrder m)
    (hsome : ∀ e ∈ m.lists.entries (), e.2 ≠ none) {call : OtherCall ι ω}
    (hcall : call ≠ .endThread)
    (hlist : objects (m.lists.entries ()) = call.attach w.attached) :
    Orderly { w with ciThreads := m } ∧ Amended [call] w { w with ciThreads := m } := by
  refine ⟨⟨⟨hm, hsome⟩, ?_⟩, hlist, ?_, rfl, rfl, fun _ _ ↦ rfl⟩
  · show (objects (m.lists.entries ())).Nodup
    rw [hlist]
    exact call.attach_nodup h.nodup
  · simp [hcall.symm]

omit [DecidableEq ι] in
theorem Orderly.unamended (h : Orderly w) {m : CiUtils.Memory Unit ι ω}
    (hm : CiUtils.InOrder m) (hsame : m.lists = w.ciThreads.lists) {call : OtherCall ι ω}
    (hcall : call ≠ .endThread) (hattach : call.attach w.attached = w.attached) :
    Orderly { w with ciThreads := m } ∧ Amended [call] w { w with ciThreads := m } := by
  refine h.amended hm ?_ hcall ?_
  · rw [hsame]
    exact h.some
  · rw [hsame, hattach]
    rfl

theorem contract_addCiThread (h : Orderly w) (x : ω) (new : CiUtils.Allocator ι ω)
    (lock unlock : Bool) :
    Contract (fun u ↦ u = w) (addCiThread A new lock unlock (some x))
      (fun _ u ↦ Orderly u ∧ Amended [.addCiThread (some x) new lock unlock] w u)
      fun f _ ↦ f = .badAlloc := by
  have hlist := CiUtils.contract_listStep (v := A.overridables) h.inOrder
    (s := ⟨.addItem () (some x), new, some (lock, unlock), true⟩) trivial
  refine (contract_onList hlist).mono (fun _ hu ↦ hu) ?_ fun _ _ hf ↦ hf
  rintro ret u ⟨m, rfl, hm, hmeets⟩
  have hany := any_same_iff A h.some x
  cases lock with
  | false => exact h.unamended hm hmeets.2 (by simp) rfl
  | true =>
    obtain ⟨ret', -, -, hchange⟩ := hmeets
    by_cases hx : x ∈ w.attached
    · rw [CiUtils.Lists.has, if_pos (hany.mpr hx)] at hchange
      exact h.unamended hm hchange (by simp) (by rw [OtherCall.attach, if_pos hx])
    · rw [CiUtils.Lists.has, if_neg fun hsame ↦ hx (hany.mp hsame)] at hchange
      obtain ⟨p, -, hchange⟩ := hchange
      have hentries : m.lists.entries () = w.ciThreads.lists.entries () ++ [(p, some x)] := by
        simp only [hchange, CiUtils.Lists.set, Function.update_self]
      refine h.amended hm ?_ (by simp) ?_
      · rw [hentries]
        intro e he
        rcases List.mem_append.mp he with he | he
        · exact h.some e he
        · rw [List.mem_singleton.mp he]
          exact Option.some_ne_none x
      · rw [hentries, OtherCall.attach, if_neg hx, objects, List.filterMap_append]
        rfl

theorem contract_deleteCiThread (h : Orderly w) (pCiThread : Option ω) (lock unlock : Bool) :
    Contract (fun u ↦ u = w) (deleteCiThread A lock unlock pCiThread)
      (fun _ u ↦ Orderly u ∧ Amended [.deleteCiThread pCiThread lock unlock] w u)
      fun f _ ↦ f = .badAlloc := by
  have hlist := CiUtils.contract_listStep (v := A.overridables) h.inOrder
    (s := ⟨.deleteItem () pCiThread true, ⟨fun _ ↦ none, fun _ _ h ↦ by cases h⟩,
      some (lock, unlock), true⟩) trivial
  refine (contract_onList hlist).mono (fun _ hu ↦ hu) ?_ fun _ _ hf ↦ hf
  rintro ret u ⟨m, rfl, hm, hmeets⟩
  cases lock with
  | false => exact h.unamended hm hmeets.2 (by simp) (by cases pCiThread <;> rfl)
  | true =>
    obtain ⟨ret', -, -, hchange⟩ := hmeets
    cases pCiThread with
    | none =>
      rw [CiUtils.Lists.has, any_same_none A h.some, if_neg Bool.false_ne_true] at hchange
      exact h.unamended hm hchange (by simp) rfl
    | some x =>
      have hany := any_same_iff A h.some x
      by_cases hx : x ∈ w.attached
      · rw [CiUtils.Lists.has, if_pos (hany.mpr hx)] at hchange
        have hentries : m.lists.entries () = (w.ciThreads.lists.entries ()).eraseP fun e ↦
            A.overridables.same e.2 (some x) := by
          simp only [hchange, CiUtils.Lists.delete, CiUtils.Lists.set, Function.update_self]
        refine h.amended hm ?_ (by simp) ?_
        · rw [hentries]
          exact fun e he ↦ h.some e (List.mem_of_mem_eraseP he)
        · rw [hentries, objects_eraseP A h.some]
          rfl
      · rw [CiUtils.Lists.has, if_neg fun hsame ↦ hx (hany.mp hsame)] at hchange
        exact h.unamended hm hchange (by simp) (List.erase_of_not_mem hx)

/-- Any call of another thread. -/
theorem contract_otherCall (h : Orderly w) {call : OtherCall ι ω} (hallowed : call.Allowed) :
    Contract (fun u ↦ u = w) (call.run A) (fun _ u ↦ Orderly u ∧ Amended [call] w u)
      fun f _ ↦ f = .badAlloc := by
  cases call with
  | addCiThread pCiThread new lock unlock =>
    cases pCiThread with
    | none => exact hallowed.elim
    | some x =>
      exact (contract_addCiThread h x new lock unlock).bind fun _ ↦ Contract.pure fun _ hu ↦ hu
  | deleteCiThread pCiThread lock unlock =>
    exact (contract_deleteCiThread h pCiThread lock unlock).bind fun _ ↦
      Contract.pure fun _ hu ↦ hu
  | setState x st =>
    refine Contract.modify ?_
    rintro u rfl
    refine ⟨⟨⟨h.inOrder, h.some⟩, h.nodup⟩, rfl, by simp [CiThreadComplex.setThread], rfl, rfl,
      fun y hy ↦ ?_⟩
    refine Function.update_of_ne ?_ ..
    rintro rfl
    exact hy st List.mem_cons_self
  | endThread =>
    refine Contract.modify ?_
    rintro u rfl
    exact ⟨⟨⟨h.inOrder, h.some⟩, h.nodup⟩, rfl, by simp, rfl, rfl, fun _ _ ↦ rfl⟩

/-- Any number of them. -/
theorem contract_others (h : Orderly w) {calls : List (OtherCall ι ω)}
    (hallowed : ∀ call ∈ calls, call.Allowed) :
    Contract (fun u ↦ u = w) (others A calls) (fun _ u ↦ Orderly u ∧ Amended calls w u)
      fun f _ ↦ f = .badAlloc := by
  induction calls generalizing w with
  | nil =>
    refine Contract.pure ?_
    rintro u rfl
    exact ⟨h, .refl u⟩
  | cons call calls ih =>
    have hcall := contract_otherCall (A := A) h (hallowed _ List.mem_cons_self)
    refine hcall.bind fun _ ↦ ?_
    rintro u ⟨hu, hamended⟩
    have hrest := ih hu fun call hc ↦ hallowed call (List.mem_cons_of_mem _ hc)
    exact (hrest.mono (fun _ hv ↦ hv) (fun _ v hv ↦ ⟨hv.1, hamended.append hv.2⟩)
      fun _ _ hf ↦ hf) u rfl

end HeartbeatSpec.ThreadComplex
