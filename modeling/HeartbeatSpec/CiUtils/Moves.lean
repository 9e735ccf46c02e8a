import HeartbeatSpec.CiUtils.Links

/-!
# Moving link items

Library `CiUtils`. What each function that links a link item or takes one out does to the chains,
`examples/Externals/CiUtils/Src/LinkedListTemplate.h:174–212,343–418`: one chain gets longer or
shorter by one entry.
-/

namespace HeartbeatSpec.CiUtils
open HeartbeatSpec.Base

variable {κ ι ω : Type} [DecidableEq κ] [DecidableEq ι] {m : Memory κ ι ω} {chains : Chains κ ι ω}
  {loose : List ι} {o : Owner κ} {l : κ} {p : ι} {c : LinkItem ι ω}

/-- A link item in no chain is linked into an empty one. -/
theorem run_linkAtTail_nil (h : Represents m chains (p :: loose)) (hp : m.linkItems p = some c)
    (hc : chains o = []) :
    ∃ m', (linkAtTail o p).run m = .ok () m' ∧ Unchanged m m' ∧
      Represents m' (Function.update chains o [(p, c.item)]) loose ∧
      ∀ q, q ≠ p → m'.linkItems q = m.linkItems q := by
  have hempty : (m.queues o).head = none ∧ (m.queues o).tail = none :=
    ⟨h.head_eq_none_iff.mpr hc, h.tail_eq_none_iff.mpr hc⟩
  have hp' : (m.withQueue o fun q ↦ { q with head := some p, tail := some p }).linkItems p =
      some c := hp
  rw [linkAtTail, EStateM.run_bind, EStateM.run_get]
  dsimp only
  rw [if_pos hempty, EStateM.run_bind, run_modifyQueue]
  dsimp only
  rw [EStateM.run_bind, run_setPrevious hp']
  dsimp only
  rw [run_setNext (Function.update_self ..)]
  obtain ⟨hnew, hdistinct⟩ := List.nodup_cons.mp h.distinct
  refine ⟨_, rfl, ?_, h.change ?_ ?_ ?_ ?_ ?_ ?_ hdistinct ?_ ?_ ?_, fun q hqp ↦ ?_⟩
  · exact ((Unchanged.withQueue (fun _ ↦ by rfl) m).trans (.write ..)).trans (.write ..)
  · intro q _ hq
    have hqp : q ≠ p := by
      rintro rfl
      exact hq List.mem_cons_self
    simp [hqp]
  · intro o' ho
    simp [ho]
  · simp [firstOr]
  · simp
  · simp [firstOr]
  · simp [lastOr]
  · intro q hq
    have hqp : q ≠ p := by
      rintro rfl
      exact hnew hq
    simpa using hqp
  · intro q
    simp [hc, or_comm]
  · intro q
    by_cases hqp : q = p
    · rw [hqp, hp]
      simp
    · simp [hqp]
  · simp [hqp]

/-- A link item in no chain is linked behind the last of one. -/
theorem run_linkAtTail_append (h : Represents m chains (p :: loose)) (hp : m.linkItems p = some c)
    {es : List (Entry ι (Option ω))} {e : Entry ι (Option ω)} (hc : chains o = es ++ [e]) :
    ∃ m', (linkAtTail o p).run m = .ok () m' ∧ Unchanged m m' ∧
      Represents m' (Function.update chains o (es ++ [e] ++ [(p, c.item)])) loose ∧
      ∀ q, q ≠ p → q ∉ addresses (chains o) → m'.linkItems q = m.linkItems q := by
  have hout := h.outside p List.mem_cons_self o
  obtain ⟨hfree, hdistinct⟩ := List.nodup_cons.mp h.distinct
  have hlinked := h.linked o
  have hnodup := h.nodup o
  have htail : (m.queues o).tail = some e.1 := by
    rw [h.tail, hc, lastOr_append]
    rfl
  have hhead := h.head o
  rw [hc] at hlinked hnodup hout hhead
  have he : m.linkItems e.1 = some ⟨lastOr none es, none, e.2⟩ := hlinked.cell
  have hpe : p ≠ e.1 := by
    rintro rfl
    simp at hout
  have hnew : e.1 ∉ addresses es := by
    simp only [addresses_append, addresses_cons, addresses_nil, List.nodup_append] at hnodup
    intro hmem
    exact hnodup.2.2 e.1 hmem e.1 (by simp) rfl
  have hfull : ¬((m.queues o).head = none ∧ (m.queues o).tail = none) := by
    rw [htail]
    simp
  have hp' : (m.write e.1 (some ⟨lastOr none es, some p, e.2⟩)).linkItems p = some c := by
    rw [linkItems_write, Function.update_of_ne hpe, hp]
  rw [linkAtTail, EStateM.run_bind, EStateM.run_get]
  dsimp only
  rw [if_neg hfull, htail, EStateM.run_bind, run_setNext he]
  dsimp only
  rw [EStateM.run_bind, run_setPrevious hp']
  dsimp only
  rw [EStateM.run_bind, run_setNext (Function.update_self ..)]
  dsimp only
  rw [run_modifyQueue]
  have hsame (q : ι) (hqp : q ≠ p) (hq : q ∉ addresses (chains o)) :
      ((((m.write e.1 (some ⟨lastOr none es, some p, e.2⟩)).write p
        (some ⟨some e.1, c.next, c.item⟩)).write p
          (some ⟨some e.1, none, c.item⟩)).withQueue o
            fun q ↦ { q with tail := some p }).linkItems q =
        m.linkItems q := by
    have hqe : q ≠ e.1 := by
      rintro rfl
      simp [hc] at hq
    simp [hqp, hqe]
  refine ⟨_, rfl, ?_, h.change ?_ ?_ ?_ ?_ ?_ ?_ hdistinct ?_ ?_ ?_, hsame⟩
  · refine Unchanged.trans ?_ (Unchanged.withQueue (fun _ ↦ by rfl) _)
    exact ((Unchanged.write _ _ m).trans (.write ..)).trans (.write ..)
  · intro q hq hloose
    refine hsame q ?_ hq
    rintro rfl
    exact hloose List.mem_cons_self
  · intro o' ho
    simp [ho]
  · have hfront := (hlinked.retarget_next hnew (some p)).update_of_notMem hout
      (some ⟨some e.1, none, c.item⟩)
    simp only [linkItems_withQueue, linkItems_write, Function.update_idem]
    rw [linked_append]
    refine ⟨hfront, ?_, trivial⟩
    rw [Function.update_self, lastOr_append]
    rfl
  · rw [addresses_append, addresses_cons, addresses_nil, ← List.concat_eq_append]
    exact hnodup.concat hout
  · rw [queues_withQueue, Function.update_self]
    cases es <;> exact hhead
  · simp [lastOr]
  · intro q hq
    have hqp : q ≠ p := by
      rintro rfl
      exact hfree hq
    have hqo := h.outside q (List.mem_cons_of_mem p hq) o
    rw [hc] at hqo
    rw [addresses_append, List.mem_append, addresses_cons, addresses_nil, List.mem_singleton]
    exact not_or.mpr ⟨hqo, hqp⟩
  · intro q
    rw [addresses_append, List.mem_append, addresses_cons, addresses_nil, List.mem_singleton, hc,
      List.mem_cons]
    constructor
    · rintro (hq | hq | hq)
      · exact Or.inl (Or.inr hq)
      · exact Or.inr hq
      · exact Or.inl (Or.inl hq)
    · rintro ((hq | hq) | hq)
      · exact Or.inr (Or.inr hq)
      · exact Or.inl hq
      · exact Or.inr (Or.inl hq)
  · intro q
    by_cases hqp : q = p
    · rw [hqp, hp]
      simp
    · by_cases hqe : q = e.1
      · rw [hqe, he]
        simp [Ne.symm hpe]
      · simp [hqp, hqe]

/-- A link item in no chain is linked behind the tail of one. -/
theorem run_linkAtTail (h : Represents m chains (p :: loose)) (hp : m.linkItems p = some c)
    (o : Owner κ) :
    ∃ m', (linkAtTail o p).run m = .ok () m' ∧ Unchanged m m' ∧
      Represents m' (Function.update chains o (chains o ++ [(p, c.item)])) loose ∧
      ∀ q, q ≠ p → q ∉ addresses (chains o) → m'.linkItems q = m.linkItems q := by
  cases hc : chains o using List.reverseRecOn with
  | nil =>
    obtain ⟨m', hrun, hsame, hrepr, hframe⟩ := run_linkAtTail_nil h hp hc
    exact ⟨m', hrun, hsame, hrepr, fun q hq _ ↦ hframe q hq⟩
  | append_singleton es e _ =>
    rw [← hc]
    exact hc ▸ run_linkAtTail_append h hp hc

/-- Nothing is taken from an empty cache. -/
theorem run_rawDequeue_nil (h : Represents m chains loose) (hc : chains (.cache l) = []) :
    (rawDequeue l).run m = .ok none m := by
  rw [rawDequeue, EStateM.run_bind, EStateM.run_get]
  dsimp only
  rw [if_pos (h.head_eq_none_iff.mpr hc)]
  rfl

/-- From any other the first link item is taken. -/
theorem run_rawDequeue_cons (h : Represents m chains loose) {e : Entry ι (Option ω)}
    {es : List (Entry ι (Option ω))} (hc : chains (.cache l) = e :: es) :
    ∃ m', (rawDequeue l).run m = .ok (some e.1) m' ∧ Unchanged m m' ∧
      Represents m' (Function.update chains (.cache l) es) (e.1 :: loose) := by
  have hlinked := h.linked (.cache l)
  have hhead := h.head (.cache l)
  have htail := h.tail (.cache l)
  have hone := h.head_eq_tail_iff hc
  have hnot := (h.notMem_of_split [] hc).2
  rw [hc] at hlinked hhead htail
  have hfull : ¬(m.queues (.cache l)).head = none := by
    rw [hhead]
    simp [firstOr]
  rw [rawDequeue, EStateM.run_bind, EStateM.run_get]
  dsimp only
  rw [if_neg hfull]
  cases es with
  | nil =>
    rw [if_pos (hone.mpr rfl), hhead, EStateM.run_bind, run_modifyQueue]
    refine ⟨_, rfl, .withQueue (fun _ ↦ by rfl) m, h.detach [] _ hc ?_ ?_ ?_ ?_ ?_ ?_⟩
    · simp
    · intro o' ho
      simp [ho]
    · simp
    · simp [firstOr]
    · simp [lastOr]
    · simp
  | cons e' es =>
    have hmany : ¬(m.queues (.cache l)).head = (m.queues (.cache l)).tail := by
      rw [hone]
      simp
    have he : m.linkItems e.1 = some ⟨none, some e'.1, e.2⟩ := hlinked.1
    have he' : m.linkItems e'.1 = some ⟨some e.1, firstOr none es, e'.2⟩ := hlinked.2.1
    have hnew : e'.1 ∉ addresses es := (h.notMem_of_split [e] hc).2
    have hlater : (m.withQueue (.cache l) fun q ↦ { q with head := some e'.1 }).linkItems e'.1 =
        some ⟨some e.1, firstOr none es, e'.2⟩ := he'
    rw [if_neg hmany, hhead, firstOr, EStateM.run_bind, run_deref he]
    dsimp only
    rw [EStateM.run_bind, run_modifyQueue]
    dsimp only
    rw [EStateM.run_bind, run_setPrevious hlater]
    refine ⟨_, rfl, ?_, h.detach [] _ hc ?_ ?_ ?_ ?_ ?_ ?_⟩
    · exact (Unchanged.withQueue (fun _ ↦ by rfl) m).trans (.write ..)
    · intro q hq
      have hqe : q ≠ e'.1 := by
        rintro rfl
        simp [hc] at hq
      simp [hqe]
    · intro o' ho
      simp [ho]
    · exact hlinked.2.retarget_previous hnew none
    · simp [firstOr]
    · rw [queues_write, queues_withQueue, Function.update_self]
      exact htail
    · intro q
      by_cases hqe : q = e'.1
      · rw [hqe, he']
        simp
      · simp [hqe]

/-- The links around the head are closed. -/
theorem run_bypass_head (h : Represents m chains loose) {e e' : Entry ι (Option ω)}
    {es : List (Entry ι (Option ω))} (hc : chains (.list l) = e :: e' :: es) :
    ∃ m', (bypass l e.1).run m = .ok () m' ∧ Unchanged m m' ∧
      Represents m' (Function.update chains (.list l) (e' :: es)) (e.1 :: loose) := by
  have hlinked := h.linked (.list l)
  have hhead := h.head (.list l)
  have htail := h.tail (.list l)
  have hnot := (h.notMem_of_split [] hc).2
  have hnew := (h.notMem_of_split [e] hc).2
  rw [hc] at hlinked hhead htail
  have he : m.linkItems e.1 = some ⟨none, some e'.1, e.2⟩ := hlinked.1
  have he' : m.linkItems e'.1 = some ⟨some e.1, firstOr none es, e'.2⟩ := hlinked.2.1
  have hne : e'.1 ≠ e.1 := by
    intro heq
    rw [addresses_cons, heq] at hnot
    exact hnot List.mem_cons_self
  have hlater : (m.write e.1 (some ⟨none, none, e.2⟩)).linkItems e'.1 =
      some ⟨some e.1, firstOr none es, e'.2⟩ := by
    rw [linkItems_write, Function.update_of_ne hne, he']
  rw [bypass, EStateM.run_bind, EStateM.run_get]
  dsimp only
  rw [hhead, firstOr, if_pos rfl, EStateM.run_bind, run_deref he]
  dsimp only
  rw [EStateM.run_bind, run_setNext he]
  dsimp only
  rw [EStateM.run_bind, run_setPrevious hlater]
  dsimp only
  rw [run_modifyQueue]
  refine ⟨_, rfl, ?_, h.detach [] _ hc ?_ ?_ ?_ ?_ ?_ ?_⟩
  · refine Unchanged.trans ?_ (Unchanged.withQueue (fun _ ↦ by rfl) _)
    exact (Unchanged.write _ _ m).trans (.write ..)
  · intro q hq
    rw [hc, addresses_cons, addresses_cons, List.mem_cons, List.mem_cons, not_or, not_or] at hq
    simp [hq.1, hq.2.1]
  · intro o' ho
    simp [ho]
  · rw [linkItems_withQueue, linkItems_write, linkItems_write,
      Function.update_comm hne.symm]
    exact (hlinked.2.retarget_previous hnew none).update_of_notMem hnot _
  · simp [firstOr]
  · rw [queues_withQueue, Function.update_self]
    exact htail
  · intro q
    by_cases hqe' : q = e'.1
    · rw [hqe', he']
      simp
    · by_cases hqe : q = e.1
      · rw [hqe, he]
        simp [hne.symm]
      · simp [hqe, hqe']

/-- The links around the tail are closed. -/
theorem run_bypass_tail (h : Represents m chains loose) {e e' : Entry ι (Option ω)}
    {es : List (Entry ι (Option ω))} (hc : chains (.list l) = es ++ [e', e]) :
    ∃ m', (bypass l e.1).run m = .ok () m' ∧ Unchanged m m' ∧
      Represents m' (Function.update chains (.list l) (es ++ [e'])) (e.1 :: loose) := by
  have hlinked := h.linked (.list l)
  have hhead := h.head (.list l)
  have htail := h.tail (.list l)
  have hc' : chains (.list l) = (es ++ [e']) ++ e :: [] := by rw [hc, List.append_assoc]; rfl
  have hnot := (h.notMem_of_split (es ++ [e']) hc').1
  have hnew := (h.notMem_of_split es hc).1
  rw [hc'] at hlinked htail
  rw [hc] at hhead
  have he : m.linkItems e.1 = some ⟨some e'.1, none, e.2⟩ := by
    rw [hlinked.cell, lastOr_append]
    rfl
  have hfront := (linked_append.mp hlinked).1
  have he' : m.linkItems e'.1 = some ⟨lastOr none es, some e.1, e'.2⟩ := hfront.cell
  have hne : e'.1 ≠ e.1 := by
    rintro heq
    simp [heq] at hnot
  have hnothead : ¬(m.queues (.list l)).head = some e.1 := by
    rw [hhead]
    cases es with
    | nil => simpa [firstOr] using hne
    | cons e'' es =>
      rw [List.cons_append, firstOr, Option.some.injEq]
      intro heq
      simp [heq] at hnot
  have htail' : (m.queues (.list l)).tail = some e.1 := by
    rw [htail, lastOr_append]
    rfl
  have hlater : (m.write e.1 (some ⟨none, none, e.2⟩)).linkItems e'.1 =
      some ⟨lastOr none es, some e.1, e'.2⟩ := by
    rw [linkItems_write, Function.update_of_ne hne, he']
  rw [bypass, EStateM.run_bind, EStateM.run_get]
  dsimp only
  rw [if_neg hnothead, if_pos htail', htail', EStateM.run_bind, run_deref he]
  dsimp only
  rw [EStateM.run_bind, run_setPrevious he]
  dsimp only
  rw [EStateM.run_bind, run_setNext hlater]
  dsimp only
  rw [run_modifyQueue]
  rw [← List.append_nil (es ++ [e'])]
  refine ⟨_, rfl, ?_, h.detach (es ++ [e']) [] hc' ?_ ?_ ?_ ?_ ?_ ?_⟩
  · refine Unchanged.trans ?_ (Unchanged.withQueue (fun _ ↦ by rfl) _)
    exact (Unchanged.write _ _ m).trans (.write ..)
  · intro q hq
    have hqe : q ≠ e.1 := by
      rintro rfl
      simp [hc] at hq
    have hqe' : q ≠ e'.1 := by
      rintro rfl
      simp [hc] at hq
    simp [hqe, hqe']
  · intro o' ho
    simp [ho]
  · rw [List.append_nil, linkItems_withQueue, linkItems_write, linkItems_write,
      Function.update_comm hne.symm]
    exact (hfront.retarget_next hnew none).update_of_notMem hnot _
  · rw [queues_withQueue, Function.update_self]
    cases es <;> exact hhead
  · rw [queues_withQueue, Function.update_self, List.append_nil, lastOr_append]
    rfl
  · intro q
    by_cases hqe' : q = e'.1
    · rw [hqe', he']
      simp
    · by_cases hqe : q = e.1
      · rw [hqe, he]
        simp [hne.symm]
      · simp [hqe, hqe']

/-- The links around any other are closed. -/
theorem run_bypass_middle (h : Represents m chains loose) {e before after : Entry ι (Option ω)}
    {es es' : List (Entry ι (Option ω))}
    (hc : chains (.list l) = (es ++ [before]) ++ e :: after :: es') :
    ∃ m', (bypass l e.1).run m = .ok () m' ∧ Unchanged m m' ∧
      Represents m' (Function.update chains (.list l) ((es ++ [before]) ++ after :: es'))
        (e.1 :: loose) := by
  have hlinked := h.linked (.list l)
  have hhead := h.head (.list l)
  have htail := h.tail (.list l)
  have hsplit : chains (.list l) = es ++ before :: e :: after :: es' := by
    rw [hc, List.append_assoc]
    rfl
  have hsplit' : chains (.list l) = (es ++ [before] ++ [e]) ++ after :: es' := by simp [hc]
  have hnot := h.notMem_of_split _ hc
  have hbefore := h.notMem_of_split _ hsplit
  have hafter := h.notMem_of_split _ hsplit'
  rw [hc] at hlinked hhead htail
  obtain ⟨hfront, hcell, hback⟩ := linked_append.mp hlinked
  have he : m.linkItems e.1 = some ⟨some before.1, some after.1, e.2⟩ := by
    rw [hcell, lastOr_append]
    rfl
  have hb : m.linkItems before.1 = some ⟨lastOr none es, some e.1, before.2⟩ := hfront.cell
  have ha : m.linkItems after.1 = some ⟨some e.1, firstOr none es', after.2⟩ := hback.1
  have hbe : before.1 ≠ e.1 := by
    intro heq
    simp [heq] at hbefore
  have hae : after.1 ≠ e.1 := by
    intro heq
    simp [heq] at hafter
  have hab : after.1 ≠ before.1 := by
    intro heq
    simp [heq] at hafter
  have hnothead : ¬(m.queues (.list l)).head = some e.1 := by
    rw [hhead]
    cases es with
    | nil => simpa [firstOr] using hbe
    | cons e'' es =>
      rw [List.cons_append, List.cons_append, firstOr, Option.some.injEq]
      intro heq
      simp [heq] at hnot
  have hnottail : ¬(m.queues (.list l)).tail = some e.1 := by
    rw [htail, lastOr_append, lastOr]
    cases hes : es' using List.reverseRecOn with
    | nil => simpa [lastOr] using hae
    | append_singleton es'' e'' _ =>
      rw [← List.cons_append, lastOr_append, lastOr, lastOr, Option.some.injEq]
      intro heq
      simp [hes, heq] at hnot
  have hstill : (m.write before.1 (some ⟨lastOr none es, some after.1, before.2⟩)).linkItems e.1 =
      some ⟨some before.1, some after.1, e.2⟩ := by
    rw [linkItems_write, Function.update_of_ne hbe.symm, he]
  have hstill' : (m.write before.1
      (some ⟨lastOr none es, some after.1, before.2⟩)).linkItems after.1 =
        some ⟨some e.1, firstOr none es', after.2⟩ := by
    rw [linkItems_write, Function.update_of_ne hab, ha]
  rw [bypass, EStateM.run_bind, EStateM.run_get]
  dsimp only
  rw [if_neg hnothead, if_neg hnottail, EStateM.run_bind, run_deref he]
  dsimp only
  rw [EStateM.run_bind, run_setNext hb]
  dsimp only
  rw [EStateM.run_bind, run_deref hstill]
  dsimp only
  rw [run_setPrevious hstill']
  refine ⟨_, rfl, (Unchanged.write _ _ m).trans (.write ..), h.detach _ _ hc ?_ ?_ ?_ ?_ ?_ ?_⟩
  · intro q hq
    have hqb : q ≠ before.1 := by
      rintro rfl
      simp [hc] at hq
    have hqa : q ≠ after.1 := by
      rintro rfl
      simp [hc] at hq
    simp [hqb, hqa]
  · intro o' _
    rfl
  · rw [linkItems_write, linkItems_write, linked_append]
    have hbnot : before.1 ∉ addresses (after :: es') :=
      fun hmem ↦ hbefore.2 (List.mem_cons_of_mem _ hmem)
    have hanot : after.1 ∉ addresses (es ++ [before]) := by
      intro hmem
      apply hafter.1
      rw [addresses_append]
      exact List.mem_append_left _ hmem
    constructor
    · exact (hfront.retarget_next hbefore.1 (some after.1)).update_of_notMem hanot _
    · rw [lastOr_append]
      exact (hback.update_of_notMem hbnot _).retarget_previous hafter.2 (some before.1)
  · rw [queues_write, queues_write]
    cases es <;> exact hhead
  · rw [queues_write, queues_write, htail]
    simp [lastOr]
  · intro q
    by_cases hqa : q = after.1
    · rw [hqa, ha]
      simp
    · by_cases hqb : q = before.1
      · rw [hqb, hb]
        simp [hab.symm]
      · simp [hqa, hqb]

/-- An entry of a list with others is taken out of it. -/
theorem run_bypass (h : Represents m chains loose) {e : Entry ι (Option ω)}
    {es es' : List (Entry ι (Option ω))} (hc : chains (.list l) = es ++ e :: es')
    (hmany : es ++ es' ≠ []) :
    ∃ m', (bypass l e.1).run m = .ok () m' ∧ Unchanged m m' ∧
      Represents m' (Function.update chains (.list l) (es ++ es')) (e.1 :: loose) := by
  cases es using List.reverseRecOn with
  | nil =>
    cases es' with
    | nil => exact absurd rfl hmany
    | cons after es' => exact run_bypass_head h hc
  | append_singleton es before _ =>
    cases es' with
    | nil =>
      rw [List.append_nil]
      exact run_bypass_tail h (by rw [hc, List.append_assoc]; rfl)
    | cons after es' => exact run_bypass_middle h hc

omit [DecidableEq κ] in
/-- A new link item is in no chain yet. -/
theorem run_newLinkItem (h : Represents m chains loose) (a : Allocator ι ω) :
    (newLinkItem a).run m = .error .badAlloc m ∨
      ∃ p, (newLinkItem a).run m = .ok p (m.write p (some ⟨none, none, none⟩)) ∧
        Represents (m.write p (some ⟨none, none, none⟩)) chains (p :: loose) := by
  rw [newLinkItem, EStateM.run_bind, EStateM.run_get]
  dsimp only
  cases hnew : a.new m.linkItems with
  | none => exact Or.inl rfl
  | some p =>
    have hfresh := a.fresh _ p hnew
    have hunused : ¬(p ∈ loose ∨ ∃ o, p ∈ addresses (chains o)) := by
      rw [← h.isSome_iff, hfresh]
      simp
    rw [not_or, not_exists] at hunused
    refine Or.inr ⟨p, rfl, ?_, h.nodup, h.disjoint, ?_, ?_, ?_, h.head, h.tail⟩
    · exact fun o ↦ (h.linked o).update_of_notMem (hunused.2 o) _
    · exact List.nodup_cons.mpr ⟨hunused.1, h.distinct⟩
    · intro q hq
      rcases List.mem_cons.mp hq with rfl | hq
      · exact hunused.2
      · exact h.outside q hq
    · intro q
      by_cases hqp : q = p
      · rw [hqp]
        simp
      · simp [hqp, h.isSome_iff q]

omit [DecidableEq κ] in
/-- A link item in no chain is deleted. -/
theorem run_deleteLinkItem_loose (h : Represents m chains (p :: loose)) :
    (deleteLinkItem p).run m = .ok () (m.write p none) ∧
      Represents (m.write p none) chains loose := by
  obtain ⟨c, hcell⟩ := h.loose_cell
  have hout := h.outside p List.mem_cons_self
  obtain ⟨hfree, hdistinct⟩ := List.nodup_cons.mp h.distinct
  refine ⟨run_deleteLinkItem hcell, ?_, h.nodup, h.disjoint, hdistinct, ?_, ?_, h.head, h.tail⟩
  · exact fun o ↦ (h.linked o).update_of_notMem (hout o) _
  · exact fun q hq ↦ h.outside q (List.mem_cons_of_mem p hq)
  · intro q
    by_cases hqp : q = p
    · rw [hqp]
      simp [hout, hfree]
    · simp [hqp, h.isSome_iff q]

omit [DecidableEq κ] in
/-- The object of a link item in no chain is set. -/
theorem run_setItem_loose (h : Represents m chains (p :: loose)) (hp : m.linkItems p = some c)
    (x : Option ω) :
    (setItem (some p) x).run m = .ok () (m.write p (some { c with item := x })) ∧
      Represents (m.write p (some { c with item := x })) chains (p :: loose) := by
  have hout := h.outside p List.mem_cons_self
  refine ⟨run_setItem hp x, ?_, h.nodup, h.disjoint, h.distinct, h.outside, ?_, h.head, h.tail⟩
  · exact fun o ↦ (h.linked o).update_of_notMem (hout o) _
  · intro q
    rw [← h.isSome_iff]
    by_cases hqp : q = p
    · rw [hqp, hp]
      simp
    · simp [hqp]

/-- That of an entry is changed. -/
theorem run_setItem_entry (h : Represents m chains loose) {e : Entry ι (Option ω)}
    {es es' : List (Entry ι (Option ω))} (hc : chains o = es ++ e :: es') (x : Option ω) :
    ∃ m', (setItem (some e.1) x).run m = .ok () m' ∧ Unchanged m m' ∧
      Represents m' (Function.update chains o (es ++ (e.1, x) :: es')) loose := by
  have hlinked := h.linked o
  have hnot := h.notMem_of_split _ hc
  have hnodup := h.nodup o
  have hhead := h.head o
  have htail := h.tail o
  rw [hc] at hlinked hnodup hhead htail
  have hsame : addresses (es ++ (e.1, x) :: es') = addresses (chains o) := by
    rw [hc, addresses_append, addresses_append]
    rfl
  refine ⟨_, run_setItem hlinked.cell x, .write _ _ m,
    h.change ?_ ?_ ?_ ?_ ?_ ?_ h.distinct ?_ ?_ ?_⟩
  · intro q hq _
    have hqe : q ≠ e.1 := by
      rintro rfl
      simp [hc] at hq
    simp [hqe]
  · intro o' _
    rfl
  · exact hlinked.set_item hnot.1 hnot.2 x
  · rw [hsame, hc]
    exact hnodup
  · rw [queues_write]
    cases es <;> exact hhead
  · rw [queues_write, htail, lastOr_append, lastOr_append]
    rfl
  · rw [hsame]
    exact fun q hq ↦ h.outside q hq o
  · intro q
    rw [hsame]
  · intro q
    by_cases hqe : q = e.1
    · rw [hqe, hlinked.cell]
      simp
    · simp [hqe]

end HeartbeatSpec.CiUtils
