import Mathlib.Data.Set.Card
import HeartbeatSpec.Thread.Exclusion

/-!
# Mutual exclusion of runs

Library `Thread`. The value of `m_semExit` and the number of parties that hold it are one
together, in every interleaving. At most one run is therefore under way, `Post` finds the
semaphore at zero, and a creation that fails gives back what its start has taken
(`legacy_compatible/legacy_support.cpp:258–339`).
-/

namespace HeartbeatSpec.Thread
open HeartbeatSpec.Base

/-- The parties that hold the semaphore: runs up to `NotifyExit`, starts up to the result of
`pthread_create`, and waiters up to their `Post`. -/
def Sys.holders (s : Sys) : Set Tid := {t | (s.pc t).holds = true}

/-- The next step of the party is a `Post`. -/
def Pc.Posts : Pc → Prop
  | .failPost | .notifyExit .. | .waitPost _ => True
  | _ => False

/-- The party has seen `pthread_create` fail and has not given the semaphore back yet. -/
def Pc.Failing : Pc → Prop
  | .failExit | .failHandle | .failPost => True
  | _ => False

/-- What the semaphore promises in a state. -/
structure TokenLaw (s : Sys) : Prop where
  finite : s.holders.Finite
  one : s.shared.semExit + s.holders.ncard = 1
  one_run : ∀ t u r q, s.Active t r → s.Active u q → t = u
  post_at_zero : ∀ t, (s.pc t).Posts → s.shared.semExit = 0
  failing_goes_on : ∀ t ch, (s.pc t).Failing → (step s (t, ch)).isSome
  start_passes : ∀ t ch k, s.pc t = .prepareWait k → s.shared.semExit = 1 →
    (step s (t, ch)).isSome

/-- A transition in which `pthread_create` fails. -/
def FailsCreate (x : Transition Sys (Tid × Choice)) : Prop :=
  (∃ run, x.source.pc x.label.1 = .create run) ∧ x.label.2.result = false

/-- A transition in which party `t`, whose creation has failed, posts: the semaphore is free
for the next start. -/
def GivesBack (t : Tid) (x : Transition Sys (Tid × Choice)) : Prop :=
  x.label.1 = t ∧ x.source.pc t = .failPost ∧ x.source.shared.semExit = 0 ∧
    x.target.shared.semExit = 1 ∧ x.target.pc t = .idle

/-! ### States -/

/-- One token is one in total. -/
theorem Exclusive.one {s : Sys} (h : Exclusive s) :
    s.holders.Finite ∧ s.shared.semExit + s.holders.ncard = 1 := by
  obtain ⟨o, ho, hsem⟩ := h
  cases o with
  | none =>
    have hnone : s.holders = ∅ := by
      ext t
      exact (ho t).trans (iff_of_false (by simp) id)
    rw [hnone, hsem, Set.ncard_empty]
    exact ⟨Set.finite_empty, rfl⟩
  | some u =>
    have hone : s.holders = {u} := by
      ext t
      exact (ho t).trans (Option.some_inj.trans eq_comm)
    rw [hone, hsem, Set.ncard_singleton]
    exact ⟨Set.finite_singleton u, rfl⟩

/-- While somebody holds the token it is not at the semaphore. -/
theorem Exclusive.semExit_eq_zero {s : Sys} (h : Exclusive s) {t : Tid}
    (ht : (s.pc t).holds = true) : s.shared.semExit = 0 := by
  obtain ⟨o, ho, hsem⟩ := h
  rw [hsem, (ho t).mp ht]
  rfl

/-- Who posts holds the token. -/
theorem Pc.holds_of_posts {p : Pc} (h : p.Posts) : p.holds = true := by
  cases p <;> first | exact h.elim | rfl

/-- No step of a failed creation is ever blocked. -/
theorem step_isSome_of_failing {s : Sys} {t : Tid} (ch : Choice) (h : (s.pc t).Failing) :
    (step s (t, ch)).isSome := by
  cases hp : s.pc t with
  | failExit | failHandle | failPost => simp [step, hp, localStep]
  | _ =>
    rw [hp] at h
    exact h.elim

/-- A start passes the wait of `PrepareRunning` while the semaphore is free. -/
theorem step_isSome_of_prepareWait {s : Sys} {t : Tid} {k : Start} (ch : Choice)
    (h : s.pc t = .prepareWait k) (hsem : s.shared.semExit = 1) : (step s (t, ch)).isSome := by
  simp [step, h, localStep, hsem]

/-- The token invariant is all that the law needs. -/
theorem Exclusive.tokenLaw {s : Sys} (h : Exclusive s) : TokenLaw s where
  finite := h.one.1
  one := h.one.2
  one_run _ _ _ _ ht hu := h.active_unique ht hu
  post_at_zero _ ht := h.semExit_eq_zero (Pc.holds_of_posts ht)
  failing_goes_on _ ch ht := step_isSome_of_failing ch ht
  start_passes _ ch _ ht hsem := step_isSome_of_prepareWait ch ht hsem

/-! ### Runs -/

/-- A step leaves every busy party but its own where it is. -/
theorem step_pc_of_ne {s s' : Sys} {l : Tid × Choice} (h : step s l = some s') {t : Tid}
    (ht : t ≠ l.1) (hbusy : s.pc t ≠ .idle) : s'.pc t = s.pc t := by
  obtain ⟨u, ch⟩ := l
  rcases step_cases h with ⟨sh, p, -, rfl⟩ | ⟨run, -, -, hidle, -, rfl⟩
  · exact Function.update_of_ne ht p s.pc
  · have hworker : t ≠ ch.worker := by
      rintro rfl
      exact hbusy hidle
    simp only [spawn, Function.update_of_ne hworker, Function.update_of_ne ht]

/-- A party whose creation fails is about to give the token back. -/
theorem failing_of_failsCreate {s s' : Sys} {l : Tid × Choice} (h : step s l = some s')
    (hf : FailsCreate ⟨s, l, s'⟩) : (s'.pc l.1).Failing := by
  obtain ⟨t, ch⟩ := l
  obtain ⟨⟨run, hp⟩, hr⟩ := hf
  have hp' : s.pc t = .create run := hp
  have hr' : ch.result = false := hr
  simp only [step, hp', localStep, hr'] at h
  cases h
  simp only [Function.update_self]
  trivial

/-- It stays so until it posts. -/
theorem failing_step {s s' : Sys} {l : Tid × Choice} (hx : Exclusive s) (h : step s l = some s')
    {t : Tid} (ht : (s.pc t).Failing) : (s'.pc t).Failing ∨ GivesBack t ⟨s, l, s'⟩ := by
  obtain ⟨u, ch⟩ := l
  by_cases hut : t = u
  · subst hut
    cases hp : s.pc t with
    | failExit | failHandle =>
      simp only [step, hp, localStep, Option.map_some, Option.some.injEq] at h
      subst h
      left
      simp only [Function.update_self]
      trivial
    | failPost =>
      have hzero := hx.semExit_eq_zero (t := t) (by rw [hp]; rfl)
      simp only [step, hp, localStep, Option.map_some, Option.some.injEq] at h
      subst h
      right
      refine ⟨rfl, hp, hzero, ?_, Function.update_self t _ _⟩
      show s.shared.semExit + 1 = 1
      rw [hzero]
    | _ =>
      rw [hp] at ht
      exact ht.elim
  · have hbusy : s.pc t ≠ .idle := by
      intro hidle
      rw [hidle] at ht
      exact ht
    left
    rw [step_pc_of_ne h hut hbusy]
    exact ht

/-- A creation that has failed has given the token back since, or is about to. -/
theorem failing_or_givesBack {tr : List (Transition Sys (Tid × Choice))} {s : Sys}
    (h : Runs step Sys.initial tr s) {pre post : List (Transition Sys (Tid × Choice))}
    {x : Transition Sys (Tid × Choice)} (htr : tr = pre ++ x :: post) (hx : FailsCreate x) :
    (s.pc x.label.1).Failing ∨ ∃ y ∈ post, GivesBack x.label.1 y := by
  induction h generalizing post with
  | nil => simp at htr
  | @snoc t s' l tr hruns hstep ih =>
    have hexcl : Exclusive t := (hruns.invariant (fun _ _ _ hI hst ↦ exclusive_step hI hst)
      exclusive_initial).1
    rcases snoc_eq_append_cons htr with ⟨rfl, -⟩ | ⟨rest, rfl, hrest⟩
    · exact Or.inl (failing_of_failsCreate hstep hx)
    · rcases ih hrest with hfailing | ⟨y, hy, hgives⟩
      · rcases failing_step hexcl hstep hfailing with hstill | hgives
        · exact Or.inl hstill
        · exact Or.inr ⟨_, List.mem_append_right _ List.mem_cons_self, hgives⟩
      · exact Or.inr ⟨y, List.mem_append_left _ hy, hgives⟩

/-- Mutual exclusion: in every interleaving the token law holds in every state, and whoever
has seen `pthread_create` fail has posted since, or is about to with nothing in its way. -/
theorem mutual_exclusion {tr : List (Transition Sys (Tid × Choice))} {s : Sys}
    (h : Runs step Sys.initial tr s) :
    TokenLaw s ∧ ∀ pre x post, tr = pre ++ x :: post → FailsCreate x →
      (s.pc x.label.1).Failing ∨ ∃ y ∈ post, GivesBack x.label.1 y := by
  have hx : Exclusive s := (h.invariant (fun _ _ _ hI hst ↦ exclusive_step hI hst)
    exclusive_initial).1
  exact ⟨hx.tokenLaw, fun pre x post htr hf ↦ failing_or_givesBack h htr hf⟩

/-- Client 0 calls `CreateThread` and `pthread_create` fails; client 1 then calls
`RunThreadHere` and passes the wait. -/
def failedCreateSchedule : List (Tid × Choice) :=
  List.replicate 9 (0, ⟨.start .createThread, false, 7, 0⟩) ++
    List.replicate 5 (1, ⟨.start .runThreadHere, true, 0, 0⟩)

/-- A start passes after a creation that has failed, and the law holds of it. -/
theorem mutual_exclusion_failed :
    (exec step Sys.initial failedCreateSchedule).map (fun s ↦ (s.pc 0, s.pc 1, s.shared)) =
        some (.idle, .loop 1 false 0 0 .isDone, ⟨false, .ready, 0, 0, 2⟩) ∧
      ∃ s, exec step Sys.initial failedCreateSchedule = some s ∧ TokenLaw s := by
  obtain ⟨s, hs⟩ : ∃ s, exec step Sys.initial failedCreateSchedule = some s := ⟨_, rfl⟩
  exact ⟨by decide, s, hs, (mutual_exclusion (Runs.of_exec hs)).1⟩

end HeartbeatSpec.Thread
