import Mathlib.Data.List.Basic

/-!
# Frames in a stream

Library `Base`. A frame is a head of fixed size, and a body whose size is in the head. A stream
splits into frames, and a first part of one, in one way only; so what comes of a stream has its
frames however it has been cut into pieces.
-/

namespace HeartbeatSpec.Base

universe u

variable {β : Type u}

/-- The size of a head, and that of the body which a head announces. -/
structure FrameFormat (β : Type u) where
  head : Nat
  bodySize : List β → Nat
  head_pos : 0 < head

namespace FrameFormat

variable (F : FrameFormat β) {bs cs frame rest rest' : List β} {frames frames' : List (List β)}

/-- The size of the frame at the front, if the head of it is there. -/
def frameSize (bs : List β) : Nat := F.head + F.bodySize (bs.take F.head)

/-- One whole frame. -/
def IsFrame (bs : List β) : Prop := bs.length = F.frameSize bs

/-- A first part of a frame, or nothing. -/
def Incomplete (bs : List β) : Prop := bs.length < F.frameSize bs

/-- The stream is these frames, and a first part of one more. -/
structure Splits (bs : List β) (frames : List (List β)) (rest : List β) : Prop where
  all : frames.flatten ++ rest = bs
  frames : ∀ f ∈ frames, F.IsFrame f
  rest : F.Incomplete rest

variable {F}

theorem frameSize_append (h : F.head ≤ bs.length) (cs : List β) :
    F.frameSize (bs ++ cs) = F.frameSize bs := by
  rw [frameSize, frameSize, List.take_append_of_le_length h]

theorem IsFrame.head_le (h : F.IsFrame frame) : F.head ≤ frame.length := by
  rw [IsFrame, frameSize] at h
  omega

/-- What begins with a frame is not a first part of one. -/
theorem IsFrame.not_incomplete (h : F.IsFrame frame) (cs : List β) :
    ¬F.Incomplete (frame ++ cs) := by
  rw [Incomplete, frameSize_append h.head_le, ← show frame.length = F.frameSize frame from h,
    List.length_append]
  omega

/-- Two frames at the front of one stream are the same. -/
theorem IsFrame.eq_of_append (h : F.IsFrame bs) (h' : F.IsFrame cs)
    (heq : bs ++ rest = cs ++ rest') : bs = cs ∧ rest = rest' := by
  apply List.append_inj heq
  calc
    bs.length = F.frameSize bs := h
    _ = F.frameSize (bs ++ rest) := (frameSize_append h.head_le rest).symm
    _ = F.frameSize (cs ++ rest') := by rw [heq]
    _ = F.frameSize cs := frameSize_append h'.head_le rest'
    _ = cs.length := h'.symm

theorem incomplete_nil (F : FrameFormat β) : F.Incomplete [] :=
  Nat.lt_of_lt_of_le F.head_pos (Nat.le_add_right _ _)

namespace Splits

theorem nil (F : FrameFormat β) : F.Splits [] [] [] :=
  ⟨rfl, List.forall_mem_nil _, F.incomplete_nil⟩

/-- The rest becomes longer. -/
theorem more (h : F.Splits bs frames rest) (hrest : F.Incomplete (rest ++ cs)) :
    F.Splits (bs ++ cs) frames (rest ++ cs) :=
  ⟨by rw [← List.append_assoc, h.all], h.frames, hrest⟩

/-- The rest becomes a frame. -/
theorem complete (h : F.Splits bs frames rest) (hframe : F.IsFrame (rest ++ cs)) :
    F.Splits (bs ++ cs) (frames ++ [rest ++ cs]) [] where
  all := by
    rw [List.flatten_append, List.flatten_singleton, List.append_nil, ← List.append_assoc, h.all]
  frames := by
    intro f hf
    rcases List.mem_append.mp hf with hf | hf
    · exact h.frames f hf
    · rw [List.mem_singleton.mp hf]
      exact hframe
  rest := F.incomplete_nil

/-- A stream splits in one way. -/
theorem unique (h : F.Splits bs frames rest) (h' : F.Splits bs frames' rest') :
    frames = frames' ∧ rest = rest' := by
  induction frames generalizing bs frames' with
  | nil =>
    have hall := h.all
    rw [List.flatten_nil, List.nil_append] at hall
    cases frames' with
    | nil =>
      have hall' := h'.all
      rw [List.flatten_nil, List.nil_append] at hall'
      exact ⟨rfl, hall.trans hall'.symm⟩
    | cons f fs =>
      have hall' := h'.all
      rw [List.flatten_cons, List.append_assoc, ← hall] at hall'
      have hrest := h.rest
      rw [← hall'] at hrest
      exact absurd hrest ((h'.frames f List.mem_cons_self).not_incomplete _)
  | cons f fs ih =>
    have hall := h.all
    rw [List.flatten_cons, List.append_assoc] at hall
    cases frames' with
    | nil =>
      have hall' := h'.all
      rw [List.flatten_nil, List.nil_append, ← hall] at hall'
      have hrest := h'.rest
      rw [hall'] at hrest
      exact absurd hrest ((h.frames f List.mem_cons_self).not_incomplete _)
    | cons f' fs' =>
      have hall' := h'.all
      rw [List.flatten_cons, List.append_assoc] at hall'
      obtain ⟨rfl, htail⟩ := (h.frames f List.mem_cons_self).eq_of_append
        (h'.frames f' List.mem_cons_self) (hall.trans hall'.symm)
      obtain ⟨rfl, rfl⟩ := ih ⟨rfl, fun g hg ↦ h.frames g (List.mem_cons_of_mem f hg), h.rest⟩
        ⟨htail.symm, fun g hg ↦ h'.frames g (List.mem_cons_of_mem f hg), h'.rest⟩
      exact ⟨rfl, rfl⟩

end Splits

end FrameFormat

end HeartbeatSpec.Base
