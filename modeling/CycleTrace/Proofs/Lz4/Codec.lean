/-
What a frame in progress carries.

A frame carries the data of the steps that led to it, next to the bytes that
these steps wrote. Every step keeps this. Once the frame is ended, what was
written is known as a frame and expands to the data.
-/

import CycleTrace.Lz4.Codec

namespace CycleTrace
namespace Lz4
namespace Coder

section Coder

variable [Coder]

/-- A frame in progress with what was written for it, and the data it was given. -/
def Carries (frame : Frame) (written data : List UInt8) : Prop :=
  ∃ steps, afterSteps steps = (written, frame) ∧ steps.flatMap Step.data = data

variable {frame : Frame} {written data : List UInt8}

theorem carries_start : Carries start [] [] :=
  ⟨[], rfl, rfl⟩

theorem Carries.step (hCarries : Carries frame written data) (next : Step) :
    Carries (Coder.step frame next).2 (written ++ (Coder.step frame next).1)
      (data ++ next.data) := by
  obtain ⟨steps, hSteps, rfl⟩ := hCarries
  refine ⟨steps ++ [next], ?_, ?_⟩
  · unfold afterSteps at hSteps ⊢
    rw [List.foldl_append, hSteps]
    rfl
  · rw [List.flatMap_append, List.flatMap_singleton]

theorem Carries.write (hCarries : Carries frame written data) (more : List UInt8) :
    Carries (Coder.write frame more).2 (written ++ (Coder.write frame more).1) (data ++ more) :=
  hCarries.step (.write more)

theorem Carries.flush (hCarries : Carries frame written data) :
    Carries (Coder.flush frame).2 (written ++ (Coder.flush frame).1) data := by
  have hStep := hCarries.step .flush
  rwa [Step.data, List.append_nil] at hStep

end Coder

section Codec

variable [Codec] {frame : Frame} {written data : List UInt8}

/-- A frame that is ended is known as one. -/
theorem Carries.isFrame_finish (hCarries : Carries frame written data) :
    isFrame (written ++ finish frame) = true := by
  obtain ⟨steps, hSteps, _⟩ := hCarries
  have hEnded := Codec.isFrame_ended steps
  rwa [ended, hSteps] at hEnded

/-- A frame that is ended expands to the data of all steps. -/
theorem Carries.expand_finish (hCarries : Carries frame written data) :
    expand (written ++ finish frame) = .ok data := by
  obtain ⟨steps, hSteps, rfl⟩ := hCarries
  have hEnded := Codec.expand_ended steps
  rwa [ended, hSteps] at hEnded

end Codec

end Coder
end Lz4
end CycleTrace
