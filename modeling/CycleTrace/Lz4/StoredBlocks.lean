/-
The codec of stored blocks.

The frames of this codec keep their data as it is, in independent blocks without
checksums. It expands any frame, whichever coder wrote it.
-/

import CycleTrace.Lz4.Codec
import CycleTrace.Proofs.Lz4.Frame

namespace CycleTrace
namespace Lz4

/-- The content of a frame, or what is wrong with it in words. -/
def Frame.expand (content : List UInt8) : Except String (List UInt8) :=
  match Frame.read content with
  | .ok output => .ok output.toList
  | .error defect => .error defect.message

/-- A coder whose frames store their blocks as they are. -/
@[reducible] def storingCoder : Coder where
  Frame := Frame.Writer
  start := {}
  write := Frame.Writer.write
  flush := Frame.Writer.flush
  finish := Frame.Writer.finish
  expand := Frame.expand

/-- A frame of stored blocks carries the data of every step. -/
theorem carries_step {frame : Frame.Writer} {written data : List UInt8}
    (hCarries : frame.Carries written data) (next : Step) :
    (storingCoder.step frame next).2.Carries (written ++ (storingCoder.step frame next).1)
      (data ++ next.data) := by
  cases next with
  | write more => exact hCarries.write more
  | flush =>
      rw [Step.data, List.append_nil]
      exact hCarries.flush

theorem carries_afterSteps (steps : List Step) :
    (storingCoder.afterSteps steps).2.Carries (storingCoder.afterSteps steps).1
      (steps.flatMap Step.data) := by
  have hLater (steps : List Step) (frame : Frame.Writer) (written data : List UInt8)
      (hCarries : frame.Carries written data) :
      let after := steps.foldl storingCoder.afterStep (written, frame)
      after.2.Carries after.1 (data ++ steps.flatMap Step.data) := by
    induction steps generalizing frame written data with
    | nil =>
        rw [List.flatMap_nil, List.append_nil]
        exact hCarries
    | cons next steps ih =>
        rw [List.flatMap_cons, ← List.append_assoc]
        exact ih _ _ _ (carries_step hCarries next)
  exact hLater steps {} [] [] .unopened

/-- Frames of stored blocks are known as frames and lose nothing. -/
instance storedBlocks : Codec where
  toCoder := storingCoder
  isFrame_ended steps := (carries_afterSteps steps).isFrame_finish
  expand_ended steps := by
    have hRead : Frame.read (storingCoder.ended steps) = .ok (steps.flatMap Step.data).toArray :=
      (carries_afterSteps steps).read_finish
    change Frame.expand (storingCoder.ended steps) = _
    rw [Frame.expand, hRead]

end Lz4
end CycleTrace
