/-
A codec for LZ4 frames.

A compressed file is a frame. A frame is written step by step: it takes data,
may be asked to write out what it holds back, and is ended. How data is cut into
blocks, what a block looks like and when it is written is up to the coder, and
so is how the content of a file is expanded.

Two things are relied on. A frame that was ended opens with the bytes by which
a compressed file is known, and it expands to the data of all its steps, in
order and without loss. A coder that does this is a codec.
-/

namespace CycleTrace
namespace Lz4

/-- The four bytes that open a frame. -/
def magic : List UInt8 := [0x04, 0x22, 0x4d, 0x18]

/-- Whether data starts as a frame. -/
def isFrame (data : List UInt8) : Bool :=
  data.take 4 == magic

/-- What happens to a frame in progress. -/
inductive Step where
  | write (data : List UInt8)
  | flush
deriving DecidableEq, Repr

/-- The data that goes into a frame in a step. -/
def Step.data : Step → List UInt8
  | .write data => data
  | .flush => []

/-- Frames in progress, with the bytes that each step writes, and how content is
expanded. A fault of expanding comes with a text for people. -/
class Coder where
  Frame : Type
  start : Frame
  write : Frame → List UInt8 → List UInt8 × Frame
  flush : Frame → List UInt8 × Frame
  finish : Frame → List UInt8
  expand : List UInt8 → Except String (List UInt8)

namespace Coder

variable [Coder]

/-- Takes a step. -/
def step (frame : Frame) : Step → List UInt8 × Frame
  | .write data => write frame data
  | .flush => flush frame

/-- What is written once one more step is taken, and the frame after it. -/
def afterStep (progress : List UInt8 × Frame) (next : Step) : List UInt8 × Frame :=
  (progress.1 ++ (step progress.2 next).1, (step progress.2 next).2)

/-- What steps in order write, and the frame after them. -/
def afterSteps (steps : List Step) : List UInt8 × Frame :=
  steps.foldl afterStep ([], start)

/-- A frame that is ended after steps. -/
def ended (steps : List Step) : List UInt8 :=
  (afterSteps steps).1 ++ finish (afterSteps steps).2

end Coder

/-- A coder whose frames are known as frames and expand to what went into them. -/
class Codec extends Coder where
  isFrame_ended : ∀ steps, isFrame (Coder.ended steps) = true
  expand_ended : ∀ steps, expand (Coder.ended steps) = .ok (steps.flatMap Step.data)

end Lz4
end CycleTrace
