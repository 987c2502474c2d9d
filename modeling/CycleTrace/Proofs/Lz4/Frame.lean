/-
Frames read back what was written into them.

A finished frame is a header, stored blocks and an end mark, and its content is
the blocks one after the other. A writer in progress has written the header and
some of the blocks and holds back the rest of its data; how the data is cut
into blocks depends on how it arrived, its order does not. So the frame that
ends with any sequence of writes and flushes reads as the data of all writes.
-/

import CycleTrace.Lz4.Frame
import CycleTrace.Proofs.Wire.Numbers

namespace CycleTrace
namespace Lz4
namespace Frame

/-! ### Reading stored blocks -/

/-- What one block of a frame can hold. -/
def BlockSize.Fits (size : BlockSize) (block : List UInt8) : Prop :=
  block ≠ [] ∧ block.length ≤ size.limit

theorem BlockSize.limit_pos (size : BlockSize) : 0 < size.limit := by
  cases size with
  | small => decide
  | medium => decide
  | large => decide

theorem BlockSize.limit_lt_storedMark (size : BlockSize) : size.limit < storedMark := by
  cases size with
  | small => decide
  | medium => decide
  | large => decide

/-- The header that a reader finds in a frame of a given block size. -/
def Header.ofSize (size : BlockSize) : Header :=
  { blockLimit := size.limit }

theorem blockLimit?_descriptor (size : BlockSize) :
    blockLimit? size.descriptor = some size.limit := by
  cases size with
  | small => rfl
  | medium => rfl
  | large => rfl

theorem reserved_descriptor (size : BlockSize) : hasFlag size.descriptor 0x8f = false := by
  cases size with
  | small => rfl
  | medium => rfl
  | large => rfl

/-- A header names a version, independent blocks and nothing else. -/
theorem readHeader_headerBytes (size : BlockSize) (rest : List UInt8) :
    readHeader ((headerBytes size).drop 4 ++ rest) = .ok (Header.ofSize size, rest) := by
  have hFields : (headerBytes size).drop 4 ++ rest
      = 0x60 :: size.descriptor :: headerChecksum [0x60, size.descriptor] :: rest := rfl
  have hVersion : (0x60 : UInt8) &&& 0xc0 = 0x40 := rfl
  have hIndependent : hasFlag 0x60 0x20 = true := rfl
  have hBlockChecksums : hasFlag 0x60 0x10 = false := rfl
  have hContentSize : hasFlag 0x60 0x08 = false := rfl
  have hContentChecksum : hasFlag 0x60 0x04 = false := rfl
  have hReserved : hasFlag 0x60 0x02 = false := rfl
  have hDictionary : hasFlag 0x60 0x01 = false := rfl
  rw [hFields]
  unfold readHeader
  simp [hVersion, hIndependent, hBlockChecksums, hContentSize, hContentChecksum, hReserved,
    hDictionary, reserved_descriptor, blockLimit?_descriptor]
  rfl

theorem takeExactly_append (block rest : List UInt8) :
    takeExactly block.length (block ++ rest) = .ok (block, rest) := by
  simp [takeExactly]

/-- A stored block is read as it is. -/
theorem readBlocks_blockBytes {size : BlockSize} {block : List UInt8} (hFits : size.Fits block)
    (fuel : Nat) (rest : List UInt8) (ring : Ring) (output : Array UInt8) :
    ∃ ring', readBlocks (Header.ofSize size) (fuel + 1) (blockBytes block ++ rest) ring output
      = readBlocks (Header.ofSize size) fuel rest ring' (output ++ block) := by
  obtain ⟨hSome, hLimit⟩ := hFits
  have hMark := size.limit_lt_storedMark
  have hLength := List.length_pos_iff.mpr hSome
  have hSizeBytes := Wire.length_littleEndian 4 (storedMark + block.length)
  have hTake : (blockBytes block ++ rest).take 4
      = Wire.littleEndian 4 (storedMark + block.length) := by
    rw [blockBytes, List.append_assoc, List.take_append_of_le_length (by omega),
      List.take_of_length_le (by omega)]
  have hDrop : (blockBytes block ++ rest).drop 4 = block ++ rest := by
    rw [blockBytes, List.append_assoc, List.drop_append_of_le_length (by omega),
      List.drop_of_length_le (by omega), List.nil_append]
  have hSize : Wire.ofLittleEndian (Wire.littleEndian 4 (storedMark + block.length))
      = storedMark + block.length := by
    refine Wire.ofLittleEndian_littleEndian_of_lt ?_
    have hWord : Wire.wordSize 4 = 2 * storedMark := rfl
    omega
  have hNonzero : storedMark + block.length ≠ 0 := by omega
  have hLengthField : (storedMark + block.length) % storedMark = block.length := by
    rw [Nat.add_mod_left]
    exact Nat.mod_eq_of_lt (by omega)
  have hWithin : ¬ block.length > (Header.ofSize size).blockLimit := Nat.not_lt.mpr hLimit
  have hGrown : (output ++ block).size ≠ output.size := by
    rw [← Array.length_toList, Array.toList_appendList, List.length_append, Array.length_toList]
    omega
  refine ⟨({} : Ring).advance ((output ++ block).size - output.size), ?_⟩
  rw [readBlocks, hTake, hDrop, hSize]
  simp only [hLengthField, hSizeBytes, Nat.lt_irrefl, if_false, if_neg hNonzero, if_neg hWithin,
    takeExactly_append, Nat.le_add_right, if_true]
  change (if (output ++ block).size = output.size then _ else _) = _
  rw [if_neg hGrown]
  rfl

private theorem appendList_append (output : Array UInt8) (first second : List UInt8) :
    output ++ (first ++ second) = output ++ first ++ second := by
  apply Array.ext'
  simp only [Array.toList_appendList, List.append_assoc]

/-- Blocks are read in order up to the end mark. -/
theorem readBlocks_blocks {size : BlockSize} {blocks : List (List UInt8)}
    (hFits : ∀ block ∈ blocks, size.Fits block) (ring : Ring) (output : Array UInt8) {fuel : Nat}
    (hFuel : blocks.length < fuel) :
    readBlocks (Header.ofSize size) fuel (blocks.flatMap blockBytes ++ endMark) ring output
      = .ok (output ++ blocks.flatten) := by
  induction blocks generalizing ring output fuel with
  | nil =>
      cases fuel with
      | zero => omega
      | succ fuel =>
          rw [List.flatten_nil, Array.appendList_nil]
          rfl
  | cons block blocks ih =>
      cases fuel with
      | zero => omega
      | succ fuel =>
          obtain ⟨ring', hBlock⟩ := readBlocks_blockBytes (hFits block List.mem_cons_self) fuel
            (blocks.flatMap blockBytes ++ endMark) ring output
          rw [List.flatMap_cons, List.append_assoc, hBlock,
            ih (fun other hOther => hFits other (List.mem_cons_of_mem _ hOther)) ring' _
              (Nat.lt_of_succ_lt_succ hFuel),
            List.flatten_cons, appendList_append]

theorem length_le_length_flatMap_blockBytes (blocks : List (List UInt8)) :
    blocks.length ≤ (blocks.flatMap blockBytes).length := by
  induction blocks with
  | nil => exact Nat.le_refl 0
  | cons block blocks ih =>
      rw [List.flatMap_cons, List.length_append, List.length_cons, blockBytes,
        List.length_append, Wire.length_littleEndian]
      omega

/-- A finished frame reads as its blocks one after the other. -/
theorem read_blocks {size : BlockSize} {blocks : List (List UInt8)}
    (hFits : ∀ block ∈ blocks, size.Fits block) :
    read (headerBytes size ++ blocks.flatMap blockBytes ++ endMark)
      = .ok blocks.flatten.toArray := by
  have hHeader := readHeader_headerBytes size (blocks.flatMap blockBytes ++ endMark)
  have hFuel : blocks.length < (blocks.flatMap blockBytes ++ endMark).length + 1 := by
    rw [List.length_append]
    have hCount := length_le_length_flatMap_blockBytes blocks
    omega
  have hBlocks := readBlocks_blocks hFits {} #[] hFuel
  rw [List.append_assoc]
  unfold read
  let readOpened (opened : Header × List UInt8) :=
    readBlocks opened.1 (opened.2.length + 1) opened.2 {} #[]
  change (readHeader ((headerBytes size).drop 4 ++ (blocks.flatMap blockBytes ++ endMark)) >>=
    readOpened) = _
  rw [hHeader]
  change readBlocks (Header.ofSize size) ((blocks.flatMap blockBytes ++ endMark).length + 1)
    (blocks.flatMap blockBytes ++ endMark) {} #[] = _
  rw [hBlocks]
  simp

/-! ### Writing -/

/-- What a writer has written so far, and the data it was given. Data goes into
blocks in the order in which it came, and what is not in a block is pending. -/
inductive Writer.Carries : Writer → List UInt8 → List UInt8 → Prop
  | unopened : Carries {} [] []
  | opened {size : BlockSize} {blocks : List (List UInt8)} {pending : Array UInt8}
      (hBlocks : ∀ block ∈ blocks, size.Fits block) (hPending : pending.size ≤ size.limit) :
      Carries { opened := some size, pending } (headerBytes size ++ blocks.flatMap blockBytes)
        (blocks.flatten ++ pending.toList)

/-- Splitting off full blocks cuts the data and loses none of it. -/
theorem fullBlocks_cut (size : BlockSize) (count : Nat) (data : List UInt8)
    (hEnough : count * size.limit ≤ data.length) :
    ∃ (blocks : List (List UInt8)) (rest : List UInt8), (∀ block ∈ blocks, size.Fits block) ∧
      fullBlocks size.limit count data = (blocks.flatMap blockBytes, rest) ∧
      data = blocks.flatten ++ rest ∧ rest.length = data.length - count * size.limit := by
  induction count generalizing data with
  | zero => exact ⟨[], data, by simp, rfl, rfl, by simp⟩
  | succ count ih =>
      have hLimit := size.limit_pos
      rw [Nat.succ_mul] at hEnough
      obtain ⟨blocks, rest, hBlocks, hSplit, hData, hRest⟩ := ih (data.drop size.limit) (by
        rw [List.length_drop]
        omega)
      have hFirst : (data.take size.limit).length = size.limit := by
        rw [List.length_take]
        omega
      refine ⟨data.take size.limit :: blocks, rest, ?_, ?_, ?_, ?_⟩
      · intro block hBlock
        rcases List.mem_cons.mp hBlock with rfl | hLater
        · refine ⟨?_, Nat.le_of_eq hFirst⟩
          apply List.ne_nil_of_length_pos
          omega
        · exact hBlocks block hLater
      · simp only [fullBlocks, hSplit, List.flatMap_cons]
      · rw [List.flatten_cons, List.append_assoc, ← hData, List.take_append_drop]
      · rw [hRest, List.length_drop, Nat.succ_mul]
        omega

namespace Writer

theorem Carries.collect {size : BlockSize} {blocks : List (List UInt8)}
    (hBlocks : ∀ block ∈ blocks, size.Fits block) (pending : Array UInt8)
    (opened : Option BlockSize) (data : List UInt8) :
    Carries (collect ⟨opened, pending⟩ size data).2
      (headerBytes size ++ blocks.flatMap blockBytes ++ (collect ⟨opened, pending⟩ size data).1)
      (blocks.flatten ++ pending.toList ++ data) := by
  unfold Writer.collect
  by_cases hRoom : pending.size + data.length ≤ size.limit
  · simp only [if_pos hRoom, List.append_nil]
    have hSize : (pending ++ data).size = pending.size + data.length := by
      rw [← Array.length_toList, Array.toList_appendList, List.length_append, Array.length_toList]
    rw [← hSize] at hRoom
    have hCarries := Carries.opened hBlocks hRoom
    rwa [Array.toList_appendList, ← List.append_assoc] at hCarries
  · simp only [if_neg hRoom]
    have hLimit := size.limit_pos
    have hTotal : (pending.toList ++ data).length = pending.size + data.length := by
      rw [List.length_append, Array.length_toList]
    -- a block is written only when more data than it can hold has arrived
    have hEnough := Nat.div_mul_le_self (pending.size + data.length - 1) size.limit
    have hLast := Nat.lt_div_mul_add (a := pending.size + data.length - 1) hLimit
    obtain ⟨full, rest, hFull, hSplit, hData, hRest⟩ :=
      fullBlocks_cut size ((pending.size + data.length - 1) / size.limit)
        (pending.toList ++ data) (by omega)
    rw [hSplit]
    dsimp only
    rw [List.append_assoc, List.append_assoc, hData, ← List.append_assoc blocks.flatten,
      ← List.flatMap_append, ← List.flatten_append]
    have hAll : ∀ block ∈ blocks ++ full, size.Fits block := fun block hBlock =>
      (List.mem_append.mp hBlock).elim (hBlocks block) (hFull block)
    have hLimited : rest.toArray.size ≤ size.limit := by
      rw [List.size_toArray]
      omega
    exact Carries.opened hAll hLimited

theorem Carries.write {frame : Writer} {written data : List UInt8}
    (hCarries : frame.Carries written data) (more : List UInt8) :
    (frame.write more).2.Carries (written ++ (frame.write more).1) (data ++ more) := by
  unfold Writer.write
  cases more with
  | nil =>
      simp only [List.isEmpty_nil, if_true, List.append_nil]
      exact hCarries
  | cons byte more =>
      simp only [List.isEmpty_cons, Bool.false_eq_true, if_false]
      cases hCarries with
      | unopened =>
          have hNone : ∀ block ∈ ([] : List (List UInt8)),
              (BlockSize.forLength (byte :: more).length).Fits block := by simp
          have hCollect := Carries.collect hNone #[] none (byte :: more)
          simpa using hCollect
      | opened hBlocks hPending => exact Carries.collect hBlocks _ _ (byte :: more)

theorem Carries.flush {frame : Writer} {written data : List UInt8}
    (hCarries : frame.Carries written data) :
    frame.flush.2.Carries (written ++ frame.flush.1) data := by
  unfold Writer.flush
  cases hCarries with
  | unopened => exact .unopened
  | @opened size blocks pending hBlocks hPending =>
      by_cases hNothing : pending.isEmpty
      · simp only [hNothing, if_true, List.append_nil]
        exact .opened hBlocks hPending
      · simp only [hNothing]
        have hLast : size.Fits pending.toList := by
          refine ⟨?_, ?_⟩
          · simpa using hNothing
          · rwa [Array.length_toList]
        have hAll : ∀ block ∈ blocks ++ [pending.toList], size.Fits block := by
          intro block hBlock
          rcases List.mem_append.mp hBlock with hEarlier | hSingle
          · exact hBlocks block hEarlier
          · rw [List.mem_singleton.mp hSingle]
            exact hLast
        have hNothingPending : (#[] : Array UInt8).size ≤ size.limit := Nat.zero_le _
        simpa using Carries.opened hAll hNothingPending

theorem opened_flush (frame : Writer) : frame.flush.2.opened = frame.opened := by
  unfold Writer.flush
  split <;> rfl

theorem pending_flush (frame : Writer) : frame.flush.2.pending = #[] := by
  unfold Writer.flush
  split
  · rename_i hNothing
    simpa using hNothing
  · rfl

theorem Carries.read_endMark {frame : Writer} {written data : List UInt8}
    (hCarries : frame.Carries written data) (hOpened : frame.opened.isSome = true)
    (hFlushed : frame.pending = #[]) : read (written ++ endMark) = .ok data.toArray := by
  cases hCarries with
  | unopened => cases hOpened
  | opened hBlocks hPending =>
      change _ = #[] at hFlushed
      subst hFlushed
      rw [read_blocks hBlocks, List.append_nil]

/-- A frame that is ended reads as the data of all writes. -/
theorem Carries.read_finish {frame : Writer} {written data : List UInt8}
    (hCarries : frame.Carries written data) :
    read (written ++ frame.finish) = .ok data.toArray := by
  have hFlush := hCarries.flush
  unfold Writer.finish
  cases hOpened : frame.opened with
  | none =>
      cases hCarries with
      | unopened =>
          have hNone : ∀ block ∈ ([] : List (List UInt8)), BlockSize.small.Fits block := by simp
          exact read_blocks hNone
      | opened _ _ => cases hOpened
  | some size =>
      have hStillOpened : frame.flush.2.opened.isSome = true := by rw [opened_flush, hOpened]; rfl
      have hEnded := hFlush.read_endMark hStillOpened (pending_flush frame)
      rwa [List.append_assoc] at hEnded

/-- A frame that is ended is known as one. -/
theorem Carries.isFrame_finish {frame : Writer} {written data : List UInt8}
    (hCarries : frame.Carries written data) : isFrame (written ++ frame.finish) = true := by
  cases hCarries with
  | unopened => rfl
  | opened _ _ =>
      rw [List.append_assoc]
      rfl

end Writer

end Frame
end Lz4
end CycleTrace
