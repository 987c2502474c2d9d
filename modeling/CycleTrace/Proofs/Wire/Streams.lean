/-
Streams followed to their end.

`Decoder.Follows` is a description of a stream: it falls into commands, each of
which can be read with what the commands before it established. Writers are
shown to produce such streams, and here such streams are shown to decode, with
exactly their commands and without a fault. The two sides meet at the
description and need not know of each other.
-/

import CycleTrace.Proofs.Wire.Commands

namespace CycleTrace
namespace Wire

/-- A decoder takes the given bytes as the given commands. -/
inductive Decoder.Follows : Decoder → List UInt8 → List Command → Decoder → Prop
  | nil (decoder : Decoder) : Follows decoder [] [] decoder
  | cons {before middle after : Decoder} {first rest : List UInt8} {command : Command}
      {commands : List Command}
      (hWaiting : before.failed = false)
      (hRead : Reading.Yields Reading.command before first command middle)
      (hRest : Follows middle rest commands after) :
      Follows before (first ++ rest) (command :: commands) after

namespace Decoder

theorem Follows.single {before after : Decoder} {bytes : List UInt8} {command : Command}
    (hWaiting : before.failed = false)
    (hRead : Reading.Yields Reading.command before bytes command after) :
    Follows before bytes [command] after := by
  rw [← List.append_nil bytes]
  exact .cons hWaiting hRead (.nil after)

theorem Follows.append {before middle after : Decoder} {first second : List UInt8}
    {commands others : List Command} (hFirst : Follows before first commands middle)
    (hSecond : Follows middle second others after) :
    Follows before (first ++ second) (commands ++ others) after := by
  induction hFirst with
  | nil decoder => exact hSecond
  | cons hWaiting hRead hRest ih =>
      rw [List.append_assoc, List.cons_append]
      exact .cons hWaiting hRead (ih hSecond)

/-- A command has a header at least. -/
theorem ne_nil_of_yields_command {before after : Decoder} {bytes : List UInt8}
    {command : Command} (hRead : Reading.Yields Reading.command before bytes command after) :
    bytes ≠ [] := by
  intro hEmpty
  subst hEmpty
  have hNothing : Reading.command (before.placed 0 []) = .error .truncated (before.placed 0 []) :=
    rfl
  have hCommand := hRead 0 []
  rw [List.append_nil, hNothing] at hCommand
  cases hCommand

theorem next_of_yields_command {before after : Decoder} {bytes : List UInt8}
    {command : Command} (hWaiting : before.failed = false)
    (hRead : Reading.Yields Reading.command before bytes command after) (offset : Nat)
    (rest : List UInt8) :
    (before.placed offset (bytes ++ rest)).next
      = (.command command, after.placed (offset + bytes.length) rest) := by
  have hFailed : (before.placed offset (bytes ++ rest)).failed = false := hWaiting
  have hMore : (before.placed offset (bytes ++ rest)).rest.isEmpty = false := by
    simp [placed, ne_nil_of_yields_command hRead]
  unfold next
  rw [hFailed, hMore, hRead offset rest]
  simp only [Bool.false_eq_true, if_false]

/-- Reading on from a stream that can be followed gives its commands. Every
command takes a byte, so the number of bytes is fuel enough. -/
theorem Follows.readFrom {before after : Decoder} {bytes : List UInt8}
    {commands : List Command} (hFollows : Follows before bytes commands after)
    (hWaiting : after.failed = false) (hSeen : after.versionSeen = true)
    (earlier : List (Nat × Command)) (offset : Nat) {fuel : Nat} (hFuel : bytes.length ≤ fuel) :
    (Decoder.readFrom earlier fuel (before.placed offset bytes)).fault = none ∧
    (Decoder.readFrom earlier fuel (before.placed offset bytes)).steps.map (·.2)
      = earlier.reverse.map (·.2) ++ commands := by
  induction hFollows generalizing earlier offset fuel with
  | nil decoder =>
      rw [List.append_nil]
      cases fuel with
      | zero => exact ⟨rfl, rfl⟩
      | succ fuel =>
          have hNext : (decoder.placed offset []).next = (.finished, decoder.placed offset []) := by
            simp [next, placed, hWaiting, hSeen]
          rw [Decoder.readFrom, hNext]
          exact ⟨rfl, rfl⟩
  | @cons before middle after first rest command commands hFailed hRead hRest ih =>
      have hFirst := List.length_pos_iff.mpr (ne_nil_of_yields_command hRead)
      rw [List.length_append] at hFuel
      cases fuel with
      | zero => omega
      | succ fuel =>
          rw [Decoder.readFrom, next_of_yields_command hFailed hRead]
          have hLater := ih hWaiting hSeen ((offset + first.length, command) :: earlier)
            (offset + first.length) (show rest.length ≤ fuel by omega)
          simpa [placed] using hLater

/-- A decoder takes pieces one at a time, each as one command, and waits for
more after each of them. -/
inductive FollowsEach : Decoder → List (List UInt8) → List Command → Decoder → Prop
  | nil (decoder : Decoder) : FollowsEach decoder [] [] decoder
  | cons {before middle after : Decoder} {piece : List UInt8} {pieces : List (List UInt8)}
      {command : Command} {commands : List Command}
      (hPiece : before.Follows piece [command] middle)
      (hWaiting : middle.failed = false) (hSeen : middle.versionSeen = true)
      (hRest : FollowsEach middle pieces commands after) :
      FollowsEach before (piece :: pieces) (command :: commands) after

theorem FollowsEach.follows {before after : Decoder} {pieces : List (List UInt8)}
    {commands : List Command} (hEach : FollowsEach before pieces commands after) :
    before.Follows pieces.flatten commands after := by
  induction hEach with
  | nil decoder => exact .nil decoder
  | cons hPiece _ _ _ ih => exact hPiece.append ih

theorem FollowsEach.append {before middle after : Decoder} {pieces more : List (List UInt8)}
    {commands others : List Command} (hFirst : FollowsEach before pieces commands middle)
    (hSecond : FollowsEach middle more others after) :
    FollowsEach before (pieces ++ more) (commands ++ others) after := by
  induction hFirst with
  | nil decoder => exact hSecond
  | cons hPiece hWaiting hSeen _ ih => exact .cons hPiece hWaiting hSeen (ih hSecond)

/-- Some pieces that come first hold the commands that come first. -/
theorem FollowsEach.take {before after : Decoder} {pieces : List (List UInt8)}
    {commands : List Command} (hEach : FollowsEach before pieces commands after) (count : Nat) :
    ∃ middle, FollowsEach before (pieces.take count) (commands.take count) middle := by
  induction hEach generalizing count with
  | nil decoder =>
      rw [List.take_nil, List.take_nil]
      exact ⟨decoder, .nil decoder⟩
  | @cons before middle after piece pieces command commands hPiece hWaiting hSeen _ ih =>
      cases count with
      | zero => exact ⟨before, .nil before⟩
      | succ count =>
          obtain ⟨later, hLater⟩ := ih count
          exact ⟨later, .cons hPiece hWaiting hSeen hLater⟩

/-- A decoder that has taken something waits for more. -/
theorem FollowsEach.waits {before after : Decoder} {pieces : List (List UInt8)}
    {commands : List Command} (hEach : FollowsEach before pieces commands after)
    (hSome : pieces ≠ []) : after.failed = false ∧ after.versionSeen = true := by
  induction hEach with
  | nil decoder => exact absurd rfl hSome
  | @cons before middle after piece pieces command commands _ hWaiting hSeen hRest ih =>
      cases hRest with
      | nil => exact ⟨hWaiting, hSeen⟩
      | cons => exact ih (List.cons_ne_nil _ _)

end Decoder

/-- A stream that can be followed from its start decodes without a fault. -/
theorem decode_of_follows {bytes : List UInt8} {commands : List Command} {after : Decoder}
    (hFollows : (Decoder.ofBytes []).Follows bytes commands after)
    (hWaiting : after.failed = false) (hSeen : after.versionSeen = true) :
    decode bytes = .ok commands := by
  have hStart : Decoder.ofBytes bytes = (Decoder.ofBytes []).placed 0 bytes := rfl
  obtain ⟨hFault, hSteps⟩ :=
    hFollows.readFrom hWaiting hSeen [] 0 (Nat.le_succ bytes.length)
  unfold decode Decoder.transcript
  rw [hStart]
  simp only [Decoder.placed] at hFault hSteps ⊢
  rw [hFault]
  exact congrArg Except.ok hSteps

/-- A stream that ends after a piece decodes to the commands of its pieces. -/
theorem decode_of_followsEach {pieces : List (List UInt8)} {commands : List Command}
    {after : Decoder} (hEach : (Decoder.ofBytes []).FollowsEach pieces commands after)
    (hSome : pieces ≠ []) : decode pieces.flatten = .ok commands :=
  decode_of_follows hEach.follows (hEach.waits hSome).1 (hEach.waits hSome).2

end Wire
end CycleTrace
