/-
A stream that is cut short.

A stream that can be read to its end falls into pieces, one for each command.
Cut anywhere, it still gives the commands of the pieces that are whole, at the
same offsets. A cut between two pieces goes unnoticed, a cut inside a piece is
reported as such and as nothing else, and without any bytes there is no
version. What is appended to the stream comes after its commands.
-/

import CycleTrace.Proofs.Wire.Readings
import CycleTrace.Proofs.Wire.Streams

namespace CycleTrace
namespace Wire
namespace Decoder

variable {decoder before after : Decoder} {pieces : List (List UInt8)} {commands : List Command}
  {earlier : List (Nat × Command)} {offset fuel : Nat}

/-! ### Steps -/

/-- What asking a decoder for a command leads to: the end of the stream with a
version or without one, a command, or a fault of the command. -/
theorem next_cases (hWaiting : decoder.failed = false) :
    (decoder.rest = [] ∧ decoder.versionSeen = true ∧ decoder.next = (.finished, decoder)) ∨
    (decoder.rest = [] ∧ decoder.versionSeen = false ∧
      decoder.next = (.fault .missingVersion, { decoder with failed := true })) ∨
    (∃ command after, Reading.command decoder = .ok command after ∧
      decoder.next = (.command command, after)) ∨
    ∃ fault stuck, Reading.command decoder = .error fault stuck ∧
      decoder.next = (.fault fault, { stuck with failed := true }) := by
  unfold next
  rw [hWaiting]
  cases hRest : decoder.rest with
  | nil =>
      cases hSeen : decoder.versionSeen with
      | true => exact .inl ⟨rfl, rfl, rfl⟩
      | false => exact .inr (.inl ⟨rfl, rfl, rfl⟩)
  | cons first rest =>
      right
      right
      cases hRead : Reading.command decoder with
      | ok command after => exact .inl ⟨command, after, rfl, rfl⟩
      | error fault stuck => exact .inr ⟨fault, stuck, rfl, rfl⟩

theorem next_of_failed (hFailed : decoder.failed = true) :
    decoder.next = (.finished, decoder) := by
  unfold next
  rw [hFailed]
  rfl

/-- Reading on adds to the commands already read. -/
theorem earlier_prefix_readFrom (earlier : List (Nat × Command)) (fuel : Nat)
    (decoder : Decoder) : earlier.reverse <+: (readFrom earlier fuel decoder).steps := by
  induction fuel generalizing earlier decoder with
  | zero => exact List.prefix_refl _
  | succ fuel ih =>
      rw [readFrom]
      split
      · next command after _ =>
          refine List.IsPrefix.trans ?_ (ih ((after.offset, command) :: earlier) after)
          rw [List.reverse_cons]
          exact List.prefix_append _ _
      · exact List.prefix_refl _
      · exact List.prefix_refl _

/-! ### Pieces -/

theorem Follows.single_iff {bytes : List UInt8} {command : Command} :
    before.Follows bytes [command] after ↔
      before.failed = false ∧ Reading.Yields Reading.command before bytes command after := by
  constructor
  · intro hFollows
    cases hFollows with
    | cons hWaiting hRead hRest =>
        cases hRest
        rw [List.append_nil]
        exact ⟨hWaiting, hRead⟩
  · rintro ⟨hWaiting, hRead⟩
    exact .single hWaiting hRead

/-- The bytes that a command yields are those it needs. -/
theorem took_of_yields {bytes : List UInt8} {command : Command} (hNames : before.ShortNames)
    (hRead : Reading.Yields Reading.command before bytes command after) :
    Reading.RunsOut Reading.command before bytes ∧ after.ShortNames := by
  have hOk := hRead 0 []
  have hPlaced : (before.placed 0 (bytes ++ [])).ShortNames := { hNames with }
  obtain ⟨_, hAdvances, taken, hRest, _, hRunsOut⟩ := Reading.takes_command hPlaced hOk
  obtain rfl : bytes = taken := by simpa [placed] using hRest
  exact ⟨hRunsOut, { hAdvances.shortNames with }⟩

/-- The commands of pieces with the offsets at which the pieces end. -/
def marks (offset : Nat) : List (List UInt8) → List Command → List (Nat × Command)
  | piece :: pieces, command :: commands =>
      (offset + piece.length, command) :: marks (offset + piece.length) pieces commands
  | _, _ => []

theorem le_of_mem_marks {mark : Nat × Command} (hMark : mark ∈ marks offset pieces commands) :
    offset ≤ mark.1 := by
  induction pieces generalizing offset commands with
  | nil => cases hMark
  | cons piece pieces ih =>
      cases commands with
      | nil => cases hMark
      | cons command commands =>
          rcases List.mem_cons.mp hMark with rfl | hLater
          · exact Nat.le_add_right offset piece.length
          · exact Nat.le_trans (Nat.le_add_right offset piece.length) (ih hLater)

theorem FollowsEach.ne_nil_of_mem (hEach : before.FollowsEach pieces commands after) :
    ∀ piece ∈ pieces, piece ≠ [] := by
  induction hEach with
  | nil => exact fun piece hNone => nomatch hNone
  | cons hPiece _ _ _ ih =>
      intro other hOther
      rcases List.mem_cons.mp hOther with rfl | hLater
      · exact ne_nil_of_yields_command (Follows.single_iff.mp hPiece).2
      · exact ih other hLater

/-- The marks of pieces ascend to the end of the last piece. -/
theorem FollowsEach.marks_ascend (hEach : before.FollowsEach pieces commands after)
    (offset : Nat) :
    ((marks offset pieces commands).map (·.1)).Pairwise (· < ·) ∧
    (pieces ≠ [] → ((marks offset pieces commands).map (·.1)).getLast?
      = some (offset + pieces.flatten.length)) ∧
    (marks offset pieces commands).map (·.2) = commands := by
  have hSome := hEach.ne_nil_of_mem
  induction hEach generalizing offset with
  | nil => exact ⟨.nil, fun hNone => absurd rfl hNone, rfl⟩
  | @cons before middle after piece pieces command commands hPiece _ _ hRest ih =>
      obtain ⟨hAscend, hLast, hCommands⟩ :=
        ih (offset + piece.length) fun other hOther => hSome other (List.mem_cons_of_mem _ hOther)
      refine ⟨?_, fun _ => ?_, congrArg (command :: ·) hCommands⟩
      · refine List.pairwise_cons.mpr ⟨fun later hLater => ?_, hAscend⟩
        cases hRest with
        | nil => cases hLater
        | @cons _ _ _ second pieces _ commands _ _ _ _ =>
            have hSecond := List.length_pos_iff.mpr (hSome second (by simp))
            obtain ⟨mark, hMark, rfl⟩ := List.mem_map.mp hLater
            rcases List.mem_cons.mp hMark with rfl | hBeyond
            · exact Nat.lt_add_of_pos_right hSecond
            · have hBound := le_of_mem_marks hBeyond
              exact Nat.lt_of_lt_of_le (Nat.lt_add_of_pos_right hSecond) hBound
      · rw [List.flatten_cons, List.length_append, ← Nat.add_assoc]
        by_cases hEnd : pieces = []
        · subst hEnd
          cases hRest
          rfl
        · have hEndLast := hLast hEnd
          rw [marks, List.map_cons, List.getLast?_cons, hEndLast]
          rfl

/-! ### Whole streams -/

/-- A stream that is read without a fault falls into pieces, one for each
command. They are within the limits of the format, and the first of them is a
version unless one was seen before. -/
theorem exists_pieces (earlier : List (Nat × Command)) (hNames : decoder.ShortNames)
    (hWaiting : decoder.failed = false) (hFuel : decoder.rest.length < fuel)
    (hWhole : (readFrom earlier fuel decoder).fault = none) :
    ∃ pieces commands after, decoder.FollowsEach pieces commands after ∧
      decoder.rest = pieces.flatten ∧
      (readFrom earlier fuel decoder).steps
        = earlier.reverse ++ marks decoder.offset pieces commands ∧
      (∀ command ∈ commands, command.FitsWire) ∧
      (decoder.versionSeen = true ∨
        ∃ minor later, commands = .version formatMajor minor :: later) := by
  -- every command takes a byte, so the fuel stays above the number of bytes left
  induction fuel generalizing decoder earlier with
  | zero => exact absurd hFuel (Nat.not_lt_zero _)
  | succ fuel ih =>
      rw [readFrom] at hWhole ⊢
      rcases next_cases hWaiting with ⟨hEnd, hSeen, hNext⟩ | ⟨hEnd, _, hNext⟩ |
        ⟨command, after, hRead, hNext⟩ | ⟨fault, stuck, _, hNext⟩
      · rw [hNext]
        exact ⟨[], [], decoder, .nil decoder, hEnd, (List.append_nil _).symm,
          fun _ hNone => (List.not_mem_nil hNone).elim, .inl hSeen⟩
      · rw [hNext] at hWhole
        cases hWhole
      · rw [hNext] at hWhole ⊢
        dsimp only at hWhole ⊢
        obtain ⟨hFits, hAdvances, bytes, hRest, hYields, _⟩ := Reading.takes_command hNames hRead
        obtain ⟨hSeen, hVersion⟩ := Reading.versionSeen_of_ok hNames hRead
        have hStill := hAdvances.failed.trans hWaiting
        have hOffset : after.offset = decoder.offset + bytes.length := by
          have hSame := hYields decoder.offset after.rest
          rw [← hRest] at hSame
          have hBoth := hRead.symm.trans hSame
          rw [EStateM.Result.ok.injEq] at hBoth
          exact congrArg Decoder.offset hBoth.2
        have hSome := List.length_pos_iff.mpr (ne_nil_of_yields_command hYields)
        have hLess : after.rest.length < fuel := by
          rw [hRest, List.length_append] at hFuel
          omega
        obtain ⟨pieces, commands, last, hEach, hPieces, hSteps, hAllFit, _⟩ :=
          ih _ hAdvances.shortNames hStill hLess hWhole
        refine ⟨bytes :: pieces, command :: commands, last,
          .cons (.single hWaiting hYields) hStill hSeen hEach, ?_, ?_, ?_, ?_⟩
        · rw [hRest, hPieces]
          rfl
        · rw [hSteps, List.reverse_cons, List.append_assoc, hOffset]
          rfl
        · exact List.forall_mem_cons.mpr ⟨hFits, hAllFit⟩
        · rcases hVersion with hKnown | ⟨minor, rfl⟩
          · exact .inl hKnown
          · exact .inr ⟨minor, commands, rfl⟩
      · rw [hNext] at hWhole
        cases hWhole

/-! ### Cuts -/

/-- What a transcript says of its stream. Nothing is read after it. -/
structure Transcript.Says (transcript : Transcript) (steps : List (Nat × Command))
    (fault : Option Fault) : Prop where
  steps : transcript.steps = steps
  fault : transcript.fault = fault
  ended : transcript.decoder.next = (.finished, transcript.decoder)

theorem says_of_fault {fault : Fault} (hNext : decoder.next = (.fault fault, after))
    (hFailed : after.failed = true) :
    (readFrom earlier (fuel + 1) decoder).Says earlier.reverse (some fault) := by
  rw [readFrom, hNext]
  exact ⟨rfl, rfl, next_of_failed hFailed⟩

theorem says_of_finished (hNext : decoder.next = (.finished, decoder)) :
    (readFrom earlier (fuel + 1) decoder).Says earlier.reverse none := by
  rw [readFrom, hNext]
  exact ⟨rfl, rfl, hNext⟩

/-- The fault of a stream that stops some bytes after its start, at the given
offset, where its pieces end at the given offsets. -/
def cutFault (versionSeen : Bool) (count stop : Nat) (ends : List Nat) : Option Fault :=
  if count = 0 then if versionSeen then none else some .missingVersion
  else if stop ∈ ends then none
  else some .truncated

theorem cutFault_beyond {versionSeen : Bool} {length more : Nat} {ends : List Nat}
    (hSome : 0 < length) :
    cutFault versionSeen (length + more) (offset + length + more) ((offset + length) :: ends)
      = cutFault true more (offset + length + more) ends := by
  have hTaken : length + more ≠ 0 := by omega
  rw [cutFault, if_neg hTaken, cutFault]
  by_cases hNone : more = 0
  · simp [hNone]
  · simp [hNone]

theorem says_of_nothing (hWaiting : before.failed = false) (stop : Nat) (ends : List Nat) :
    (readFrom earlier (fuel + 1) (before.placed offset [])).Says earlier.reverse
      (cutFault before.versionSeen 0 stop ends) := by
  cases hSeen : before.versionSeen with
  | true =>
      refine says_of_finished ?_
      simp [next, placed, hWaiting, hSeen]
  | false =>
      have hNext : (before.placed offset []).next
          = (.fault .missingVersion, { before.placed offset [] with failed := true }) := by
        simp [next, placed, hWaiting, hSeen]
      exact says_of_fault hNext rfl

/-- A command that is cut inside is reported as such. -/
theorem says_of_runsOut {piece : List UInt8} {count : Nat} (hWaiting : before.failed = false)
    (hRunsOut : Reading.RunsOut Reading.command before piece) (hSome : count ≠ 0)
    (hShort : count < piece.length) :
    (readFrom earlier (fuel + 1) (before.placed offset (piece.take count))).Says
      earlier.reverse (some .truncated) := by
  have hMissing : piece.drop count ≠ [] := by
    rw [ne_eq, List.drop_eq_nil_iff]
    omega
  obtain ⟨stuck, hStuck⟩ := hRunsOut (piece.take count) (piece.drop count) offset
    (List.take_append_drop count piece).symm hMissing
  have hStill : (before.placed offset (piece.take count)).failed = false := hWaiting
  have hMore : (before.placed offset (piece.take count)).rest ≠ [] := by
    change piece.take count ≠ []
    rw [ne_eq, List.take_eq_nil_iff]
    rintro (hNone | rfl)
    · exact hSome hNone
    · exact hMissing List.drop_nil
  rcases next_cases hStill with ⟨hEnd, _⟩ | ⟨hEnd, _⟩ | ⟨command, after, hRead, _⟩ |
    ⟨fault, last, hRead, hNext⟩
  · exact absurd hEnd hMore
  · exact absurd hEnd hMore
  · rw [hStuck] at hRead
    cases hRead
  · rw [hStuck] at hRead
    cases hRead
    exact says_of_fault hNext rfl

/-- A cut stream gives the commands of the pieces before the cut and the fault
of the cut. -/
theorem FollowsEach.readFrom_take (hEach : before.FollowsEach pieces commands after)
    (hNames : before.ShortNames) (hWaiting : before.failed = false)
    (earlier : List (Nat × Command)) (offset : Nat) {count : Nat}
    (hCount : count ≤ pieces.flatten.length) (hFuel : count < fuel) :
    (readFrom earlier fuel (before.placed offset (pieces.flatten.take count))).Says
      (earlier.reverse ++ (marks offset pieces commands).filter (·.1 ≤ offset + count))
      (cutFault before.versionSeen count (offset + count)
        ((marks offset pieces commands).map (·.1))) := by
  induction hEach generalizing earlier offset count fuel with
  | nil decoder =>
      obtain rfl : count = 0 := Nat.le_zero.mp hCount
      obtain ⟨fuel, rfl⟩ := Nat.exists_eq_succ_of_ne_zero (Nat.ne_of_gt hFuel)
      change Transcript.Says _ (earlier.reverse ++ []) _
      rw [List.append_nil]
      exact says_of_nothing hWaiting _ _
  | @cons before middle after piece pieces command commands hPiece hStill hSeen hRest ih =>
      obtain ⟨fuel, rfl⟩ := Nat.exists_eq_succ_of_ne_zero (Nat.ne_of_gt (Nat.zero_lt_of_lt hFuel))
      obtain ⟨_, hRead⟩ := Follows.single_iff.mp hPiece
      obtain ⟨hRunsOut, hNamesOn⟩ := took_of_yields hNames hRead
      have hSome := List.length_pos_iff.mpr (ne_nil_of_yields_command hRead)
      have hBound : ∀ mark ∈ marks (offset + piece.length) pieces commands,
          offset + piece.length ≤ mark.1 := fun mark hMark => le_of_mem_marks hMark
      have hBeyond : ∀ mark ∈ (offset + piece.length, command)
          :: marks (offset + piece.length) pieces commands, offset + piece.length ≤ mark.1 :=
        List.forall_mem_cons.mpr ⟨Nat.le_refl _, fun mark hMark => le_of_mem_marks hMark⟩
      rw [marks, List.flatten_cons]
      -- the cut is inside the first piece, or the piece is read and the cut comes later
      by_cases hInside : count < piece.length
      · rw [List.take_append_of_le_length (Nat.le_of_lt hInside),
          List.filter_eq_nil_iff.mpr fun mark hMark => by
            have hLate := hBeyond mark hMark
            rw [decide_eq_true_eq]
            omega, List.append_nil]
        by_cases hNone : count = 0
        · subst hNone
          rw [List.take_zero]
          exact says_of_nothing hWaiting _ _
        · have hUnmarked : offset + count ∉ ((offset + piece.length, command)
              :: marks (offset + piece.length) pieces commands).map (·.1) := by
            intro hMarked
            obtain ⟨mark, hMark, hStop⟩ := List.mem_map.mp hMarked
            have hLate := hBeyond mark hMark
            omega
          rw [cutFault, if_neg hNone, if_neg hUnmarked]
          exact says_of_runsOut hWaiting hRunsOut hNone hInside
      · obtain ⟨more, rfl⟩ := Nat.exists_eq_add_of_le (Nat.le_of_not_lt hInside)
        rw [List.flatten_cons, List.length_append] at hCount
        rw [List.take_length_add_append, ← Nat.add_assoc, readFrom,
          next_of_yields_command hWaiting hRead, List.filter_cons_of_pos (by simp), List.map_cons]
        have hCountOn : more ≤ pieces.flatten.length := by omega
        have hFuelOn : more < fuel := by omega
        have hLater := ih hNamesOn hStill ((offset + piece.length, command) :: earlier)
          (offset + piece.length) hCountOn hFuelOn
        rw [List.reverse_cons, List.append_assoc, List.singleton_append] at hLater
        rw [cutFault_beyond hSome, ← hSeen]
        exact hLater

/-- The commands of the pieces come first, whatever follows the pieces. -/
theorem FollowsEach.prefix_readFrom (hEach : before.FollowsEach pieces commands after)
    (earlier : List (Nat × Command)) (offset : Nat) (more : List UInt8)
    (hFuel : pieces.flatten.length ≤ fuel) :
    earlier.reverse ++ marks offset pieces commands
      <+: (readFrom earlier fuel (before.placed offset (pieces.flatten ++ more))).steps := by
  induction hEach generalizing earlier offset fuel with
  | nil decoder =>
      change earlier.reverse ++ [] <+: _
      rw [List.append_nil]
      exact earlier_prefix_readFrom _ _ _
  | @cons before middle after piece pieces command commands hPiece _ _ _ ih =>
      obtain ⟨hWaiting, hRead⟩ := Follows.single_iff.mp hPiece
      have hSome := List.length_pos_iff.mpr (ne_nil_of_yields_command hRead)
      rw [List.flatten_cons, List.length_append] at hFuel
      obtain ⟨fuel, rfl⟩ := Nat.exists_eq_succ_of_ne_zero (show fuel ≠ 0 by omega)
      rw [marks, List.flatten_cons, List.append_assoc, readFrom,
        next_of_yields_command hWaiting hRead]
      have hFuelOn : pieces.flatten.length ≤ fuel := by omega
      have hLater := ih ((offset + piece.length, command) :: earlier) (offset + piece.length)
        hFuelOn
      rw [List.reverse_cons, List.append_assoc, List.singleton_append] at hLater
      exact hLater

/-- A stream that can be read to its end falls into pieces, one for each of its
commands. -/
theorem pieces_of_decode {bytes : List UInt8} (hDecodes : decode bytes = .ok commands) :
    ∃ pieces after, (ofBytes bytes).FollowsEach pieces commands after ∧
      bytes = pieces.flatten ∧
      (ofBytes bytes).transcript.steps = marks 0 pieces commands ∧
      (∀ command ∈ commands, command.FitsWire) ∧
      ∃ minor later, commands = .version formatMajor minor :: later := by
  rw [decode] at hDecodes
  split at hDecodes
  · cases hDecodes
  · next hWhole =>
      obtain ⟨pieces, read, after, hEach, hPieces, hSteps, hFits, hVersion⟩ :=
        exists_pieces [] (shortNames_ofBytes bytes) rfl (Nat.lt_succ_self _) hWhole
      change (ofBytes bytes).transcript.steps = marks 0 pieces read at hSteps
      obtain ⟨_, _, hRead⟩ := hEach.marks_ascend 0
      rw [hSteps, hRead] at hDecodes
      cases hDecodes
      obtain hSeen | hFirst := hVersion
      · cases hSeen
      · exact ⟨pieces, after, hEach, hPieces, hSteps, hFits, hFirst⟩

/-- A stream that can be read to its end gives its commands at ascending offsets,
the last of them the length of the stream. Cut after any number of bytes, it gives
the commands that end by then, at the same offsets. Without any bytes there is no
version, a cut at the end of a command goes unnoticed, and every other cut is
reported as a cut. Then there is nothing more. Bytes that are appended to the
stream change none of its commands. -/
theorem transcript_cut {bytes : List UInt8} (hDecodes : decode bytes = .ok commands) :
    let whole := (ofBytes bytes).transcript.steps
    let ends := whole.map (·.1)
    whole.map (·.2) = commands ∧
    ends.Pairwise (· < ·) ∧
    ends.getLast? = some bytes.length ∧
    (∀ count ≤ bytes.length,
      (ofBytes (bytes.take count)).transcript.Says (whole.filter (·.1 ≤ count))
        (if count = 0 then some .missingVersion
          else if count ∈ ends then none
          else some .truncated)) ∧
    ∀ more, whole <+: (ofBytes (bytes ++ more)).transcript.steps := by
  obtain ⟨pieces, after, hEach, hPieces, hSteps, _, _, _, rfl⟩ := pieces_of_decode hDecodes
  obtain ⟨hAscend, hLast, hCommands⟩ := hEach.marks_ascend 0
  rw [Nat.zero_add, ← hPieces] at hLast
  have hSome : pieces ≠ [] := by
    cases hEach
    exact List.cons_ne_nil _ _
  rw [hSteps]
  refine ⟨hCommands, hAscend, hLast hSome, fun count hCount => ?_, fun more => ?_⟩
  · rw [hPieces] at hCount
    have hCut := hEach.readFrom_take (shortNames_ofBytes bytes) rfl [] 0 hCount
      (Nat.lt_succ_self count)
    rw [← hPieces, Nat.zero_add] at hCut
    rw [← hPieces] at hCount
    rw [transcript]
    change (readFrom [] ((bytes.take count).length + 1) _).Says _ _
    rw [List.length_take, Nat.min_eq_left hCount]
    exact hCut
  · have hFuel : pieces.flatten.length ≤ (bytes ++ more).length + 1 := by
      rw [← hPieces, List.length_append]
      omega
    have hMore := hEach.prefix_readFrom [] 0 more hFuel
    rw [← hPieces] at hMore
    exact hMore

/-- The second item has an id of two bytes, and one of them is cut off. -/
theorem transcript_cut_inside_item :
    decode [29, 4, 0, 0, 0, 1, 5, 65, 3, 1] = .ok [.version 4 0, .newItem 5, .newItem 264] ∧
    (ofBytes [29, 4, 0, 0, 0, 1, 5, 65, 3]).transcript.Says
      [(5, .version 4 0), (7, .newItem 5)] (some .truncated) := by
  have hDecodes : decode [29, 4, 0, 0, 0, 1, 5, 65, 3, 1]
      = .ok [.version 4 0, .newItem 5, .newItem 264] := rfl
  obtain ⟨_, _, _, hCuts, _⟩ := transcript_cut hDecodes
  exact ⟨hDecodes, hCuts 9 (by decide)⟩

end Decoder
end Wire
end CycleTrace
