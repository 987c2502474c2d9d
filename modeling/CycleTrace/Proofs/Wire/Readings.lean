/-
What a reading has taken when it gives a value.

`Reading.Takes` is the inversion of a reading. A reading that gives a value has
taken some bytes from the front of the stream, and these bytes alone decide: it
gives the same value wherever they stand and whatever follows them, and it runs
out of bytes where fewer of them are left. A fault other than running out can
depend on the place in the stream, but then there is no value.

The value itself is within the limits of the binary format, however freely the
bytes were chosen. Counts have no more room than their fields, and a name that
is looked up was bound with a length of its own.
-/

import CycleTrace.Proofs.Wire.Commands

namespace CycleTrace
namespace Wire

/-! ### What a decoder keeps -/

/-- Every name that is bound is short enough to be bound again. -/
structure Decoder.ShortNames (decoder : Decoder) : Prop where
  tags : ∀ (id : UInt8) (name : String), decoder.tags[id]? = some name → Command.ShortText name
  texts : ∀ (id : UInt16) (value : String), decoder.texts[id]? = some value →
    Command.ShortText value

/-- A decoder after a reading: it fails no earlier, forgets no version and binds
short names only. -/
structure Decoder.Advances (before after : Decoder) : Prop where
  failed : after.failed = before.failed
  versionSeen : before.versionSeen = true → after.versionSeen = true
  shortNames : after.ShortNames

theorem Decoder.shortNames_ofBytes (bytes : List UInt8) : (Decoder.ofBytes bytes).ShortNames where
  tags := by simp [ofBytes]
  texts := by simp [ofBytes]

theorem Decoder.Advances.trans {before middle after : Decoder} (hFirst : before.Advances middle)
    (hSecond : middle.Advances after) : before.Advances after where
  failed := hSecond.failed.trans hFirst.failed
  versionSeen := fun hSeen => hSecond.versionSeen (hFirst.versionSeen hSeen)
  shortNames := hSecond.shortNames

namespace Reading

variable {α β : Type} {read : Reading α} {before after : Decoder} {value : α}

/-! ### Readings and the bytes they take -/

/-- A reading runs out of bytes where some of the given bytes are missing at the
end. -/
def RunsOut (read : Reading α) (before : Decoder) (bytes : List UInt8) : Prop :=
  ∀ part missing offset, bytes = part ++ missing → missing ≠ [] →
    ∃ stuck, read (before.placed offset part) = .error .truncated stuck

/-- A reading took the given bytes and needed all of them. -/
structure Took (read : Reading α) (before : Decoder) (bytes : List UInt8) (value : α)
    (after : Decoder) : Prop where
  rest : before.rest = bytes ++ after.rest
  yields : Yields read before bytes value after
  runsOut : RunsOut read before bytes

/-- Whenever a reading gives a value, it took just the bytes it needed, and the
value is as it should be. -/
def Takes (read : Reading α) (Good : α → Prop) : Prop :=
  ∀ ⦃before value after⦄, before.ShortNames → read before = .ok value after →
    Good value ∧ before.Advances after ∧ ∃ bytes, Took read before bytes value after

variable {Good : α → Prop} {Fine : β → Prop}

theorem Takes.weaken {Other : α → Prop} (hRead : Takes read Good)
    (hWeaker : ∀ value, Good value → Other value) : Takes read Other := by
  intro before value after hNames hValue
  obtain ⟨hGood, hRest⟩ := hRead hNames hValue
  exact ⟨hWeaker value hGood, hRest⟩

theorem runsOut_nil (read : Reading α) (before : Decoder) : RunsOut read before [] := by
  intro part missing offset hSplit hMissing
  exact absurd (List.append_eq_nil_iff.mp hSplit.symm).2 hMissing

theorem takes_pure (hGood : Good value) : Takes (pure value) Good := by
  intro before result after hNames hResult
  cases hResult
  exact ⟨hGood, ⟨rfl, id, hNames⟩, [], rfl, yields_pure value before, runsOut_nil _ _⟩

theorem takes_throw (fault : Fault) : Takes (throw fault : Reading α) Good := by
  intro before value after _ hValue
  cases hValue

theorem ok_of_bind {next : α → Reading β} {result : β}
    (hResult : (read >>= next) before = .ok result after) :
    ∃ value middle, read before = .ok value middle ∧ next value middle = .ok result after := by
  change EStateM.bind read next before = _ at hResult
  unfold EStateM.bind at hResult
  cases hRead : read before with
  | ok value middle =>
      rw [hRead] at hResult
      exact ⟨value, middle, rfl, hResult⟩
  | error fault stuck =>
      rw [hRead] at hResult
      cases hResult

theorem bind_of_truncated {next : α → Reading β} {stuck : Decoder}
    (hRead : read before = .error .truncated stuck) :
    (read >>= next) before = .error .truncated stuck := by
  change EStateM.bind read next before = _
  unfold EStateM.bind
  rw [hRead]

/-- Bytes that are missing from two readings in sequence are missing from the
second one, or the first one misses some already. -/
theorem Took.bind {next : α → Reading β} {middle : Decoder} {first second : List UInt8}
    {result : β} (hRead : Took read before first value middle)
    (hNext : Took (next value) middle second result after) :
    Took (read >>= next) before (first ++ second) result after where
  rest := by rw [hRead.rest, hNext.rest, List.append_assoc]
  yields := hRead.yields.bind hNext.yields
  runsOut := by
    intro part missing offset hSplit hMissing
    have hLater (left : List UInt8) (hSecond : second = left ++ missing) :
        ∃ stuck, (read >>= next) (before.placed offset (first ++ left))
          = .error .truncated stuck := by
      obtain ⟨stuck, hStuck⟩ := hNext.runsOut left missing (offset + first.length) hSecond hMissing
      refine ⟨stuck, ?_⟩
      change EStateM.bind read next _ = _
      unfold EStateM.bind
      rw [hRead.yields offset left]
      exact hStuck
    rcases List.append_eq_append_iff.mp hSplit with ⟨left, rfl, hSecond⟩ | ⟨lacking, hFirst, rfl⟩
    · exact hLater left hSecond
    · by_cases hNone : lacking = []
      · subst hNone
        rw [List.append_nil] at hFirst
        have hWhole := hLater [] rfl
        rw [List.append_nil, hFirst] at hWhole
        exact hWhole
      · obtain ⟨stuck, hStuck⟩ := hRead.runsOut part lacking offset hFirst hNone
        exact ⟨stuck, bind_of_truncated hStuck⟩

theorem Takes.bind {next : α → Reading β} (hRead : Takes read Good)
    (hNext : ∀ value, Good value → Takes (next value) Fine) : Takes (read >>= next) Fine := by
  intro before result after hNames hResult
  obtain ⟨value, middle, hFirst, hSecond⟩ := ok_of_bind hResult
  obtain ⟨hGood, hAdvances, first, hTook⟩ := hRead hNames hFirst
  obtain ⟨hFine, hAdvancesOn, second, hTookOn⟩ := hNext value hGood hAdvances.shortNames hSecond
  exact ⟨hFine, hAdvances.trans hAdvancesOn, first ++ second, hTook.bind hTookOn⟩

theorem Takes.map {change : α → β} (hRead : Takes read Good)
    (hChange : ∀ value, Good value → Fine (change value)) : Takes (change <$> read) Fine := by
  rw [← bind_pure_comp]
  exact hRead.bind fun value hGood => takes_pure (hChange value hGood)

/-- Looking up what the decoder knows takes no bytes. -/
theorem takes_get {next : Decoder → Reading α}
    (hPlaced : ∀ decoder offset rest, next (decoder.placed offset rest) = next decoder)
    (hNext : ∀ decoder, decoder.ShortNames → Takes (next decoder) Good) :
    Takes (get >>= next) Good := by
  intro before value after hNames hValue
  obtain ⟨hGood, hAdvances, bytes, hRest, hYields, hRunsOut⟩ := hNext before hNames hNames hValue
  refine ⟨hGood, hAdvances, bytes, hRest, ?_, ?_⟩
  · intro offset rest
    change next (before.placed offset (bytes ++ rest)) _ = _
    rw [hPlaced]
    exact hYields offset rest
  · intro part missing offset hSplit hMissing
    change ∃ stuck, next (before.placed offset part) _ = _
    rw [hPlaced]
    exact hRunsOut part missing offset hSplit hMissing

/-- A reading for which its place in the stream matters to its faults only. -/
def FaultsByPlace (read : Nat → Reading α) : Prop :=
  ∀ start other decoder, read other decoder = read start decoder ∨
    ∃ fault stuck, fault ≠ .truncated ∧ read start decoder = .error fault stuck

theorem takes_offset {next : Nat → Reading α} (hFaults : FaultsByPlace next)
    (hNext : ∀ start, Takes (next start) Good) :
    Takes (get >>= fun decoder => next decoder.offset) Good := by
  intro before value after hNames hValue
  obtain ⟨hGood, hAdvances, bytes, hRest, hYields, hRunsOut⟩ :=
    hNext before.offset hNames hValue
  refine ⟨hGood, hAdvances, bytes, hRest, ?_, ?_⟩
  · intro offset rest
    change next offset _ = _
    rcases hFaults before.offset offset (before.placed offset (bytes ++ rest)) with
      hSame | ⟨fault, stuck, _, hFault⟩
    · rw [hSame]
      exact hYields offset rest
    · rw [hYields offset rest] at hFault
      cases hFault
  · intro part missing offset hSplit hMissing
    obtain ⟨stuck, hStuck⟩ := hRunsOut part missing offset hSplit hMissing
    refine ⟨stuck, ?_⟩
    change next offset _ = _
    rcases hFaults before.offset offset (before.placed offset part) with
      hSame | ⟨fault, other, hOther, hFault⟩
    · rw [hSame]
      exact hStuck
    · rw [hStuck] at hFault
      cases hFault
      exact absurd rfl hOther

/-- A change of what is known takes no bytes. -/
theorem takes_modifyGet {change : Decoder → α × Decoder}
    (hPlaced : ∀ decoder offset rest, change (decoder.placed offset rest)
      = ((change decoder).1, (change decoder).2.placed offset rest))
    (hKeeps : ∀ decoder, decoder.ShortNames →
      Good (change decoder).1 ∧ decoder.Advances (change decoder).2) :
    Takes (modifyGet change) Good := by
  intro before value after hNames hValue
  have hResult : (EStateM.Result.ok (change before).1 (change before).2 :
      EStateM.Result Fault Decoder α) = .ok value after := hValue
  cases hResult
  have hSame := hPlaced before before.offset before.rest
  obtain ⟨hGood, hAdvances⟩ := hKeeps before hNames
  refine ⟨hGood, hAdvances, [], ?_, yields_modifyGet (hPlaced before), runsOut_nil _ _⟩
  exact (congrArg (fun changed => changed.2.rest) hSame).symm

theorem takes_modify {change : Decoder → Decoder}
    (hPlaced : ∀ decoder offset rest,
      change (Decoder.placed decoder offset rest) = (change decoder).placed offset rest)
    (hKeeps : ∀ decoder : Decoder, decoder.ShortNames → decoder.Advances (change decoder)) :
    Takes (modify change) fun _ => True :=
  takes_modifyGet (fun decoder offset rest => congrArg (Prod.mk _) (hPlaced decoder offset rest))
    fun decoder hNames => ⟨trivial, hKeeps decoder hNames⟩

theorem FaultsByPlace.bind {next : Nat → α → Reading β}
    (hNext : ∀ value, FaultsByPlace fun start => next start value) :
    FaultsByPlace fun start => read >>= next start := by
  intro start other decoder
  change EStateM.bind read (next other) decoder = EStateM.bind read (next start) decoder ∨
    ∃ fault stuck, fault ≠ Fault.truncated ∧
      EStateM.bind read (next start) decoder = .error fault stuck
  unfold EStateM.bind
  cases read decoder with
  | ok value middle => exact hNext value start other middle
  | error fault stuck => exact .inl rfl

theorem faultsByPlace_same (read : Reading α) : FaultsByPlace fun _ => read :=
  fun _ _ _ => .inl rfl

theorem faultsByPlace_throw {fault : Nat → Fault} (hOther : ∀ start, fault start ≠ .truncated) :
    FaultsByPlace fun start => (throw (fault start) : Reading α) :=
  fun start _ decoder => .inr ⟨fault start, decoder, hOther start, rfl⟩

/-! ### Words and numbers -/

theorem takes_bytes (count : Nat) : Takes (bytes count) fun taken => taken.length = count := by
  intro before value after hNames hValue
  unfold Reading.bytes at hValue
  dsimp only at hValue
  split at hValue
  · cases hValue
  · rename_i hEnough
    cases hValue
    have hLength : (before.rest.take count).length = count := by
      rw [List.length_take] at hEnough ⊢
      omega
    refine ⟨hLength, ⟨rfl, id, { hNames with }⟩, before.rest.take count,
      (List.take_append_drop count before.rest).symm, yields_bytes_of_length hLength, ?_⟩
    intro part missing offset hSplit hMissing
    have hTotal := congrArg List.length hSplit
    have hSome := List.length_pos_iff.mpr hMissing
    rw [hLength, List.length_append] at hTotal
    refine ⟨before.placed offset part, ?_⟩
    have hFew : (part.take count).length < count := by
      rw [List.length_take]
      omega
    unfold Reading.bytes
    exact if_pos hFew

theorem takes_byte : Takes byte fun _ => True :=
  (takes_bytes 1).bind fun _ _ => takes_pure trivial

theorem takes_natural (count : Nat) : Takes (natural count) (· < wordSize count) :=
  (takes_bytes count).bind fun taken hLength =>
    takes_pure (hLength ▸ ofLittleEndian_lt taken)

theorem takes_word16 : Takes word16 fun _ => True :=
  (takes_natural 2).bind fun _ _ => takes_pure trivial

theorem takes_word32 : Takes word32 fun _ => True :=
  (takes_natural 4).bind fun _ _ => takes_pure trivial

theorem takes_number (width : Width) : Takes (number width) fun _ => True := by
  have hBytes (count : Nat) : Takes (bytes count) fun _ => True :=
    (takes_bytes count).weaken fun _ _ => trivial
  cases width with
  | one => exact hBytes 1
  | two => exact hBytes 2
  | four => exact hBytes 4
  | eight => exact (hBytes 4).bind fun _ _ => (hBytes 4).bind fun _ _ => takes_pure trivial

theorem takes_unsigned (width : Width) : Takes (unsigned width) fun _ => True :=
  (takes_number width).bind fun _ _ => takes_pure trivial

theorem takes_signed (width : Width) : Takes (signed width) fun _ => True :=
  (takes_number width).bind fun _ _ => takes_pure trivial

theorem takes_word64 : Takes word64 fun _ => True :=
  (takes_unsigned .eight).bind fun _ _ => takes_pure trivial

theorem takes_cycleNumber (width : Width) : Takes (cycleNumber width) fun _ => True :=
  (takes_unsigned width).bind fun _ _ => takes_pure trivial

/-! ### Lists -/

theorem Takes.manyAfter (hRead : Takes read Good) (earlier : List α) (count : Nat) :
    Takes (Reading.manyAfter read earlier count)
      fun values => values.length = earlier.length + count := by
  induction count generalizing earlier with
  | zero => exact takes_pure List.length_reverse
  | succ count ih =>
      refine hRead.bind fun value _ => (ih (value :: earlier)).weaken fun values hLength => ?_
      rw [hLength, List.length_cons]
      omega

theorem Takes.many (hRead : Takes read Good) (count : Nat) :
    Takes (Reading.many count read) fun values => values.length = count :=
  (hRead.manyAfter [] count).weaken fun _ hLength => hLength.trans (Nat.zero_add count)

theorem takes_positions (width : Width) (count : Nat) :
    Takes (positions width count) fun position => position.length = count :=
  ((takes_unsigned width).many count).bind fun _ hLength =>
    takes_pure ((List.length_map _).trans hLength)

theorem takes_elements (width : Width) (count : Nat) :
    Takes (elements width count) fun values => values.length = count :=
  ((takes_unsigned width).many count).bind fun _ hLength =>
    takes_pure ((List.length_map _).trans hLength)

/-! ### Texts and bound names -/

theorem utf8ByteSize_of_text? {bytes : List UInt8} {text : String}
    (hText : text? bytes = some text) :
    text.utf8ByteSize = bytes.length := by
  unfold text? String.fromUTF8? at hText
  split at hText
  · cases hText
    rfl
  · cases hText

/-- A text whose faults tell a given place. -/
def textFrom (count start : Nat) : Reading String := do
  let bytes ← bytes count
  match text? bytes with
  | some text => return text
  | none => throw (.invalidUtf8 start)

theorem takes_text (count : Nat) :
    Takes (Reading.text count) fun text => text.utf8ByteSize = count := by
  have hFaults : FaultsByPlace (textFrom count) := by
    refine .bind fun taken => ?_
    cases text? taken with
    | some text => exact faultsByPlace_same _
    | none => exact faultsByPlace_throw fun start => Fault.noConfusion
  refine takes_offset hFaults fun start => (takes_bytes count).bind fun taken hLength => ?_
  cases hText : text? taken with
  | some text => exact takes_pure ((utf8ByteSize_of_text? hText).trans hLength)
  | none => exact takes_throw _

theorem takes_shortText : Takes shortText Command.ShortText :=
  (takes_natural 2).bind fun count hCount =>
    (takes_text count).weaken fun _ hSize => lt_of_eq_of_lt hSize hCount

theorem takes_tagName : Takes tagName Command.ShortText := by
  refine takes_byte.bind fun id _ => takes_get (fun _ _ _ => rfl) fun decoder hNames => ?_
  cases hName : decoder.tags[id]? with
  | some name => exact takes_pure (hNames.tags id name hName)
  | none => exact takes_throw _

theorem takes_textValue : Takes textValue Command.ShortText := by
  refine takes_word16.bind fun id _ => takes_get (fun _ _ _ => rfl) fun decoder hNames => ?_
  cases hValue : decoder.texts[id]? with
  | some value => exact takes_pure (hNames.texts id value hValue)
  | none => exact takes_throw _

/-! ### Differences -/

theorem takes_item (width : Width) : Takes (item width) fun _ => True :=
  (takes_signed width).bind fun _ _ => takes_modifyGet (fun _ _ _ => rfl)
    fun _ hNames => ⟨trivial, rfl, id, { hNames with }⟩

theorem takes_node (width : Width) : Takes (node width) fun _ => True :=
  (takes_signed width).bind fun _ _ => takes_modifyGet (fun _ _ _ => rfl)
    fun _ hNames => ⟨trivial, rfl, id, { hNames with }⟩

theorem takes_edge (width : Width) : Takes (edge width) fun _ => True :=
  (takes_signed width).bind fun _ _ => takes_modifyGet (fun _ _ _ => rfl)
    fun _ hNames => ⟨trivial, rfl, id, { hNames with }⟩

/-! ### Declarations -/

theorem takes_version : Takes version Command.FitsWire := by
  refine takes_word16.bind fun major _ => takes_word16.bind fun minor _ => ?_
  by_cases hMajor : major = formatMajor
  · subst hMajor
    refine (takes_modify (fun _ _ _ => rfl) fun _ hNames => ?_).bind fun _ _ => takes_pure rfl
    exact ⟨rfl, fun _ => rfl, { hNames with }⟩
  · intro before value after _ hValue
    rw [if_pos hMajor] at hValue
    cases hValue

theorem takes_newNode (width : Width) : Takes (newNode width) Command.FitsWire := by
  refine takes_byte.bind fun packed _ => (takes_node width).bind fun id _ => ?_
  have hNamed (parent : Option NodeId) : Takes (do
      let instanceNumber ← word16
      let name ← shortText
      return .newNode id name parent instanceNumber) Command.FitsWire :=
    takes_word16.bind fun _ _ => takes_shortText.bind fun _ hName => takes_pure hName
  dsimp only
  split
  · have hParent : Takes (some <$> word16) fun _ => True := takes_word16.map fun _ _ => trivial
    exact hParent.bind fun parent _ => hNamed parent
  · exact hNamed none

theorem takes_newEdge (width : Width) : Takes (newEdge width) Command.FitsWire := by
  refine (takes_edge width).bind fun id _ => takes_word16.bind fun source _ => ?_
  refine takes_word16.bind fun destination _ => takes_word32.bind fun bandwidth _ => ?_
  refine takes_word32.bind fun latency _ => ?_
  exact takes_shortText.bind fun name hName => takes_pure hName

theorem takes_newClock : Takes newClock Command.FitsWire := by
  refine takes_word16.bind fun id _ => takes_word64.bind fun frequency _ => ?_
  refine takes_word16.bind fun skew _ => takes_word16.bind fun divisions _ => ?_
  exact takes_shortText.bind fun name hName => takes_pure hName

theorem takes_setLayout (width : Width) : Takes (setLayout width) Command.FitsWire := by
  refine takes_byte.bind fun packed _ => (takes_node width).bind fun node _ => ?_
  refine (takes_word32.many _).bind fun dimensions hLength => takes_pure ?_
  have hCount := Nat.mod_lt packed.toNat (Nat.zero_lt_succ 15)
  exact Nat.le_of_lt_succ (lt_of_eq_of_lt hLength hCount)

theorem takes_nodeBandwidth (width : Width) {build : NodeId → UInt32 → Command}
    (hFits : ∀ node bandwidth, (build node bandwidth).FitsWire) :
    Takes (nodeBandwidth width build) Command.FitsWire :=
  (takes_node width).bind fun node _ => takes_word32.bind fun bandwidth _ =>
    takes_pure (hFits node bandwidth)

theorem takes_setClock (width : Width) : Takes (setClock width) Command.FitsWire :=
  (takes_node width).bind fun _ _ => takes_word16.bind fun _ _ => takes_pure trivial

/-! ### Items -/

theorem takes_moveItems (width : Width) : Takes (moveItems width) Command.FitsWire := by
  refine takes_byte.bind fun packed _ => (takes_edge _).bind fun edge _ => ?_
  refine (takes_natural 2).bind fun count hCount => ?_
  refine ((takes_item width).many count).bind fun items hItems => ?_
  have hFew : items.length ≤ 65535 := Nat.le_of_lt_succ (lt_of_eq_of_lt hItems hCount)
  dsimp only
  split
  · exact takes_pure ⟨hFew, .inl rfl⟩
  · exact (takes_positions _ count).bind fun positions hLength =>
      takes_pure ⟨hFew, .inr (hLength.trans hItems.symm)⟩

theorem takes_residence (width : Width) {build : NodeId → ItemId → List UInt32 → Command}
    (hFits : ∀ node item position, position.length ≤ 15 → (build node item position).FitsWire) :
    Takes (residence width build) Command.FitsWire := by
  refine takes_byte.bind fun packed _ => (takes_node _).bind fun node _ => ?_
  refine (takes_item width).bind fun item _ => ?_
  refine (takes_positions _ _).bind fun position hLength => takes_pure (hFits node item position ?_)
  have hByte := packed.toNat_lt
  omega

/-! ### Tags -/

theorem length_le_of_byte {values : List α} {count : UInt8}
    (hLength : values.length = count.toNat) : values.length ≤ 255 := by
  have hByte := count.toNat_lt
  omega

theorem nodeTagDimensions_le (packed : UInt8) : nodeTagDimensions packed ≤ 15 := by
  unfold nodeTagDimensions
  omega

theorem takes_itemTagInt (width : Width) : Takes (itemTagInt width) Command.FitsWire := by
  refine takes_byte.bind fun packed _ => takes_tagName.bind fun tag hTag => ?_
  refine (takes_item width).bind fun item _ => ?_
  exact (takes_cycleNumber _).bind fun value _ => takes_pure ⟨hTag, trivial⟩

theorem takes_itemTagText (width : Width) : Takes (itemTagText width) Command.FitsWire := by
  refine takes_tagName.bind fun tag hTag => takes_textValue.bind fun value hValue => ?_
  exact (takes_item width).bind fun item _ => takes_pure ⟨hTag, hValue⟩

theorem takes_itemTagSet (width : Width) : Takes (itemTagSet width) Command.FitsWire := by
  refine takes_byte.bind fun packed _ => takes_tagName.bind fun tag hTag => ?_
  refine takes_byte.bind fun count _ => (takes_item width).bind fun item _ => ?_
  exact (takes_elements _ _).bind fun values hLength =>
    takes_pure ⟨hTag, length_le_of_byte hLength⟩

theorem takes_nodeTagInt (width : Width) : Takes (nodeTagInt width) Command.FitsWire := by
  refine takes_byte.bind fun packed _ => takes_tagName.bind fun tag hTag => ?_
  refine (takes_node width).bind fun node _ => ?_
  refine (takes_positions _ _).bind fun position hLength => ?_
  exact (takes_cycleNumber _).bind fun value _ =>
    takes_pure ⟨hTag, trivial, hLength ▸ nodeTagDimensions_le packed⟩

theorem takes_nodeTagText (width : Width) : Takes (nodeTagText width) Command.FitsWire := by
  refine takes_byte.bind fun packed _ => takes_tagName.bind fun tag hTag => ?_
  refine takes_textValue.bind fun value hValue => (takes_node width).bind fun node _ => ?_
  exact (takes_positions _ _).bind fun position hLength =>
    takes_pure ⟨hTag, hValue, hLength ▸ nodeTagDimensions_le packed⟩

theorem takes_nodeTagSet (width : Width) : Takes (nodeTagSet width) Command.FitsWire := by
  refine takes_byte.bind fun packed _ => takes_tagName.bind fun tag hTag => ?_
  refine takes_byte.bind fun count _ => (takes_node width).bind fun node _ => ?_
  refine (takes_positions _ _).bind fun position hPosition => ?_
  exact (takes_elements _ _).bind fun values hLength =>
    takes_pure ⟨hTag, length_le_of_byte hLength, hPosition ▸ nodeTagDimensions_le packed⟩

theorem takes_cycleTagInt (width : Width) : Takes (cycleTagInt width) Command.FitsWire :=
  takes_tagName.bind fun _ hTag => (takes_cycleNumber width).bind fun _ _ =>
    takes_pure ⟨hTag, trivial⟩

theorem takes_cycleTagText : Takes cycleTagText Command.FitsWire :=
  takes_tagName.bind fun _ hTag => takes_textValue.bind fun _ hValue => takes_pure ⟨hTag, hValue⟩

theorem takes_cycleTagSet (width : Width) : Takes (cycleTagSet width) Command.FitsWire := by
  refine takes_tagName.bind fun tag hTag => takes_byte.bind fun count _ => ?_
  exact (takes_elements width _).bind fun values hLength =>
    takes_pure ⟨hTag, length_le_of_byte hLength⟩

theorem takes_describeTag : Takes describeTag Command.FitsWire :=
  takes_tagName.bind fun _ hTag => takes_shortText.bind fun _ hText => takes_pure ⟨hTag, hText⟩

/-! ### Cycles and comments -/

/-- A clocked cycle whose faults tell a given place. -/
def phasedCycleFrom (clock : ClockId) (width : Width) (start : Nat) : Reading Command := do
  let phase ← byte
  match ClockPhase.ofByte? phase with
  | none => throw (.invalidPhase phase start)
  | some phase =>
      let cycle ← cycleNumber width
      return .clockedCycle ⟨clock, cycle, phase⟩

theorem takes_clockedCycle (width : Width) : Takes (clockedCycle width) Command.FitsWire := by
  refine takes_word16.bind fun clock _ => ?_
  have hFaults : FaultsByPlace (phasedCycleFrom clock width) := by
    refine .bind fun phase => ?_
    cases ClockPhase.ofByte? phase with
    | some phase => exact faultsByPlace_same _
    | none => exact faultsByPlace_throw fun start => Fault.noConfusion
  refine takes_offset hFaults fun start => takes_byte.bind fun phase _ => ?_
  cases ClockPhase.ofByte? phase with
  | some phase => exact (takes_cycleNumber width).bind fun _ _ => takes_pure trivial
  | none => exact takes_throw _

theorem takes_comment : Takes comment Command.FitsWire := by
  refine takes_word32.bind fun magic _ => (takes_natural 4).bind fun count hCount => ?_
  exact (takes_text count).bind fun text hSize => takes_pure (lt_of_eq_of_lt hSize hCount)

theorem takes_commentBytes : Takes commentBytes Command.FitsWire := by
  refine takes_word32.bind fun magic _ => (takes_natural 4).bind fun count hCount => ?_
  exact (takes_bytes count).bind fun data hLength => takes_pure (lt_of_eq_of_lt hLength hCount)

/-! ### Bindings -/

theorem shortText_of_insert {κ : Type} [BEq κ] [Hashable κ] [LawfulBEq κ] [LawfulHashable κ]
    {known : Std.HashMap κ String} {key : κ} {name : String}
    (hKnown : ∀ (other : κ) (text : String), known[other]? = some text → Command.ShortText text)
    (hName : Command.ShortText name) (other : κ) (text : String)
    (hText : (known.insert key name)[other]? = some text) : Command.ShortText text := by
  rw [Std.HashMap.getElem?_insert] at hText
  split at hText
  · cases hText
    exact hName
  · exact hKnown other text hText

theorem takes_defineTag : Takes defineTag Command.FitsWire := by
  refine takes_byte.bind fun id _ => takes_shortText.bind fun name hName => ?_
  refine (takes_modify (fun _ _ _ => rfl) fun decoder hNames => ?_).bind
    fun _ _ => takes_pure hName
  exact ⟨rfl, fun hSeen => hSeen, { hNames with tags := shortText_of_insert hNames.tags hName }⟩

theorem takes_defineText : Takes defineText Command.FitsWire := by
  refine takes_word16.bind fun id _ => takes_shortText.bind fun value hValue => ?_
  refine (takes_modify (fun _ _ _ => rfl) fun decoder hNames => ?_).bind
    fun _ _ => takes_pure hValue
  exact ⟨rfl, fun hSeen => hSeen, { hNames with texts := shortText_of_insert hNames.texts hValue }⟩

/-! ### Whole commands -/

theorem takes_payload (code : Code) (width : Width) :
    Takes (payload code width) Command.FitsWire := by
  cases code with
  | version => exact takes_version
  | cycle => exact (takes_cycleNumber width).map fun _ _ => trivial
  | startActivity => exact (takes_cycleNumber width).map fun _ _ => trivial
  | newItem => exact (takes_item width).map fun _ _ => trivial
  | deleteItem => exact (takes_item width).map fun _ _ => trivial
  | moveItems => exact takes_moveItems width
  | enterNode => exact takes_residence width fun _ _ _ hLength => hLength
  | exitNode => exact takes_residence width fun _ _ _ hLength => hLength
  | newNode => exact takes_newNode width
  | newEdge => exact takes_newEdge width
  | setLayout => exact takes_setLayout width
  | itemTagInt => exact takes_itemTagInt width
  | itemTagText => exact takes_itemTagText width
  | itemTagSet => exact takes_itemTagSet width
  | nodeTagInt => exact takes_nodeTagInt width
  | nodeTagText => exact takes_nodeTagText width
  | nodeTagSet => exact takes_nodeTagSet width
  | cycleTagInt => exact takes_cycleTagInt width
  | cycleTagText => exact takes_cycleTagText
  | cycleTagSet => exact takes_cycleTagSet width
  | comment => exact takes_comment
  | commentBytes => exact takes_commentBytes
  | setInputBandwidth => exact takes_nodeBandwidth width fun _ _ => trivial
  | setOutputBandwidth => exact takes_nodeBandwidth width fun _ _ => trivial
  | describeTag => exact takes_describeTag
  | newClock => exact takes_newClock
  | setClock => exact takes_setClock width
  | clockedCycle => exact takes_clockedCycle width
  | defineTag => exact takes_defineTag
  | defineText => exact takes_defineText

/-- A command whose faults tell a given place. -/
def commandFrom (start : Nat) : Reading Command := do
  let first ← byte
  let number := first &&& (0x3f : UInt8)
  match Code.ofByte? number with
  | none => throw (.unknownCommand number start)
  | some code =>
      if !(← get).versionSeen && code ≠ .version then throw .missingVersion
      payload code (.ofSelector (first >>> (6 : UInt8)))

theorem takes_command : Takes command Command.FitsWire := by
  have hFaults : FaultsByPlace commandFrom := by
    refine .bind fun first => ?_
    dsimp only
    cases Code.ofByte? (first &&& (0x3f : UInt8)) with
    | some code => exact faultsByPlace_same _
    | none => exact faultsByPlace_throw fun start => Fault.noConfusion
  refine takes_offset hFaults fun start => takes_byte.bind fun first _ => ?_
  dsimp only
  cases Code.ofByte? (first &&& (0x3f : UInt8)) with
  | none => exact takes_throw _
  | some code =>
      refine takes_get (fun _ _ _ => rfl) fun decoder _ => ?_
      split
      · exact takes_throw _
      · exact takes_payload code _

/-! ### Versions -/

theorem version_of_ok {result : Command} (hOk : version before = .ok result after) :
    (∃ minor, result = .version formatMajor minor) ∧ after.versionSeen = true := by
  obtain ⟨major, _, _, hOk⟩ := ok_of_bind hOk
  obtain ⟨minor, middle, _, hOk⟩ := ok_of_bind hOk
  by_cases hMajor : major = formatMajor
  · subst hMajor
    cases hOk
    exact ⟨⟨minor, rfl⟩, rfl⟩
  · rw [if_pos hMajor] at hOk
    cases hOk

/-- After a command the version is known: from before, or from the command. -/
theorem versionSeen_of_ok {result : Command} (hNames : before.ShortNames)
    (hOk : Reading.command before = .ok result after) :
    after.versionSeen = true ∧
      (before.versionSeen = true ∨ ∃ minor, result = .version formatMajor minor) := by
  have hAdvances := (takes_command hNames hOk).2.1
  cases hSeen : before.versionSeen with
  | true => exact ⟨hAdvances.versionSeen hSeen, .inl rfl⟩
  | false =>
      obtain ⟨_, start, hStart, hOk⟩ := ok_of_bind hOk
      cases hStart
      obtain ⟨first, middle, hFirst, hOk⟩ := ok_of_bind hOk
      have hStill : middle.versionSeen = false := by
        obtain ⟨taken, _, hTaken, hPure⟩ := ok_of_bind hFirst
        cases hPure
        unfold Reading.bytes at hTaken
        dsimp only at hTaken
        split at hTaken
        · cases hTaken
        · cases hTaken
          exact hSeen
      dsimp only at hOk
      cases hCode : Code.ofByte? (first &&& (0x3f : UInt8)) with
      | none =>
          rw [hCode] at hOk
          cases hOk
      | some code =>
          rw [hCode] at hOk
          obtain ⟨_, known, hKnown, hOk⟩ := ok_of_bind hOk
          cases hKnown
          rw [hStill] at hOk
          by_cases hVersion : code = .version
          · subst hVersion
            obtain ⟨hResult, hAfter⟩ := version_of_ok hOk
            exact ⟨hAfter, .inr hResult⟩
          · simp only [Bool.not_false, Bool.true_and, decide_eq_true hVersion] at hOk
            cases hOk

end Reading
end Wire
end CycleTrace
