import BinaryRecord.Proofs.Packing.Calls
import BinaryRecord.Proofs.Transfer.Attempts
import BinaryRecord.Proofs.Unpacking.Slots
import BinaryRecord.Transfer.Source

/-!
# Records read from a source

What stands before the next fault of a source decides a reading: with enough bytes it takes those of
the record, and otherwise it takes them all and the fault with them. A reading that panics takes
nothing. So readings neither lose nor repeat a byte, and chunks and interruptions have no part in
them. Main statement: `Source.callAll_conserves`.
-/

set_option autoImplicit false

namespace BinaryRecord

namespace Delivery

/-- The fault that a delivery is, if it is one. -/
def fault? : Delivery → Option TransferFault
  | .data [] => some .endOfInput
  | .data (_ :: _) => none
  | .interruption => none
  | .failure text => some (.failure text)

/-- A delivery without its chunks and interruptions. -/
def script : Delivery → List (Except TransferFault UInt8)
  | .data [] => [.error .endOfInput]
  | .data (first :: rest) => (first :: rest).map .ok
  | .interruption => []
  | .failure text => [.error (.failure text)]

theorem fault?_data_eq_none_iff {chunk : Bytes} : (data chunk).fault? = none ↔ chunk ≠ [] := by
  cases chunk <;> simp [fault?]

end Delivery

namespace Source

/-- The deliveries from the next fault on. -/
def back (source : Source) : Source :=
  source.dropWhile fun delivery => delivery.fault?.isNone

/-- The bytes before the next fault. -/
def ready (source : Source) : Bytes :=
  bytes (source.takeWhile fun delivery => delivery.fault?.isNone)

/-- The next fault. Behind all deliveries stands an end of input. -/
def fault (source : Source) : TransferFault :=
  (source.findSome? Delivery.fault?).getD .endOfInput

/-- The bytes and faults of a source in their order. -/
def script (source : Source) : List (Except TransferFault UInt8) :=
  source.flatMap Delivery.script

variable {delivery : Delivery} {cause : TransferFault} {source later : Source} {count : Nat}

theorem ready_of_fault (stops : delivery.fault? = some cause) :
    ready (delivery :: later) = [] := by
  simp [ready, stops, bytes]

theorem back_of_fault (stops : delivery.fault? = some cause) :
    back (delivery :: later) = delivery :: later := by
  simp [back, stops]

theorem fault_of_fault (stops : delivery.fault? = some cause) :
    fault (delivery :: later) = cause := by
  simp [fault, stops]

theorem back_of_none (goesOn : delivery.fault? = none) :
    back (delivery :: later) = back later := by
  simp [back, goesOn]

theorem back_of_faultless (faultless : ∀ delivery ∈ source, delivery.fault? = none) :
    source.back = [] := by
  induction source with
  | nil => rfl
  | cons delivery later laterIH =>
      obtain ⟨goesOn, laterGoesOn⟩ := List.forall_mem_cons.mp faultless
      rw [back_of_none goesOn, laterIH laterGoesOn]

theorem fault_of_none (goesOn : delivery.fault? = none) :
    fault (delivery :: later) = fault later := by
  simp [fault, goesOn]

theorem ready_of_none (goesOn : delivery.fault? = none) :
    ready (delivery :: later) = bytes [delivery] ++ ready later := by
  cases delivery with
  | data chunk => simp [ready, goesOn, bytes]
  | interruption => simp [ready, goesOn, bytes]
  | failure text => cases goesOn

theorem ready_interruption (later : Source) : ready (.interruption :: later) = ready later :=
  ready_of_none rfl

theorem ready_data {chunk : Bytes} (filled : chunk ≠ []) (later : Source) :
    ready (.data chunk :: later) = chunk ++ ready later := by
  rw [ready_of_none (Delivery.fault?_data_eq_none_iff.mpr filled), bytes, bytes, List.append_nil]

theorem read_zero (source : Source) : read 0 source = .ok [] source := by
  cases source with
  | nil => rfl
  | cons delivery later => simp [read]

theorem read_data_of_lt {chunk : Bytes} (needed : count ≠ 0) (inside : count < chunk.length)
    (later : Source) :
    read count (.data chunk :: later) =
      .ok (chunk.take count) (.data (chunk.drop count) :: later) := by
  have filled : chunk ≠ [] := List.length_pos_iff.mp (Nat.zero_lt_of_lt inside)
  simp only [read, needed, inside, if_false, if_true]

theorem read_data_of_ok {chunk bytes : Bytes} {rest : Source} (needed : count ≠ 0)
    (filled : chunk ≠ []) (whole : ¬count < chunk.length)
    (taken : read (count - chunk.length) later = .ok bytes rest) :
    read count (.data chunk :: later) = .ok (chunk ++ bytes) rest := by
  simp only [read, needed, whole, taken, if_false]

theorem read_data_of_error {chunk : Bytes} {rest : Source} (needed : count ≠ 0)
    (filled : chunk ≠ []) (whole : ¬count < chunk.length)
    (failed : read (count - chunk.length) later = .error cause rest) :
    read count (.data chunk :: later) = .error cause rest := by
  simp only [read, needed, whole, failed, if_false]

theorem read_of_fault (needed : count ≠ 0) (stops : delivery.fault? = some cause)
    (later : Source) : read count (delivery :: later) = .error cause later := by
  cases delivery with
  | interruption => cases stops
  | failure text =>
      cases stops
      rw [read, if_neg needed]
  | data chunk =>
      cases chunk with
      | nil =>
          cases stops
          rw [read, if_neg needed]
      | cons first chunk => cases stops

/-- With enough bytes before the next fault, a reading takes the first of them and nothing else. -/
theorem read_of_le (source : Source) (count : Nat) (enough : count ≤ source.ready.length) :
    ∃ rest, read count source = .ok (source.ready.take count) rest ∧
      rest.ready = source.ready.drop count ∧ rest.back = source.back := by
  induction source generalizing count with
  | nil =>
      obtain rfl : count = 0 := Nat.le_zero.mp enough
      exact ⟨[], rfl, rfl, rfl⟩
  | cons delivery later laterIH =>
      by_cases zero : count = 0
      · subst zero
        exact ⟨_, read_zero _, rfl, rfl⟩
      cases stops : delivery.fault? with
      | some cause =>
          rw [ready_of_fault stops] at enough
          exact absurd (Nat.le_zero.mp enough) zero
      | none =>
          cases delivery with
          | failure text => cases stops
          | interruption =>
              rw [ready_interruption] at enough ⊢
              obtain ⟨rest, taken, ready, back⟩ := laterIH count enough
              exact ⟨rest, by simp only [read, zero, if_false, taken], ready, back⟩
          | data chunk =>
              have filled := Delivery.fault?_data_eq_none_iff.mp stops
              rw [ready_data filled] at enough ⊢
              by_cases inside : count < chunk.length
              · have left : chunk.drop count ≠ [] := by
                  rwa [ne_eq, List.drop_eq_nil_iff, Nat.not_le]
                have goesOn := Delivery.fault?_data_eq_none_iff.mpr left
                rw [read_data_of_lt zero inside, back_of_none stops,
                  List.take_append_of_le_length (Nat.le_of_lt inside),
                  List.drop_append_of_le_length (Nat.le_of_lt inside)]
                exact ⟨_, rfl, ready_data left later, back_of_none goesOn⟩
              · have whole := Nat.le_of_not_lt inside
                rw [List.length_append] at enough
                obtain ⟨rest, taken, ready, back⟩ :=
                  laterIH (count - chunk.length) (Nat.sub_le_iff_le_add'.mpr enough)
                rw [read_data_of_ok zero filled inside taken, back_of_none stops,
                  List.take_append, List.take_of_length_le whole,
                  List.drop_append, List.drop_of_length_le whole, List.nil_append]
                exact ⟨rest, rfl, ready, back⟩

/-- With too few bytes before the next fault, a reading takes them all and the fault. -/
theorem read_of_lt (source : Source) (count : Nat) (short : source.ready.length < count) :
    read count source = .error source.fault source.back.tail := by
  induction source generalizing count with
  | nil =>
      have needed : count ≠ 0 := Nat.ne_zero_of_lt short
      rw [read, if_neg needed]
      rfl
  | cons delivery later laterIH =>
      have needed : count ≠ 0 := Nat.ne_zero_of_lt short
      cases stops : delivery.fault? with
      | some cause =>
          rw [read_of_fault needed stops, back_of_fault stops, fault_of_fault stops, List.tail_cons]
      | none =>
          rw [back_of_none stops, fault_of_none stops]
          cases delivery with
          | failure text => cases stops
          | interruption =>
              rw [ready_interruption] at short
              rw [read, if_neg needed]
              exact laterIH count short
          | data chunk =>
              have filled := Delivery.fault?_data_eq_none_iff.mp stops
              rw [ready_data filled, List.length_append] at short
              exact read_data_of_error needed filled (by omega) (laterIH _ (by omega))

theorem bytes_append (front later : Source) :
    bytes (front ++ later) = bytes front ++ bytes later := by
  induction front with
  | nil => rfl
  | cons delivery front frontIH => cases delivery <;> simp [bytes, frontIH]

theorem bytes_cons (delivery : Delivery) (later : Source) :
    bytes (delivery :: later) = bytes [delivery] ++ bytes later :=
  bytes_append [delivery] later

theorem bytes_of_fault (stops : delivery.fault? = some cause) : bytes [delivery] = [] := by
  cases delivery with
  | data chunk =>
      cases chunk with
      | nil => rfl
      | cons first rest => cases stops
  | interruption => cases stops
  | failure text => rfl

theorem bytes_eq (source : Source) : source.bytes = source.ready ++ source.back.bytes := by
  rw [ready, back, ← bytes_append, List.takeWhile_append_dropWhile]

/-- The rest of a source begins with its next fault, if it has one. -/
theorem back_cases (source : Source) :
    (source.back = [] ∧ source.fault = .endOfInput) ∨
      ∃ delivery later, source.back = delivery :: later ∧
        delivery.fault? = some source.fault := by
  induction source with
  | nil => exact .inl ⟨rfl, rfl⟩
  | cons delivery later laterIH =>
      cases stops : delivery.fault? with
      | some cause =>
          rw [back_of_fault stops, fault_of_fault stops]
          exact .inr ⟨delivery, later, rfl, stops⟩
      | none => rwa [back_of_none stops, fault_of_none stops]

theorem bytes_tail_back (source : Source) : bytes source.back.tail = source.back.bytes := by
  rcases source.back_cases with ⟨back, _⟩ | ⟨delivery, later, back, stops⟩
  · rw [back]
    rfl
  · rw [back, bytes_cons, bytes_of_fault stops]
    rfl

theorem script_of_fault (stops : delivery.fault? = some cause) :
    delivery.script = [.error cause] := by
  cases delivery with
  | data chunk =>
      cases chunk with
      | nil =>
          cases stops
          rfl
      | cons first rest => cases stops
  | interruption => cases stops
  | failure text =>
      cases stops
      rfl

theorem script_of_none (goesOn : delivery.fault? = none) :
    delivery.script = (bytes [delivery]).map .ok := by
  cases delivery with
  | data chunk =>
      cases chunk with
      | nil => cases goesOn
      | cons first rest => simp [Delivery.script, bytes]
  | interruption => rfl
  | failure text => cases goesOn

theorem script_cons (delivery : Delivery) (later : Source) :
    script (delivery :: later) = delivery.script ++ script later :=
  List.flatMap_cons

theorem script_eq (source : Source) :
    source.script = source.ready.map .ok ++ source.back.script := by
  induction source with
  | nil => rfl
  | cons delivery later laterIH =>
      cases stops : delivery.fault? with
      | some cause => rw [ready_of_fault stops, back_of_fault stops, List.map_nil, List.nil_append]
      | none =>
          rw [script_cons, script_of_none stops, ready_of_none stops, back_of_none stops,
            List.map_append, List.append_assoc, ← laterIH]

theorem script_back_cases (source : Source) :
    (source.back.script = [] ∧ source.fault = .endOfInput ∧ script source.back.tail = []) ∨
      source.back.script = .error source.fault :: script source.back.tail := by
  rcases source.back_cases with ⟨back, fault⟩ | ⟨delivery, later, back, stops⟩
  · rw [back]
    exact .inl ⟨rfl, fault, rfl⟩
  · rw [back, script_cons, script_of_fault stops]
    exact .inr rfl

theorem script_split (source : Source) :
    source.script.takeWhile Except.isOk = source.ready.map .ok ∧
      source.script.dropWhile Except.isOk = source.back.script := by
  have data : ∀ item ∈ source.ready.map Except.ok, (item : Except TransferFault UInt8).isOk := by
    intro item member
    obtain ⟨byte, _, rfl⟩ := List.mem_map.mp member
    rfl
  rw [script_eq, List.takeWhile_append_of_pos data, List.dropWhile_append_of_pos data]
  rcases source.script_back_cases with ⟨back, _⟩ | back
  · rw [back]
    exact ⟨List.append_nil _, rfl⟩
  · rw [back]
    exact ⟨List.append_nil _, rfl⟩

/-- All that a reading looks at is in the script. -/
theorem congr_script {other : Source} (same : other.script = source.script) :
    other.ready = source.ready ∧ other.fault = source.fault ∧
      other.back.script = source.back.script ∧
      script other.back.tail = script source.back.tail := by
  have split := source.script_split
  rw [← same, other.script_split.1, other.script_split.2] at split
  obtain ⟨ready, back⟩ := split
  refine ⟨(List.map_inj_right fun _ _ => Except.ok.inj).mp ready, ?_⟩
  rcases source.script_back_cases with ⟨ended, fault, tail⟩ | stopped
  · rcases other.script_back_cases with ⟨_, otherFault, otherTail⟩ | otherStopped
    · rw [fault, otherFault, tail, otherTail]
      exact ⟨rfl, back, rfl⟩
    · rw [back, ended] at otherStopped
      cases otherStopped
  · rcases other.script_back_cases with ⟨otherEnded, _⟩ | otherStopped
    · rw [back, stopped] at otherEnded
      cases otherEnded
    · rw [back, stopped] at otherStopped
      obtain ⟨faults, tails⟩ := List.cons.inj otherStopped
      exact ⟨(Except.error.inj faults).symm, back, tails.symm⟩

/-- The bytes that a source has given up when it has become another. -/
def taken (source rest : Source) : Bytes :=
  source.bytes.take (source.bytes.length - rest.bytes.length)

theorem taken_of_bytes_eq {rest : Source} {front : Bytes}
    (split : source.bytes = front ++ rest.bytes) : taken source rest = front := by
  rw [taken, split, List.length_append, Nat.add_sub_cancel, List.take_left]

/-- Reads a record of each layout in turn, those behind a failing one too. -/
def callAll (layouts : List Layout) :
    Source → List (Except (CallFailure UnpackError) (List Value)) × Source :=
  Attempt.all (layouts.map Layout.readCall)

/-- The bytes that each reading takes. -/
def takenAll : List Layout → Source → List Bytes
  | [], _ => []
  | layout :: later, source =>
      taken source (Attempt.state (layout.readCall source)) ::
        takenAll later (Attempt.state (layout.readCall source))

end Source

namespace Layout

variable {layout : Layout} {source other : Source}

theorem readUnpacked_of_le (exact : layout.Exact)
    (enough : layout.size ≤ source.ready.length) :
    ∃ values rest, layout.readUnpacked source = .ok values rest ∧
      layout.unpack (source.ready.take layout.size) = .ok values ∧
      rest.ready = source.ready.drop layout.size ∧ rest.back = source.back := by
  obtain ⟨rest, read, ready, back⟩ := source.read_of_le layout.size enough
  have unpacked := unpack_of_length exact (List.length_take_of_le enough)
  exact ⟨_, rest, by simp only [readUnpacked, read, unpacked], unpacked, ready, back⟩

theorem readUnpacked_of_lt (short : source.ready.length < layout.size) :
    layout.readUnpacked source = .error (.transfer source.fault) source.back.tail := by
  simp only [readUnpacked, source.read_of_lt layout.size short]

theorem readCall_of_beyond (beyond : Size.bufferLimit ≤ layout.size) (source : Source) :
    layout.readCall source = .error (.panicked .capacityOverflow) source := by
  rw [readCall, if_pos beyond]
  rfl

theorem readCall_of_le (exact : layout.Exact) (reserved : layout.size < Size.bufferLimit)
    (enough : layout.size ≤ source.ready.length) :
    ∃ values rest, layout.readCall source = .ok values rest ∧
      layout.unpack (source.ready.take layout.size) = .ok values ∧
      rest.ready = source.ready.drop layout.size ∧ rest.back = source.back := by
  obtain ⟨values, rest, read, outcome⟩ := readUnpacked_of_le exact enough
  refine ⟨values, rest, ?_, outcome⟩
  rw [readCall, if_neg (Nat.not_le.mpr reserved), EStateM.adaptExcept, read]

theorem readCall_of_lt (reserved : layout.size < Size.bufferLimit)
    (short : source.ready.length < layout.size) :
    layout.readCall source = .error (.answered (.transfer source.fault)) source.back.tail := by
  rw [readCall, if_neg (Nat.not_le.mpr reserved), EStateM.adaptExcept, readUnpacked_of_lt short]

/-- A reading takes bytes from the front, and only from before the next fault. -/
theorem bytes_readCall (exact : layout.Exact) (source : Source) :
    ∃ count, source.bytes = source.ready.take count ++
      Source.bytes (Attempt.state (layout.readCall source)) := by
  rcases Nat.lt_or_ge layout.size Size.bufferLimit with reserved | beyond
  · refine ⟨layout.size, ?_⟩
    by_cases enough : layout.size ≤ source.ready.length
    · obtain ⟨values, rest, read, _, ready, back⟩ := readCall_of_le exact reserved enough
      rw [read, Attempt.state, source.bytes_eq, rest.bytes_eq, ready, back, ← List.append_assoc,
        List.take_append_drop]
    · have short := Nat.lt_of_not_le enough
      rw [readCall_of_lt reserved short, Attempt.state, Source.bytes_tail_back, source.bytes_eq,
        List.take_of_length_le (Nat.le_of_lt short)]
  · exact ⟨0, by rw [readCall_of_beyond beyond]; rfl⟩

theorem readCall_congr (exact : layout.Exact) (same : other.script = source.script) :
    Attempt.answer (layout.readCall other) = Attempt.answer (layout.readCall source) ∧
      Source.script (Attempt.state (layout.readCall other)) =
        Source.script (Attempt.state (layout.readCall source)) := by
  rcases Nat.lt_or_ge layout.size Size.bufferLimit with reserved | beyond
  · obtain ⟨ready, fault, back, tail⟩ := Source.congr_script same
    by_cases enough : layout.size ≤ source.ready.length
    · obtain ⟨values, rest, read, unpacked, left, untouched⟩ :=
        readCall_of_le exact reserved enough
      obtain ⟨otherValues, otherRest, otherRead, otherUnpacked, otherLeft, otherUntouched⟩ :=
        readCall_of_le exact reserved (ready ▸ enough)
      rw [ready] at otherUnpacked otherLeft
      rw [unpacked] at otherUnpacked
      cases otherUnpacked
      rw [read, otherRead]
      refine ⟨rfl, ?_⟩
      rw [Attempt.state, Attempt.state, otherRest.script_eq, rest.script_eq, left, otherLeft,
        untouched, otherUntouched, back]
    · have short := Nat.lt_of_not_le enough
      rw [readCall_of_lt reserved short, readCall_of_lt reserved (ready ▸ short), fault]
      exact ⟨rfl, tail⟩
  · rw [readCall_of_beyond beyond, readCall_of_beyond beyond]
    exact ⟨rfl, same⟩

end Layout

namespace Source

variable {layouts : List Layout}

theorem callAll_cons (layout : Layout) (later : List Layout) (source : Source) :
    callAll (layout :: later) source =
      (Attempt.answer (layout.readCall source) ::
          (callAll later (Attempt.state (layout.readCall source))).1,
        (callAll later (Attempt.state (layout.readCall source))).2) :=
  rfl

theorem flatten_takenAll (exact : ∀ layout ∈ layouts, layout.Exact) (source : Source) :
    (takenAll layouts source).flatten ++ (callAll layouts source).2.bytes = source.bytes := by
  induction layouts generalizing source with
  | nil => rfl
  | cons layout later laterIH =>
      obtain ⟨headExact, laterExact⟩ := List.forall_mem_cons.mp exact
      obtain ⟨count, split⟩ := Layout.bytes_readCall headExact source
      have rest := laterIH laterExact (Attempt.state (layout.readCall source))
      rw [takenAll, callAll_cons, List.flatten_cons, taken_of_bytes_eq split, List.append_assoc,
        rest, ← split]

theorem callAll_congr (exact : ∀ layout ∈ layouts, layout.Exact) {source other : Source}
    (same : other.script = source.script) :
    (callAll layouts other).1 = (callAll layouts source).1 ∧
      (callAll layouts other).2.script = (callAll layouts source).2.script := by
  induction layouts generalizing source other with
  | nil => exact ⟨rfl, same⟩
  | cons layout later laterIH =>
      obtain ⟨headExact, laterExact⟩ := List.forall_mem_cons.mp exact
      obtain ⟨answers, left⟩ := Layout.readCall_congr headExact same
      obtain ⟨laterAnswers, laterLeft⟩ := laterIH laterExact left
      exact ⟨List.cons_eq_cons.mpr ⟨answers, laterAnswers⟩, laterLeft⟩

/-- A reading of a record that no buffer holds panics and leaves the source as it is. Every other
one succeeds exactly if the bytes of its record stand before the next fault, and then it takes them
and unpacks them. Otherwise it takes all that stand there and the fault. So the readings take the
bytes of the source in their order, and sources that differ in their chunks and interruptions only
are read alike. -/
theorem callAll_conserves (compiled : ∀ layout ∈ layouts, ∃ text, Layout.compile text = .ok layout)
    (source : Source) :
    (∀ layout ∈ layouts, ∀ current : Source,
      (Size.bufferLimit ≤ layout.size →
        layout.readCall current = .error (.panicked .capacityOverflow) current) ∧
      (layout.size < Size.bufferLimit →
        ((∃ values rest, layout.readCall current = .ok values rest) ↔
          layout.size ≤ current.ready.length) ∧
        (layout.size ≤ current.ready.length →
          ∃ values rest, layout.readCall current = .ok values rest ∧
            layout.unpack (current.ready.take layout.size) = .ok values ∧
            taken current rest = current.ready.take layout.size ∧
            rest.ready = current.ready.drop layout.size ∧ rest.back = current.back) ∧
        (current.ready.length < layout.size →
          layout.readCall current =
            .error (.answered (.transfer current.fault)) current.back.tail ∧
          taken current current.back.tail = current.ready))) ∧
    (takenAll layouts source).flatten ++ (callAll layouts source).2.bytes = source.bytes ∧
    ∀ other : Source, other.script = source.script →
      (callAll layouts other).1 = (callAll layouts source).1 ∧
      (callAll layouts other).2.script = (callAll layouts source).2.script := by
  have exact : ∀ layout ∈ layouts, layout.Exact := by
    intro layout member
    obtain ⟨text, found⟩ := compiled layout member
    exact Layout.exact_of_compile found
  refine ⟨?_, flatten_takenAll exact source, fun _ => callAll_congr exact⟩
  intro layout member current
  refine ⟨fun beyond => Layout.readCall_of_beyond beyond current, fun reserved => ?_⟩
  have succeeds : layout.size ≤ current.ready.length → _ :=
    Layout.readCall_of_le (exact layout member) reserved
  have fails : current.ready.length < layout.size → _ := Layout.readCall_of_lt reserved
  refine ⟨⟨?_, ?_⟩, ?_, ?_⟩
  · intro read
    obtain ⟨values, rest, read⟩ := read
    apply Nat.le_of_not_lt
    intro short
    cases read.symm.trans (fails short)
  · intro enough
    obtain ⟨values, rest, read, _⟩ := succeeds enough
    exact ⟨values, rest, read⟩
  · intro enough
    obtain ⟨values, rest, read, unpacked, ready, back⟩ := succeeds enough
    refine ⟨values, rest, read, unpacked, taken_of_bytes_eq ?_, ready, back⟩
    rw [current.bytes_eq, rest.bytes_eq, ready, back, ← List.append_assoc, List.take_append_drop]
  · intro short
    refine ⟨fails short, taken_of_bytes_eq ?_⟩
    rw [bytes_tail_back, current.bytes_eq]

/-- A record in two chunks, and a failure in the next one, for examples. -/
def specimen : Source :=
  [.data [97], .interruption, .data [98, 0x3C, 0, 1, 99], .failure "gone", .data [100]]

/-- The failed reading takes one byte, and the source behind the failure is still there. A record
that no buffer holds leaves its source as it is. -/
theorem callAll_conserves_specimen :
    (∀ layout ∈ [Layout.specimen, Layout.colossus, Layout.specimen],
      ∃ text, Layout.compile text = .ok layout) ∧
      (∃ values rest, Layout.specimen.readCall specimen = .ok values rest ∧
        Layout.specimen.unpack [97, 98, 0x3C, 0, 1] = .ok values ∧ rest.ready = [99]) ∧
      Layout.specimen.readCall [.data [99], .failure "gone", .data [100]] =
        .error (.answered (.transfer (.failure "gone"))) [.data [100]] ∧
      Layout.colossus.readCall [.data [97, 98, 99]] =
        .error (.panicked .capacityOverflow) [.data [97, 98, 99]] ∧
      (takenAll [Layout.specimen, Layout.colossus, Layout.specimen] specimen).flatten ++
        (callAll [Layout.specimen, Layout.colossus, Layout.specimen] specimen).2.bytes =
          [97, 98, 0x3C, 0, 1, 99, 100] ∧
      (callAll [Layout.specimen, Layout.colossus, Layout.specimen]
        [.data [97, 98, 0x3C, 0, 1], .data [99], .failure "gone", .data [100]]).1 =
          (callAll [Layout.specimen, Layout.colossus, Layout.specimen] specimen).1 := by
  have compiled : ∀ layout ∈ [Layout.specimen, Layout.colossus, Layout.specimen],
      ∃ text, Layout.compile text = .ok layout := by
    intro layout member
    obtain rfl | rfl | rfl : layout = Layout.specimen ∨ layout = Layout.colossus ∨
        layout = Layout.specimen := by simpa using member
    · exact ⟨_, Layout.compile_specimen⟩
    · exact ⟨_, Layout.compile_colossus⟩
    · exact ⟨_, Layout.compile_specimen⟩
  obtain ⟨calls, conserved, alike⟩ := callAll_conserves compiled specimen
  have call (current : Source) := (calls Layout.specimen List.mem_cons_self current).2 (by decide)
  have panics := calls Layout.colossus (List.mem_cons_of_mem _ List.mem_cons_self)
  obtain ⟨values, rest, read, unpacked, _, ready, _⟩ := (call specimen).2.1 (by decide)
  exact ⟨compiled, ⟨values, rest, read, unpacked, ready⟩, ((call _).2.2 (by decide)).1,
    (panics _).1 (Nat.le_refl _), conserved, (alike _ rfl).1⟩

end Source

end BinaryRecord
