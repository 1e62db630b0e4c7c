import BinaryRecord.Proofs.RoundTrip.Values
import BinaryRecord.Proofs.Transfer.Reading
import BinaryRecord.Proofs.Transfer.Writing

/-!
# Records written and read back

Nothing stands between records that are written back to back. A record is as long as the size of its
layout, so readings with the same layouts find every record where it was written, whatever the
chunks on either side. Main statement: `Entry.readAll_writeAll`.
-/

set_option autoImplicit false

namespace BinaryRecord

/-- Reads a record of each layout in turn, those behind a failing one too. -/
def Source.readAll (layouts : List Layout) :
    Source → List (Except UnpackError (List Value)) × Source :=
  Attempt.all (layouts.map Layout.readUnpacked)

/-- Where a buffer can hold the record, the call writes as its description does. -/
theorem Layout.writeCall_of_lt {layout : Layout} (reserved : layout.size < Size.bufferLimit)
    (values : List Value) :
    layout.writeCall values = (layout.writePacked values).adaptExcept .answered := by
  funext sink
  rw [writeCall, writePacked, EStateM.adaptExcept, packCall_of_lt reserved]
  cases layout.pack values with
  | error error => rfl
  | ok packed =>
      change Sink.deliver _ (.ok packed) sink = _
      simp only [Sink.deliver]
      cases sink.writeAll packed <;> rfl

namespace Entry

variable {entry : Entry} {entries : List Entry} {source : Source} {packed : Bytes}

def write (entry : Entry) : EStateM PackError Sink Nat :=
  entry.layout.writePacked entry.values

/-- Writes entries in turn, those behind a failing one too. -/
def writeAll (entries : List Entry) : Sink → List (Except PackError Nat) × Sink :=
  Attempt.all (entries.map write)

/-- The bytes of the record, if its values fit. -/
def bytes (entry : Entry) : Bytes :=
  Sink.content (entry.layout.pack entry.values)

/-- The records whose values fit, in a row. -/
def stream (entries : List Entry) : Bytes :=
  entries.flatMap bytes

def Accepted (entry : Entry) : Prop :=
  ∃ packed, entry.layout.pack entry.values = .ok packed

/-- The values that are read back: byte strings are cut to their slots. -/
def restored (entry : Entry) : List Value :=
  List.zipWith Slot.restore entry.layout.slots entry.values

theorem bytes_of_ok (accepted : entry.layout.pack entry.values = .ok packed) :
    entry.bytes = packed := by
  rw [bytes, accepted]
  rfl

theorem length_bytes (accepted : entry.Accepted) : entry.bytes.length = entry.layout.size := by
  obtain ⟨packed, accepted⟩ := accepted
  rw [bytes_of_ok accepted, Layout.length_of_pack entry.layout_exact accepted]

theorem writeAll_eq (entries : List Entry) :
    writeAll entries =
      Sink.deliverAll .transfer (entries.map fun entry => entry.layout.pack entry.values) := by
  rw [Sink.deliverAll, List.map_map]
  rfl

theorem stream_eq (entries : List Entry) :
    stream entries = Sink.row (entries.map fun entry => entry.layout.pack entry.values) := by
  rw [Sink.row, List.flatMap_map]
  rfl

theorem unpack_bytes (accepted : entry.Accepted) :
    entry.layout.unpack entry.bytes = .ok entry.restored := by
  obtain ⟨packed, accepted⟩ := accepted
  rw [bytes_of_ok accepted]
  exact (Layout.unpack_of_pack entry.layout_exact accepted).2

theorem length_restored (accepted : entry.Accepted) :
    entry.restored.length = entry.values.length := by
  obtain ⟨packed, accepted⟩ := accepted
  have full := (Layout.unpack_of_pack entry.layout_exact accepted).1
  exact Layout.length_restore full

theorem getElem?_restored (accepted : entry.Accepted) {index : Nat} {value : Value}
    (found : entry.values[index]? = some value) :
    ∃ slot, entry.layout.slots[index]? = some slot ∧
      entry.restored[index]? = some (slot.restore value) := by
  obtain ⟨packed, accepted⟩ := accepted
  have full := (Layout.unpack_of_pack entry.layout_exact accepted).1
  exact Layout.getElem?_restore full found

theorem answers_of_fit {fault : TransferFault} {space : Nat}
    (accepted : ∀ entry ∈ entries, entry.Accepted) (fits : (stream entries).length ≤ space) :
    Sink.answers .transfer fault space (entries.map fun entry => entry.layout.pack entry.values) =
      entries.map fun entry => .ok entry.layout.size := by
  induction entries generalizing space with
  | nil => rfl
  | cons entry later laterIH =>
      obtain ⟨⟨packed, headAccepted⟩, laterAccepted⟩ := List.forall_mem_cons.mp accepted
      have length := Layout.length_of_pack entry.layout_exact headAccepted
      rw [stream, List.flatMap_cons, List.length_append, bytes_of_ok headAccepted] at fits
      have here : packed.length ≤ space := Nat.le_trans (Nat.le_add_right _ _) fits
      have rest := laterIH laterAccepted (Nat.le_sub_of_add_le' fits)
      rw [List.map_cons, Sink.answers, headAccepted, Sink.content, rest, List.map_cons,
        Sink.answer, if_pos here, length]

/-- Each reading takes the record that it is for, so that the next one stands in front. -/
theorem readAll_stream (accepted : ∀ entry ∈ entries, entry.Accepted) {behind : Bytes}
    (ready : source.ready = stream entries ++ behind) :
    (Source.readAll (entries.map layout) source).1 = entries.map (fun entry => .ok entry.restored) ∧
      (Source.readAll (entries.map layout) source).2.ready = behind ∧
      (Source.readAll (entries.map layout) source).2.back = source.back := by
  induction entries generalizing source with
  | nil => exact ⟨rfl, ready, rfl⟩
  | cons entry later laterIH =>
      obtain ⟨headAccepted, laterAccepted⟩ := List.forall_mem_cons.mp accepted
      have length := length_bytes headAccepted
      rw [stream, List.flatMap_cons, ← stream, List.append_assoc] at ready
      have enough : entry.layout.size ≤ source.ready.length := by
        rw [ready, List.length_append, length]
        exact Nat.le_add_right _ _
      obtain ⟨values, rest, read, unpacked, left, back⟩ :=
        Layout.readUnpacked_of_le entry.layout_exact enough
      rw [ready, List.take_left' length, unpack_bytes headAccepted] at unpacked
      rw [ready, List.drop_left' length] at left
      cases unpacked
      obtain ⟨answers, laterReady, laterBack⟩ := laterIH laterAccepted left
      rw [List.map_cons, Source.readAll, List.map_cons, Attempt.all, read]
      exact ⟨List.cons_eq_cons.mpr ⟨rfl, answers⟩, laterReady, laterBack.trans back⟩

/-- Records that are written back to back are read back as they were written, however the attempts
of the sink go and whatever the chunks of the source. Byte strings come back with the length of
their slots, and no byte is left. -/
theorem readAll_writeAll {sink : Sink} (accepted : ∀ entry ∈ entries, entry.Accepted)
    (fresh : sink.accepted = []) (positive : 1 ≤ sink.atOnce)
    (roomy : (stream entries).length ≤ sink.capacity)
    (faultless : ∀ delivery ∈ source, delivery.fault? = none)
    (delivers : source.bytes = (writeAll entries sink).2.accepted) :
    (writeAll entries sink).1 = entries.map (fun entry => .ok entry.layout.size) ∧
    (Source.readAll (entries.map layout) source).1 =
      entries.map (fun entry => .ok entry.restored) ∧
    (Source.readAll (entries.map layout) source).2.bytes = [] ∧
    ∀ entry ∈ entries, entry.restored.length = entry.values.length ∧
      ∀ (index : Nat) (value : Value), entry.values[index]? = some value →
        ∃ slot, entry.layout.slots[index]? = some slot ∧
          entry.restored[index]? = some (slot.restore value) := by
  rw [writeAll_eq] at delivers ⊢
  obtain ⟨answered, held⟩ := Sink.deliverAll_of_fresh PackError.transfer
    (entries.map fun entry => entry.layout.pack entry.values) fresh positive
  rw [← stream_eq] at held
  have back := Source.back_of_faultless faultless
  have ready : source.ready = stream entries ++ [] := by
    have all := source.bytes_eq
    rw [back, delivers, held, List.take_of_length_le roomy] at all
    rw [List.append_nil, all]
    exact (List.append_nil _).symm
  obtain ⟨read, left, untouched⟩ := readAll_stream accepted ready
  refine ⟨?_, read, ?_, ?_⟩
  · rw [answered, answers_of_fit accepted roomy]
  · rw [Source.bytes_eq, left, untouched, back]
    rfl
  · intro entry member
    exact ⟨length_restored (accepted entry member),
      fun _ _ => getElem?_restored (accepted entry member)⟩

/-- A sink with space for two such records. An interruption comes first, and its attempts accept
four bytes and then two bytes at once, for examples. -/
def roomySink : Sink :=
  ⟨10, 2, [.interruption, .portion ⟨4, by decide⟩], none, []⟩

/-- Two records that are read from chunks that end inside of them. The byte string of the first is
cut. -/
theorem readAll_writeAll_specimen :
    ∃ (entries : List Entry) (sink : Sink) (source : Source),
      entries = [specimen [97, 98, 99], specimen [100, 101]] ∧ sink = roomySink ∧
      source = [.data [97], .interruption, .data [98, 0x3C, 0, 1, 100, 101], .data [0x3C, 0, 1]] ∧
      (∀ entry ∈ entries, entry.Accepted) ∧ (stream entries).length ≤ sink.capacity ∧
      (∀ delivery ∈ source, delivery.fault? = none) ∧
      source.bytes = (writeAll entries sink).2.accepted ∧
      (Source.readAll (entries.map layout) source).1 =
        [.ok [.bytes [97, 98], .float16 0x3C00, .bool true],
          .ok [.bytes [100, 101], .float16 0x3C00, .bool true]] ∧
      (Source.readAll (entries.map layout) source).2.bytes = [] := by
  have accepted : ∀ entry ∈ [specimen [97, 98, 99], specimen [100, 101]], entry.Accepted := by
    intro entry member
    obtain rfl | rfl : entry = specimen [97, 98, 99] ∨ entry = specimen [100, 101] := by
      simpa using member
    · exact ⟨_, rfl⟩
    · exact ⟨_, rfl⟩
  have faultless : ∀ delivery ∈ ([.data [97], .interruption, .data [98, 0x3C, 0, 1, 100, 101],
      .data [0x3C, 0, 1]] : Source), delivery.fault? = none := by
    simp [Delivery.fault?]
  have fresh : roomySink.accepted = [] := rfl
  have delivers : [97, 98, 0x3C, 0, 1, 100, 101, 0x3C, 0, 1] =
      (writeAll [specimen [97, 98, 99], specimen [100, 101]] roomySink).2.accepted := by
    rw [writeAll_eq]
    exact (Sink.deliverAll_of_fresh PackError.transfer
      ([specimen [97, 98, 99], specimen [100, 101]].map fun entry =>
        entry.layout.pack entry.values) fresh (by decide)).2.symm
  obtain ⟨_, read, left, _⟩ := readAll_writeAll accepted fresh (by decide) (by decide) faultless
    delivers
  exact ⟨_, _, _, rfl, rfl, rfl, accepted, by decide, faultless, delivers, read, left⟩

end Entry

end BinaryRecord
