import BinaryRecord.Proofs.Layout.Compilation
import BinaryRecord.Proofs.Packing.Calls
import BinaryRecord.Proofs.Transfer.Attempts
import BinaryRecord.Transfer.Sink

/-!
# Records written to a sink

A sink takes from every record what it has space for, however its attempts go. So it holds the front
of all accepted records in a row, and a record is written exactly if it ends within the capacity. A
call that panics leaves the sink as it is. Main statements: `Sink.deliverAll_eq` and
`Entry.callAll_accepts_front`.
-/

set_option autoImplicit false

namespace BinaryRecord

namespace Sink

variable {sink : Sink} {bytes : Bytes} {limit count : Nat}

/-- What a delivery fails with where the sink accepts no more. -/
def fault (sink : Sink) : TransferFault :=
  match sink.refusal with
  | some reason => .failure reason
  | none => .noProgress

/-- The sink behind an attempt that accepted bytes. -/
def accept (sink : Sink) (bytes : Bytes) : Sink :=
  { sink with accepted := sink.accepted ++ bytes }

/-- The sink behind a delivery: it has accepted what it had space for, and some of its schedule is
left. -/
def filled (sink : Sink) (bytes : Bytes) (turns : List Turn) : Sink :=
  { sink with turns := turns, accepted := sink.accepted ++ bytes.take sink.space }

/-- How every delivery ends: it succeeds exactly if the sink has space for it. -/
def Delivers (sink : Sink) (bytes : Bytes) (result : EStateM.Result TransferFault Sink Unit) :
    Prop :=
  ∃ turns, result =
    if bytes.length ≤ sink.space then .ok () (sink.filled bytes turns)
    else .error sink.fault (sink.filled bytes turns)

theorem writeAll_nil (sink : Sink) : sink.writeAll [] = .ok () sink := by
  rw [writeAll, dif_pos rfl]

/-- How a delivery goes on behind an attempt. -/
def resume (bytes : Bytes) : WriteOutcome × Sink → EStateM.Result TransferFault Sink Unit
  | (.interrupted, after) => after.writeAll bytes
  | (.refused reason, after) => .error (.failure reason) after
  | (.accepted 0, after) => .error .noProgress after
  | (.accepted (count + 1), after) => after.writeAll (bytes.drop (count + 1))

theorem writeAll_of_ne_nil (sink : Sink) (written : bytes ≠ []) :
    sink.writeAll bytes = resume bytes (sink.write bytes) := by
  rw [writeAll, dif_neg written]
  split <;> simp_all [resume]

theorem space_accept (sink : Sink) (bytes : Bytes) :
    (sink.accept bytes).space = sink.space - bytes.length := by
  rw [space, space, accept, List.length_append, Nat.sub_add_eq]

theorem accept_accept (sink : Sink) (bytes later : Bytes) :
    (sink.accept bytes).accept later = sink.accept (bytes ++ later) := by
  rw [accept, accept, accept, ← List.append_assoc]

/-- A full sink refuses a delivery, or does not go on with it. -/
theorem resume_offer_of_full (full : sink.space = 0) (limit : Nat) (bytes : Bytes) :
    resume bytes (sink.offer limit bytes) = .error sink.fault sink := by
  have stuck : min bytes.length (min limit sink.space) = 0 := by
    rw [full, Nat.min_zero, Nat.min_zero]
  obtain ⟨capacity, atOnce, turns, refusal, accepted⟩ := sink
  cases refusal <;> simp [offer, stuck, resume, fault]

/-- A sink with space accepts a part of a delivery. -/
theorem offer_of_space (limited : 0 < limit) (roomy : 0 < sink.space) (written : bytes ≠ []) :
    ∃ count, count + 1 ≤ bytes.length ∧ count + 1 ≤ sink.space ∧
      sink.offer limit bytes = (.accepted (count + 1), sink.accept (bytes.take (count + 1))) := by
  have length := List.length_pos_iff.mpr written
  obtain ⟨count, accepts⟩ : ∃ count, min bytes.length (min limit sink.space) = count + 1 :=
    Nat.exists_eq_succ_of_ne_zero (by omega)
  refine ⟨count, by omega, by omega, ?_⟩
  rw [offer, accepts]
  rfl

/-- What is left of a delivery behind an attempt ends as the whole of it has to. -/
theorem delivers_of_accept {result : EStateM.Result TransferFault Sink Unit}
    (inside : count ≤ bytes.length) (fits : count ≤ sink.space)
    (later : (sink.accept (bytes.take count)).Delivers (bytes.drop count) result) :
    sink.Delivers bytes result := by
  have parts : bytes.take sink.space =
      bytes.take count ++ (bytes.drop count).take (sink.space - count) := by
    rw [← List.take_add, Nat.add_sub_cancel' fits]
  obtain ⟨turns, rfl⟩ := later
  refine ⟨turns, ?_⟩
  rw [filled, filled, space_accept, List.length_take, Nat.min_eq_left inside, List.length_drop,
    parts, ← List.append_assoc]
  simp only [Nat.sub_le_sub_iff_right fits]
  rfl

/-- An attempt with a limit brings a delivery to its end, if what it leaves is delivered. -/
theorem delivers_of_offer (limited : 0 < limit) (written : bytes ≠ [])
    (later : ∀ count, count + 1 ≤ bytes.length →
      (sink.accept (bytes.take (count + 1))).Delivers (bytes.drop (count + 1))
        ((sink.accept (bytes.take (count + 1))).writeAll (bytes.drop (count + 1)))) :
    sink.Delivers bytes (resume bytes (sink.offer limit bytes)) := by
  by_cases full : sink.space = 0
  · have length := List.length_pos_iff.mpr written
    refine ⟨sink.turns, ?_⟩
    rw [resume_offer_of_full full, filled, full, if_neg (Nat.not_le.mpr length), List.take_zero,
      List.append_nil]
  · obtain ⟨count, inside, fits, attempt⟩ :=
      offer_of_space limited (Nat.pos_of_ne_zero full) written
    rw [attempt, resume]
    exact delivers_of_accept inside fits (later count inside)

/-- A delivery succeeds exactly if the sink has space for it, and the sink takes all that it has
space for. The schedule has no part in that. -/
theorem delivers_writeAll (sink : Sink) (bytes : Bytes) (positive : 1 ≤ sink.atOnce) :
    sink.Delivers bytes (sink.writeAll bytes) := by
  by_cases empty : bytes = []
  · subst empty
    refine ⟨sink.turns, ?_⟩
    rw [writeAll_nil, filled, List.length_nil, if_pos (Nat.zero_le _), List.take_nil,
      List.append_nil]
  · rw [writeAll_of_ne_nil sink empty]
    -- An attempt uses up a turn or writes a byte, so the recursion is on both of them together.
    cases turns : sink.turns with
    | nil =>
        rw [write, turns]
        exact delivers_of_offer positive empty fun count inside =>
          delivers_writeAll (sink.accept (bytes.take (count + 1))) _ positive
    | cons turn later =>
        cases turn with
        | interruption =>
            rw [write, turns]
            exact delivers_writeAll { sink with turns := later } bytes positive
        | portion most =>
            rw [write, turns]
            exact delivers_of_offer most.property empty fun count inside =>
              delivers_writeAll ({ sink with turns := later }.accept (bytes.take (count + 1))) _
                positive
termination_by sink.turns.length + bytes.length
decreasing_by
  all_goals simp only [accept, turns, List.length_drop, List.length_cons, List.length_nil]
  all_goals omega

/-! ## Records in turn -/

variable {ε : Type}

/-- The bytes of a record, if it has been packed. -/
def content : Except ε Bytes → Bytes
  | .ok bytes => bytes
  | .error _ => []

/-- The records that have been packed, in a row. -/
def row (records : List (Except ε Bytes)) : Bytes :=
  records.flatMap content

/-- What the delivery of a record answers where a sink has so much space left. -/
def answer (fail : TransferFault → ε) (fault : TransferFault) (space : Nat) :
    Except ε Bytes → Except ε Nat
  | .ok bytes => if bytes.length ≤ space then .ok bytes.length else .error (fail fault)
  | .error error => .error error

def answers (fail : TransferFault → ε) (fault : TransferFault) :
    Nat → List (Except ε Bytes) → List (Except ε Nat)
  | _, [] => []
  | space, record :: later =>
      answer fail fault space record ::
        answers fail fault (space - (content record).length) later

/-- Delivers records in turn, those behind a failing one too. -/
def deliverAll (fail : TransferFault → ε) (records : List (Except ε Bytes)) :
    Sink → List (Except ε Nat) × Sink :=
  Attempt.all (records.map (deliver fail))

theorem row_cons (record : Except ε Bytes) (later : List (Except ε Bytes)) :
    row (record :: later) = content record ++ row later :=
  List.flatMap_cons

theorem row_append (records later : List (Except ε Bytes)) :
    row (records ++ later) = row records ++ row later :=
  List.flatMap_append

/-- One record: what its delivery answers, and what the sink accepts of it. -/
theorem deliver_eq (fail : TransferFault → ε) (record : Except ε Bytes) (sink : Sink)
    (positive : 1 ≤ sink.atOnce) :
    Attempt.answer (deliver fail record sink) = answer fail sink.fault sink.space record ∧
      ∃ turns, Attempt.state (deliver fail record sink) =
        { sink.accept ((content record).take sink.space) with turns := turns } := by
  cases record with
  | error error =>
      refine ⟨rfl, sink.turns, ?_⟩
      rw [content, List.take_nil, accept, List.append_nil]
      rfl
  | ok bytes =>
      obtain ⟨turns, delivered⟩ := sink.delivers_writeAll bytes positive
      rw [deliver, delivered, answer]
      by_cases fits : bytes.length ≤ sink.space
      · simp only [fits, if_true]
        exact ⟨rfl, turns, rfl⟩
      · simp only [fits, if_false]
        exact ⟨rfl, turns, rfl⟩

/-- All records: the sink accepts what it has space for of their row. -/
theorem deliverAll_eq (fail : TransferFault → ε) (records : List (Except ε Bytes)) (sink : Sink)
    (positive : 1 ≤ sink.atOnce) :
    (deliverAll fail records sink).1 = answers fail sink.fault sink.space records ∧
      ∃ turns, (deliverAll fail records sink).2 =
        { sink.accept ((row records).take sink.space) with turns := turns } := by
  induction records generalizing sink with
  | nil =>
      refine ⟨rfl, sink.turns, ?_⟩
      rw [row, List.flatMap_nil, accept, List.take_nil, List.append_nil]
      rfl
  | cons record later laterIH =>
      obtain ⟨answered, turns, left⟩ := deliver_eq fail record sink positive
      have space : (sink.accept ((content record).take sink.space)).space =
          sink.space - (content record).length := by
        rw [space_accept, List.length_take]
        omega
      obtain ⟨laterAnswered, pending, laterLeft⟩ := laterIH
        { sink.accept ((content record).take sink.space) with turns := turns } positive
      rw [deliverAll, List.map_cons, Attempt.all, answered, left]
      constructor
      · rw [answers, ← space]
        exact congrArg (_ :: ·) laterAnswered
      · refine ⟨pending, laterLeft.trans ?_⟩
        rw [row_cons, List.take_append, ← space, ← accept_accept]
        rfl

theorem deliverAll_of_fresh (fail : TransferFault → ε) (records : List (Except ε Bytes))
    {sink : Sink} (fresh : sink.accepted = []) (positive : 1 ≤ sink.atOnce) :
    (deliverAll fail records sink).1 = answers fail sink.fault sink.capacity records ∧
      (deliverAll fail records sink).2.accepted = (row records).take sink.capacity := by
  have space : sink.space = sink.capacity := by
    rw [Sink.space, fresh, List.length_nil, Nat.sub_zero]
  obtain ⟨answered, turns, left⟩ := deliverAll_eq fail records sink positive
  rw [space] at answered left
  refine ⟨answered, ?_⟩
  rw [left, accept, fresh, List.nil_append]

theorem length_answers (fail : TransferFault → ε) (fault : TransferFault) (space : Nat)
    (records : List (Except ε Bytes)) :
    (answers fail fault space records).length = records.length := by
  induction records generalizing space with
  | nil => rfl
  | cons record later laterIH => rw [answers, List.length_cons, laterIH, List.length_cons]

theorem getElem?_answers (fail : TransferFault → ε) (fault : TransferFault) (space : Nat)
    (before later : List (Except ε Bytes)) (record : Except ε Bytes) :
    (answers fail fault space (before ++ record :: later))[before.length]? =
      some (answer fail fault (space - (row before).length) record) := by
  induction before generalizing space with
  | nil => rfl
  | cons first before beforeIH =>
      rw [List.cons_append, answers, List.length_cons, List.getElem?_cons_succ, beforeIH,
        Nat.sub_sub, row_cons, List.length_append]

/-- A record is written exactly if it ends within the space, behind the records before it. -/
theorem answer_of_ok (fail : TransferFault → ε) {fault : TransferFault} {space : Nat}
    {before : List (Except ε Bytes)} (filled : 0 < bytes.length) :
    answer fail fault (space - (row before).length) (.ok bytes) =
      if (row (before ++ [.ok bytes])).length ≤ space then .ok bytes.length
      else .error (fail fault) := by
  have total : (row (before ++ [.ok bytes])).length = (row before).length + bytes.length := by
    rw [row_append, List.length_append, row, row, List.flatMap_singleton, content]
  have ends : bytes.length ≤ space - (row before).length ↔
      (row (before ++ [.ok bytes])).length ≤ space := by
    omega
  simp only [answer, ends]

end Sink

/-- A record that is to be written to a sink. -/
structure Entry where
  layout : Layout
  values : List Value
  compiled : ∃ source, Layout.compile source = .ok layout

namespace Entry

/-- What packing the record comes to. -/
def packed (entry : Entry) : Except (CallFailure PackError) Bytes :=
  entry.layout.packCall entry.values

def call (entry : Entry) : EStateM (CallFailure PackError) Sink Nat :=
  entry.layout.writeCall entry.values

/-- Writes entries in turn, those behind a failing one too. -/
def callAll (entries : List Entry) : Sink → List (Except (CallFailure PackError) Nat) × Sink :=
  Attempt.all (entries.map call)

/-- The records that have been packed, in a row. -/
def delivered (entries : List Entry) : Bytes :=
  Sink.row (entries.map packed)

variable {entry : Entry} {record : Bytes}

theorem layout_exact (entry : Entry) : entry.layout.Exact := by
  obtain ⟨source, compiled⟩ := entry.compiled
  exact Layout.exact_of_compile compiled

theorem size_pos (entry : Entry) : 0 < entry.layout.size := by
  obtain ⟨source, compiled⟩ := entry.compiled
  exact Layout.size_pos_of_compile compiled

theorem length_of_packed (accepted : entry.packed = .ok record) :
    record.length = entry.layout.size :=
  Layout.length_of_pack entry.layout_exact (Layout.packCall_eq_ok_iff.mp accepted).2

theorem callAll_eq (entries : List Entry) :
    callAll entries =
      Sink.deliverAll (fun fault => .answered (.transfer fault)) (entries.map packed) := by
  rw [Sink.deliverAll, List.map_map]
  rfl

theorem delivered_append_singleton (before : List Entry) (accepted : entry.packed = .ok record) :
    delivered (before ++ [entry]) = Sink.row (before.map packed ++ [.ok record]) := by
  rw [delivered, List.map_append, List.map_singleton, accepted]

/-- A sink that is written to holds the front of the accepted records, as long as its capacity. A
record is written exactly if those up to it fit into the capacity. A call that fails to pack, or
that panics because no buffer holds its record, leaves the sink as it is. The schedule of the sink
has no part in what it holds and in the answers. -/
theorem callAll_accepts_front (entries : List Entry) {sink : Sink} (fresh : sink.accepted = [])
    (positive : 1 ≤ sink.atOnce) :
    (callAll entries sink).1.length = entries.length ∧
    (callAll entries sink).2.accepted = (delivered entries).take sink.capacity ∧
    (∀ (before later : List Entry) (entry : Entry), entries = before ++ entry :: later →
      (∀ failure, entry.layout.packCall entry.values = .error failure →
        (callAll entries sink).1[before.length]? = some (.error failure) ∧
        ∀ current, entry.call current = .error failure current) ∧
      (∀ panic, entry.layout.packCall entry.values = .error (.panicked panic) ↔
        entry.values.length = entry.layout.valueCount ∧ Size.bufferLimit ≤ entry.layout.size ∧
          panic = .capacityOverflow) ∧
      ∀ record, entry.layout.packCall entry.values = .ok record →
        ((callAll entries sink).1[before.length]? = some (.ok entry.layout.size) ↔
          (delivered (before ++ [entry])).length ≤ sink.capacity) ∧
        (sink.capacity < (delivered (before ++ [entry])).length →
          (callAll entries sink).1[before.length]? =
            some (.error (.answered (.transfer sink.fault))))) ∧
    ∀ other : Sink, other.accepted = [] → 1 ≤ other.atOnce → other.capacity = sink.capacity →
      other.refusal = sink.refusal →
        (callAll entries other).1 = (callAll entries sink).1 ∧
        (callAll entries other).2.accepted = (callAll entries sink).2.accepted := by
  rw [callAll_eq]
  obtain ⟨answered, held⟩ := Sink.deliverAll_of_fresh _ (entries.map packed) fresh positive
  refine ⟨?_, held, ?_, ?_⟩
  · rw [answered, Sink.length_answers, List.length_map]
  · intro before later entry split
    have here := Sink.getElem?_answers (fun fault => .answered (.transfer fault)) sink.fault
      sink.capacity (before.map packed) (later.map packed) entry.packed
    rw [← List.map_cons, ← List.map_append, ← split, ← answered, List.length_map] at here
    refine ⟨?_, fun panic => Layout.packCall_eq_panicked_iff, ?_⟩
    · intro failure rejected
      have rejected : entry.packed = .error failure := rejected
      rw [here, rejected]
      exact ⟨rfl, fun current => by rw [call, Layout.writeCall, ← packed, rejected]; rfl⟩
    · intro record accepted
      have accepted : entry.packed = .ok record := accepted
      have length := length_of_packed accepted
      have filled : 0 < record.length := length ▸ entry.size_pos
      rw [here, accepted, Sink.answer_of_ok _ filled, ← delivered_append_singleton before accepted,
        length]
      by_cases fits : (delivered (before ++ [entry])).length ≤ sink.capacity
      · rw [if_pos fits]
        exact ⟨iff_of_true rfl fits, fun beyond => absurd fits (Nat.not_le.mpr beyond)⟩
      · rw [if_neg fits]
        exact ⟨iff_of_false nofun fits, fun _ => rfl⟩
  · intro other otherFresh otherPositive capacity refusal
    obtain ⟨otherAnswered, otherHeld⟩ :=
      Sink.deliverAll_of_fresh (fun fault => .answered (.transfer fault)) (entries.map packed)
        otherFresh otherPositive
    have fault : other.fault = sink.fault := by
      rw [Sink.fault, Sink.fault, refusal]
    rw [otherAnswered, otherHeld, answered, held, fault, capacity]
    exact ⟨rfl, rfl⟩

/-- A record that holds a byte string, for examples. -/
def specimen (content : Bytes) : Entry :=
  ⟨Layout.specimen, [.bytes content, .float16 0x3C00, .bool true], _, Layout.compile_specimen⟩

/-- A record that no buffer holds between two others, for examples. -/
def specimens : List Entry :=
  [specimen [97, 98], ⟨Layout.specimen, [], _, Layout.compile_specimen⟩,
    ⟨Layout.colossus, [.bytes [97, 98, 99]], _, Layout.compile_colossus⟩, specimen [99, 100]]

/-- A sink with space for seven bytes. Its attempts accept one byte, three bytes and then two bytes
at once, with an interruption in between, for examples. -/
def tightSink : Sink :=
  ⟨7, 2, [.portion ⟨1, by decide⟩, .interruption, .portion ⟨3, by decide⟩], none, []⟩

/-- The sink has no space for the last three bytes. The record without its values is not written,
and the call that panics leaves the sink as it is. -/
theorem callAll_accepts_front_specimen :
    tightSink.accepted = [] ∧ 1 ≤ tightSink.atOnce ∧
      (callAll specimens tightSink).2.accepted = [97, 98, 0x3C, 0, 1, 99, 100] ∧
      (callAll specimens tightSink).1[0]? = some (.ok 5) ∧
      (callAll specimens tightSink).1[1]? = some (.error (.answered (.arity 3 0))) ∧
      (callAll specimens tightSink).1[2]? = some (.error (.panicked .capacityOverflow)) ∧
      (callAll specimens tightSink).1[3]? =
        some (.error (.answered (.transfer .noProgress))) := by
  have fresh : tightSink.accepted = [] := rfl
  have positive : 1 ≤ tightSink.atOnce := by decide
  obtain ⟨_, held, answered, _⟩ := callAll_accepts_front specimens fresh positive
  refine ⟨fresh, positive, held, ?_, ?_, ?_, ?_⟩
  · exact ((answered [] _ _ rfl).2.2 _ rfl).1.mpr (by decide)
  · exact ((answered [_] _ _ rfl).1 _ rfl).1
  · have calls := answered [_, _] _ _ rfl
    have panicked := (calls.2.1 .capacityOverflow).mpr ⟨rfl, Nat.le_refl _, rfl⟩
    exact (calls.1 _ panicked).1
  · exact ((answered [_, _, _] [] _ rfl).2.2 _ rfl).2 (by decide)

end Entry

end BinaryRecord
