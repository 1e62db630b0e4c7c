import BinaryRecord.Packing
import BinaryRecord.Transfer.Fault

/-!
# Sinks

A sink accepts bytes a few at a time and up to a bound. Writing a record goes on until all of its
bytes are accepted or the sink refuses more, so a record that fails may leave its first bytes in the
sink. A schedule says how the next attempts go; each of them is interrupted or accepts what it has
space for, up to a length of its own. An attempt uses up a part of the schedule, writes something or
ends the delivery, so every delivery comes to its end.

`Layout.writePacked` describes the writing where a buffer of the record's size can be had. A caller
meets `Layout.writeCall`.
-/

set_option autoImplicit false

namespace BinaryRecord

/-- How an attempt to write goes. -/
inductive Turn where
  | interruption
  /-- At most `most` bytes are accepted. -/
  | portion (most : {count : Nat // 0 < count})
  deriving DecidableEq, Repr

structure Sink where
  capacity : Nat
  /-- How many bytes it accepts at most at each attempt behind its schedule. -/
  atOnce : Nat
  /-- How its next attempts go. -/
  turns : List Turn
  /-- The reason that it gives when it accepts nothing more, if it gives one. -/
  refusal : Option String
  accepted : Bytes
  deriving DecidableEq, Repr

inductive WriteOutcome where
  | interrupted
  /-- The first `count` bytes have been accepted. -/
  | accepted (count : Nat)
  | refused (reason : String)
  deriving DecidableEq, Repr

namespace Sink

/-- How many more bytes the sink accepts. -/
def space (sink : Sink) : Nat :=
  sink.capacity - sink.accepted.length

/-- An attempt that accepts `limit` bytes at most. -/
def offer (sink : Sink) (limit : Nat) (bytes : Bytes) : WriteOutcome × Sink :=
  match min bytes.length (min limit sink.space), sink.refusal with
  | 0, some reason => (.refused reason, sink)
  | count, _ => (.accepted count, { sink with accepted := sink.accepted ++ bytes.take count })

def write (sink : Sink) (bytes : Bytes) : WriteOutcome × Sink :=
  match sink.turns with
  | [] => sink.offer sink.atOnce bytes
  | .interruption :: later => (.interrupted, { sink with turns := later })
  | .portion most :: later => { sink with turns := later }.offer most bytes

theorem turns_offer (sink : Sink) (limit : Nat) (bytes : Bytes) :
    (sink.offer limit bytes).2.turns = sink.turns := by
  unfold offer
  split <;> rfl

theorem offer_ne_interrupted (sink : Sink) (limit : Nat) (bytes : Bytes) :
    (sink.offer limit bytes).1 ≠ .interrupted := by
  unfold offer
  split <;> exact nofun

theorem turns_write_interrupted {sink after : Sink} {bytes : Bytes}
    (attempt : sink.write bytes = (.interrupted, after)) :
    after.turns.length < sink.turns.length := by
  unfold write at attempt
  split at attempt
  · exact absurd (congrArg Prod.fst attempt) (offer_ne_interrupted _ _ _)
  · rename_i later turns
    obtain rfl := (Prod.mk.inj attempt).2
    simp [turns]
  · exact absurd (congrArg Prod.fst attempt) (offer_ne_interrupted _ _ _)

theorem turns_write_le {sink after : Sink} {bytes : Bytes} {outcome : WriteOutcome}
    (attempt : sink.write bytes = (outcome, after)) :
    after.turns.length ≤ sink.turns.length := by
  obtain rfl := congrArg Prod.snd attempt
  unfold write
  split
  · simp [turns_offer]
  · rename_i later turns
    simp [turns]
  · rename_i most later turns
    simp [turns_offer, turns]

/-- Writes all bytes: an interrupted attempt is made again, and what an attempt leaves is written by
the next one. -/
def writeAll (sink : Sink) (bytes : Bytes) : EStateM.Result TransferFault Sink Unit :=
  if complete : bytes = [] then .ok () sink
  else match attempt : sink.write bytes with
    | (.interrupted, after) =>
        have := turns_write_interrupted attempt
        after.writeAll bytes
    | (.refused reason, after) => .error (.failure reason) after
    | (.accepted 0, after) => .error .noProgress after
    | (.accepted (count + 1), after) =>
        have := turns_write_le attempt
        have := List.length_pos_iff.mpr complete
        after.writeAll (bytes.drop (count + 1))
termination_by sink.turns.length + bytes.length
decreasing_by
  · omega
  · simp only [List.length_drop]
    omega

/-- Writes a record that has been packed and answers how many bytes it has. Nothing is written
unless it has been. -/
def deliver {ε : Type} (fail : TransferFault → ε) (packed : Except ε Bytes) :
    EStateM ε Sink Nat :=
  fun sink =>
    match packed with
    | .ok bytes =>
        match sink.writeAll bytes with
        | .ok () after => .ok bytes.length after
        | .error fault after => .error (fail fault) after
    | .error error => .error error sink

end Sink

/-- Packs values, writes them to a sink and answers how many bytes were written. Nothing is written
unless all values fit a record, which a buffer can hold. -/
def Layout.writePacked (layout : Layout) (values : List Value) : EStateM PackError Sink Nat :=
  Sink.deliver .transfer (layout.pack values)

/-- The call that packs values and writes them to a sink. -/
def Layout.writeCall (layout : Layout) (values : List Value) :
    EStateM (CallFailure PackError) Sink Nat :=
  Sink.deliver (fun fault => .answered (.transfer fault)) (layout.packCall values)

end BinaryRecord
