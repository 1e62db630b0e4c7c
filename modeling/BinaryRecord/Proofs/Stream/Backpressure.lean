import BinaryRecord.Proofs.Stream.Refinement
import BinaryRecord.Proofs.Stream.Traces

/-!
# Backpressure

Values pass from the decoder into the producer's hand, from there into the channel and out of it to
the consumer. None of these places changes their order, and two of them are bounded: the hand holds
one value and the channel as many as its capacity. So the producer is never further ahead of its
consumer than that. Main statement: `Layout.stream_backpressure`.
-/

set_option autoImplicit false

namespace BinaryRecord

/-- The values that the decoder of a producer still has to give. -/
def Producer.undecoded (layout : Layout) (buffer : Bytes) (strict : Bool) : Producer → List Value
  | .starting =>
      if strict ∧ buffer.length ≠ layout.size then [] else (layout.decoder buffer).values
  | .decoding decoder | .sending _ decoder => decoder.values
  | .reporting _ | .closing | .exited => []

/-- The value that has been decoded and not been sent. -/
def Producer.inHand : Producer → List Value
  | .sending value _ => [value]
  | .starting | .decoding _ | .reporting _ | .closing | .exited => []

theorem Producer.length_inHand_le (producer : Producer) : producer.inHand.length ≤ 1 := by
  cases producer <;> simp [inHand]

namespace Stream

def undecoded (stream : Stream) : List Value :=
  stream.producer.undecoded stream.layout stream.buffer stream.strict

/-- What an action moves on from the decoder, from the producer's hand and from the channel. -/
structure Flow (before : Stream) (action : Action) (after : Stream) : Prop where
  decoded : before.undecoded = action.decoded?.toList ++ after.undecoded
  sent : before.producer.inHand ++ action.decoded?.toList =
    action.sent?.toList ++ after.producer.inHand
  received : before.channel.buffered ++ action.sent?.toList =
    action.received?.toList ++ after.channel.buffered

variable {before after first last : Stream} {action : Action} {actions : List Action}

-- The proofs below compute with what a step does and with what it moves.
attribute [local simp] task undecoded Producer.undecoded Producer.inHand Action.decoded?
  Action.sent? Action.received?

theorem Sound.flow_produces (sound : before.Sound) (step : Produces before after) :
    Flow before before.task after := by
  cases step with
  | reject starting misfit => constructor <;> simp [starting, misfit]
  | start starting fits =>
      have undecoded : before.undecoded = (before.layout.decoder before.buffer).values := by
        rw [Stream.undecoded, starting]
        exact if_neg fits
      refine ⟨undecoded.trans ?_, ?_, ?_⟩ <;> simp [starting]
  | decode decoding next =>
      have given := Decoder.script_of_next_ok next
      constructor <;> simp [decoding, next, given]
  | fail decoding next =>
      have given := Decoder.script_of_next_error next
      constructor <;> simp [decoding, next, given]
  | exhaust decoding next =>
      have given := Decoder.script_of_next_none next
      constructor <;> simp [decoding, next, given]
  | send sending sent =>
      obtain rfl := Channel.eq_of_send_accepted sent
      constructor <;> simp [sending, sent]
  | stop sending notAccepted notBlocked =>
      rcases sound.send_accepted_or_blocked sending with accepted | blocked
      · exact absurd accepted notAccepted
      · exact absurd blocked notBlocked
  | report reporting => constructor <;> simp [reporting]
  | close closing => constructor <;> simp [closing, Channel.dropSender_eq]

theorem Sound.flow (sound : before.Sound) (acts : Acts before action after) :
    Flow before action after := by
  cases acts with
  | produce step => exact sound.flow_produces (produces_of_produce? step)
  | receive step =>
      cases receives_of_receive? step with
      | item running received =>
          obtain ⟨later, buffered, rfl⟩ :=
            Channel.buffered_of_receive_item sound.unblocked received
          constructor <;> simp [buffered]
  | finish step =>
      cases receives_of_receive? step with
      | again done => constructor <;> simp
      | finish running received =>
          rw [noteError_eq]
          constructor <;> simp
  | look =>
      generalize before.noteError.error = answer
      rw [noteError_eq]
      constructor <;> simp

/-- A sound stream whose channel has a number of places and holds no more values than that. -/
structure Within (places : Nat) (stream : Stream) : Prop extends Sound stream where
  capacity_eq : stream.channel.capacity = places
  length_le : stream.channel.buffered.length ≤ places

theorem Within.acts {places : Nat} (within : Within places before)
    (acts : Acts before action after) : Within places after := by
  have sound := (within.toSound.step acts.step).1
  cases acts with
  | produce step =>
      cases produces_of_produce? step with
      | send sending sent =>
          have space := Channel.lt_capacity_of_send_accepted sent
          obtain rfl := Channel.eq_of_send_accepted sent
          refine ⟨sound, within.capacity_eq, ?_⟩
          rw [List.length_append, List.length_singleton, ← within.capacity_eq]
          exact space
      | _ => exact ⟨sound, within.capacity_eq, within.length_le⟩
  | receive step =>
      cases receives_of_receive? step with
      | item running received =>
          obtain ⟨later, buffered, rfl⟩ :=
            Channel.buffered_of_receive_item within.unblocked received
          have bounded := within.length_le
          rw [buffered, List.length_cons] at bounded
          exact ⟨sound, within.capacity_eq, Nat.le_of_succ_le bounded⟩
  | finish step =>
      cases receives_of_receive? step with
      | again done => exact within
      | finish running received =>
          rw [noteError_eq] at sound ⊢
          exact ⟨sound, within.capacity_eq, within.length_le⟩
  | look =>
      rw [noteError_eq] at sound ⊢
      exact ⟨sound, within.capacity_eq, within.length_le⟩

namespace Trace

theorem decoded_eq (trace : Trace first actions last) (sound : first.Sound) :
    first.undecoded = actions.filterMap Action.decoded? ++ last.undecoded := by
  have nothing : actions.filterMap (fun _ => (none : Option Value)) = [] := by simp
  have balanced := trace.balance undecoded (fun _ => none) Action.decoded? Sound.acts
    (fun sound acts => (List.append_nil _).trans (sound.flow acts).decoded) sound
  rwa [nothing, List.append_nil] at balanced

theorem sent_eq (trace : Trace first actions last) (sound : first.Sound) :
    first.producer.inHand ++ actions.filterMap Action.decoded? =
      actions.filterMap Action.sent? ++ last.producer.inHand :=
  trace.balance (fun stream => stream.producer.inHand) Action.decoded? Action.sent? Sound.acts
    (fun sound acts => (sound.flow acts).sent) sound

theorem received_eq (trace : Trace first actions last) (sound : first.Sound) :
    first.channel.buffered ++ actions.filterMap Action.sent? =
      actions.filterMap Action.received? ++ last.channel.buffered :=
  trace.balance (fun stream => stream.channel.buffered) Action.sent? Action.received? Sound.acts
    (fun sound acts => (sound.flow acts).received) sound

theorem within {places : Nat} (trace : Trace first actions last) (within : Within places first) :
    Within places last :=
  trace.invariant Within.acts within

/-- A consumer that has not come to the end has received a front of what every full trace gives. -/
theorem prefix_of_ended {full : List Action} {final : Stream} (trace : Trace first actions last)
    (sound : first.Sound) (other : Trace first full final) (ended : .ended ∈ full) :
    actions.filterMap Action.received? <+: full.filterMap Action.received? := by
  have reached : Event.ended ∈ full.map Action.event := List.mem_map.mpr ⟨_, ended, rfl⟩
  have whole := sound.received_eq other.run reached
  obtain ⟨_, part, _⟩ := sound.run trace.run
  rw [received_map_event] at whole part
  exact ⟨last.remaining, by rw [whole, part]⟩

end Trace

end Stream

namespace Layout

open BinaryRecord.Stream (Action Trace Within)

theorem within_stream (layout : Layout) (options : StreamOptions) (buffer : Bytes) :
    Within (max options.capacity 1) (layout.stream options buffer) where
  toSound := layout.sound_stream options buffer
  capacity_eq := rfl
  length_le := Nat.zero_le _

theorem capacity_withCapacity (options : StreamOptions) (requested : Nat) :
    max (options.withCapacity requested).capacity 1 = max requested 1 :=
  Nat.max_eq_left (Nat.le_max_right requested 1)

/-- At every point of every schedule the consumer has received, and the channel holds, the first of
the decoder's values, in order and without a gap. No more values wait than the channel has places,
and the producer has decoded one more at most. -/
theorem stream_backpressure (layout : Layout) (options : StreamOptions) (requested : Nat)
    (buffer : Bytes) {actions : List Action} {last : Stream}
    (trace : Trace (layout.stream (options.withCapacity requested) buffer) actions last) :
    (¬ (options.strict = true ∧ buffer.length ≠ layout.size) →
      actions.filterMap Action.received? ++ last.channel.buffered =
        (layout.decoder buffer).values.take (actions.filterMap Action.sent?).length ∧
      (actions.filterMap Action.sent?).length ≤ (layout.decoder buffer).values.length) ∧
    (options.strict = true ∧ buffer.length ≠ layout.size →
      actions.filterMap Action.received? = [] ∧ last.channel.buffered = [] ∧
        actions.filterMap Action.sent? = []) ∧
    last.channel.buffered.length ≤ max requested 1 ∧
    (actions.filterMap Action.decoded?).length ≤
      (actions.filterMap Action.received?).length + max requested 1 + 1 ∧
    ∀ full final, Trace (layout.stream (options.withCapacity requested) buffer) full final →
      .ended ∈ full →
      actions.filterMap Action.received? <+: full.filterMap Action.received? := by
  have sound := layout.sound_stream (options.withCapacity requested) buffer
  have decoded := trace.decoded_eq sound
  have sent : actions.filterMap Action.decoded? =
      actions.filterMap Action.sent? ++ last.producer.inHand := trace.sent_eq sound
  have received : actions.filterMap Action.sent? =
      actions.filterMap Action.received? ++ last.channel.buffered := trace.received_eq sound
  have waiting : last.channel.buffered.length ≤ max requested 1 := by
    rw [← capacity_withCapacity options requested]
    exact (trace.within (layout.within_stream _ buffer)).length_le
  refine ⟨?_, ?_, waiting, ?_, fun full final => trace.prefix_of_ended sound⟩
  · intro fits
    have all : (layout.decoder buffer).values = actions.filterMap Action.sent? ++
        (last.producer.inHand ++ last.undecoded) := by
      rw [← List.append_assoc, ← sent, ← decoded]
      exact (if_neg fits).symm
    rw [← received, all, List.take_left]
    simp
  · intro misfit
    have none : actions.filterMap Action.decoded? ++ last.undecoded = [] := by
      rw [← decoded]
      exact if_pos misfit
    have undecoded := (List.append_eq_nil_iff.mp none).1
    have unsent := (List.append_eq_nil_iff.mp (sent.symm.trans undecoded)).1
    obtain ⟨unreceived, unbuffered⟩ := List.append_eq_nil_iff.mp (received.symm.trans unsent)
    exact ⟨unreceived, unbuffered, unsent⟩
  · have one := last.producer.length_inHand_le
    rw [sent, received, List.length_append, List.length_append]
    omega

/-- The only place is taken by the first value, and the producer waits with the second. -/
theorem stream_backpressure_specimen :
    ∃ last,
      Trace (specimen.stream (StreamOptions.withCapacity {} 0) [97, 98, 0x7E, 1, 5])
        [.checked, .decoded (.bytes [97, 98]), .sent (.bytes [97, 98]),
          .decoded (.float16 0x7E01)] last ∧
      last.produce? = none ∧
      last.channel.buffered = (specimen.decoder [97, 98, 0x7E, 1, 5]).values.take 1 ∧
      last.channel.buffered.length ≤ 1 := by
  obtain ⟨last, trace, waits⟩ : ∃ last,
      Trace (specimen.stream (StreamOptions.withCapacity {} 0) [97, 98, 0x7E, 1, 5])
        [.checked, .decoded (.bytes [97, 98]), .sent (.bytes [97, 98]),
          .decoded (.float16 0x7E01)] last ∧ last.produce? = none :=
    ⟨_, .cons (.produce rfl) (.cons (.produce rfl) (.cons (.produce rfl)
      (.cons (.produce rfl) .nil))), rfl⟩
  obtain ⟨given, _, bounded, _⟩ := stream_backpressure specimen {} 0 _ trace
  have fits : ¬ (true = true ∧ [97, 98, 0x7E, 1, 5].length ≠ specimen.size) :=
    fun misfit => misfit.2 rfl
  exact ⟨last, trace, waits, (given fits).1, bounded⟩

end Layout

end BinaryRecord
