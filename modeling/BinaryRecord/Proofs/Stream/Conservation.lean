import BinaryRecord.Proofs.Channel.Operations
import BinaryRecord.Proofs.Decoder.Outcome
import BinaryRecord.Proofs.Stream.Steps

/-!
# Conservation in a stream

What a stream still has to give is a list of values and perhaps an error, whoever holds them: the
producer, the channel, the signal or the consumer. A step hands at most the first value out and
changes nothing else about them, so all runs give the same.
-/

set_option autoImplicit false

namespace BinaryRecord

/-- The values that a producer has not handed to the channel. -/
def Producer.values (layout : Layout) (buffer : Bytes) (strict : Bool) : Producer → List Value
  | .starting =>
      if strict ∧ buffer.length ≠ layout.size then [] else (layout.decoder buffer).values
  | .decoding decoder => decoder.values
  | .sending value decoder => value :: decoder.values
  | .reporting _ | .closing | .exited => []

/-- The error that a producer has not handed to the signal. -/
def Producer.error? (layout : Layout) (buffer : Bytes) (strict : Bool) :
    Producer → Option UnpackError
  | .starting =>
      if strict ∧ buffer.length ≠ layout.size then
        some (.sizeMismatch layout.size buffer.length)
      else (layout.decoder buffer).error?
  | .decoding decoder | .sending _ decoder => decoder.error?
  | .reporting error => some error
  | .closing | .exited => none

/-- A producer that has not handed its outcome to the signal. -/
def Producer.Working : Producer → Prop
  | .starting | .decoding _ | .sending _ _ | .reporting _ => True
  | .closing | .exited => False

namespace Stream

def remaining (stream : Stream) : List Value :=
  stream.channel.buffered ++ stream.producer.values stream.layout stream.buffer stream.strict

/-- The error that the stream ends with. -/
def outcome (stream : Stream) : Option UnpackError :=
  stream.error.or
    (stream.signal.fired.or (stream.producer.error? stream.layout stream.buffer stream.strict))

/-- A stream that its consumer has not given up. -/
structure Sound (stream : Stream) : Prop where
  unblocked : stream.channel.blocked = none
  capacity_pos : 0 < stream.channel.capacity
  receiverAlive : stream.channel.receiverAlive = true
  dropped_iff : stream.channel.senderAlive = false ↔ stream.producer = .exited
  signalReceiverAlive : stream.signal.receiverAlive = true
  unfired : stream.producer.Working →
    stream.signal.senderAlive = true ∧ stream.signal.fired = none
  ended : stream.done = true → stream.producer = .exited ∧ stream.channel.buffered = []

variable {before after : Stream}

theorem Sound.senderAlive (sound : before.Sound) (runs : before.producer ≠ .exited) :
    before.channel.senderAlive = true := by
  rw [← Bool.not_eq_false, sound.dropped_iff]
  exact runs

theorem Sound.send_eq {value : Value} {decoder : Decoder} (sound : before.Sound)
    (sending : before.producer = .sending value decoder) :
    before.channel.send value = if before.channel.buffered.length < before.channel.capacity then
      (.accepted, { before.channel with buffered := before.channel.buffered ++ [value] })
    else (.blocked, { before.channel with blocked := some value }) := by
  have runs : before.producer ≠ .exited := by
    rw [sending]
    exact Producer.noConfusion
  have alive := sound.senderAlive runs
  split
  next space => exact Channel.send_of_space alive sound.unblocked sound.receiverAlive space
  next full =>
    exact Channel.send_of_full alive sound.unblocked sound.receiverAlive (Nat.le_of_not_lt full)

/-- A value comes back only from a channel that the consumer has given up. -/
theorem Sound.send_accepted_or_blocked {value : Value} {decoder : Decoder} (sound : before.Sound)
    (sending : before.producer = .sending value decoder) :
    (before.channel.send value).1 = .accepted ∨ (before.channel.send value).1 = .blocked := by
  rw [sound.send_eq sending]
  split
  next => exact .inl rfl
  next => exact .inr rfl

theorem Sound.fire_eq {error : UnpackError} (sound : before.Sound)
    (working : before.producer.Working) :
    before.signal.fire error =
      (.accepted, { before.signal with fired := some error, senderAlive := false }) := by
  simp [OneShot.fire, (sound.unfired working).1, sound.signalReceiverAlive]

theorem Sound.running (sound : before.Sound) (working : before.producer.Working) :
    before.producer ≠ .exited ∧ before.done = false := by
  have running : before.producer ≠ .exited := by
    intro exited
    rw [exited] at working
    exact working
  refine ⟨running, ?_⟩
  cases done : before.done with
  | false => rfl
  | true => exact absurd (sound.ended done).1 running

/-- A stream stays sound while its producer works and at most puts values into the channel. -/
theorem Sound.move {producer : Producer} {buffered : List Value} (sound : before.Sound)
    (working : before.producer.Working) (runs : producer ≠ .exited) :
    Sound { before with
      producer := producer, channel := { before.channel with buffered := buffered } } := by
  obtain ⟨running, notDone⟩ := sound.running working
  have dropped_iff : before.channel.senderAlive = false ↔ producer = .exited := by
    rw [sound.dropped_iff]
    exact iff_of_false running runs
  have ended (done : before.done = true) : producer = .exited ∧ buffered = [] := by
    rw [notDone] at done
    cases done
  exact { sound with dropped_iff, ended, unfired := fun _ => sound.unfired working }

theorem Sound.produces (sound : before.Sound) (step : Produces before after) : after.Sound := by
  cases step with
  | reject starting _ | start starting _ =>
      have working : before.producer.Working := by rw [starting]; trivial
      exact sound.move working Producer.noConfusion
  | decode decoding _ | fail decoding _ | exhaust decoding _ =>
      have working : before.producer.Working := by rw [decoding]; trivial
      exact sound.move working Producer.noConfusion
  | send sending sent =>
      have working : before.producer.Working := by rw [sending]; trivial
      obtain rfl := Channel.eq_of_send_accepted sent
      exact sound.move working Producer.noConfusion
  | stop sending _ _ =>
      have working : before.producer.Working := by rw [sending]; trivial
      exact sound.move working Producer.noConfusion
  | report reporting =>
      have working : before.producer.Working := by rw [reporting]; trivial
      rw [sound.fire_eq working]
      have moved : Sound { before with producer := .closing } :=
        sound.move working Producer.noConfusion
      exact { moved with unfired := False.elim }
  | close closing =>
      exact { sound with
        dropped_iff := iff_of_true rfl rfl
        unfired := False.elim
        ended := fun done => ⟨rfl, (sound.ended done).2⟩ }

theorem Sound.conserves_produces (sound : before.Sound) (step : Produces before after) :
    after.remaining = before.remaining ∧ after.outcome = before.outcome := by
  simp only [remaining, outcome]
  cases step with
  | reject starting misfit => simp [Producer.values, Producer.error?, starting, misfit]
  | start starting fits =>
      simp only [Producer.values, Producer.error?, starting, if_neg fits, and_self]
  | decode decoding next =>
      simp [Producer.values, Producer.error?, decoding, Decoder.script_of_next_ok next]
  | fail decoding next =>
      simp [Producer.values, Producer.error?, decoding, Decoder.script_of_next_error next]
  | exhaust decoding next =>
      simp [Producer.values, Producer.error?, decoding, Decoder.script_of_next_none next]
  | send sending sent =>
      obtain rfl := Channel.eq_of_send_accepted sent
      simp [Producer.values, Producer.error?, sending]
  | stop sending notAccepted notBlocked =>
      rcases sound.send_accepted_or_blocked sending with accepted | blocked
      · exact absurd accepted notAccepted
      · exact absurd blocked notBlocked
  | report reporting =>
      -- The signal holds nothing that firing could replace.
      have working : before.producer.Working := by rw [reporting]; trivial
      have unfired := (sound.unfired working).2
      simp [Producer.values, Producer.error?, reporting, sound.fire_eq working, unfired]
  | close closing =>
      simp [Producer.values, Producer.error?, closing, Channel.dropSender_eq, OneShot.dropSender]

/-- Looking for the error moves it from the signal to the consumer. -/
theorem Sound.noteError (sound : before.Sound) :
    before.noteError.Sound ∧ before.noteError.remaining = before.remaining ∧
      before.noteError.outcome = before.outcome := by
  unfold Stream.noteError
  cases known : before.error with
  | some error => exact ⟨sound, rfl, rfl⟩
  | none =>
      refine ⟨?_, rfl, ?_⟩
      · exact { sound with unfired := fun working => ⟨(sound.unfired working).1, rfl⟩ }
      · simp [outcome, OneShot.take, known]

theorem Sound.receives {value? : Option Value} (sound : before.Sound)
    (step : Receives before value? after) :
    after.Sound ∧ before.remaining = value?.toList ++ after.remaining ∧
      after.outcome = before.outcome := by
  cases step with
  | again done => exact ⟨sound, rfl, rfl⟩
  | item running received =>
      obtain ⟨later, buffered, rfl⟩ := Channel.buffered_of_receive_item sound.unblocked received
      have ended (done : before.done = true) : before.producer = .exited ∧ later = [] := by
        rw [running] at done
        cases done
      refine ⟨{ sound with ended }, ?_, rfl⟩
      simp [remaining, buffered]
  | finish running received =>
      obtain ⟨buffered, dropped⟩ := Channel.ended_of_receive_ended received
      have exited := sound.dropped_iff.mp dropped
      have marked : Sound { before with done := true } :=
        { sound with ended := fun _ => ⟨exited, buffered⟩ }
      obtain ⟨kept, values, error⟩ := marked.noteError
      exact ⟨kept, values.symm, error⟩

theorem Sound.step {event : Event} (sound : before.Sound) (step : Step before event after) :
    after.Sound ∧ before.remaining = event.value?.toList ++ after.remaining ∧
      after.outcome = before.outcome := by
  cases step with
  | produce step =>
      have produces := produces_of_produce? step
      obtain ⟨values, error⟩ := sound.conserves_produces produces
      exact ⟨sound.produces produces, values.symm, error⟩
  | receive step => exact sound.receives (receives_of_receive? step)
  | finish step => exact sound.receives (receives_of_receive? step)
  | look =>
      obtain ⟨kept, values, error⟩ := sound.noteError
      exact ⟨kept, values.symm, error⟩

/-- Every run hands out a front of the same values, and ends with the same error. -/
theorem Sound.run {first last : Stream} {events : List Event} (sound : first.Sound)
    (run : Run first events last) :
    last.Sound ∧ first.remaining = received events ++ last.remaining ∧
      last.outcome = first.outcome := by
  induction run with
  | nil => exact ⟨sound, rfl, rfl⟩
  | @cons first middle last event events step _ ih =>
      obtain ⟨kept, values, error⟩ := sound.step step
      obtain ⟨lastSound, lastValues, lastError⟩ := ih kept
      refine ⟨lastSound, ?_, lastError.trans error⟩
      rw [values, lastValues, received_cons, List.append_assoc]

end Stream

end BinaryRecord
