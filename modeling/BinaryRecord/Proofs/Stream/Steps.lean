import BinaryRecord.Stream

/-!
# Runs of a stream

A run interleaves steps of the producer with steps of the consumer in any order. Every step is the
next one of its side, and a side that has to wait has no step. The receive that finds the channel
ended looks at the signal in the same step: the producer has exited by then, so nothing can happen
in between.
-/

set_option autoImplicit false

namespace BinaryRecord.Stream

inductive Event where
  | produced
  | received (value : Value)
  | ended
  | looked
  deriving DecidableEq, Repr

inductive Step : Stream → Event → Stream → Prop where
  | produce {before after : Stream} :
      before.produce? = some after → Step before .produced after
  | receive {before after : Stream} {value : Value} :
      before.receive? = some (some value, after) → Step before (.received value) after
  | finish {before after : Stream} :
      before.receive? = some (none, after) → Step before .ended after
  | look {before : Stream} : Step before .looked before.noteError

inductive Run : Stream → List Event → Stream → Prop where
  | nil {stream : Stream} : Run stream [] stream
  | cons {first middle last : Stream} {event : Event} {events : List Event} :
      Step first event middle → Run middle events last → Run first (event :: events) last

def Event.value? : Event → Option Value
  | .received value => some value
  | .produced | .ended | .looked => none

def received (events : List Event) : List Value :=
  events.filterMap Event.value?

@[simp] theorem received_nil : received [] = [] := rfl

theorem received_cons (event : Event) (events : List Event) :
    received (event :: events) = event.value?.toList ++ received events := by
  cases event <;> rfl

@[simp] theorem received_append (events more : List Event) :
    received (events ++ more) = received events ++ received more :=
  List.filterMap_append

theorem Run.append {first middle last : Stream} {events more : List Event}
    (run : Run first events middle) (rest : Run middle more last) :
    Run first (events ++ more) last := by
  induction run with
  | nil => exact rest
  | cons step _ ih => exact .cons step (ih rest)

theorem Step.run {before after : Stream} {event : Event} (step : Step before event after) :
    Run before [event] after :=
  .cons step .nil

inductive Produces (stream : Stream) : Stream → Prop where
  | reject : stream.producer = .starting →
      stream.strict ∧ stream.buffer.length ≠ stream.layout.size →
      Produces stream { stream with
        producer := .reporting (.sizeMismatch stream.layout.size stream.buffer.length) }
  | start : stream.producer = .starting →
      ¬ (stream.strict ∧ stream.buffer.length ≠ stream.layout.size) →
      Produces stream { stream with
        producer := .decoding (stream.layout.decoder stream.buffer) }
  | decode {decoder after : Decoder} {value : Value} : stream.producer = .decoding decoder →
      decoder.next = (some (.ok value), after) →
      Produces stream { stream with producer := .sending value after }
  | fail {decoder after : Decoder} {error : UnpackError} : stream.producer = .decoding decoder →
      decoder.next = (some (.error error), after) →
      Produces stream { stream with producer := .reporting error }
  | exhaust {decoder after : Decoder} : stream.producer = .decoding decoder →
      decoder.next = (none, after) →
      Produces stream { stream with producer := .closing }
  | send {decoder : Decoder} {value : Value} {channel : Channel Value} :
      stream.producer = .sending value decoder →
      stream.channel.send value = (.accepted, channel) →
      Produces stream { stream with channel := channel, producer := .decoding decoder }
  | stop {decoder : Decoder} {value : Value} : stream.producer = .sending value decoder →
      (stream.channel.send value).1 ≠ .accepted → (stream.channel.send value).1 ≠ .blocked →
      Produces stream { stream with producer := .closing }
  | report {error : UnpackError} : stream.producer = .reporting error →
      Produces stream { stream with
        signal := (stream.signal.fire error).2, producer := .closing }
  | close : stream.producer = .closing →
      Produces stream { stream with
        channel := stream.channel.dropSender
        signal := stream.signal.dropSender
        producer := .exited }

theorem produces_of_produce? {stream after : Stream} (step : stream.produce? = some after) :
    Produces stream after := by
  unfold produce? at step
  split at step
  next starting =>
    split at step
    next misfit => cases step; exact .reject starting misfit
    next fits => cases step; exact .start starting fits
  next decoder decoding =>
    split at step
    next next => cases step; exact .decode decoding next
    next next => cases step; exact .fail decoding next
    next next => cases step; exact .exhaust decoding next
  next value decoder sending =>
    split at step
    next sent => cases step; exact .send sending sent
    next => cases step
    next notAccepted notBlocked =>
      cases step
      exact .stop sending (fun equal => notAccepted _ (Prod.ext equal rfl))
        (fun equal => notBlocked _ (Prod.ext equal rfl))
  next error reporting => cases step; exact .report reporting
  next closing => cases step; exact .close closing
  next => cases step

inductive Receives (stream : Stream) : Option Value → Stream → Prop where
  | again : stream.done = true → Receives stream none stream
  | item {value : Value} {released : Option (SendResult Value)} {channel : Channel Value} :
      stream.done = false → stream.channel.receive = (.item value, released, channel) →
      Receives stream (some value) { stream with channel := channel }
  | finish {released : Option (SendResult Value)} {channel : Channel Value} :
      stream.done = false → stream.channel.receive = (.ended, released, channel) →
      Receives stream none (noteError { stream with done := true })

theorem receives_of_receive? {stream after : Stream} {value? : Option Value}
    (step : stream.receive? = some (value?, after)) : Receives stream value? after := by
  unfold receive? at step
  split at step
  next again =>
    cases step
    exact .again again
  next running =>
    have running : stream.done = false := by simpa using running
    split at step
    next received =>
      cases step
      exact .item running received
    next received =>
      cases step
      exact .finish running received
    next => cases step

end BinaryRecord.Stream
