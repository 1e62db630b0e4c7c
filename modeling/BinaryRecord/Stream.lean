import BinaryRecord.Channel
import BinaryRecord.Decoder
import BinaryRecord.OneShot
import BinaryRecord.Panic
import BinaryRecord.Stream.Options

/-!
# Streams

A stream decodes a buffer in a producer that runs beside its consumer. Values go through a bounded
channel. The error that ends decoding goes through a one-shot signal, which the producer fires
before it drops its end of the channel, so a consumer that has seen the channel end finds the error
there.

`Layout.stream` is the stream of a producer that has been started. A caller meets `Layout.spawn`,
which panics where no thread can bear the producer's name, and gives a stream that has ended with an
error where the system refuses to start a thread.

Producer and consumer move in steps. `Stream.produce?` is the producer's next step and
`Stream.receive?` the consumer's; each is `none` where its side has to wait for the other. The
remaining operations run the producer ahead as far as it can go. Main statements:
`Stream.budget_produce_lt` and `Stream.budget_receive_lt`, by which every run comes to its end.
-/

set_option autoImplicit false

namespace BinaryRecord

inductive Producer where
  /-- The size of the buffer has not been looked at. -/
  | starting
  | decoding (decoder : Decoder)
  /-- A value has been decoded and not yet handed to the channel. -/
  | sending (value : Value) (decoder : Decoder)
  | reporting (error : UnpackError)
  /-- The ends of the channel and of the signal have to be dropped. -/
  | closing
  | exited
  deriving DecidableEq, Repr

/-- A stream: what its producer decodes and how far it has come, what lies between producer and
consumer, and what the consumer has learnt. -/
structure Stream where
  layout : Layout
  buffer : Bytes
  strict : Bool
  producer : Producer
  channel : Channel Value
  signal : OneShot UnpackError
  /-- The error that the consumer has taken from the signal. -/
  error : Option UnpackError
  done : Bool
  deriving DecidableEq, Repr

/-- The stream of a producer that has been started. -/
def Layout.stream (layout : Layout) (options : StreamOptions) (buffer : Bytes) : Stream :=
  { layout := layout
    buffer := buffer
    strict := options.strict
    producer := .starting
    channel := .create options.capacity
    signal := .create
    error := none
    done := false }

/-- The stream without its producer, which could not be started. It has ended, and the reason is its
error. -/
def Stream.refuse (stream : Stream) (reason : String) : Stream :=
  { stream with
    producer := .exited
    channel := stream.channel.dropSender
    signal := stream.signal.dropSender
    error := some (.transfer (.failure reason))
    done := true }

/-- The call that starts a stream. `refusal` is the reason of a system that does not start the
producer's thread. -/
def Layout.spawn (layout : Layout) (options : StreamOptions) (buffer : Bytes)
    (refusal : Option String) : Except Panic Stream :=
  if '\x00' ∈ options.threadName.toList then
    .error (.threadName options.threadName)
  else match refusal with
    | some reason => .ok ((layout.stream options buffer).refuse reason)
    | none => .ok (layout.stream options buffer)

namespace Stream

/-- The next step of the producer. There is none while it waits for a place in the channel, and none
after it has exited. -/
def produce? (stream : Stream) : Option Stream :=
  match stream.producer with
  | .starting =>
      if stream.strict ∧ stream.buffer.length ≠ stream.layout.size then
        let error := .sizeMismatch stream.layout.size stream.buffer.length
        some { stream with producer := .reporting error }
      else
        some { stream with producer := .decoding (stream.layout.decoder stream.buffer) }
  | .decoding decoder =>
      match decoder.next with
      | (some (.ok value), after) => some { stream with producer := .sending value after }
      | (some (.error error), _) => some { stream with producer := .reporting error }
      | (none, _) => some { stream with producer := .closing }
  | .sending value decoder =>
      match stream.channel.send value with
      | (.accepted, channel) =>
          some { stream with channel := channel, producer := .decoding decoder }
      | (.blocked, _) => none
      | _ => some { stream with producer := .closing }
  | .reporting error =>
      some { stream with signal := (stream.signal.fire error).2, producer := .closing }
  | .closing =>
      some { stream with
        channel := stream.channel.dropSender
        signal := stream.signal.dropSender
        producer := .exited }
  | .exited => none

/-- Takes a fired error from the signal, unless the consumer has one already. -/
def noteError (stream : Stream) : Stream :=
  match stream.error with
  | some _ => stream
  | none =>
      let (error, signal) := stream.signal.take
      { stream with error := error, signal := signal }

/-- The next receive of the consumer: a value, or none at the end of the stream. It has to wait
while the channel is empty and the producer has not dropped its end. -/
def receive? (stream : Stream) : Option (Option Value × Stream) :=
  if stream.done then some (none, stream)
  else match stream.channel.receive with
    | (.item value, _, channel) => some (some value, { stream with channel := channel })
    | (.ended, _, _) => some (none, noteError { stream with done := true })
    | _ => none

/-- What the producer may still do, in steps. A value that is not yet decoded costs one step to
decode it and one to send it, and it still has to be received. -/
def Producer.budget (layout : Layout) (buffer : Bytes) : Producer → Nat
  | .starting => 3 * (layout.decoder buffer).budget + 4
  | .decoding decoder => 3 * decoder.budget + 3
  | .sending _ decoder => 3 * decoder.budget + 5
  | .reporting _ => 2
  | .closing => 1
  | .exited => 0

/-- A number that every step of the producer and every received value lowers. -/
def budget (stream : Stream) : Nat :=
  Producer.budget stream.layout stream.buffer stream.producer + stream.channel.held

theorem budget_produce_lt {stream after : Stream} (step : stream.produce? = some after) :
    after.budget < stream.budget := by
  unfold produce? at step
  split at step
  · rename_i starting
    split at step <;> obtain rfl := Option.some.inj step <;>
      simp only [budget, Producer.budget, starting] <;> omega
  · rename_i decoder decoding
    split at step
    · rename_i value next moved
      have := Decoder.budget_next_lt moved
      obtain rfl := Option.some.inj step
      simp only [budget, Producer.budget, decoding]
      omega
    all_goals
      obtain rfl := Option.some.inj step
      simp only [budget, Producer.budget, decoding]
      omega
  · rename_i value decoder sending
    split at step
    · rename_i channel sent
      obtain rfl := Option.some.inj step
      have grown := Channel.held_send_accepted sent
      simp only [budget, Producer.budget, sending, grown]
      omega
    · simp at step
    · obtain rfl := Option.some.inj step
      simp only [budget, Producer.budget, sending]
      omega
  · rename_i error reporting
    obtain rfl := Option.some.inj step
    simp only [budget, Producer.budget, reporting]
    omega
  · rename_i closing
    obtain rfl := Option.some.inj step
    simp only [budget, Producer.budget, closing, Channel.held_dropSender]
    omega
  · simp at step

theorem budget_receive_lt {stream after : Stream} {value : Value}
    (step : stream.receive? = some (some value, after)) : after.budget < stream.budget := by
  unfold receive? at step
  split at step
  · simp at step
  split at step
  · rename_i received released channel taken
    obtain ⟨_, rfl⟩ := Prod.mk.inj (Option.some.inj step)
    have shorter := Channel.held_receive_lt taken
    simp only [budget]
    omega
  · simp at step
  · simp at step

/-- The stream after all steps that its producer can take without its consumer. -/
def settle (stream : Stream) : Stream :=
  match step : stream.produce? with
  | some after =>
      have := budget_produce_lt step
      after.settle
  | none => stream
termination_by stream.budget

theorem budget_settle_le (stream : Stream) : stream.settle.budget ≤ stream.budget := by
  fun_induction settle stream with
  | case1 stream after step lower settleIH => omega
  | case2 => exact Nat.le_refl _

/-- The next value, or none at the end of the stream. -/
def next (stream : Stream) : Option Value × Stream :=
  match stream.settle.receive? with
  | some outcome => outcome
  | none => (none, stream.settle)

theorem budget_next_lt {stream after : Stream} {value : Value}
    (step : stream.next = (some value, after)) : after.budget < stream.budget := by
  unfold next at step
  split at step
  · rename_i outcome received
    obtain rfl := step
    have settled := budget_settle_le stream
    have := budget_receive_lt received
    omega
  · simp at step

def drain (stream : Stream) : List Value × Stream :=
  match step : stream.next with
  | (some value, after) =>
      have := budget_next_lt step
      let (values, last) := after.drain
      (value :: values, last)
  | (none, after) => ([], after)
termination_by stream.budget

/-- The outcome of the stream once all values are drained and the producer has exited. -/
def finish (stream : Stream) : Except UnpackError Unit :=
  match stream.drain.2.settle.noteError.error with
  | some error => .error error
  | none => .ok ()

/-- All values that are left, if the stream ends without an error. -/
def collectValues (stream : Stream) : Except UnpackError (List Value) :=
  let (values, last) := stream.drain
  match last.finish with
  | .ok () => .ok values
  | .error error => .error error

/-- Gives the stream up. The producer finds no receiver any more. -/
def abandon (stream : Stream) : Stream :=
  { stream with
    channel := stream.channel.dropReceiver.2
    signal := stream.signal.dropReceiver }

def text (stream : Stream) : String :=
  let error := match stream.error with
    | some error => s!"Some({error.fields})"
    | none => "None"
  s!"UnpackStream \x7b buffered: {stream.channel.buffered.length}, error: {error}, " ++
    s!"done: {stream.done}, .. \x7d"

end Stream

end BinaryRecord
