import BinaryRecord.Proofs.Stream.Backpressure

/-!
# Liveness of a stream

The producer waits for nothing but a place in a channel that is still received from, and the
consumer for nothing but a value or the end. So the two never both wait, a consumer that keeps
receiving comes to the end, and a producer whose stream is given up exits. Main statement:
`Layout.stream_progress`.
-/

set_option autoImplicit false

namespace BinaryRecord

namespace Producer

/-- The steps that a producer has left at most once its stream is given up. -/
def stepsLeft : Producer → Nat
  | .starting => 4
  | .decoding _ => 3
  | .sending _ _ | .reporting _ => 2
  | .closing => 1
  | .exited => 0

/-- How often the decoder is asked at most once the stream is given up. -/
def decodingsLeft : Producer → Nat
  | .starting | .decoding _ => 1
  | .sending _ _ | .reporting _ | .closing | .exited => 0

end Producer

namespace Stream

variable {stream before after first last : Stream} {action : Action} {actions : List Action}

theorem Sound.receive?_eq_none (sound : stream.Sound) (waiting : stream.receive? = none) :
    stream.channel.buffered = [] ∧ stream.channel.senderAlive = true := by
  unfold receive? at waiting
  split at waiting
  · cases waiting
  cases buffered : stream.channel.buffered with
  | cons value later =>
      rw [Channel.receive_of_cons sound.receiverAlive sound.unblocked buffered] at waiting
      cases waiting
  | nil =>
      rw [Channel.receive_of_nil sound.receiverAlive buffered] at waiting
      cases alive : stream.channel.senderAlive with
      | true => exact ⟨rfl, rfl⟩
      | false =>
          rw [alive] at waiting
          cases waiting

theorem Sound.closed_of_done (sound : stream.Sound) (done : stream.done = true) :
    stream.producer = .exited ∧ stream.channel.senderAlive = false := by
  have exited := (sound.ended done).1
  exact ⟨exited, sound.dropped_iff.mpr exited⟩

theorem Trace.done_of_ended (trace : Trace first actions last) (ended : .ended ∈ actions) :
    last.done = true :=
  trace.run.done_of_ended (List.mem_map.mpr ⟨_, ended, rfl⟩)

/-! ## Streams that are given up -/

theorem produce_of_abandoned (abandoned : stream.channel.receiverAlive = false) :
    stream.producer = .exited ∨ ∃ after, stream.produce? = some after := by
  unfold produce?
  split
  · split <;> exact .inr ⟨_, rfl⟩
  · split <;> exact .inr ⟨_, rfl⟩
  next value decoder sending =>
    have notBlocked := (Channel.send_of_receiver_dropped abandoned value).2
    split
    · exact .inr ⟨_, rfl⟩
    next sent => exact absurd (congrArg Prod.fst sent) notBlocked
    · exact .inr ⟨_, rfl⟩
  · exact .inr ⟨_, rfl⟩
  · exact .inr ⟨_, rfl⟩
  next exited => exact .inl exited

section

attribute [local simp] task Producer.stepsLeft Producer.decodingsLeft Action.isDecoding

/-- Each step of a producer whose stream is given up brings it nearer to its exit. -/
theorem Produces.abandoned (step : Produces before after)
    (abandoned : before.channel.receiverAlive = false) :
    after.channel.receiverAlive = false ∧
      after.producer.stepsLeft < before.producer.stepsLeft ∧
      before.task.isDecoding.toNat + after.producer.decodingsLeft ≤
        before.producer.decodingsLeft := by
  cases step with
  | reject starting _ | start starting _ => simp [starting, abandoned]
  | decode decoding next | fail decoding next | exhaust decoding next =>
      simp [decoding, next, abandoned]
  | @send decoder value channel sending sent =>
      have notAccepted := (Channel.send_of_receiver_dropped abandoned value).1
      exact absurd (congrArg Prod.fst sent) notAccepted
  | stop sending _ _ => simp [sending, abandoned]
  | report reporting => simp [reporting, abandoned]
  | close closing => simp [closing, abandoned, Channel.dropSender_eq]

end

theorem Works.abandoned (works : Works first actions last)
    (abandoned : first.channel.receiverAlive = false) :
    last.channel.receiverAlive = false ∧
      actions.length + last.producer.stepsLeft ≤ first.producer.stepsLeft ∧
      (actions.filter Action.isDecoding).length + last.producer.decodingsLeft ≤
        first.producer.decodingsLeft := by
  induction works with
  | nil => exact ⟨abandoned, by simp, by simp⟩
  | @cons first middle last actions step _ ih =>
      obtain ⟨kept, fewer, asked⟩ := (produces_of_produce? step).abandoned abandoned
      obtain ⟨lastKept, length, decodings⟩ := ih kept
      refine ⟨lastKept, ?_, ?_⟩
      · rw [List.length_cons]
        omega
      · cases decoding : first.task.isDecoding with
        | true =>
            rw [decoding, Bool.toNat_true] at asked
            rw [List.filter_cons_of_pos decoding, List.length_cons]
            omega
        | false =>
            rw [decoding, Bool.toNat_false] at asked
            rw [List.filter_cons_of_neg (by simp [decoding])]
            omega

theorem works_settle (stream : Stream) : ∃ work, Works stream work stream.settle := by
  fun_induction settle stream with
  | case1 stream after step lower ih =>
      obtain ⟨work, works⟩ := ih
      exact ⟨stream.task :: work, .cons step works⟩
  | case2 => exact ⟨[], .nil⟩

theorem exited_settle_of_abandoned (abandoned : stream.channel.receiverAlive = false) :
    stream.settle.producer = .exited := by
  obtain ⟨work, works⟩ := works_settle stream
  rcases produce_of_abandoned (works.abandoned abandoned).1 with exited | ⟨after, step⟩
  · exact exited
  · rw [produce?_settle] at step
    cases step

/-- A blocked send gives its value back, and the producer exits. -/
theorem Sound.works_of_sending {value : Value} {decoder : Decoder} (sound : stream.Sound)
    (sending : stream.producer = .sending value decoder) :
    ∃ left, Works stream.abandon [.refused value, .closed] left ∧ left.producer = .exited := by
  have runs : stream.producer ≠ .exited := by
    rw [sending]
    exact Producer.noConfusion
  have alive := sound.senderAlive runs
  have returned : stream.abandon.channel.send value =
      (.returned value, stream.abandon.channel) :=
    Channel.send_of_dropped alive rfl rfl
  have held : stream.abandon.producer = .sending value decoder := sending
  have refused : stream.abandon.task = .refused value := by
    simp [task, held, returned]
  have gave : stream.abandon.produce? = some { stream.abandon with producer := .closing } := by
    simp [produce?, held, returned]
  rw [← refused]
  exact ⟨_, .cons gave (.cons rfl .nil), rfl⟩

/-! ## The way to the end -/

theorem budget_noteError (stream : Stream) : stream.noteError.budget = stream.budget := by
  rw [noteError_eq]
  rfl

theorem Acts.budget_le (acts : Acts before action after) : after.budget ≤ before.budget := by
  cases acts with
  | produce step => exact Nat.le_of_lt (budget_produce_lt step)
  | receive step => exact Nat.le_of_lt (budget_receive_lt step)
  | finish step =>
      cases receives_of_receive? step with
      | again _ => exact Nat.le_refl _
      | finish _ _ => exact Nat.le_of_eq (budget_noteError { before with done := true })
  | look => exact Nat.le_of_eq (budget_noteError before)

theorem Acts.budget_lt (acts : Acts before action after) (goes : action.isLook = false)
    (more : action ≠ .ended) : after.budget < before.budget := by
  cases acts with
  | produce step => exact budget_produce_lt step
  | receive step => exact budget_receive_lt step
  | finish _ => exact absurd rfl more
  | look => cases goes

structure Endless (first : Stream) where
  state : Nat → Stream
  action : Nat → Action
  starts : state 0 = first
  acts : ∀ n, Acts (state n) (action n) (state (n + 1))

namespace Endless

theorem budget_le (schedule : Endless first) {start later : Nat} (order : start ≤ later) :
    (schedule.state later).budget ≤ (schedule.state start).budget := by
  induction order with
  | refl => exact Nat.le_refl _
  | step _ ih => exact Nat.le_trans (schedule.acts _).budget_le ih

/-- A consumer that does not end in looking alone comes to the end of its stream. -/
theorem ends (schedule : Endless first)
    (goes : ∀ n, ∃ later, n ≤ later ∧ (schedule.action later).isLook = false) :
    ∃ n, schedule.action n = .ended := by
  apply Classical.byContradiction
  intro never
  have running (n : Nat) : schedule.action n ≠ .ended := fun ended => never ⟨n, ended⟩
  -- Until the end every step but a look lowers the budget, and no step raises it.
  have falls (bound : Nat) : ∀ n, ¬ (schedule.state n).budget < bound := by
    induction bound with
    | zero => exact fun n => Nat.not_lt_zero _
    | succ bound ih =>
        intro n low
        obtain ⟨later, order, step⟩ := goes n
        have kept := schedule.budget_le order
        have lower := (schedule.acts later).budget_lt step (running later)
        exact ih (later + 1) (by omega)
  exact falls _ 0 (Nat.lt_succ_self _)

end Endless

/-- The next step of a schedule in which the consumer receives whenever the producer waits. -/
def turn (stream : Stream) : Action × Stream :=
  match stream.produce? with
  | some after => (stream.task, after)
  | none =>
      match stream.receive? with
      | some (some value, after) => (.received value, after)
      | some (none, after) => (.ended, after)
      | none => (.looked stream.noteError.error, stream.noteError)

theorem acts_turn (stream : Stream) : Acts stream stream.turn.1 stream.turn.2 := by
  unfold turn
  split
  next step => exact .produce step
  next =>
    split
    next step => exact .receive step
    next step => exact .finish step
    next => exact .look

theorem Sound.turn_goes (sound : stream.Sound) : stream.turn.1.isLook = false := by
  unfold turn
  split
  next => exact isLook_task stream
  next waiting =>
    obtain ⟨⟨value?, after⟩, step⟩ := sound.receive_of_waiting waiting
    rw [step]
    cases value? <;> rfl

def afterTurns (stream : Stream) : Nat → Stream
  | 0 => stream
  | n + 1 => (stream.afterTurns n).turn.2

theorem Sound.afterTurns (sound : stream.Sound) (n : Nat) : (stream.afterTurns n).Sound := by
  induction n with
  | zero => exact sound
  | succ n ih => exact ih.acts (acts_turn _)

def Endless.turns (stream : Stream) : Endless stream where
  state := stream.afterTurns
  action n := (stream.afterTurns n).turn.1
  starts := rfl
  acts n := acts_turn (stream.afterTurns n)

end Stream

namespace Layout

open BinaryRecord.Stream (Action Endless Trace Works)

/-- Neither side of a stream is ever stuck. The producer waits only for a place in the full channel
of a consumer that is still there, and then the consumer has a value to receive. Finishing waits
for a producer that has exited. A producer whose stream is given up asks its decoder once more at
most, and exits. Steps of the producer and received values use up a budget, so a consumer that
keeps receiving comes to the end. -/
theorem stream_progress (layout : Layout) (options : StreamOptions) (requested : Nat)
    (buffer : Bytes) {actions : List Action} {last : Stream}
    (trace : Trace (layout.stream (options.withCapacity requested) buffer) actions last) :
    (last.producer = .exited ∨ (∃ after, last.produce? = some after) ∨
      last.channel.buffered.length = max requested 1 ∧ last.channel.receiverAlive = true) ∧
    (last.receive? = none →
      last.channel.buffered = [] ∧ last.channel.senderAlive = true) ∧
    (last.channel.buffered = [] → last.channel.senderAlive = true →
      ∃ after, last.produce? = some after) ∧
    ¬ (last.produce? = none ∧ last.receive? = none) ∧
    (.ended ∈ actions → last.producer = .exited ∧ last.channel.senderAlive = false) ∧
    (last.drain.2.producer = .exited ∧ last.drain.2.channel.senderAlive = false) ∧
    (∀ work left, Works last.abandon work left →
      (work.filter Action.isDecoding).length ≤ 1 ∧ work.length ≤ 4 ∧
      (left.producer = .exited ∨ ∃ after, left.produce? = some after)) ∧
    (∃ work left, Works last.abandon work left ∧ left.producer = .exited) ∧
    (∀ value decoder, last.producer = .sending value decoder →
      ∃ left, Works last.abandon [.refused value, .closed] left ∧ left.producer = .exited) ∧
    (∀ before after : Stream, before.produce? = some after → after.budget < before.budget) ∧
    (∀ (before after : Stream) value, before.receive? = some (some value, after) →
      after.budget < before.budget) ∧
    (∃ schedule : Endless last, ∀ n, (schedule.action n).isLook = false) ∧
    ∀ schedule : Endless last,
      (∀ n, ∃ later, n ≤ later ∧ (schedule.action later).isLook = false) →
      ∃ n, schedule.action n = .ended := by
  have within := trace.within (layout.within_stream (options.withCapacity requested) buffer)
  rw [capacity_withCapacity] at within
  have sound := within.toSound
  refine ⟨?_, sound.receive?_eq_none, sound.produce_of_empty, ?_,
    fun ended => sound.closed_of_done (trace.done_of_ended ended), ?_, ?_, ?_,
    fun _ _ => sound.works_of_sending, fun _ _ => Stream.budget_produce_lt,
    fun _ _ _ => Stream.budget_receive_lt,
    ⟨.turns last, fun n => (sound.afterTurns n).turn_goes⟩, fun schedule => schedule.ends⟩
  · cases step : last.produce? with
    | some after => exact .inr (.inl ⟨after, rfl⟩)
    | none =>
        rcases sound.exited_or_full step with exited | full
        · exact .inl exited
        · rw [within.capacity_eq] at full
          exact .inr (.inr ⟨Nat.le_antisymm within.length_le full, sound.receiverAlive⟩)
  · intro stuck
    obtain ⟨outcome, received⟩ := sound.receive_of_waiting stuck.1
    rw [stuck.2] at received
    cases received
  · obtain ⟨events, run, _, ended⟩ := sound.run_drain
    exact (sound.run run).1.closed_of_done (run.done_of_ended ended)
  · intro work left works
    obtain ⟨abandoned, length, decodings⟩ := works.abandoned rfl
    have few : last.abandon.producer.decodingsLeft ≤ 1 := by
      cases last.abandon.producer <;> simp [Producer.decodingsLeft]
    have near : last.abandon.producer.stepsLeft ≤ 4 := by
      cases last.abandon.producer <;> simp [Producer.stepsLeft]
    exact ⟨by omega, by omega, Stream.produce_of_abandoned abandoned⟩
  · obtain ⟨work, works⟩ := Stream.works_settle last.abandon
    exact ⟨work, _, works, Stream.exited_settle_of_abandoned rfl⟩

/-- The producer waits for the only place, which its consumer can make or leave it. -/
theorem stream_progress_specimen :
    ∃ last,
      Trace (specimen.stream (StreamOptions.withCapacity {} 0) [97, 98, 0x7E, 1, 5])
        [.checked, .decoded (.bytes [97, 98]), .sent (.bytes [97, 98]),
          .decoded (.float16 0x7E01)] last ∧
      last.produce? = none ∧ last.receive? ≠ none ∧
      ∃ left, Works last.abandon [.refused (.float16 0x7E01), .closed] left ∧
        left.producer = .exited := by
  obtain ⟨last, trace, waits, held⟩ : ∃ last,
      Trace (specimen.stream (StreamOptions.withCapacity {} 0) [97, 98, 0x7E, 1, 5])
        [.checked, .decoded (.bytes [97, 98]), .sent (.bytes [97, 98]),
          .decoded (.float16 0x7E01)] last ∧
      last.produce? = none ∧ ∃ decoder, last.producer = .sending (.float16 0x7E01) decoder :=
    ⟨_, .cons (.produce rfl) (.cons (.produce rfl) (.cons (.produce rfl)
      (.cons (.produce rfl) .nil))), rfl, _, rfl⟩
  obtain ⟨decoder, sending⟩ := held
  obtain ⟨_, _, _, apart, _, _, _, _, exits, _⟩ := stream_progress specimen {} 0 _ trace
  exact ⟨last, trace, waits, fun starved => apart ⟨waits, starved⟩, exits _ decoder sending⟩

end Layout

end BinaryRecord
