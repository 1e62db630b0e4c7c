import BinaryRecord.Proofs.Stream.Conservation

/-!
# Completion of a stream

Producer and consumer never both wait, so every run can be carried on to the end of the stream.
There the consumer has received every value, and the error is at hand.
-/

set_option autoImplicit false

namespace BinaryRecord.Stream

variable {stream before after first last : Stream} {events : List Event}

theorem done_noteError (stream : Stream) : stream.noteError.done = stream.done := by
  unfold noteError
  split <;> rfl

theorem Step.done {event : Event} (step : Step before event after)
    (reached : before.done = true ∨ event = .ended) : after.done = true := by
  cases step with
  | produce step =>
      rcases reached with done | ended
      · cases produces_of_produce? step <;> exact done
      · cases ended
  | receive step =>
      cases receives_of_receive? step with
      | item running _ =>
          rcases reached with done | ended
          · exact done
          · cases ended
  | finish step =>
      cases receives_of_receive? step with
      | again done => exact done
      | finish _ _ => exact done_noteError _
  | look =>
      rcases reached with done | ended
      · rw [done_noteError]
        exact done
      · cases ended

theorem Run.done_of_done (run : Run first events last) (done : first.done = true) :
    last.done = true := by
  induction run with
  | nil => exact done
  | cons step _ ih => exact ih (step.done (.inl done))

theorem Run.done_of_ended (run : Run first events last) (ended : Event.ended ∈ events) :
    last.done = true := by
  induction run with
  | nil => cases ended
  | cons step rest ih =>
      rcases List.mem_cons.mp ended with now | later
      · exact rest.done_of_done (step.done (.inr now.symm))
      · exact ih later

/-- A producer that has no step has exited, or it waits because the channel is full. -/
theorem Sound.exited_or_full (sound : stream.Sound) (waiting : stream.produce? = none) :
    stream.producer = .exited ∨ stream.channel.capacity ≤ stream.channel.buffered.length := by
  unfold produce? at waiting
  split at waiting
  · split at waiting <;> cases waiting
  · split at waiting <;> cases waiting
  next value decoder sending =>
    refine .inr (Nat.le_of_not_lt fun space => ?_)
    rw [sound.send_eq sending, if_pos space] at waiting
    cases waiting
  · cases waiting
  · cases waiting
  next exited => exact .inl exited

/-- An empty channel has a place, whatever capacity was asked for. -/
theorem Sound.produce_of_empty (sound : stream.Sound) (empty : stream.channel.buffered = [])
    (alive : stream.channel.senderAlive = true) : ∃ after, stream.produce? = some after := by
  cases step : stream.produce? with
  | some after => exact ⟨after, rfl⟩
  | none =>
      rcases sound.exited_or_full step with exited | full
      · rw [sound.dropped_iff.mpr exited] at alive
        cases alive
      · rw [empty] at full
        exact absurd sound.capacity_pos (Nat.not_lt.mpr full)

/-- Where the producer has no step, the consumer has one. -/
theorem Sound.receive_of_waiting (sound : stream.Sound) (waiting : stream.produce? = none) :
    ∃ outcome, stream.receive? = some outcome := by
  unfold receive?
  cases done : stream.done with
  | true => exact ⟨_, rfl⟩
  | false =>
      cases buffered : stream.channel.buffered with
      | cons value later =>
          rw [Channel.receive_of_cons sound.receiverAlive sound.unblocked buffered]
          exact ⟨_, rfl⟩
      | nil =>
          rw [Channel.receive_of_nil sound.receiverAlive buffered]
          cases alive : stream.channel.senderAlive with
          | false => exact ⟨_, rfl⟩
          | true =>
              obtain ⟨after, step⟩ := sound.produce_of_empty buffered alive
              rw [waiting] at step
              cases step

theorem run_settle (stream : Stream) :
    ∃ events, Run stream events stream.settle ∧ received events = [] := by
  fun_induction settle stream with
  | case1 stream after step lower ih =>
      obtain ⟨events, run, none⟩ := ih
      exact ⟨.produced :: events, .cons (.produce step) run, none⟩
  | case2 => exact ⟨[], .nil, rfl⟩

theorem produce?_settle (stream : Stream) : stream.settle.produce? = none := by
  fun_induction settle stream with
  | case1 stream after step lower ih => exact ih
  | case2 stream waiting => exact waiting

theorem Sound.run_next (sound : stream.Sound) :
    ∃ events, Run stream events stream.next.2 ∧ received events = stream.next.1.toList ∧
      (stream.next.1 = none → Event.ended ∈ events) := by
  obtain ⟨events, run, silent⟩ := run_settle stream
  obtain ⟨⟨value?, after⟩, step⟩ :=
    (sound.run run).1.receive_of_waiting (produce?_settle stream)
  have next : stream.next = (value?, after) := by
    rw [Stream.next, step]
  rw [next]
  cases value? with
  | some value =>
      refine ⟨events ++ [.received value], run.append (Step.receive step).run, ?_, ?_⟩
      · rw [received_append, silent]
        rfl
      · intro missing
        cases missing
  | none =>
      refine ⟨events ++ [.ended], run.append (Step.finish step).run, ?_, ?_⟩
      · rw [received_append, silent]
        rfl
      · intro _
        exact List.mem_append_right events List.mem_cons_self

theorem Sound.run_drain (sound : stream.Sound) :
    ∃ events, Run stream events stream.drain.2 ∧ received events = stream.drain.1 ∧
      Event.ended ∈ events := by
  fun_induction drain stream with
  | case1 stream value after step lower values last drained ih =>
      obtain ⟨events, run, head, _⟩ := sound.run_next
      rw [step] at run head
      obtain ⟨more, rest, tail, ended⟩ := ih (sound.run run).1
      rw [drained] at rest tail
      refine ⟨events ++ more, run.append rest, ?_, List.mem_append_right events ended⟩
      rw [received_append, head, tail]
      rfl
  | case2 stream after step =>
      obtain ⟨events, run, silent, ended⟩ := sound.run_next
      rw [step] at run silent ended
      exact ⟨events, run, silent, ended rfl⟩

theorem Sound.remaining_of_done (sound : stream.Sound) (done : stream.done = true) :
    stream.remaining = [] := by
  obtain ⟨exited, empty⟩ := sound.ended done
  rw [remaining, exited, empty]
  rfl

theorem Sound.received_eq (sound : first.Sound) (run : Run first events last)
    (ended : Event.ended ∈ events) : received events = first.remaining := by
  obtain ⟨lastSound, values, _⟩ := sound.run run
  rw [values, lastSound.remaining_of_done (run.done_of_ended ended), List.append_nil]

/-- At the end the producer holds no error, so the consumer finds it at once. -/
theorem Sound.error_of_done (sound : stream.Sound) (done : stream.done = true) :
    stream.noteError.error = stream.outcome := by
  obtain ⟨exited, _⟩ := sound.ended done
  unfold Stream.noteError
  cases known : stream.error with
  | some error => simp [outcome, known]
  | none => simp [outcome, known, exited, Producer.error?, OneShot.take]

theorem Sound.finish_eq (sound : stream.Sound) :
    stream.finish = stream.outcome.elim (.ok ()) .error := by
  obtain ⟨events, draining, _, ended⟩ := sound.run_drain
  obtain ⟨more, settling, _⟩ := run_settle stream.drain.2
  have run := draining.append settling
  obtain ⟨settled, _, kept⟩ := sound.run run
  have done := run.done_of_ended (List.mem_append_left more ended)
  rw [finish, settled.error_of_done done, kept]
  cases stream.outcome <;> rfl

theorem Sound.collectValues_eq (sound : stream.Sound) :
    stream.collectValues = stream.outcome.elim (.ok stream.remaining) .error := by
  obtain ⟨events, run, values, ended⟩ := sound.run_drain
  obtain ⟨drained, _, kept⟩ := sound.run run
  have finished := drained.finish_eq
  rw [kept] at finished
  rw [← sound.received_eq run ended, values]
  unfold collectValues
  simp only [finished]
  cases stream.outcome <;> rfl

end BinaryRecord.Stream
