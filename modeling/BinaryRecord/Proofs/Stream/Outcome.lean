import BinaryRecord.Proofs.Stream.Looks

/-!
# The outcome of a stream

The error that ends a stream is there for its consumer as soon as the stream has ended, and every
way to ask for it gives the same answer. Main statement: `Layout.stream_error`.
-/

set_option autoImplicit false

namespace BinaryRecord

namespace Stream

variable {stream before after first last : Stream} {actions : List Action} {error : UnpackError}

/-- Firing finds nothing handed over and the channel still open, and leaves the error to find. -/
theorem Candid.fires (candid : before.Candid) (fires : Acts before (.fired error) after) :
    before.handed = none ∧ before.channel.senderAlive = true ∧ after.handed = some error := by
  have working : before.producer.Working := by
    rw [fires.of_fired]
    trivial
  have unfired := candid.silent working
  have handed := (candid.acts fires).2
  rw [unfired] at handed
  exact ⟨unfired, candid.senderAlive (candid.running working).1,
    Option.toList_eq_singleton_iff.mp handed.symm⟩

theorem Candid.of_done (candid : stream.Candid) (done : stream.done = true) :
    stream.producer = .exited ∧ stream.error = stream.handed ∧
      stream.receive? = some (none, stream) := by
  refine ⟨(candid.ended done).1, candid.noted done, ?_⟩
  unfold receive?
  exact if_pos done

theorem Sound.finish_of_handed (sound : stream.Sound) (handed : stream.handed = some error) :
    stream.finish = .error error ∧ stream.collectValues = .error error := by
  rw [sound.finish_eq, sound.collectValues_eq, outcome_eq, handed]
  exact ⟨rfl, rfl⟩

theorem Sound.produce?_of_ended (sound : stream.Sound) {after : Stream}
    (ended : stream.receive? = some (none, after)) : stream.produce? = none := by
  have exited : stream.producer = .exited := by
    cases receives_of_receive? ended with
    | again done => exact (sound.ended done).1
    | finish _ received =>
        exact sound.dropped_iff.mp (Channel.ended_of_receive_ended received).2
  unfold produce?
  rw [exited]

theorem Trace.fired_iff_outcome (trace : Trace first actions last) (candid : first.Candid)
    (unfired : first.handed = none) (ended : .ended ∈ actions) :
    .fired error ∈ actions ↔ first.outcome = some error := by
  obtain ⟨sound, _, kept⟩ := candid.toSound.run trace.run
  rw [trace.mem_fired_iff candid unfired, ← error_noteError,
    sound.error_of_done (trace.done_of_ended ended), kept]

theorem Sound.exists_trace_ended (sound : stream.Sound) :
    ∃ actions last, Trace stream actions last ∧ .ended ∈ actions := by
  obtain ⟨events, run, _, ended⟩ := sound.run_drain
  obtain ⟨actions, trace, rfl⟩ := run.trace
  obtain ⟨action, member, label⟩ := List.mem_map.mp ended
  obtain rfl := Action.event_eq_ended_iff.mp label
  exact ⟨actions, _, trace, member⟩

end Stream

namespace Layout

open BinaryRecord.Stream (Action Acts Candid Trace)

theorem candid_stream (layout : Layout) (options : StreamOptions) (buffer : Bytes) :
    (layout.stream options buffer).Candid where
  toSound := layout.sound_stream options buffer
  silent := fun _ => rfl
  noted := Bool.noConfusion

/-- The producer hands one error over at most, while its end of the channel still stands. Once the
stream has ended, the consumer holds the error that was fired, if one was, and has nothing more to
receive or to wait for. An error that a look has found stays found, and finishing gives it under
every schedule, after all values. A look can be put in or left out anywhere. -/
theorem stream_error (layout : Layout) (options : StreamOptions) (buffer : Bytes)
    {actions : List Action} {last : Stream}
    (trace : Trace (layout.stream options buffer) actions last) :
    (∀ error after, Acts last (.fired error) after →
      actions.filterMap Action.fired? = [] ∧ last.channel.senderAlive = true ∧
        after.noteError.error = some error) ∧
    (actions.filterMap Action.fired?).length ≤ 1 ∧
    (∀ after, last.receive? = some (none, after) → last.produce? = none) ∧
    (.ended ∈ actions →
      last.producer = .exited ∧ (∀ error, last.error = some error ↔ .fired error ∈ actions) ∧
        last.noteError.error = last.error ∧ last.receive? = some (none, last)) ∧
    (∀ error, .looked (some error) ∈ actions →
      last.noteError.error = some error ∧ last.finish = .error error ∧
        last.collectValues = .error error) ∧
    (∀ more final, Trace last more final → .ended ∈ more →
      final.producer = .exited ∧
      last.finish = final.noteError.error.elim (.ok ()) .error ∧
      last.collectValues =
        final.noteError.error.elim (.ok (more.filterMap Action.received?)) .error ∧
      actions.filterMap Action.received? ++ more.filterMap Action.received? =
        (if options.strict = true ∧ buffer.length ≠ layout.size then []
        else (layout.decoder buffer).values) ∧
      (last.finish = .ok () ↔ ∀ error, .fired error ∉ actions ++ more) ∧
      ∀ error, last.finish = .error error ↔ .fired error ∈ actions ++ more) ∧
    (∃ more final, Trace last more final ∧ .ended ∈ more) ∧
    (∀ earlier later, actions = earlier ++ later →
      ∃ answer final,
        Trace (layout.stream options buffer) (earlier ++ .looked answer :: later) final ∧
        final.finish = last.finish ∧ final.collectValues = last.collectValues) ∧
    ∀ earlier answer later, actions = earlier ++ .looked answer :: later →
      ∃ final, Trace (layout.stream options buffer) (earlier ++ later) final ∧
        final.finish = last.finish ∧ final.collectValues = last.collectValues := by
  have fresh := layout.candid_stream options buffer
  have candid := trace.candid fresh
  have sound := candid.toSound
  refine ⟨?_, ?_, fun _ => sound.produce?_of_ended, ?_, ?_, ?_, sound.exists_trace_ended, ?_, ?_⟩
  · intro error after fires
    obtain ⟨unfired, alive, handed⟩ := candid.fires fires
    rw [trace.fired_eq fresh rfl, unfired]
    exact ⟨rfl, alive, (Stream.error_noteError after).trans handed⟩
  · rw [trace.fired_eq fresh rfl]
    cases last.handed <;> simp
  · intro ended
    obtain ⟨exited, noted, again⟩ := candid.of_done (trace.done_of_ended ended)
    refine ⟨exited, fun error => ?_, (Stream.error_noteError last).trans noted.symm, again⟩
    rw [noted]
    exact (trace.mem_fired_iff fresh rfl).symm
  · intro error looked
    have handed := trace.handed_of_looked fresh rfl looked
    exact ⟨(Stream.error_noteError last).trans handed, sound.finish_of_handed handed⟩
  · intro more final rest ended
    have done := rest.done_of_ended ended
    obtain ⟨finalSound, _, kept⟩ := sound.run rest.run
    obtain ⟨_, values, unchanged⟩ := fresh.toSound.run trace.run
    have known := finalSound.error_of_done done
    have received := sound.received_eq rest.run (List.mem_map.mpr ⟨_, ended, rfl⟩)
    rw [Stream.received_map_event] at received values
    have fired (error : UnpackError) :
        .fired error ∈ actions ++ more ↔ last.outcome = some error := by
      rw [unchanged]
      exact (trace.append rest).fired_iff_outcome fresh rfl (List.mem_append_right _ ended)
    rw [known, kept, sound.finish_eq, sound.collectValues_eq, received]
    refine ⟨(finalSound.ended done).1, rfl, rfl, values.symm, ?_, ?_⟩
    · simp only [fired]
      cases last.outcome <;> simp
    · intro error
      rw [fired]
      cases last.outcome <;> simp
  · intro earlier later split
    subst split
    obtain ⟨answer, final, looked, alike⟩ := trace.insert_look fresh
    exact ⟨answer, final, looked, alike.results sound⟩
  · intro earlier answer later split
    subst split
    obtain ⟨final, plain, alike⟩ := trace.remove_look fresh
    obtain ⟨finish, values⟩ := alike.results (plain.sound fresh.toSound)
    exact ⟨final, plain, finish.symm, values.symm⟩

/-- The error is found while the only value still waits to be received. -/
theorem stream_error_specimen :
    ∃ last,
      Trace (specimen.stream { strict := false } [97, 98, 0x7E])
        [.checked, .decoded (.bytes [97, 98]), .sent (.bytes [97, 98]),
          .failed (.truncated 1 2 1), .fired (.truncated 1 2 1),
          .looked (some (.truncated 1 2 1))] last ∧
      last.channel.buffered = [.bytes [97, 98]] ∧
      last.finish = .error (.truncated 1 2 1) ∧
      last.collectValues = .error (.truncated 1 2 1) := by
  obtain ⟨last, trace, buffered⟩ : ∃ last,
      Trace (specimen.stream { strict := false } [97, 98, 0x7E])
        [.checked, .decoded (.bytes [97, 98]), .sent (.bytes [97, 98]),
          .failed (.truncated 1 2 1), .fired (.truncated 1 2 1),
          .looked (some (.truncated 1 2 1))] last ∧
      last.channel.buffered = [.bytes [97, 98]] :=
    ⟨_, .cons (.produce rfl) (.cons (.produce rfl) (.cons (.produce rfl) (.cons (.produce rfl)
      (.cons (.produce rfl) (.cons .look .nil))))), rfl⟩
  obtain ⟨_, _, _, _, found, _⟩ := stream_error specimen { strict := false } _ trace
  obtain ⟨_, finish, values⟩ := found (.truncated 1 2 1) (by simp)
  exact ⟨last, trace, buffered, finish, values⟩

end Layout

end BinaryRecord
