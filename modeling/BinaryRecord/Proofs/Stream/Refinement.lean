import BinaryRecord.Proofs.Stream.Completion

/-!
# Streaming and unpacking

Whatever its schedule, a stream gives what the decoder of its buffer gives. A strict one gives what
unpacking the buffer gives. A stream whose producer the system refuses to start gives nothing but
that reason, and only a name that no thread can bear leaves its consumer without a stream. Main
statement: `Layout.spawn_refines_unpack`.
-/

set_option autoImplicit false

namespace BinaryRecord.Layout

open BinaryRecord.Stream (Event Run received)

variable {layout : Layout}

theorem sound_stream (layout : Layout) (options : StreamOptions) (buffer : Bytes) :
    (layout.stream options buffer).Sound where
  unblocked := rfl
  capacity_pos := Nat.le_max_right options.capacity 1
  receiverAlive := rfl
  dropped_iff := ⟨Bool.noConfusion, Producer.noConfusion⟩
  signalReceiverAlive := rfl
  unfired := fun _ => ⟨rfl, rfl⟩
  ended := Bool.noConfusion

theorem sound_refuse (layout : Layout) (options : StreamOptions) (buffer : Bytes)
    (reason : String) : ((layout.stream options buffer).refuse reason).Sound where
  unblocked := rfl
  capacity_pos := Nat.le_max_right options.capacity 1
  receiverAlive := rfl
  dropped_iff := ⟨fun _ => rfl, fun _ => rfl⟩
  signalReceiverAlive := rfl
  unfired := False.elim
  ended := fun _ => ⟨rfl, rfl⟩

/-- A strict stream over a buffer of another size gives nothing but the error. -/
theorem stream_of_misfit {options : StreamOptions} {buffer : Bytes}
    (strict : options.strict = true) (misfit : buffer.length ≠ layout.size) :
    (layout.stream options buffer).remaining = [] ∧
      (layout.stream options buffer).outcome =
        some (.sizeMismatch layout.size buffer.length) :=
  ⟨if_pos ⟨strict, misfit⟩, if_pos ⟨strict, misfit⟩⟩

/-- Every other stream gives what the decoder gives. -/
theorem stream_of_fit (options : StreamOptions) {buffer : Bytes}
    (fits : options.strict = true → buffer.length = layout.size) :
    (layout.stream options buffer).remaining = (layout.decoder buffer).values ∧
      (layout.stream options buffer).outcome = (layout.decoder buffer).error? := by
  have decoded : ¬ (options.strict = true ∧ buffer.length ≠ layout.size) := by
    intro misfit
    exact misfit.2 (fits misfit.1)
  exact ⟨if_neg decoded, if_neg decoded⟩

theorem collectValues_stream (exact : layout.Exact) {options : StreamOptions}
    (strict : options.strict = true) (buffer : Bytes) :
    (layout.stream options buffer).collectValues = layout.unpack buffer := by
  rw [(layout.sound_stream options buffer).collectValues_eq]
  by_cases full : buffer.length = layout.size
  · obtain ⟨values, error⟩ := stream_of_fit options fun _ => full
    obtain ⟨unpacked, complete⟩ := unpack_eq_values exact full
    rw [values, error, complete, unpacked]
    rfl
  · obtain ⟨values, error⟩ := stream_of_misfit strict full
    rw [error, unpack_of_length_ne full]
    rfl

/-- Every run of a stream can be carried on to its end, and all runs to the end have the result of
unpacking, or of decoding where the stream is not strict. -/
theorem stream_refines_unpack {text : String} (compiled : compile text = .ok layout)
    (options : StreamOptions) (buffer : Bytes) :
    (∀ events last, Run (layout.stream options buffer) events last →
      ∃ more final, Run last more final ∧ Event.ended ∈ more) ∧
    (∀ events last, Run (layout.stream options buffer) events last → Event.ended ∈ events →
      (options.strict = true → buffer.length = layout.size →
        layout.unpack buffer = .ok (received events) ∧ last.finish = .ok ()) ∧
      (options.strict = true → buffer.length ≠ layout.size →
        received events = [] ∧
          last.finish = .error (.sizeMismatch layout.size buffer.length)) ∧
      (options.strict = true →
        (last.finish.map fun _ => received events) = layout.unpack buffer) ∧
      (options.strict = false →
        received events = (layout.decoder buffer).values ∧
          last.finish = (layout.decoder buffer).error?.elim (.ok ()) .error)) ∧
    (options.strict = true →
      (layout.stream options buffer).collectValues = layout.unpack buffer) := by
  have exact := exact_of_compile compiled
  have sound := layout.sound_stream options buffer
  refine ⟨?_, ?_, fun strict => collectValues_stream exact strict buffer⟩
  · intro events last run
    obtain ⟨more, rest, _, ended⟩ := (sound.run run).1.run_drain
    exact ⟨more, _, rest, ended⟩
  · intro events last run ended
    obtain ⟨lastSound, _, kept⟩ := sound.run run
    have given := sound.received_eq run ended
    have finished := lastSound.finish_eq
    rw [kept] at finished
    refine ⟨?_, ?_, ?_, ?_⟩
    · intro _ full
      obtain ⟨values, error⟩ := stream_of_fit options fun _ => full
      obtain ⟨unpacked, complete⟩ := unpack_eq_values exact full
      rw [given, values, finished, error, complete, unpacked]
      exact ⟨rfl, rfl⟩
    · intro strict misfit
      obtain ⟨values, error⟩ := stream_of_misfit strict misfit
      rw [given, values, finished, error]
      exact ⟨rfl, rfl⟩
    · intro strict
      have collected := collectValues_stream exact strict buffer
      rw [sound.collectValues_eq, ← given] at collected
      rw [← collected, finished]
      cases (layout.stream options buffer).outcome <;> rfl
    · intro lenient
      have fits : options.strict = true → buffer.length = layout.size := by
        intro strict
        rw [lenient] at strict
        cases strict
      obtain ⟨values, error⟩ := stream_of_fit options fits
      rw [given, values, finished, error]
      exact ⟨rfl, rfl⟩

/-- A stream without a producer gives its consumer the reason, and nothing else. -/
theorem finish_of_refuse {options : StreamOptions} {buffer : Bytes} {reason : String}
    {events : List Event} {last : Stream}
    (run : Run ((layout.stream options buffer).refuse reason) events last) :
    received events = [] ∧ last.finish = .error (.transfer (.failure reason)) := by
  obtain ⟨lastSound, values, kept⟩ := (layout.sound_refuse options buffer reason).run run
  refine ⟨(List.append_eq_nil_iff.mp values.symm).1, ?_⟩
  rw [lastSound.finish_eq, kept]
  rfl

theorem collectValues_of_refuse (options : StreamOptions) (buffer : Bytes) (reason : String) :
    ((layout.stream options buffer).refuse reason).collectValues =
      .error (.transfer (.failure reason)) :=
  (layout.sound_refuse options buffer reason).collectValues_eq

/-- A call that starts a stream panics exactly for a name with a NUL character in it. Otherwise
there is a stream, whatever the system does. Where the system starts the producer, every run of the
stream can be carried on to its end, and all runs to the end have the result of unpacking, or of
decoding where the stream is not strict. Where the system refuses to, the stream gives nothing but
the reason. -/
theorem spawn_refines_unpack {text : String} (compiled : compile text = .ok layout)
    (options : StreamOptions) (buffer : Bytes) :
    ('\x00' ∈ options.threadName.toList → ∀ refusal,
      layout.spawn options buffer refusal = .error (.threadName options.threadName)) ∧
    ('\x00' ∉ options.threadName.toList →
      (∀ reason, ∃ stream, layout.spawn options buffer (some reason) = .ok stream ∧
        (∀ events last, Run stream events last →
          received events = [] ∧ last.finish = .error (.transfer (.failure reason))) ∧
        stream.collectValues = .error (.transfer (.failure reason))) ∧
      ∃ stream, layout.spawn options buffer none = .ok stream ∧
        (∀ events last, Run stream events last →
          ∃ more final, Run last more final ∧ Event.ended ∈ more) ∧
        (∀ events last, Run stream events last → Event.ended ∈ events →
          (options.strict = true → buffer.length = layout.size →
            layout.unpack buffer = .ok (received events) ∧ last.finish = .ok ()) ∧
          (options.strict = true → buffer.length ≠ layout.size →
            received events = [] ∧
              last.finish = .error (.sizeMismatch layout.size buffer.length)) ∧
          (options.strict = true →
            (last.finish.map fun _ => received events) = layout.unpack buffer) ∧
          (options.strict = false →
            received events = (layout.decoder buffer).values ∧
              last.finish = (layout.decoder buffer).error?.elim (.ok ()) .error)) ∧
        (options.strict = true → stream.collectValues = layout.unpack buffer)) := by
  constructor
  · intro broken refusal
    exact if_pos broken
  · intro whole
    refine ⟨fun reason => ⟨_, if_neg whole, fun events last => finish_of_refuse,
      collectValues_of_refuse options buffer reason⟩, _, if_neg whole, ?_⟩
    exact stream_refines_unpack compiled options buffer

theorem spawn_refines_unpack_specimen :
    compile ">2se?" = .ok specimen ∧
      (∃ stream events last,
        specimen.spawn { capacity := 0 } [97, 98, 0x7E, 1, 5] none = .ok stream ∧
        Run stream events last ∧ Event.ended ∈ events ∧
        specimen.unpack [97, 98, 0x7E, 1, 5] = .ok (received events) ∧ last.finish = .ok ()) ∧
      (∃ stream, specimen.spawn {} [97, 98, 0x7E, 1, 5] (some "no threads left") = .ok stream ∧
        stream.collectValues = .error (.transfer (.failure "no threads left"))) ∧
      specimen.spawn { threadName := "a\x00b" } [97, 98, 0x7E, 1, 5] none =
        .error (.threadName "a\x00b") := by
  obtain ⟨_, starts⟩ := spawn_refines_unpack compile_specimen { capacity := 0 }
    [97, 98, 0x7E, 1, 5]
  obtain ⟨stream, spawned, completes, refines, _⟩ := (starts (by decide)).2
  obtain ⟨events, last, run, ended⟩ := completes [] _ .nil
  obtain ⟨unpacked, finished⟩ := (refines events last run ended).1 rfl rfl
  obtain ⟨_, refuses⟩ := spawn_refines_unpack compile_specimen {} [97, 98, 0x7E, 1, 5]
  obtain ⟨idle, refused, _, collected⟩ := (refuses (by decide)).1 "no threads left"
  obtain ⟨panics, _⟩ := spawn_refines_unpack compile_specimen { threadName := "a\x00b" }
    [97, 98, 0x7E, 1, 5]
  exact ⟨compile_specimen, ⟨stream, events, last, spawned, run, ended, unpacked, finished⟩,
    ⟨idle, refused, collected⟩, panics (by decide) none⟩

end BinaryRecord.Layout
