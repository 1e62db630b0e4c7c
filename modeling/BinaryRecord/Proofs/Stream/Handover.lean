import BinaryRecord.Proofs.Stream.Liveness

/-!
# Handing over the error

The producer hands over one error at most, and before it drops its end of the channel. From then on
the error is in one of two places, the signal or the consumer, and a look takes it from the first
to the second. Main statement: `Trace.mem_fired_iff`.
-/

set_option autoImplicit false

namespace BinaryRecord

namespace Stream

variable {stream before after first middle last : Stream} {action : Action}
variable {actions more : List Action} {error : UnpackError}

theorem outcome_eq (stream : Stream) :
    stream.outcome = stream.handed.or
      (stream.producer.error? stream.layout stream.buffer stream.strict) :=
  Option.or_assoc.symm

theorem error_noteError (stream : Stream) : stream.noteError.error = stream.handed := by
  rw [noteError_eq]

theorem handed_noteError (stream : Stream) : stream.noteError.handed = stream.handed := by
  rw [noteError_eq]
  unfold handed unread
  cases stream.error <;> simp [OneShot.take]

theorem noteError_of_handed (unknown : stream.handed = none) : stream.noteError = stream := by
  obtain ⟨layout, buffer, strict, producer, channel, ⟨fired, _, _⟩, error, done⟩ := stream
  obtain ⟨rfl, rfl⟩ : error = none ∧ fired = none := Option.or_eq_none_iff.mp unknown
  rfl

@[simp] theorem noteError_noteError (stream : Stream) :
    stream.noteError.noteError = stream.noteError := by
  cases known : stream.noteError.error with
  | some error =>
      rw [noteError, known]
  | none =>
      apply noteError_of_handed
      rw [handed_noteError, ← error_noteError, known]

theorem Acts.of_looked {answer : Option UnpackError} (acts : Acts before (.looked answer) after) :
    answer = before.handed ∧ after = before.noteError := by
  -- The action of a producer is computed, so it is told from the others by its equation.
  generalize label : Action.looked answer = action at acts
  cases acts with
  | produce _ =>
      have produced := event_task before
      rw [← label] at produced
      cases produced
  | receive _ => cases label
  | finish _ => cases label
  | look =>
      cases label
      exact ⟨error_noteError before, rfl⟩

private theorem reporting_of_task (fires : stream.task = .fired error) :
    stream.producer = .reporting error := by
  unfold task at fires
  split at fires
  · cases fires
  · split at fires <;> cases fires
  · split at fires <;> cases fires
  next reporting =>
    cases fires
    exact reporting
  · cases fires
  · cases fires

theorem Acts.of_fired (acts : Acts before (.fired error) after) :
    before.producer = .reporting error := by
  generalize label : Action.fired error = action at acts
  cases acts with
  | produce _ => exact reporting_of_task label.symm
  | receive _ => cases label
  | finish _ => cases label
  | look => cases label

/-- A sound stream whose producer reports before it closes, and whose consumer looks for the report
at the end. -/
structure Candid (stream : Stream) : Prop extends Sound stream where
  silent : stream.producer.Working → stream.handed = none
  noted : stream.done = true → stream.error = stream.handed

theorem candid_noteError (sound : stream.noteError.Sound)
    (silent : stream.producer.Working → stream.handed = none) : stream.noteError.Candid := by
  refine ⟨sound, ?_, fun _ => ?_⟩
  · intro working
    rw [noteError_eq] at working
    rw [handed_noteError]
    exact silent working
  · rw [error_noteError, handed_noteError]

section

-- The proofs below compute with what a step does and with what it hands over.
attribute [local simp] task handed Action.fired?

/-- Firing is the only step that hands an error over, and there is none before it. -/
theorem Candid.produces (candid : before.Candid) (step : Produces before after) :
    after.Candid ∧ before.handed.toList ++ before.task.fired?.toList = after.handed.toList := by
  have sound := candid.toSound.produces step
  cases step with
  | reject starting _ | start starting _ =>
      have working : before.producer.Working := by rw [starting]; trivial
      exact ⟨⟨sound, fun _ => candid.silent working, candid.noted⟩, by simp [starting]⟩
  | decode decoding next | fail decoding next | exhaust decoding next =>
      have working : before.producer.Working := by rw [decoding]; trivial
      exact ⟨⟨sound, fun _ => candid.silent working, candid.noted⟩, by simp [decoding, next]⟩
  | send sending sent =>
      have working : before.producer.Working := by rw [sending]; trivial
      exact ⟨⟨sound, fun _ => candid.silent working, candid.noted⟩, by simp [sending, sent]⟩
  | stop sending _ _ =>
      have working : before.producer.Working := by rw [sending]; trivial
      exact ⟨⟨sound, fun _ => candid.silent working, candid.noted⟩, by simp [sending]⟩
  | @report error reporting =>
      have working : before.producer.Working := by rw [reporting]; trivial
      have running := (candid.running working).2
      obtain ⟨untaken, unfired⟩ := Option.or_eq_none_iff.mp (candid.silent working)
      rw [candid.fire_eq working] at sound ⊢
      refine ⟨⟨sound, False.elim, ?_⟩, ?_⟩
      · intro done
        rw [running] at done
        cases done
      · simp [reporting, untaken, unfired]
  | close closing =>
      refine ⟨⟨sound, False.elim, candid.noted⟩, ?_⟩
      simp [closing, OneShot.dropSender]

end

theorem Candid.receives {value? : Option Value} (candid : before.Candid)
    (step : Receives before value? after) : after.Candid ∧ after.handed = before.handed := by
  have sound := (candid.toSound.receives step).1
  cases step with
  | again _ => exact ⟨candid, rfl⟩
  | item _ _ => exact ⟨⟨sound, candid.silent, candid.noted⟩, rfl⟩
  | finish _ _ =>
      exact ⟨candid_noteError sound candid.silent, handed_noteError { before with done := true }⟩

theorem Candid.acts (candid : before.Candid) (acts : Acts before action after) :
    after.Candid ∧ before.handed.toList ++ action.fired?.toList = after.handed.toList := by
  cases acts with
  | produce step => exact candid.produces (produces_of_produce? step)
  | receive step =>
      obtain ⟨kept, same⟩ := candid.receives (receives_of_receive? step)
      exact ⟨kept, by rw [same]; exact List.append_nil _⟩
  | finish step =>
      obtain ⟨kept, same⟩ := candid.receives (receives_of_receive? step)
      exact ⟨kept, by rw [same]; exact List.append_nil _⟩
  | look =>
      have sound := candid.toSound.noteError.1
      exact ⟨candid_noteError sound candid.silent, by
        rw [handed_noteError]
        exact List.append_nil _⟩

theorem Trace.candid (trace : Trace first actions last) (candid : first.Candid) : last.Candid :=
  trace.invariant (fun candid acts => (candid.acts acts).1) candid

theorem Trace.fired_eq (trace : Trace first actions last) (candid : first.Candid)
    (unfired : first.handed = none) :
    actions.filterMap Action.fired? = last.handed.toList := by
  have nothing : actions.filterMap (fun _ => (none : Option UnpackError)) = [] := by simp
  have balanced := trace.balance (fun stream => stream.handed.toList) Action.fired?
    (fun _ => none) (fun candid acts => (candid.acts acts).1)
    (fun candid acts => (candid.acts acts).2) candid
  rwa [nothing, unfired] at balanced

theorem Trace.mem_fired_iff (trace : Trace first actions last) (candid : first.Candid)
    (unfired : first.handed = none) : .fired error ∈ actions ↔ last.handed = some error := by
  rw [← Option.mem_toList, ← trace.fired_eq candid unfired]
  simp [List.mem_filterMap, Action.fired?_eq_some_iff]

/-- What a look has found once stays found. -/
theorem Trace.handed_of_looked (trace : Trace first actions last) (candid : first.Candid)
    (unfired : first.handed = none) (looked : .looked (some error) ∈ actions) :
    last.handed = some error := by
  obtain ⟨earlier, later, rfl⟩ := List.append_of_mem looked
  obtain ⟨middle, head, tail⟩ := trace.split_append
  cases tail with
  | cons acts _ =>
      have found : middle.handed = some error := acts.of_looked.1.symm
      have fired := (head.mem_fired_iff candid unfired).mpr found
      exact (trace.mem_fired_iff candid unfired).mp (List.mem_append_left _ fired)

end Stream

end BinaryRecord
