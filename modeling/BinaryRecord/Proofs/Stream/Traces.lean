import BinaryRecord.Proofs.Stream.Conservation

/-!
# Traces of a stream

A trace is a run that records what its steps do: what the producer decodes, sends, fires and drops,
and what every call of the consumer answers. Main statement: `Trace.balance`, by which what is kept
at every step is kept over a whole trace.
-/

set_option autoImplicit false

namespace BinaryRecord.Stream

inductive Action where
  /-- The size of the buffer is looked at. -/
  | checked
  | decoded (value : Value)
  | failed (error : UnpackError)
  /-- The decoder has nothing more to give. -/
  | exhausted
  | sent (value : Value)
  /-- The channel gives the value back. -/
  | refused (value : Value)
  | fired (error : UnpackError)
  /-- The producer drops its ends of the channel and of the signal. -/
  | closed
  | received (value : Value)
  | ended
  | looked (answer : Option UnpackError)
  deriving DecidableEq, Repr

namespace Action

def decoded? : Action → Option Value
  | .decoded value => some value
  | _ => none

def sent? : Action → Option Value
  | .sent value => some value
  | _ => none

def received? : Action → Option Value
  | .received value => some value
  | _ => none

def fired? : Action → Option UnpackError
  | .fired error => some error
  | _ => none

def isDecoding : Action → Bool
  | .decoded _ | .failed _ | .exhausted => true
  | _ => false

def isLook : Action → Bool
  | .looked _ => true
  | _ => false

def event : Action → Event
  | .received value => .received value
  | .ended => .ended
  | .looked _ => .looked
  | _ => .produced

theorem event_eq_ended_iff {action : Action} : action.event = .ended ↔ action = .ended := by
  cases action <;> simp [event]

theorem fired?_eq_some_iff {action : Action} {error : UnpackError} :
    action.fired? = some error ↔ action = .fired error := by
  cases action <;> simp [fired?]

theorem value?_event (action : Action) : action.event.value? = action.received? := by
  cases action <;> rfl

end Action

/-- The error that the producer has handed over, taken by the consumer or not. -/
def handed (stream : Stream) : Option UnpackError :=
  stream.error.or stream.signal.fired

/-- The signal as a look leaves it. -/
def unread (stream : Stream) : OneShot UnpackError :=
  if stream.error.isSome then stream.signal else stream.signal.take.2

def task (stream : Stream) : Action :=
  match stream.producer with
  | .starting => .checked
  | .decoding decoder =>
      match decoder.next.1 with
      | some (.ok value) => .decoded value
      | some (.error error) => .failed error
      | none => .exhausted
  | .sending value _ =>
      match (stream.channel.send value).1 with
      | .accepted => .sent value
      | _ => .refused value
  | .reporting error => .fired error
  | .closing | .exited => .closed

/-- A step of the producer, or a call of the consumer with its answer. -/
inductive Acts : Stream → Action → Stream → Prop where
  | produce {before after : Stream} :
      before.produce? = some after → Acts before before.task after
  | receive {before after : Stream} {value : Value} :
      before.receive? = some (some value, after) → Acts before (.received value) after
  | finish {before after : Stream} :
      before.receive? = some (none, after) → Acts before .ended after
  | look {before : Stream} :
      Acts before (.looked before.noteError.error) before.noteError

inductive Trace : Stream → List Action → Stream → Prop where
  | nil {stream : Stream} : Trace stream [] stream
  | cons {first middle last : Stream} {action : Action} {actions : List Action} :
      Acts first action middle → Trace middle actions last → Trace first (action :: actions) last

/-- A trace of the producer alone. -/
inductive Works : Stream → List Action → Stream → Prop where
  | nil {stream : Stream} : Works stream [] stream
  | cons {first middle last : Stream} {actions : List Action} :
      first.produce? = some middle → Works middle actions last →
      Works first (first.task :: actions) last

variable {before after first middle last : Stream} {action : Action} {actions more : List Action}

/-- A look touches nothing but the signal and what the consumer knows of it. -/
theorem noteError_eq (stream : Stream) :
    stream.noteError = { stream with error := stream.handed, signal := stream.unread } := by
  obtain ⟨layout, buffer, strict, producer, channel, signal, error, done⟩ := stream
  cases error <;> rfl

theorem event_task (stream : Stream) : stream.task.event = .produced := by
  unfold task
  split
  next => rfl
  next => split <;> rfl
  next => split <;> rfl
  next => rfl
  next => rfl
  next => rfl

theorem isLook_task (stream : Stream) : stream.task.isLook = false := by
  cases look : stream.task with
  | looked answer =>
      have produced := event_task stream
      rw [look] at produced
      cases produced
  | _ => rfl

theorem Acts.step (acts : Acts before action after) : Step before action.event after := by
  cases acts with
  | produce step =>
      rw [event_task]
      exact .produce step
  | receive step => exact .receive step
  | finish step => exact .finish step
  | look => exact .look

theorem Step.acts {event : Event} (step : Step before event after) :
    ∃ action : Action, Acts before action after ∧ action.event = event := by
  cases step with
  | produce step => exact ⟨_, .produce step, event_task before⟩
  | receive step => exact ⟨_, .receive step, rfl⟩
  | finish step => exact ⟨_, .finish step, rfl⟩
  | look => exact ⟨_, .look, rfl⟩

private theorem filterMap_cons_eq {α β : Type} (f : α → Option β) (item : α) (later : List α) :
    (item :: later).filterMap f = (f item).toList ++ later.filterMap f := by
  rw [List.filterMap_cons]
  cases f item <;> rfl

theorem Sound.acts (sound : before.Sound) (acts : Acts before action after) : after.Sound :=
  (sound.step acts.step).1

namespace Trace

theorem append (trace : Trace first actions middle) (rest : Trace middle more last) :
    Trace first (actions ++ more) last := by
  induction trace with
  | nil => exact rest
  | cons acts _ ih => exact .cons acts (ih rest)

theorem split_append (trace : Trace first (actions ++ more) last) :
    ∃ middle, Trace first actions middle ∧ Trace middle more last := by
  induction actions generalizing first with
  | nil => exact ⟨first, .nil, trace⟩
  | cons action actions ih =>
      cases trace with
      | cons acts rest =>
          obtain ⟨middle, head, tail⟩ := ih rest
          exact ⟨middle, .cons acts head, tail⟩

theorem run (trace : Trace first actions last) : Run first (actions.map Action.event) last := by
  induction trace with
  | nil => exact .nil
  | cons acts _ ih => exact .cons acts.step ih

theorem sound (trace : Trace first actions last) (sound : first.Sound) : last.Sound :=
  (sound.run trace.run).1

theorem invariant {Invariant : Stream → Prop}
    (kept : ∀ {before action after}, Invariant before → Acts before action after →
      Invariant after)
    (trace : Trace first actions last) (holds : Invariant first) : Invariant last := by
  induction trace with
  | nil => exact holds
  | cons acts _ ih => exact ih (kept holds acts)

/-- Where every step adds to the end of a store and takes from its front, so does a trace. -/
theorem balance {α : Type} {Invariant : Stream → Prop} (store : Stream → List α)
    (added taken : Action → Option α)
    (kept : ∀ {before action after}, Invariant before → Acts before action after →
      Invariant after)
    (step : ∀ {before action after}, Invariant before → Acts before action after →
      store before ++ (added action).toList = (taken action).toList ++ store after)
    (trace : Trace first actions last) (holds : Invariant first) :
    store first ++ actions.filterMap added = actions.filterMap taken ++ store last := by
  induction trace with
  | nil => exact List.append_nil _
  | @cons first middle last action actions acts _ ih =>
      calc
        store first ++ (action :: actions).filterMap added
        _ = (store first ++ (added action).toList) ++ actions.filterMap added := by
            rw [filterMap_cons_eq, List.append_assoc]
        _ = (taken action).toList ++ (store middle ++ actions.filterMap added) := by
            rw [step holds acts, List.append_assoc]
        _ = (taken action).toList ++ (actions.filterMap taken ++ store last) := by
            rw [ih (kept holds acts)]
        _ = (action :: actions).filterMap taken ++ store last := by
            rw [filterMap_cons_eq, List.append_assoc]

end Trace

theorem Run.trace {events : List Event} (run : Run first events last) :
    ∃ actions : List Action, Trace first actions last ∧ actions.map Action.event = events := by
  induction run with
  | nil => exact ⟨[], .nil, rfl⟩
  | cons step _ ih =>
      obtain ⟨action, acts, label⟩ := step.acts
      obtain ⟨actions, trace, labels⟩ := ih
      exact ⟨action :: actions, .cons acts trace, by rw [List.map_cons, label, labels]⟩

theorem received_map_event (actions : List Action) :
    received (actions.map Action.event) = actions.filterMap Action.received? := by
  rw [received, List.filterMap_map]
  exact congrArg (actions.filterMap ·) (funext Action.value?_event)

end BinaryRecord.Stream
