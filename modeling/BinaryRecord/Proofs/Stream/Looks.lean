import BinaryRecord.Proofs.Stream.Handover

/-!
# Looks

A look for the error of a stream can be put into a trace or left out of it anywhere, and every other
step, its answer included, stays as it is.
-/

set_option autoImplicit false

namespace BinaryRecord.Stream

variable {stream other before after first last : Stream} {action : Action} {actions : List Action}

theorem task_noteError (stream : Stream) : stream.noteError.task = stream.task := by
  rw [noteError_eq]
  rfl

/-- A producer steps alike before and after a look. Until it has fired there is nothing to find. -/
theorem Candid.produce?_noteError (candid : stream.Candid) :
    stream.noteError = stream ∨ stream.noteError.produce? = stream.produce?.map noteError := by
  cases producer : stream.producer with
  | starting | decoding _ | sending _ _ | reporting _ =>
      have working : stream.producer.Working := by rw [producer]; trivial
      exact .inl (noteError_of_handed (candid.silent working))
  | closing =>
      refine .inr ?_
      simp only [produce?, noteError_eq, producer, Option.map_some]
      cases known : stream.error <;>
        simp [handed, unread, known, OneShot.take, OneShot.dropSender]
  | exited =>
      refine .inr ?_
      simp only [produce?, noteError_eq, producer, Option.map_none]

theorem receive?_noteError (stream : Stream) :
    stream.noteError.receive? =
      stream.receive?.map fun (value?, after) => (value?, after.noteError) := by
  unfold receive?
  simp only [noteError_eq]
  split
  next => rfl
  next =>
    split
    next => rfl
    next =>
      cases known : stream.error <;> simp [handed, unread, known, OneShot.take]
    next => rfl

/-- Streams that are the same up to a look at the second. -/
def Alike (stream other : Stream) : Prop :=
  other = stream ∨ other = stream.noteError

theorem Alike.acts (alike : Alike before other) (candid : before.Candid)
    (acts : Acts before action after) : ∃ next, Acts other action next ∧ Alike after next := by
  rcases alike with rfl | rfl
  · exact ⟨after, acts, .inl rfl⟩
  cases acts with
  | produce step =>
      rcases candid.produce?_noteError with same | moved
      · rw [same]
        exact ⟨after, .produce step, .inl rfl⟩
      · rw [step, Option.map_some] at moved
        rw [← task_noteError]
        exact ⟨after.noteError, .produce moved, .inr rfl⟩
  | receive step =>
      have moved := receive?_noteError before
      rw [step, Option.map_some] at moved
      exact ⟨after.noteError, .receive moved, .inr rfl⟩
  | finish step =>
      have moved := receive?_noteError before
      rw [step, Option.map_some] at moved
      exact ⟨after.noteError, .finish moved, .inr rfl⟩
  | look =>
      have again : Acts before.noteError _ _ := .look
      rw [noteError_noteError] at again
      exact ⟨before.noteError, again, .inl rfl⟩

theorem Alike.acts_back {next : Stream} (alike : Alike before other) (candid : before.Candid)
    (acts : Acts other action next) : ∃ after, Acts before action after ∧ Alike after next := by
  rcases alike with rfl | rfl
  · exact ⟨next, acts, .inl rfl⟩
  generalize noted : before.noteError = other at acts
  cases acts with
  | produce step =>
      subst noted
      rw [task_noteError]
      rcases candid.produce?_noteError with same | moved
      · rw [same] at step
        exact ⟨next, .produce step, .inl rfl⟩
      · rw [moved] at step
        obtain ⟨after, made, rfl⟩ := Option.map_eq_some_iff.mp step
        exact ⟨after, .produce made, .inr rfl⟩
  | receive step =>
      subst noted
      rw [receive?_noteError] at step
      obtain ⟨⟨value?, after⟩, made, same⟩ := Option.map_eq_some_iff.mp step
      cases same
      exact ⟨after, .receive made, .inr rfl⟩
  | finish step =>
      subst noted
      rw [receive?_noteError] at step
      obtain ⟨⟨value?, after⟩, made, same⟩ := Option.map_eq_some_iff.mp step
      cases same
      exact ⟨after, .finish made, .inr rfl⟩
  | look =>
      subst noted
      rw [noteError_noteError]
      exact ⟨before.noteError, .look, .inl rfl⟩

theorem Alike.trace (alike : Alike first other) (candid : first.Candid)
    (trace : Trace first actions last) : ∃ final, Trace other actions final ∧ Alike last final := by
  induction trace generalizing other with
  | nil => exact ⟨other, .nil, alike⟩
  | cons acts _ ih =>
      obtain ⟨next, head, middle⟩ := alike.acts candid acts
      obtain ⟨final, tail, ends⟩ := ih middle (candid.acts acts).1
      exact ⟨final, .cons head tail, ends⟩

theorem Alike.trace_back {final : Stream} (alike : Alike first other) (candid : first.Candid)
    (trace : Trace other actions final) : ∃ last, Trace first actions last ∧ Alike last final := by
  induction trace generalizing first with
  | nil => exact ⟨first, .nil, alike⟩
  | cons acts _ ih =>
      obtain ⟨next, head, middle⟩ := alike.acts_back candid acts
      obtain ⟨last, tail, ends⟩ := ih middle (candid.acts head).1
      exact ⟨last, .cons head tail, ends⟩

theorem Alike.results (alike : Alike stream other) (sound : stream.Sound) :
    other.finish = stream.finish ∧ other.collectValues = stream.collectValues := by
  rcases alike with rfl | rfl
  · exact ⟨rfl, rfl⟩
  · obtain ⟨noted, values, error⟩ := sound.noteError
    rw [noted.finish_eq, noted.collectValues_eq, sound.finish_eq, sound.collectValues_eq, values,
      error]
    exact ⟨rfl, rfl⟩

variable {answer : Option UnpackError} {earlier later : List Action}

theorem Trace.insert_look (trace : Trace first (earlier ++ later) last) (candid : first.Candid) :
    ∃ answer final, Trace first (earlier ++ .looked answer :: later) final ∧ Alike last final := by
  obtain ⟨middle, head, tail⟩ := trace.split_append
  have alike : Alike middle middle.noteError := .inr rfl
  obtain ⟨final, rest, ends⟩ := alike.trace (head.candid candid) tail
  exact ⟨_, final, head.append (.cons .look rest), ends⟩

theorem Trace.remove_look (trace : Trace first (earlier ++ .looked answer :: later) last)
    (candid : first.Candid) :
    ∃ final, Trace first (earlier ++ later) final ∧ Alike final last := by
  obtain ⟨middle, head, tail⟩ := trace.split_append
  cases tail with
  | cons acts rest =>
      have alike : Alike middle _ := .inr acts.of_looked.2
      obtain ⟨final, tail, ends⟩ := alike.trace_back (head.candid candid) rest
      exact ⟨final, head.append tail, ends⟩

end BinaryRecord.Stream
