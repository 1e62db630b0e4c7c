/-!
# Bounded queues

A queue between a sender and a receiver that holds a bounded number of items and gives them out in
the order in which they came. A push to a full queue waits until an item is popped, and one push
waits at a time. Either side can disconnect: without a receiver an item comes back at once, and
without a sender a receiver is told so as soon as nothing is held.

A channel relies on a queue for these properties and for nothing else. Main statements:
`BoundedQueue.contents_push` and `BoundedQueue.contents_pop`, by which items are neither lost nor
exchanged, `BoundedQueue.push_eq_waiting_iff`, by which a push waits for a place only, and
`BoundedQueue.pop_eq_disconnected_iff`, by which the end is met behind the last item.
-/

set_option autoImplicit false

namespace BinaryRecord

structure BoundedQueue (α : Type) where
  capacity : Nat
  /-- The items that it holds, the oldest first. -/
  buffered : List α
  /-- The item of the push that waits. -/
  blocked : Option α
  senderAlive : Bool
  receiverAlive : Bool
  deriving DecidableEq, Repr

inductive PushResult (α : Type) where
  | entered
  | waiting
  | disconnected (item : α)
  deriving DecidableEq, Repr

inductive PopResult (α : Type) where
  | item (item : α)
  /-- Nothing is held, and something may still come. -/
  | waiting
  | disconnected
  deriving DecidableEq, Repr

namespace BoundedQueue

variable {α : Type}

def create (capacity : Nat) : BoundedQueue α :=
  { capacity := capacity
    buffered := []
    blocked := none
    senderAlive := true
    receiverAlive := true }

/-- The items on their way, that of a waiting push behind those in the buffer. -/
def contents (queue : BoundedQueue α) : List α :=
  queue.buffered ++ queue.blocked.toList

/-- Pushes an item, while no other push waits. -/
def push (queue : BoundedQueue α) (item : α) : PushResult α × BoundedQueue α :=
  if !queue.receiverAlive then (.disconnected item, queue)
  else if queue.buffered.length < queue.capacity then
    (.entered, { queue with buffered := queue.buffered ++ [item] })
  else
    (.waiting, { queue with blocked := some item })

/-- Pops the oldest item. The place that it leaves goes to the push that waits, if there is one: the
second component is that push's result. -/
def pop (queue : BoundedQueue α) : PopResult α × Option (PushResult α) × BoundedQueue α :=
  match queue.buffered, queue.blocked with
  | item :: later, none => (.item item, none, { queue with buffered := later })
  | item :: later, some admitted =>
      (.item item, some .entered,
        { queue with buffered := later ++ [admitted], blocked := none })
  | [], _ => (if queue.senderAlive then .waiting else .disconnected, none, queue)

/-- Disconnects the sender. A push that waits goes on waiting. -/
def disconnectSender (queue : BoundedQueue α) : BoundedQueue α :=
  { queue with senderAlive := false }

/-- Disconnects the receiver and drops the items in the buffer. The item of the push that waits, if
there is one, comes back: the first component is that push's result. -/
def disconnectReceiver (queue : BoundedQueue α) : Option (PushResult α) × BoundedQueue α :=
  (queue.blocked.map .disconnected,
    { queue with buffered := [], blocked := none, receiverAlive := false })

variable {queue : BoundedQueue α} {item : α}

theorem push_of_space (receiverAlive : queue.receiverAlive = true)
    (space : queue.buffered.length < queue.capacity) (item : α) :
    queue.push item = (.entered, { queue with buffered := queue.buffered ++ [item] }) := by
  simp [push, receiverAlive, space]

theorem push_of_full (receiverAlive : queue.receiverAlive = true)
    (full : queue.capacity ≤ queue.buffered.length) (item : α) :
    queue.push item = (.waiting, { queue with blocked := some item }) := by
  simp [push, receiverAlive, Nat.not_lt.mpr full]

theorem push_of_disconnected (dropped : queue.receiverAlive = false) (item : α) :
    queue.push item = (.disconnected item, queue) := by
  simp [push, dropped]

theorem of_push_entered {after : BoundedQueue α} (pushed : queue.push item = (.entered, after)) :
    queue.receiverAlive = true ∧ queue.buffered.length < queue.capacity ∧
      after = { queue with buffered := queue.buffered ++ [item] } := by
  cases receiver : queue.receiverAlive with
  | false =>
      rw [push_of_disconnected receiver] at pushed
      cases pushed
  | true =>
      by_cases space : queue.buffered.length < queue.capacity
      · rw [push_of_space receiver space] at pushed
        cases pushed
        exact ⟨rfl, space, by rw [receiver]⟩
      · rw [push_of_full receiver (Nat.le_of_not_lt space)] at pushed
        cases pushed

theorem pop_of_cons {later : List α} (buffered : queue.buffered = item :: later)
    (unblocked : queue.blocked = none) :
    queue.pop = (.item item, none, { queue with buffered := later }) := by
  simp [pop, buffered, unblocked]

theorem pop_of_blocked {later : List α} {admitted : α} (buffered : queue.buffered = item :: later)
    (blocked : queue.blocked = some admitted) :
    queue.pop =
      (.item item, some .entered,
        { queue with buffered := later ++ [admitted], blocked := none }) := by
  simp [pop, buffered, blocked]

theorem pop_of_nil (buffered : queue.buffered = []) :
    queue.pop = (if queue.senderAlive then .waiting else .disconnected, none, queue) := by
  simp [pop, buffered]

theorem contents_disconnectSender (queue : BoundedQueue α) :
    queue.disconnectSender.contents = queue.contents :=
  rfl

/-- First in: an item goes behind those on their way. -/
theorem contents_push (receiverAlive : queue.receiverAlive = true)
    (unblocked : queue.blocked = none) (item : α) :
    (queue.push item).2.contents = queue.contents ++ [item] := by
  by_cases space : queue.buffered.length < queue.capacity
  · simp [push_of_space receiverAlive space, contents, unblocked]
  · simp [push_of_full receiverAlive (Nat.le_of_not_lt space), contents, unblocked]

/-- First out: an item that is popped stood in front of all others. -/
theorem contents_pop (popped : queue.pop.1 = .item item) :
    queue.contents = item :: queue.pop.2.2.contents := by
  cases buffered : queue.buffered with
  | nil =>
      rw [pop_of_nil buffered] at popped
      cases alive : queue.senderAlive <;> simp [alive] at popped
  | cons first later =>
      cases blocked : queue.blocked with
      | none =>
          rw [pop_of_cons buffered blocked] at popped ⊢
          cases popped
          simp [contents, buffered, blocked]
      | some admitted =>
          rw [pop_of_blocked buffered blocked] at popped ⊢
          cases popped
          simp [contents, buffered, blocked]

theorem push_eq_waiting_iff (item : α) :
    (queue.push item).1 = .waiting ↔
      queue.receiverAlive = true ∧ queue.capacity ≤ queue.buffered.length := by
  cases receiver : queue.receiverAlive with
  | false => simp [push_of_disconnected receiver]
  | true =>
      by_cases space : queue.buffered.length < queue.capacity
      · simp [push_of_space receiver space, Nat.not_le.mpr space]
      · have full := Nat.le_of_not_lt space
        simp [push_of_full receiver full, full]

theorem pop_fst (queue : BoundedQueue α) :
    queue.pop.1 =
      match queue.buffered with
      | first :: _ => .item first
      | [] => if queue.senderAlive then .waiting else .disconnected := by
  cases buffered : queue.buffered with
  | nil => rw [pop_of_nil buffered]
  | cons first later =>
      cases blocked : queue.blocked with
      | none => rw [pop_of_cons buffered blocked]
      | some admitted => rw [pop_of_blocked buffered blocked]

theorem pop_eq_disconnected_iff :
    queue.pop.1 = .disconnected ↔ queue.buffered = [] ∧ queue.senderAlive = false := by
  rw [pop_fst]
  cases queue.buffered <;> cases queue.senderAlive <;> simp

theorem pop_eq_waiting_iff :
    queue.pop.1 = .waiting ↔ queue.buffered = [] ∧ queue.senderAlive = true := by
  rw [pop_fst]
  cases queue.buffered <;> cases queue.senderAlive <;> simp

end BoundedQueue

end BinaryRecord
